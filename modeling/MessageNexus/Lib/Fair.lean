/-
  File:      MessageNexus/Lib/Fair.lean
  Subject:   WHAT HAPPENS IN EVERY FAIR RUN. A pool of threads (`Pool.lean`) runs for ever, or comes
             to rest; a scheduler is fair if no thread that can go on is kept at its place for ever.

  * `Run` -- at every time one step of the pool, or nothing;
  * `Readiness` -- which operations complete by themselves, whatever the world outside does. All
    others may wait for ever;
  * `Fair` -- no thread stays at one place where it can go on, and threads that may start do;
  * `Passes` -- a thread that stands before this operation gets over it; `Fair.passes` -- where
    the operation is ready from some time on; `Run.performs_or_stays` -- or it stands there for
    ever;
  * `Run.comes_to` -- a program all of whose operations are passed comes to its end, and one that
    passes its operations as long as `B` holds comes to where `B` does not;
  * `Fair.acquires` -- a thread that waits for a mutex gets it, where every holder leaves its
    section and the mutex is taken only finitely often: no fairness of the mutex itself is needed.
-/
import Mathlib.Algebra.Order.BigOperators.Group.Finset
import MessageNexus.Lib.Pool

namespace Interact

variable {Op : Type} {Ans : Op → Type} {L R σ : Type}

/-! ## 1. Runs -/

/-- A run from the idle pool over `s₀`. -/
structure Run (S : System Op Ans L R σ) (s₀ : σ) where
  pool : Nat → Pool Op Ans L R σ
  begins : pool 0 = .idle s₀
  goes : ∀ n, Step S (pool n) (pool (n + 1)) ∨ pool (n + 1) = pool n

section Runs

variable {S : System Op Ans L R σ} {s₀ : σ}

/-- What a later pool is reached from. -/
theorem Run.later (ρ : Run S s₀) {n m : Nat} (h : n ≤ m) : Reach S (ρ.pool n) (ρ.pool m) := by
  induction m, h using Nat.le_induction with
  | base => exact .refl
  | succ m _ ih =>
      rcases ρ.goes m with hs | he
      · exact ih.tail hs
      · rwa [he]

/-- A fact of the shared state that no step undoes. -/
theorem Run.stays (ρ : Run S s₀) {F : σ → Prop}
    (hact : ∀ s t e s', S.sem s t e s' → F s → F s')
    (hstart : ∀ s t p s', S.start s t p s' → F s → F s') (hhalt : ∀ s s', S.halt s s' → F s → F s')
    {n m : Nat} (hnm : n ≤ m) (h : F (ρ.pool n).shared) : F (ρ.pool m).shared := by
  induction m, hnm using Nat.le_induction with
  | base => exact h
  | succ m _ ih =>
      rcases ρ.goes m with hs | he
      · generalize ρ.pool (m + 1) = c' at hs
        cases hs with
        | act t th o k a s' ht hl hr hs => exact hact _ _ _ _ hs ih
        | again t th l ht hl hr => exact ih
        | start t p s' ht hs => exact hstart _ _ _ _ hs ih
        | halt s' hs => exact hhalt _ _ hs ih
      · rwa [he]

theorem Run.reach (ρ : Run S s₀) (n : Nat) : Reach S (.idle s₀) (ρ.pool n) := by
  have h := ρ.later (Nat.zero_le n)
  rwa [ρ.begins] at h

/-- A thread stays, and goes on from where it was. -/
theorem Run.thread_later (ρ : Run S s₀) {n m : Nat} (hnm : n ≤ m) {t : Nat} {th : Thread Op Ans L R}
    (ht : (ρ.pool n).threads t = some th) :
    ∃ th', (ρ.pool m).threads t = some th' ∧ th.hist <+: th'.hist := by
  obtain ⟨th', es, ht', hhist, _⟩ := (ρ.later hnm).thread_trace ht
  exact ⟨th', ht', es, hhist.symm⟩

/-- A thread that is over stays so. -/
theorem Run.over_later (ρ : Run S s₀) {n m : Nat} (hnm : n ≤ m) {t : Nat} {th : Thread Op Ans L R}
    {r : R} (ht : (ρ.pool n).threads t = some th) (hr : th.rest = .ret (.inr r)) :
    ∃ th', (ρ.pool m).threads t = some th' ∧ th'.rest = .ret (.inr r) := by
  obtain ⟨th', es, ht', _, htrace⟩ := (ρ.later hnm).thread_trace ht
  rw [hr] at htrace
  generalize hrest : th'.rest = q at htrace
  cases htrace
  exact ⟨th', ht', hrest⟩

/-- A run that rests may go on for one step. -/
theorem Run.extend (ρ : Run S s₀) {c d : Pool Op Ans L R σ} {n : Nat}
    (hrest : ∀ m, n ≤ m → ρ.pool m = c) (hs : Step S c d) :
    ∃ ρ' : Run S s₀, (∀ m, m ≤ n → ρ'.pool m = ρ.pool m) ∧ ∀ m, n + 1 ≤ m → ρ'.pool m = d := by
  refine ⟨⟨fun m => if m ≤ n then ρ.pool m else d, ?_, fun m => ?_⟩, fun m hm => if_pos hm,
    fun m hm => if_neg (show ¬ m ≤ n by omega)⟩
  · simp [ρ.begins]
  · rcases Nat.lt_trichotomy m n with hlt | rfl | hgt
    · simp only [if_pos hlt.le, if_pos (show m + 1 ≤ n from hlt)]
      exact ρ.goes m
    · simp only [le_refl, if_true, if_neg (Nat.not_succ_le_self m), hrest m le_rfl]
      exact Or.inl hs
    · simp only [if_neg (Nat.not_le.mpr hgt), if_neg (show ¬ m + 1 ≤ n by omega)]
      exact Or.inr trivial

/-- A run that passes through `c` and comes to rest at `d`. -/
theorem Run.through {c d : Pool Op Ans L R σ} (hc : Reach S (.idle s₀) c) (hd : Reach S c d) :
    ∃ (ρ : Run S s₀) (k n : Nat), k ≤ n ∧ ρ.pool k = c ∧ ∀ m, n ≤ m → ρ.pool m = d := by
  induction hd with
  | refl =>
      induction hc with
      | refl => exact ⟨⟨fun _ => .idle s₀, rfl, fun _ => Or.inr rfl⟩, 0, 0, le_rfl, rfl, fun _ _ => rfl⟩
      | tail _ hs ih =>
          obtain ⟨ρ, _, n, _, _, hrest⟩ := ih
          obtain ⟨ρ', _, hrest'⟩ := ρ.extend hrest hs
          exact ⟨ρ', n + 1, n + 1, le_rfl, hrest' _ le_rfl, hrest'⟩
  | tail _ hs ih =>
      obtain ⟨ρ, k, n, hkn, hk, hrest⟩ := ih
      obtain ⟨ρ', hsame, hrest'⟩ := ρ.extend hrest hs
      exact ⟨ρ', k, n + 1, hkn.trans n.le_succ, (hsame k hkn).trans hk, hrest'⟩

end Runs

/-! ## 2. Fairness -/

/-- The operations of a thread that complete by themselves, where some answer is possible. -/
structure Readiness (S : System Op Ans L R σ) where
  ready : σ → Nat → Op → Prop
  answered : ∀ s t o, ready s t o → ∃ a s', S.sem s t ⟨o, a⟩ s'

/-- The thread can go on: its operation is ready, or its loop goes round. -/
def Readiness.Can {S : System Op Ans L R σ} (w : Readiness S) (c : Pool Op Ans L R σ) (t : Nat) :
    Prop :=
  ∃ th, c.threads t = some th ∧ th.live = true ∧
    ((∃ o k, th.rest = .ask o k ∧ w.ready c.shared t o) ∨ ∃ l, th.rest = .ret (.inl l))

/-- A thread that can go on has a step, whatever the others do. -/
theorem Readiness.Can.step {S : System Op Ans L R σ} {w : Readiness S} {c : Pool Op Ans L R σ}
    {t : Nat} (h : w.Can c t) : ∃ c', Step S c c' := by
  obtain ⟨th, ht, hl, ⟨o, k, hr, hready⟩ | ⟨l, hr⟩⟩ := h
  · obtain ⟨a, s', hs⟩ := w.answered _ _ _ hready
    exact ⟨_, .act c t th o k a s' ht hl hr hs⟩
  · exact ⟨_, .again c t th l ht hl hr⟩

/-- No thread that can go on stays where it is for ever, and no thread that may start for ever
    fails to. -/
structure Fair {S : System Op Ans L R σ} {s₀ : σ} (w : Readiness S) (ρ : Run S s₀) : Prop where
  moves : ∀ t n, ∃ m, n ≤ m ∧
    (¬ w.Can (ρ.pool m) t ∨ (ρ.pool m).threads t ≠ (ρ.pool n).threads t)
  starts : ∀ t n, ∃ m, n ≤ m ∧
    ((ρ.pool m).threads t ≠ none ∨ ∀ p s', ¬ S.start (ρ.pool m).shared t p s')

/-- A run that rests where no thread can go on and none may start is fair. -/
theorem Fair.of_rest {S : System Op Ans L R σ} {s₀ : σ} {w : Readiness S} {ρ : Run S s₀} {n : Nat}
    {c : Pool Op Ans L R σ} (hrest : ∀ m, n ≤ m → ρ.pool m = c) (hstuck : ∀ t, ¬ w.Can c t)
    (hstarts : ∀ t, c.threads t ≠ none ∨ ∀ p s', ¬ S.start c.shared t p s') : Fair w ρ where
  moves t k := by
    refine ⟨max n k, le_max_right _ _, Or.inl ?_⟩
    rw [hrest _ (le_max_left _ _)]
    exact hstuck t
  starts t k := by
    refine ⟨max n k, le_max_right _ _, ?_⟩
    rw [hrest _ (le_max_left _ _)]
    exact hstarts t

section Progress

variable {S : System Op Ans L R σ} {s₀ : σ} {w : Readiness S} {ρ : Run S s₀}

/-- A thread that may start as long as it has not does so. -/
theorem Fair.thread_starts (hf : Fair w ρ) {t n : Nat}
    (hmay : ∀ m, n ≤ m → ∃ p s', S.start (ρ.pool m).shared t p s') :
    ∃ m th, n ≤ m ∧ (ρ.pool m).threads t = some th := by
  obtain ⟨m, hm, hthere | hnot⟩ := hf.starts t n
  · obtain ⟨th, ht⟩ := Option.ne_none_iff_exists'.mp hthere
    exact ⟨m, th, hm, ht⟩
  · obtain ⟨p, s', hs⟩ := hmay m hm
    exact absurd hs (hnot p s')

/-- A step after which a thread is no longer the same was its own: its operation, or the next round
    of its loop. -/
theorem Step.moved (hhalt : ∀ s s', ¬ S.halt s s') {c c' : Pool Op Ans L R σ} (hs : Step S c c')
    {t : Nat} {th : Thread Op Ans L R} (ht : c.threads t = some th)
    (hne : c'.threads t ≠ some th) :
    (∃ o k a, th.rest = .ask o k ∧ S.sem c.shared t ⟨o, a⟩ c'.shared ∧
      c'.threads t = some { th with hist := th.hist ++ [⟨o, a⟩], rest := k a }) ∨
    ∃ l, th.rest = .ret (.inl l) ∧ c'.shared = c.shared ∧
      c'.threads t = some { th with rest := S.body l } := by
  cases hs with
  | act u thu o k a s' hu hl hr hs =>
      by_cases htu : t = u
      · subst htu
        rw [hu] at ht
        cases ht
        exact Or.inl ⟨o, k, a, hr, hs, Pool.put_self _ _ _ _⟩
      · exact absurd (by rw [Pool.put_other _ _ _ htu]; exact ht) hne
  | again u thu l hu hl hr =>
      by_cases htu : t = u
      · subst htu
        rw [hu] at ht
        cases ht
        exact Or.inr ⟨l, hr, rfl, Pool.put_self _ _ _ _⟩
      · exact absurd (by rw [Pool.put_other _ _ _ htu]; exact ht) hne
  | start u p s' hu hs =>
      have htu : t ≠ u := by
        intro he
        rw [he, hu] at ht
        cases ht
      exact absurd (by rw [Pool.put_other _ _ _ htu]; exact ht) hne
  | halt s' hs => exact absurd hs (hhalt _ _)

/-- A thread is at its place until a step of the run takes it away. -/
theorem Run.leaves (ρ : Run S s₀) {t n m : Nat} {th : Thread Op Ans L R} (hnm : n ≤ m)
    (ht : (ρ.pool n).threads t = some th) (hne : (ρ.pool m).threads t ≠ some th) :
    ∃ k, n ≤ k ∧ k < m ∧ (ρ.pool k).threads t = some th ∧ Step S (ρ.pool k) (ρ.pool (k + 1)) ∧
      (ρ.pool (k + 1)).threads t ≠ some th := by
  induction m, hnm using Nat.le_induction with
  | base => exact absurd ht hne
  | succ m hm ih =>
      by_cases hat : (ρ.pool m).threads t = some th
      · rcases ρ.goes m with hs | he
        · exact ⟨m, hm, m.lt_succ_self, hat, hs, hne⟩
        · rw [he] at hne
          exact absurd hat hne
      · obtain ⟨k, hk, hkm, hrest⟩ := ih hat
        exact ⟨k, hk, hkm.trans m.lt_succ_self, hrest⟩

section Fairness

variable (hhalt : ∀ s s', ¬ S.halt s s') (hf : Fair w ρ)

include hhalt hf

/-- A thread that can go on as long as it is at its place goes on. -/
theorem Fair.goes {t n : Nat} {th : Thread Op Ans L R} (ht : (ρ.pool n).threads t = some th)
    (hcan : ∀ m, n ≤ m → (ρ.pool m).threads t = some th →
      (∃ o k, th.rest = .ask o k ∧ w.ready (ρ.pool m).shared t o) ∨ ∃ l, th.rest = .ret (.inl l)) :
    ∃ m, n ≤ m ∧ (ρ.pool m).threads t = some th ∧ Step S (ρ.pool m) (ρ.pool (m + 1)) ∧
      (ρ.pool (m + 1)).threads t ≠ some th := by
  obtain ⟨m, hm, hmove⟩ := hf.moves t n
  have hne : (ρ.pool m).threads t ≠ some th := by
    intro he
    rcases hmove with hno | hne
    · exact hno ⟨th, he, (ρ.reach m).live hhalt t th he, hcan m hm he⟩
    · exact hne (he.trans ht.symm)
  obtain ⟨k, hk, _, hrest⟩ := ρ.leaves hm ht hne
  exact ⟨k, hk, hrest⟩

/-- A loop goes round. -/
theorem Fair.enters {t n : Nat} {th : Thread Op Ans L R} {l : L}
    (ht : (ρ.pool n).threads t = some th) (hr : th.rest = .ret (.inl l)) :
    ∃ m, n ≤ m ∧ (ρ.pool m).threads t = some { th with rest := S.body l } := by
  obtain ⟨m, hm, hat, hs, hne⟩ := hf.goes hhalt ht fun _ _ _ => Or.inr ⟨l, hr⟩
  rcases hs.moved hhalt hat hne with ⟨o, k, a, hask, _⟩ | ⟨l', hl, _, hnow⟩
  · rw [hr] at hask
    cases hask
  · rw [hr] at hl
    cases hl
    exact ⟨m + 1, hm.trans m.le_succ, hnow⟩

end Fairness

/-! ## 3. Getting over operations -/

/-- From the time `n₀` on, thread `t` gets over the operation `o` wherever it stands before it. -/
def Passes (ρ : Run S s₀) (t n₀ : Nat) (o : Op) : Prop :=
  ∀ n th k, n₀ ≤ n → (ρ.pool n).threads t = some th → th.rest = .ask o k →
    ∃ m a, n ≤ m ∧ S.sem (ρ.pool m).shared t ⟨o, a⟩ (ρ.pool (m + 1)).shared ∧
      (ρ.pool (m + 1)).threads t = some { th with hist := th.hist ++ [⟨o, a⟩], rest := k a }

theorem Passes.mono {t n₀ n₁ : Nat} {o : Op} (h : Passes ρ t n₀ o) (hn : n₀ ≤ n₁) :
    Passes ρ t n₁ o := fun n th k hle => h n th k (hn.trans hle)

/-- A thread that moves away from an operation has performed it. -/
theorem Run.performs (ρ : Run S s₀) (hhalt : ∀ s s', ¬ S.halt s s') {t n m : Nat}
    {th : Thread Op Ans L R} {o : Op} {k : Ans o → Prog Op Ans (L ⊕ R)} (hnm : n ≤ m)
    (ht : (ρ.pool n).threads t = some th) (hr : th.rest = .ask o k)
    (hne : (ρ.pool m).threads t ≠ some th) :
    ∃ m a, n ≤ m ∧ S.sem (ρ.pool m).shared t ⟨o, a⟩ (ρ.pool (m + 1)).shared ∧
      (ρ.pool (m + 1)).threads t = some { th with hist := th.hist ++ [⟨o, a⟩], rest := k a } := by
  obtain ⟨j, hj, _, hat, hs, hmoved⟩ := ρ.leaves hnm ht hne
  rcases hs.moved hhalt hat hmoved with ⟨o', k', a, hask, hsem, hnow⟩ | ⟨l, hl, _⟩
  · rw [hr] at hask
    cases hask
    exact ⟨j, a, hj, hsem, hnow⟩
  · rw [hr] at hl
    cases hl

/-- A thread that stands before an operation performs it, or stands there for ever. -/
theorem Run.performs_or_stays (ρ : Run S s₀) (hhalt : ∀ s s', ¬ S.halt s s') {t n : Nat}
    {th : Thread Op Ans L R} {o : Op} {k : Ans o → Prog Op Ans (L ⊕ R)}
    (ht : (ρ.pool n).threads t = some th) (hr : th.rest = .ask o k) :
    (∃ m a, n ≤ m ∧ S.sem (ρ.pool m).shared t ⟨o, a⟩ (ρ.pool (m + 1)).shared ∧
      (ρ.pool (m + 1)).threads t = some { th with hist := th.hist ++ [⟨o, a⟩], rest := k a }) ∨
    ∀ m, n ≤ m → (ρ.pool m).threads t = some th := by
  by_cases hstays : ∀ m, n ≤ m → (ρ.pool m).threads t = some th
  · exact Or.inr hstays
  · push Not at hstays
    obtain ⟨m, hm, hne⟩ := hstays
    exact Or.inl (ρ.performs hhalt hm ht hr hne)

/-- An operation that is ready from some time on, wherever the thread stands before it, is passed. -/
theorem Fair.passes (hhalt : ∀ s s', ¬ S.halt s s') (hf : Fair w ρ) {t n₀ : Nat} {o : Op}
    (hready : ∀ n th k, n₀ ≤ n → (ρ.pool n).threads t = some th → th.rest = .ask o k →
      ∃ n₁, ∀ m, n₁ ≤ m → w.ready (ρ.pool m).shared t o) : Passes ρ t n₀ o := by
  intro n th k hn ht hr
  obtain ⟨n₁, hn₁⟩ := hready n th k hn ht hr
  by_cases hat : (ρ.pool (max n n₁)).threads t = some th
  · obtain ⟨m, hm, _, _, hne⟩ := hf.goes hhalt hat fun m hm _ =>
      Or.inl ⟨o, k, hr, hn₁ m ((le_max_right _ _).trans hm)⟩
    exact ρ.performs hhalt (((le_max_left _ _).trans hm).trans m.le_succ) ht hr hne
  · exact ρ.performs hhalt (le_max_left _ _) ht hr hat

/-- An operation that is ready from some time on is passed. -/
theorem Fair.passes_ready (hhalt : ∀ s s', ¬ S.halt s s') (hf : Fair w ρ) {t n₀ : Nat} {o : Op}
    (hready : ∀ m, n₀ ≤ m → w.ready (ρ.pool m).shared t o) : Passes ρ t n₀ o :=
  hf.passes hhalt fun _ _ _ _ _ _ => ⟨n₀, hready⟩

section Programs

variable {G : List (Event Op Ans) → Op → Prop} {Q : L ⊕ R → List (Event Op Ans) → Prop}

/-- A program that passes its operations as long as `B` holds of its history comes to a place where
    `B` does not hold, or to its end. -/
theorem Run.comes_to (ρ : Run S s₀) {B : List (Event Op Ans) → Prop} {t n₀ n : Nat}
    (hpass : ∀ h o, B h → G h o → Passes ρ t n₀ o) (hn : n₀ ≤ n) {th : Thread Op Ans L R}
    (ht : (ρ.pool n).threads t = some th) (hp : Holds anyAnswer G Q th.rest th.hist) :
    ∃ m th', n ≤ m ∧ (ρ.pool m).threads t = some th' ∧ th.hist <+: th'.hist ∧
      (B th'.hist → ∃ r, th'.rest = .ret r ∧ Q r th'.hist) := by
  obtain ⟨start, h, p, live⟩ := th
  induction p generalizing n h with
  | ret r => exact ⟨n, _, le_rfl, ht, List.prefix_rfl, fun _ => ⟨r, rfl, hp⟩⟩
  | ask o k ih =>
      by_cases hB : B h
      · obtain ⟨m, a, hm, hsem, hnow⟩ := hpass h o hB hp.1 n _ k hn ht rfl
        have hlater : n ≤ m + 1 := hm.trans m.le_succ
        obtain ⟨m', th', hm', ht', hpre, hend⟩ :=
          ih a (hn.trans hlater) _ hnow (hp.2 a trivial)
        exact ⟨m', th', hlater.trans hm', ht', (List.prefix_append _ _).trans hpre, hend⟩
      · exact ⟨n, _, le_rfl, ht, List.prefix_rfl, fun h => absurd h hB⟩

end Programs

/-! ## 4. Mutexes -/

/-- What only decreases settles. -/
theorem settles {f : Nat → Nat} {n : Nat} (hdown : ∀ m, n ≤ m → f (m + 1) ≤ f m) :
    ∃ n₁, n ≤ n₁ ∧ ∀ m, n₁ ≤ m → f m = f n₁ := by
  classical
  have hsome : ∃ b m, n ≤ m ∧ f m = b := ⟨f n, n, le_rfl, rfl⟩
  obtain ⟨n₁, hn₁, hleast⟩ := Nat.find_spec hsome
  refine ⟨n₁, hn₁, fun m hm => ?_⟩
  induction m, hm using Nat.le_induction with
  | base => rfl
  | succ m hm ih =>
      refine le_antisymm ((hdown m (hn₁.trans hm)).trans ih.le) ?_
      rw [hleast]
      exact Nat.find_min' hsome ⟨m + 1, (hn₁.trans hm).trans m.le_succ, rfl⟩

/-- A mutex that is taken only while a budget lasts is not taken any more from some time on. -/
theorem Run.untaken (ρ : Run S s₀) {holder : σ → Option Nat} {budget : Nat → Nat} {n₀ : Nat}
    (hkept : ∀ n, n₀ ≤ n → budget (n + 1) ≤ budget n)
    (htaken : ∀ n u, n₀ ≤ n → holder (ρ.pool n).shared ≠ some u →
      holder (ρ.pool (n + 1)).shared = some u → budget (n + 1) < budget n) :
    ∃ n₁, n₀ ≤ n₁ ∧ ∀ n u, n₁ ≤ n → holder (ρ.pool n).shared ≠ some u →
      holder (ρ.pool (n + 1)).shared ≠ some u := by
  obtain ⟨n₁, hn₁, hsettled⟩ := settles hkept
  refine ⟨n₁, hn₁, fun n u hn hne htake => ?_⟩
  have hless := htaken n u (hn₁.trans hn) hne htake
  rw [hsettled n hn, hsettled (n + 1) (hn.trans n.le_succ)] at hless
  exact absurd hless (Nat.lt_irrefl _)

/-- A thread that waits for a mutex that is ready while nobody holds it gets it, where every holder
    gives it back and every taking of it uses up some of a budget. -/
theorem Fair.acquires (hhalt : ∀ s s', ¬ S.halt s s') (hf : Fair w ρ) {holder : σ → Option Nat}
    {t n₀ : Nat} {o : Op} (hfree : ∀ s, holder s = none → w.ready s t o)
    (hends : ∀ n u, n₀ ≤ n → holder (ρ.pool n).shared = some u →
      ∃ m, n ≤ m ∧ holder (ρ.pool m).shared ≠ some u)
    (budget : Nat → Nat) (hkept : ∀ n, n₀ ≤ n → budget (n + 1) ≤ budget n)
    (htaken : ∀ n u, n₀ ≤ n → holder (ρ.pool n).shared ≠ some u →
      holder (ρ.pool (n + 1)).shared = some u → budget (n + 1) < budget n) :
    Passes ρ t n₀ o := by
  intro n th k hn ht hr
  obtain ⟨n₁, hn₁, huntaken⟩ := ρ.untaken hkept htaken
  -- A mutex that a thread does not hold from then on is not given to it again.
  have haway : ∀ u m m', n₁ ≤ m → m ≤ m' → holder (ρ.pool m).shared ≠ some u →
      holder (ρ.pool m').shared ≠ some u := by
    intro u m m' hm hmm' hne
    induction m', hmm' using Nat.le_induction with
    | base => exact hne
    | succ m' hmm' ih => exact huntaken m' u (hm.trans hmm') ih
  -- So it is free from some time on.
  obtain ⟨n₂, hn₂, hnone⟩ : ∃ n₂, max n n₁ ≤ n₂ ∧
      ∀ m, n₂ ≤ m → holder (ρ.pool m).shared = none := by
    have hstart : n₁ ≤ max n n₁ := le_max_right _ _
    cases hh : holder (ρ.pool (max n n₁)).shared with
    | none =>
        refine ⟨_, le_rfl, fun m hm => Option.eq_none_iff_forall_ne_some.mpr fun u => ?_⟩
        exact haway u _ m hstart hm (by rw [hh]; nofun)
    | some u =>
        obtain ⟨m₁, hm₁, hgone⟩ := hends _ u (hn₁.trans hstart) hh
        refine ⟨m₁, hm₁, fun m hm => Option.eq_none_iff_forall_ne_some.mpr fun v => ?_⟩
        by_cases huv : v = u
        · subst huv
          exact haway v m₁ m (hstart.trans hm₁) hm hgone
        · refine haway v _ m hstart (hm₁.trans hm) ?_
          rw [hh]
          exact fun he => huv (Option.some.inj he).symm
  by_cases hat : (ρ.pool n₂).threads t = some th
  · obtain ⟨m, hm, _, _, hne⟩ := hf.goes hhalt hat fun m hm _ =>
      Or.inl ⟨o, k, hr, hfree _ (hnone m hm)⟩
    obtain ⟨j, a, hj, hrest⟩ := ρ.performs hhalt (hm.trans m.le_succ) hat hr hne
    exact ⟨j, a, ((le_max_left _ _).trans hn₂).trans hj, hrest⟩
  · exact ρ.performs hhalt ((le_max_left _ _).trans hn₂) ht hr hat

/-- How often the threads below `N` have taken the mutex. -/
def Pool.takings (takes : Event Op Ans → Bool) (N : Nat) (c : Pool Op Ans L R σ) : Nat :=
  ∑ t ∈ Finset.range N, (c.hist t).countP takes

/-- Histories only grow. -/
theorem Run.hist_grows (ρ : Run S s₀) (n t : Nat) :
    (ρ.pool n).hist t <+: (ρ.pool (n + 1)).hist t := by
  rcases ρ.goes n with hs | he
  · cases ht : (ρ.pool n).threads t with
    | none =>
        rw [Pool.hist, ht]
        exact List.nil_prefix
    | some th =>
        obtain ⟨th', ht', hpre⟩ := hs.thread_grows ht
        rwa [Pool.hist_of ht, Pool.hist_of ht']
  · rw [he]

/-- The same where finitely many threads take the mutex, each of them a bounded number of times. -/
theorem Fair.acquires_bounded (hhalt : ∀ s s', ¬ S.halt s s') (hf : Fair w ρ)
    (holder : σ → Option Nat) (takes : Event Op Ans → Bool) {t n₀ : Nat} {o : Op} (hfree : ∀ s, holder s = none → w.ready s t o)
    (hends : ∀ n u, n₀ ≤ n → holder (ρ.pool n).shared = some u →
      ∃ m, n ≤ m ∧ holder (ρ.pool m).shared ≠ some u)
    {K N : Nat}
    (hbound : ∀ n u, ((ρ.pool n).hist u).countP takes ≤ K)
    (htaken : ∀ n u, n₀ ≤ n → holder (ρ.pool n).shared ≠ some u →
      holder (ρ.pool (n + 1)).shared = some u → ∃ v e, v < N ∧ takes e = true ∧
        (ρ.pool (n + 1)).hist v = (ρ.pool n).hist v ++ [e]) :
    Passes ρ t n₀ o := by
  have hgrows : ∀ n u, ((ρ.pool n).hist u).countP takes ≤ ((ρ.pool (n + 1)).hist u).countP takes :=
    fun n u => (ρ.hist_grows n u).sublist.countP_le
  have hmono : ∀ n, (ρ.pool n).takings takes N ≤ (ρ.pool (n + 1)).takings takes N :=
    fun n => Finset.sum_le_sum fun u _ => hgrows n u
  have hmost : ∀ n, (ρ.pool n).takings takes N ≤ N * K := by
    intro n
    have hsum := Finset.sum_le_sum fun u (_ : u ∈ Finset.range N) => hbound n u
    simpa [Pool.takings] using hsum
  refine hf.acquires hhalt hfree hends (fun n => N * K - (ρ.pool n).takings takes N)
    (fun n _ => Nat.sub_le_sub_left (hmono n) _) fun n u hn hne htake => ?_
  obtain ⟨v, e, hv, he, hhist⟩ := htaken n u hn hne htake
  have hless : (ρ.pool n).takings takes N < (ρ.pool (n + 1)).takings takes N := by
    refine Finset.sum_lt_sum (fun u _ => hgrows n u) ⟨v, Finset.mem_range.mpr hv, ?_⟩
    rw [hhist, List.countP_append, List.countP_singleton, if_pos he]
    exact Nat.lt_succ_self _
  exact Nat.sub_lt_sub_left (hless.trans_le (hmost (n + 1))) hless

end Progress

end Interact
