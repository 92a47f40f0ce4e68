/-
  File:      MessageNexus/Lib/Pool.lean
  Subject:   THREADS OVER A SHARED STATE. Any number of programs (`Prog.lean`) run interleaved,
             one operation at a time, over one shared state.

  * `System` -- the rounds of the loops, what an operation of a thread may answer and do to the
    shared state, which threads may start, and how the whole process may be halted;
  * `Step`, `Reach` -- one step of one thread (or a start, or a halt), and the pools that any
    interleaving of such steps reaches;
  * `Reach.trace` -- the history of every thread is a trace of the program it started with, so
    what `Holds` says of the program is true of the thread in every interleaving;
    `Reach.thread_trace` -- and from any pool on, one of what it has left;
  * `Reach.holds`, `Reach.issued` -- the same with the logic applied: the rest of every thread
    keeps its condition, and every operation of a thread was issued in its place;
  * `Reach.invariant` -- an invariant of the pool that every step keeps, where the step may use
    what is known of both reachable pools;
  * `Reach.logged` -- the same for an invariant of the shared state and the histories alone;
    `Reach.told` -- and for a fact that an event tells.
-/
import Mathlib.Logic.Relation
import Mathlib.Logic.Function.Basic
import MessageNexus.Lib.Prog

namespace Interact

variable {Op : Type} {Ans : Op → Type} {L R σ : Type}

/-- A thread: the program it started with, what it did so far, what it has left, and whether its
    process still runs. -/
structure Thread (Op : Type) (Ans : Op → Type) (L R : Type) where
  start : Prog Op Ans (L ⊕ R)
  hist : List (Event Op Ans)
  rest : Prog Op Ans (L ⊕ R)
  live : Bool

/-- The thread that starts with `p`. -/
def Thread.fresh (p : Prog Op Ans (L ⊕ R)) : Thread Op Ans L R := ⟨p, [], p, true⟩

/-- A system of threads over the shared state `σ`. `sem s t e s'`: in `s`, thread `t` may perform
    the operation of `e`, get its answer and leave `s'`. -/
structure System (Op : Type) (Ans : Op → Type) (L R σ : Type) where
  body : L → Prog Op Ans (L ⊕ R)
  sem : σ → Nat → Event Op Ans → σ → Prop
  start : σ → Nat → Prog Op Ans (L ⊕ R) → σ → Prop
  halt : σ → σ → Prop

/-- The shared state and the threads, by number. -/
structure Pool (Op : Type) (Ans : Op → Type) (L R σ : Type) where
  shared : σ
  threads : Nat → Option (Thread Op Ans L R)

/-- A pool in which no thread has started. -/
def Pool.idle (s : σ) : Pool Op Ans L R σ := ⟨s, fun _ => none⟩

/-- Thread `t` of the pool replaced by `th`. -/
def Pool.put (c : Pool Op Ans L R σ) (s : σ) (t : Nat) (th : Thread Op Ans L R) :
    Pool Op Ans L R σ := ⟨s, Function.update c.threads t (some th)⟩

@[simp] theorem Pool.put_shared (c : Pool Op Ans L R σ) (s : σ) (t : Nat)
    (th : Thread Op Ans L R) : (c.put s t th).shared = s := rfl

@[simp] theorem Pool.put_self (c : Pool Op Ans L R σ) (s : σ) (t : Nat)
    (th : Thread Op Ans L R) : (c.put s t th).threads t = some th := by
  simp [Pool.put]

theorem Pool.put_other (c : Pool Op Ans L R σ) (s : σ) {t u : Nat} (th : Thread Op Ans L R)
    (h : u ≠ t) : (c.put s t th).threads u = c.threads u := by
  simp [Pool.put, h]

/-- The last replacement counts. -/
@[simp] theorem Pool.put_put (c : Pool Op Ans L R σ) (s s' : σ) (t : Nat)
    (th th' : Thread Op Ans L R) : (c.put s t th).put s' t th' = c.put s' t th' := by
  simp [Pool.put]

/-- A thread replaced by itself. -/
theorem Pool.put_same {c : Pool Op Ans L R σ} {t : Nat} {th : Thread Op Ans L R}
    (h : c.threads t = some th) : c.put c.shared t th = c := by
  have hthreads : Function.update c.threads t (some th) = c.threads := by
    rw [← h, Function.update_eq_self]
  show Pool.mk c.shared (Function.update c.threads t (some th)) = c
  rw [hthreads]

/-- What a thread of the changed pool is: the new one, or one that was there. -/
theorem Pool.put_cases {c : Pool Op Ans L R σ} {s : σ} {t u : Nat} {th th' : Thread Op Ans L R}
    (h : (c.put s t th).threads u = some th') :
    (u = t ∧ th' = th) ∨ (u ≠ t ∧ c.threads u = some th') := by
  by_cases hu : u = t
  · subst hu
    rw [Pool.put_self] at h
    exact Or.inl ⟨rfl, (Option.some.inj h).symm⟩
  · exact Or.inr ⟨hu, by rwa [Pool.put_other c s th hu] at h⟩

/-- One step of the pool: an operation of a live thread, the next round of its loop, a new
    thread, or a halt of the process, which ends every thread. -/
inductive Step (S : System Op Ans L R σ) : Pool Op Ans L R σ → Pool Op Ans L R σ → Prop where
  | act (c : Pool Op Ans L R σ) (t : Nat) (th : Thread Op Ans L R) (o : Op)
      (k : Ans o → Prog Op Ans (L ⊕ R)) (a : Ans o) (s' : σ) (ht : c.threads t = some th)
      (hl : th.live = true) (hr : th.rest = .ask o k) (hs : S.sem c.shared t ⟨o, a⟩ s') :
      Step S c (c.put s' t { th with hist := th.hist ++ [⟨o, a⟩], rest := k a })
  | again (c : Pool Op Ans L R σ) (t : Nat) (th : Thread Op Ans L R) (l : L)
      (ht : c.threads t = some th) (hl : th.live = true) (hr : th.rest = .ret (.inl l)) :
      Step S c (c.put c.shared t { th with rest := S.body l })
  | start (c : Pool Op Ans L R σ) (t : Nat) (p : Prog Op Ans (L ⊕ R)) (s' : σ)
      (ht : c.threads t = none) (hs : S.start c.shared t p s') :
      Step S c (c.put s' t (.fresh p))
  | halt (c : Pool Op Ans L R σ) (s' : σ) (hs : S.halt c.shared s') :
      Step S c ⟨s', fun t => (c.threads t).map fun th => { th with live := false }⟩

/-- The pools reached from `c₀` by any interleaving. -/
abbrev Reach (S : System Op Ans L R σ) : Pool Op Ans L R σ → Pool Op Ans L R σ → Prop :=
  Relation.ReflTransGen (Step S)

section Reach

variable {S : System Op Ans L R σ} {c₀ c c' : Pool Op Ans L R σ}

/-- The invariant rule: what holds at the start and is kept by every step between reachable pools
    holds of every reachable pool. -/
theorem Reach.invariant {P : Pool Op Ans L R σ → Prop} (h0 : P c₀)
    (hstep : ∀ c c', Reach S c₀ c → Reach S c₀ c' → P c → Step S c c' → P c')
    (h : Reach S c₀ c) : P c := by
  induction h with
  | refl => exact h0
  | tail hr hs ih => exact hstep _ _ hr (hr.tail hs) ih hs

/-- A fact about single threads that starting establishes and the thread's own steps keep: what
    the other threads and a halt do cannot change it. -/
theorem Step.thread_fact {P : Thread Op Ans L R → Prop} (hs : Step S c c')
    (hact : ∀ th o k a, P th → th.rest = .ask o k →
      P { th with hist := th.hist ++ [⟨o, a⟩], rest := k a })
    (hagain : ∀ th l, P th → th.rest = .ret (.inl l) → P { th with rest := S.body l })
    (hstart : ∀ s t p s', S.start s t p s' → P (.fresh p))
    (hhalt : ∀ th, P th → P { th with live := false })
    (hc : ∀ t th, c.threads t = some th → P th) : ∀ t th, c'.threads t = some th → P th := by
  intro u th' hu
  cases hs with
  | act t th o k a s' ht hl hr hs =>
      rcases Pool.put_cases hu with ⟨rfl, rfl⟩ | ⟨_, hu⟩
      · exact hact th o k a (hc _ th ht) hr
      · exact hc u th' hu
  | again t th l ht hl hr =>
      rcases Pool.put_cases hu with ⟨rfl, rfl⟩ | ⟨_, hu⟩
      · exact hagain th l (hc _ th ht) hr
      · exact hc u th' hu
  | start t p s' ht hs =>
      rcases Pool.put_cases hu with ⟨rfl, rfl⟩ | ⟨_, hu⟩
      · exact hstart _ _ p s' hs
      · exact hc u th' hu
  | halt s' hs =>
      obtain ⟨th, hth, rfl⟩ := Option.map_eq_some_iff.mp hu
      exact hhalt th (hc u th hth)

/-- Where a thread of the pool after a step comes from: it has done nothing meanwhile, or the step
    was its own operation, or it has just started. -/
theorem Step.thread_cases (hs : Step S c c') {t : Nat} {th' : Thread Op Ans L R}
    (ht : c'.threads t = some th') :
    (∃ th, c.threads t = some th ∧ th'.start = th.start ∧ th'.hist = th.hist) ∨
    (∃ th e, c.threads t = some th ∧ th.live = true ∧ th'.start = th.start ∧
      th'.hist = th.hist ++ [e] ∧ S.sem c.shared t e c'.shared) ∨
    (c.threads t = none ∧ th'.hist = [] ∧ S.start c.shared t th'.start c'.shared) := by
  cases hs with
  | act u th o k a s' hu hl hr hs =>
      rcases Pool.put_cases ht with ⟨rfl, rfl⟩ | ⟨_, ht⟩
      · exact Or.inr (Or.inl ⟨th, _, hu, hl, rfl, rfl, hs⟩)
      · exact Or.inl ⟨th', ht, rfl, rfl⟩
  | again u th l hu hl hr =>
      rcases Pool.put_cases ht with ⟨rfl, rfl⟩ | ⟨_, ht⟩
      · exact Or.inl ⟨th, hu, rfl, rfl⟩
      · exact Or.inl ⟨th', ht, rfl, rfl⟩
  | start u p s' hu hs =>
      rcases Pool.put_cases ht with ⟨rfl, rfl⟩ | ⟨_, ht⟩
      · exact Or.inr (Or.inr ⟨hu, rfl, hs⟩)
      · exact Or.inl ⟨th', ht, rfl, rfl⟩
  | halt s' hs =>
      obtain ⟨th, hth, rfl⟩ := Option.map_eq_some_iff.mp ht
      exact Or.inl ⟨th, hth, rfl, rfl⟩

/-- A thread stays, and what it does meanwhile is a trace of what it had left. -/
theorem Step.thread_trace (hs : Step S c c') {t : Nat} {th : Thread Op Ans L R}
    (ht : c.threads t = some th) :
    ∃ th' es, c'.threads t = some th' ∧ th'.hist = th.hist ++ es ∧
      Trace S.body th.rest es th'.rest := by
  have hstays : ∀ {th' : Thread Op Ans L R}, th'.hist = th.hist → th'.rest = th.rest →
      th'.hist = th.hist ++ [] ∧ Trace S.body th.rest [] th'.rest := by
    intro th' hhist hrest
    rw [hhist, hrest, List.append_nil]
    exact ⟨rfl, .here _⟩
  cases hs with
  | act u thu o k a s' hu hl hr hs =>
      by_cases htu : t = u
      · subst htu
        rw [hu] at ht
        cases ht
        refine ⟨_, [⟨o, a⟩], Pool.put_self _ _ _ _, rfl, ?_⟩
        rw [hr]
        exact .ask a (.here _)
      · exact ⟨th, [], by rw [Pool.put_other _ _ _ htu]; exact ht, hstays rfl rfl⟩
  | again u thu l hu hl hr =>
      by_cases htu : t = u
      · subst htu
        rw [hu] at ht
        cases ht
        refine ⟨_, [], Pool.put_self _ _ _ _, (List.append_nil _).symm, ?_⟩
        rw [hr]
        exact .again (.here _)
      · exact ⟨th, [], by rw [Pool.put_other _ _ _ htu]; exact ht, hstays rfl rfl⟩
  | start u p s' hu hs =>
      have htu : t ≠ u := by
        intro he
        rw [he, hu] at ht
        cases ht
      exact ⟨th, [], by rw [Pool.put_other _ _ _ htu]; exact ht, hstays rfl rfl⟩
  | halt s' hs =>
      exact ⟨{ th with live := false }, [], by simp [ht], hstays rfl rfl⟩

/-- A thread stays, and its history only grows. -/
theorem Step.thread_grows (hs : Step S c c') {t : Nat} {th : Thread Op Ans L R}
    (ht : c.threads t = some th) :
    ∃ th', c'.threads t = some th' ∧ th.hist <+: th'.hist := by
  obtain ⟨th', es, ht', hhist, _⟩ := hs.thread_trace ht
  exact ⟨th', ht', es, hhist.symm⟩

/-- The same over any number of steps. -/
theorem Reach.thread_trace (h : Reach S c c') {t : Nat} {th : Thread Op Ans L R}
    (ht : c.threads t = some th) :
    ∃ th' es, c'.threads t = some th' ∧ th'.hist = th.hist ++ es ∧
      Trace S.body th.rest es th'.rest := by
  induction h with
  | refl => exact ⟨th, [], ht, (List.append_nil _).symm, .here _⟩
  | tail _ hs ih =>
      obtain ⟨th', es, ht', hhist, htrace⟩ := ih
      obtain ⟨th'', es', ht'', hhist', htrace'⟩ := hs.thread_trace ht'
      refine ⟨th'', es ++ es', ht'', ?_, htrace.trans htrace'⟩
      rw [hhist', hhist, List.append_assoc]

/-- The history of every thread is a trace of the program it started with. -/
theorem Reach.trace {s₀ : σ} (h : Reach S (.idle s₀) c) (t : Nat) (th : Thread Op Ans L R)
    (ht : c.threads t = some th) : Trace S.body th.start th.hist th.rest := by
  refine Reach.invariant
    (P := fun c => ∀ t th, c.threads t = some th → Trace S.body th.start th.hist th.rest)
    ?_ ?_ h t th ht
  · intro t th ht
    cases ht
  · intro c c' _ _ hc hs
    refine hs.thread_fact (P := fun th => Trace S.body th.start th.hist th.rest)
      ?_ ?_ ?_ ?_ hc
    · intro th o k a hp hr
      exact (hr ▸ hp).snoc a
    · intro th l hp hr
      exact (hr ▸ hp).enter
    · intro s t p s' _
      exact .here p
    · intro th hp
      exact hp

/-- Every thread started with a program that may start. -/
theorem Reach.started {s₀ : σ} {P : Prog Op Ans (L ⊕ R) → Prop}
    (hP : ∀ s t p s', S.start s t p s' → P p) (h : Reach S (.idle s₀) c) (t : Nat)
    (th : Thread Op Ans L R) (ht : c.threads t = some th) : P th.start := by
  refine Reach.invariant (P := fun c => ∀ t th, c.threads t = some th → P th.start) ?_ ?_ h t th ht
  · intro t th ht
    cases ht
  · intro c c' _ _ hc hs
    exact hs.thread_fact (P := fun th => P th.start) (fun _ _ _ _ hp _ => hp)
      (fun _ _ hp _ => hp) hP (fun _ hp => hp) hc

/-- What the logic says of the programs that may start is true of every thread in every
    interleaving, where the environment may answer anything: the rest keeps its condition. -/
theorem Reach.holds {s₀ : σ} {G : List (Event Op Ans) → Op → Prop}
    {J : L → List (Event Op Ans) → Prop} {E : R → List (Event Op Ans) → Prop}
    (hbody : ∀ l h, J l h → Holds anyAnswer G (Sum.elim J E) (S.body l) h)
    (h : Reach S (.idle s₀) c) {t : Nat} {th : Thread Op Ans L R} (ht : c.threads t = some th)
    (hp : Holds anyAnswer G (Sum.elim J E) th.start []) :
    Holds anyAnswer G (Sum.elim J E) th.rest th.hist := by
  simpa using (h.trace t th ht).holds hbody hp (along_any _ _)

/-- Every operation of every thread was issued in its place. -/
theorem Reach.issued {s₀ : σ} {G : List (Event Op Ans) → Op → Prop}
    {J : L → List (Event Op Ans) → Prop} {E : R → List (Event Op Ans) → Prop}
    (hbody : ∀ l h, J l h → Holds anyAnswer G (Sum.elim J E) (S.body l) h)
    (h : Reach S (.idle s₀) c) {t : Nat} {th : Thread Op Ans L R} (ht : c.threads t = some th)
    (hp : Holds anyAnswer G (Sum.elim J E) th.start []) : Issued G th.hist :=
  (h.trace t th ht).issued hbody hp (along_any _ _)

/-- In a system that nothing halts, every thread is live. -/
theorem Reach.live {s₀ : σ} (hhalt : ∀ s s', ¬ S.halt s s') (h : Reach S (.idle s₀) c) :
    ∀ t th, c.threads t = some th → th.live = true := by
  refine Reach.invariant (P := fun c => ∀ t th, c.threads t = some th → th.live = true) ?_ ?_ h
  · intro t th ht
    cases ht
  · intro c c' _ _ hc hs
    cases hs with
    | halt s' hs => exact absurd hs (hhalt _ _)
    | act t th o k a s' ht hl hrest hs =>
        intro u thu hu
        rcases Pool.put_cases hu with ⟨rfl, rfl⟩ | ⟨_, hu⟩
        · exact hl
        · exact hc u thu hu
    | again t th l ht hl hrest =>
        intro u thu hu
        rcases Pool.put_cases hu with ⟨rfl, rfl⟩ | ⟨_, hu⟩
        · exact hl
        · exact hc u thu hu
    | start t p s' ht hs =>
        intro u thu hu
        rcases Pool.put_cases hu with ⟨rfl, rfl⟩ | ⟨_, hu⟩
        · rfl
        · exact hc u thu hu

/-- A live thread driven against a scripted environment that keeps to the system reaches the pool
    at the end of the run. -/
theorem Reach.drive {t : Nat} {next : σ → List (Event Op Ans) → (o : Op) → Option (Ans o × σ)}
    (hsem : ∀ s h o a s', next s h o = some (a, s') → S.sem s t ⟨o, a⟩ s')
    {start p : Prog Op Ans (L ⊕ R)} {s : σ} {h : List (Event Op Ans)} (n : Nat)
    (hr : Reach S c₀ (c.put s t ⟨start, h, p, true⟩)) :
    let r := Interact.drive S.body next n s h p
    Reach S c₀ (c.put r.1 t ⟨start, r.2.1, r.2.2, true⟩) := by
  induction n generalizing s h p with
  | zero => exact hr
  | succ n ih =>
      match p with
      | .ret (.inr r) => exact hr
      | .ret (.inl l) =>
          have hs := hr.tail (.again _ t _ l (Pool.put_self _ _ _ _) rfl rfl)
          rw [Pool.put_put] at hs
          exact ih hs
      | .ask o k =>
          simp only [Interact.drive]
          cases ha : next s h o with
          | none => exact hr
          | some r =>
              have hs := hr.tail (.act _ t _ o k r.1 r.2 (Pool.put_self _ _ _ _) rfl rfl
                (hsem _ _ _ _ _ ha))
              rw [Pool.put_put] at hs
              exact ih hs

/-- Thread `t` of the pool driven against a scripted environment, where it has started. -/
def Pool.turn (S : System Op Ans L R σ)
    (next : σ → List (Event Op Ans) → (o : Op) → Option (Ans o × σ)) (n t : Nat)
    (c : Pool Op Ans L R σ) : Pool Op Ans L R σ :=
  match c.threads t with
  | none => c
  | some th =>
      let r := Interact.drive S.body next n c.shared th.hist th.rest
      c.put r.1 t ⟨th.start, r.2.1, r.2.2, true⟩

theorem Reach.turn {next : σ → List (Event Op Ans) → (o : Op) → Option (Ans o × σ)} {t : Nat}
    (hsem : ∀ s h o a s', next s h o = some (a, s') → S.sem s t ⟨o, a⟩ s') (n : Nat)
    (hr : Reach S c₀ c) (hl : ∀ th, c.threads t = some th → th.live = true) :
    Reach S c₀ (c.turn S next n t) := by
  unfold Pool.turn
  cases ht : c.threads t with
  | none => exact hr
  | some th =>
      have hlive := hl th ht
      obtain ⟨start, h, p, live⟩ := th
      cases hlive
      refine Reach.drive (S := S) hsem n ?_
      rw [Pool.put_same ht]
      exact hr

/-! ## The histories of a pool -/

/-- The history of a thread, empty before its start. -/
def Pool.hist (c : Pool Op Ans L R σ) (t : Nat) : List (Event Op Ans) :=
  match c.threads t with
  | some th => th.hist
  | none => []

theorem Pool.hist_of {t : Nat} {th : Thread Op Ans L R} (ht : c.threads t = some th) :
    c.hist t = th.hist := by
  rw [Pool.hist, ht]

theorem Pool.hist_put (c : Pool Op Ans L R σ) (s : σ) (t : Nat) (th : Thread Op Ans L R) :
    (c.put s t th).hist = Function.update c.hist t th.hist := by
  funext u
  by_cases hu : u = t
  · subst hu
    rw [Function.update_self, Pool.hist_of (Pool.put_self c s u th)]
  · rw [Function.update_of_ne hu, Pool.hist, Pool.hist, Pool.put_other c s th hu]

/-- A replacement that keeps the history of the thread keeps all of them. -/
theorem Pool.hist_put_same {c : Pool Op Ans L R σ} {s : σ} {t : Nat} {th : Thread Op Ans L R}
    (h : c.hist t = th.hist) : (c.put s t th).hist = c.hist := by
  rw [Pool.hist_put, ← h, Function.update_eq_self]

/-- The invariant rule for the shared state and the histories, with what is known of each history
    in every reachable pool. -/
theorem Reach.logged {D : σ → Nat → List (Event Op Ans) → Prop}
    {P : σ → (Nat → List (Event Op Ans)) → Prop}
    (hD : ∀ c, Reach S c₀ c → ∀ t, D c.shared t (c.hist t)) (h0 : P c₀.shared c₀.hist)
    (hact : ∀ s H t e s', (∀ u, D s u (H u)) → D s' t (H t ++ [e]) → S.sem s t e s' → P s H →
      P s' (Function.update H t (H t ++ [e])))
    (hstart : ∀ s t p s' H, S.start s t p s' → P s H → P s' H)
    (hhalt : ∀ s s' H, S.halt s s' → P s H → P s' H)
    (hr : Reach S c₀ c) : P c.shared c.hist := by
  refine Reach.invariant (P := fun c => P c.shared c.hist) h0 ?_ hr
  intro c c' hrc hrc' hc hs
  cases hs with
  | act t th o k a s' ht hl hrest hs =>
      have hnow := hD _ hrc' t
      rw [Pool.hist_of (Pool.put_self _ _ _ _), Pool.put_shared, ← Pool.hist_of ht] at hnow
      rw [Pool.hist_put, Pool.put_shared, ← Pool.hist_of ht]
      exact hact _ _ t _ s' (hD c hrc) hnow hs hc
  | again t th l ht hl hrest =>
      have hsame : c.hist t = th.hist := Pool.hist_of ht
      have hput := @Pool.hist_put_same _ _ _ _ _ c c.shared t { th with rest := S.body l } hsame
      rw [hput]
      exact hc
  | start t p s' ht hs =>
      have hsame : c.hist t = (Thread.fresh p).hist := by
        rw [Pool.hist, ht]
        rfl
      rw [Pool.hist_put_same hsame]
      exact hstart _ _ _ _ _ hs hc
  | halt s' hs =>
      have hsame : (Pool.mk s' fun t => (c.threads t).map fun th =>
          { th with live := false }).hist = c.hist := by
        funext t
        unfold Pool.hist
        dsimp only
        cases c.threads t <;> rfl
      rw [hsame]
      exact hhalt _ _ _ hs hc

/-- A fact of the shared state that an event tells and no step undoes is true from then on. -/
theorem Reach.told {s₀ : σ} {F : σ → Prop} {T : Event Op Ans → Prop}
    (htells : ∀ s t e s', S.sem s t e s' → T e → F s)
    (hact : ∀ s t e s', S.sem s t e s' → F s → F s')
    (hstart : ∀ s t p s', S.start s t p s' → F s → F s') (hhalt : ∀ s s', S.halt s s' → F s → F s')
    (hr : Reach S (.idle s₀) c) {t : Nat} {e : Event Op Ans} (he : e ∈ c.hist t) (ht : T e) :
    F c.shared := by
  refine Reach.logged (D := fun _ _ _ => True)
    (P := fun s H => ∀ t e, e ∈ H t → T e → F s) (fun _ _ _ => trivial) ?_ ?_ ?_ ?_ hr t e he ht
  · intro t e he
    cases he
  · intro s H t e s' _ _ hs hc u e' he' ht'
    refine hact s t e s' hs ?_
    by_cases hu : u = t
    · subst hu
      rw [Function.update_self, List.mem_append, List.mem_singleton] at he'
      rcases he' with hold | rfl
      · exact hc u e' hold ht'
      · exact htells s u e' s' hs ht'
    · rw [Function.update_of_ne hu] at he'
      exact hc u e' he' ht'
  · intro s t p s' H hs hc u e' he' ht'
    exact hstart s t p s' hs (hc u e' he' ht')
  · intro s s' H hs hc u e' he' ht'
    exact hhalt s s' hs (hc u e' he' ht')

end Reach

end Interact
