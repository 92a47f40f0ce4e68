/-
  File:      MessageNexus/Lib/Lock.lean
  Subject:   A MUTEX AMONG THE OPERATIONS OF A SYSTEM. Threads that take the mutex only outside
             their section, release it only inside, and perform the guarded operations only
             inside, are alone in their sections.

  * `Mutex` -- the operations that acquire, release and need it, and what the system does to the
    holder;
  * `Mutex.held`, `Mutex.Place` -- whether a history stands in a section, and the discipline;
  * `Mutex.exclusive` -- the thread that stands in its section is the holder, and the only one;
  * `Mutex.owned` -- a fact that a thread establishes in its section, and that only guarded
    operations can change, is still true as long as the section lasts.
-/
import MessageNexus.Lib.Pool

namespace Interact

variable {Op : Type} {Ans : Op → Type} {L R σ : Type}

/-- A mutex of a system: which operations acquire, release and need it, and its holder. -/
structure Mutex (S : System Op Ans L R σ) where
  acquires : Op → Bool
  releases : Op → Bool
  guarded : Op → Prop
  holder : σ → Option Nat
  apart : ∀ o, acquires o = true → releases o = false
  sem_acquire : ∀ s t e s', acquires e.op = true → S.sem s t e s' →
    holder s = none ∧ holder s' = some t
  sem_release : ∀ s t e s', releases e.op = true → S.sem s t e s' → holder s' = none
  sem_other : ∀ s t e s', acquires e.op = false → releases e.op = false → S.sem s t e s' →
    holder s' = holder s
  start_keeps : ∀ s t p s', S.start s t p s' → holder s' = holder s
  halt_frees : ∀ s s', S.halt s s' → holder s' = none

namespace Mutex

variable {S : System Op Ans L R σ} (m : Mutex S)

/-- Whether the section is open after one more operation. -/
def after (b : Bool) (o : Op) : Bool :=
  if m.acquires o then true else if m.releases o then false else b

/-- Whether the history ends inside a section. -/
def held (h : List (Event Op Ans)) : Bool := h.foldl (fun b e => m.after b e.op) false

/-- The discipline of the mutex. -/
def Place (h : List (Event Op Ans)) (o : Op) : Prop :=
  (m.acquires o = true → m.held h = false) ∧ (m.releases o = true → m.held h = true) ∧
    (m.guarded o → m.held h = true)

@[simp] theorem held_nil : m.held ([] : List (Event Op Ans)) = false := rfl

theorem held_snoc (h : List (Event Op Ans)) (e : Event Op Ans) :
    m.held (h ++ [e]) = m.after (m.held h) e.op := by
  simp [held]

theorem after_acquire (b : Bool) {o : Op} (ha : m.acquires o = true) : m.after b o = true := by
  simp [after, ha]

theorem after_release (b : Bool) {o : Op} (hr : m.releases o = true) : m.after b o = false := by
  have ha : m.acquires o = false := by
    cases ha : m.acquires o with
    | false => rfl
    | true => rw [m.apart o ha] at hr; cases hr
  simp [after, ha, hr]

theorem after_other (b : Bool) {o : Op} (ha : m.acquires o = false) (hr : m.releases o = false) :
    m.after b o = b := by
  simp [after, ha, hr]

/-- The live thread that stands in its section is the holder, and there is no other holder. -/
def Exclusive (c : Pool Op Ans L R σ) : Prop :=
  (∀ t th, c.threads t = some th → th.live = true →
    (m.held th.hist = true ↔ m.holder c.shared = some t)) ∧
  ∀ t, m.holder c.shared = some t → ∃ th, c.threads t = some th ∧ th.live = true

section Run

variable {c₀ c c' : Pool Op Ans L R σ}

/-- One operation keeps the exclusion. -/
theorem exclusive_act {t : Nat} {th : Thread Op Ans L R} {e : Event Op Ans}
    {rest : Prog Op Ans (L ⊕ R)} {s' : σ} (hc : m.Exclusive c) (ht : c.threads t = some th)
    (hl : th.live = true) (hs : S.sem c.shared t e s') (hp : m.Place th.hist e.op) :
    m.Exclusive (c.put s' t { th with hist := th.hist ++ [e], rest := rest }) := by
  have hself := hc.1 t th ht hl
  -- What the operation does to the holder and to the section of its thread.
  have hnew : (m.held (th.hist ++ [e]) = true ↔ m.holder s' = some t) ∧
      (∀ u, u ≠ t → (m.holder s' = some u ↔ m.holder c.shared = some u)) := by
    rw [held_snoc]
    cases hlock : m.acquires e.op with
    | true =>
        obtain ⟨hfree, hheld⟩ := m.sem_acquire _ _ _ _ hlock hs
        refine ⟨?_, fun u hu => ?_⟩
        · rw [m.after_acquire _ hlock, hheld]
          simp
        · rw [hfree, hheld]
          simp [Ne.symm hu]
    | false =>
        cases hunlock : m.releases e.op with
        | true =>
            have hfree := m.sem_release _ _ _ _ hunlock hs
            have hheld := hself.mp (hp.2.1 hunlock)
            refine ⟨?_, fun u hu => ?_⟩
            · rw [m.after_release _ hunlock, hfree]
              simp
            · rw [hheld, hfree]
              simp [Ne.symm hu]
        | false =>
            have hkeep := m.sem_other _ _ _ _ hlock hunlock hs
            rw [m.after_other _ hlock hunlock, hkeep]
            exact ⟨hself, fun u _ => Iff.rfl⟩
  refine ⟨fun u thu hu hlu => ?_, fun u hu => ?_⟩
  · rcases Pool.put_cases hu with ⟨rfl, rfl⟩ | ⟨hne, hu⟩
    · exact hnew.1
    · rw [Pool.put_shared, hnew.2 u hne]
      exact hc.1 u thu hu hlu
  · rw [Pool.put_shared] at hu
    by_cases hne : u = t
    · subst hne
      exact ⟨_, Pool.put_self _ _ _ _, hl⟩
    · rw [hnew.2 u hne] at hu
      obtain ⟨thu, hthu, hlu⟩ := hc.2 u hu
      exact ⟨thu, by rw [Pool.put_other _ _ _ hne]; exact hthu, hlu⟩

/-- The exclusion holds in every reachable pool whose threads keep the discipline. -/
theorem exclusive {s₀ : σ} (h0 : m.holder s₀ = none)
    (hplaces : ∀ c, Reach S (.idle s₀) c → ∀ t th, c.threads t = some th →
      Issued m.Place th.hist)
    (hr : Reach S (.idle s₀) c) : m.Exclusive c := by
  refine Reach.invariant (P := fun c => m.Exclusive c) ?_ ?_ hr
  · refine ⟨fun t th ht => (by cases ht), fun t ht => ?_⟩
    rw [Pool.idle, h0] at ht
    cases ht
  · intro c c' hrc hrc' hc hs
    cases hs with
    | act t th o k a s' ht hl hrest hs =>
        have hi := hplaces _ hrc' t _ (Pool.put_self _ _ _ _)
        obtain ⟨_, hp, _⟩ := (along_append [] th.hist [⟨o, a⟩]).mp hi
        exact m.exclusive_act hc ht hl hs hp
    | again t th l ht hl hrest =>
        refine ⟨fun u thu hu hlu => ?_, fun u hu => ?_⟩
        · rcases Pool.put_cases hu with ⟨rfl, rfl⟩ | ⟨_, hu⟩
          · exact hc.1 u th ht hl
          · exact hc.1 u thu hu hlu
        · obtain ⟨thu, hthu, hlu⟩ := hc.2 u hu
          by_cases hne : u = t
          · subst hne
            exact ⟨_, Pool.put_self _ _ _ _, hl⟩
          · exact ⟨thu, by rw [Pool.put_other _ _ _ hne]; exact hthu, hlu⟩
    | start t p s' ht hs =>
        have hkeep := m.start_keeps _ _ _ _ hs
        refine ⟨fun u thu hu hlu => ?_, fun u hu => ?_⟩
        · rw [Pool.put_shared, hkeep]
          rcases Pool.put_cases hu with ⟨rfl, rfl⟩ | ⟨_, hu⟩
          · refine iff_of_false (by simp [Thread.fresh]) fun hheld => ?_
            obtain ⟨thu, hthu, _⟩ := hc.2 u hheld
            rw [ht] at hthu
            cases hthu
          · exact hc.1 u thu hu hlu
        · rw [Pool.put_shared, hkeep] at hu
          obtain ⟨thu, hthu, hlu⟩ := hc.2 u hu
          have hne : u ≠ t := fun he => by
            rw [he, ht] at hthu
            cases hthu
          exact ⟨thu, by rw [Pool.put_other _ _ _ hne]; exact hthu, hlu⟩
    | halt s' hs =>
        have hfree := m.halt_frees _ _ hs
        refine ⟨fun u thu hu hlu => ?_, fun u hu => ?_⟩
        · obtain ⟨th, _, rfl⟩ := Option.map_eq_some_iff.mp hu
          cases hlu
        · rw [hfree] at hu
          cases hu

/-- Two live threads do not stand in their sections at the same time. -/
theorem Exclusive.same {c : Pool Op Ans L R σ} (hc : m.Exclusive c) {t u : Nat}
    {th thu : Thread Op Ans L R} (ht : c.threads t = some th) (hl : th.live = true)
    (hh : m.held th.hist = true) (hu : c.threads u = some thu) (hlu : thu.live = true)
    (hhu : m.held thu.hist = true) : u = t := by
  have e1 := (hc.1 t th ht hl).mp hh
  have e2 := (hc.1 u thu hu hlu).mp hhu
  rw [e1] at e2
  exact (Option.some.inj e2).symm

/-- What a thread knows of the shared state in its section stays true while the section lasts:
    its own operations establish and keep it, and the unguarded operations of the others do not
    touch it. -/
theorem owned {s₀ : σ} {P : List (Event Op Ans) → σ → Prop} (h0 : m.holder s₀ = none)
    (hplaces : ∀ c, Reach S (.idle s₀) c → ∀ t th, c.threads t = some th →
      Issued m.Place th.hist)
    (hown : ∀ s t h e s', S.sem s t e s' → m.held (h ++ [e]) = true →
      (m.held h = true → P h s) → P (h ++ [e]) s')
    (hother : ∀ s u e s', S.sem s u e s' → m.acquires e.op = false → m.releases e.op = false →
      ¬ m.guarded e.op → ∀ h, P h s → P h s')
    (hstart : ∀ s t p s', S.start s t p s' → ∀ h, P h s → P h s')
    (hr : Reach S (.idle s₀) c) : ∀ t th, c.threads t = some th → th.live = true →
      m.held th.hist = true → P th.hist c.shared := by
  refine Reach.invariant (P := fun c => ∀ t th, c.threads t = some th → th.live = true →
    m.held th.hist = true → P th.hist c.shared) ?_ ?_ hr
  · intro t th ht
    cases ht
  · intro c c' hrc hrc' hc hs
    have hex := m.exclusive h0 hplaces hrc
    cases hs with
    | act t th o k a s' ht hl hrest hs =>
        intro u thu hu hlu hhu
        rcases Pool.put_cases hu with ⟨rfl, rfl⟩ | ⟨hne, hu'⟩
        · exact hown _ _ _ _ _ hs hhu fun hh => hc u th ht hl hh
        · -- the actor stands outside, so its operation is neither of the mutex nor guarded
          have hi := hplaces _ hrc' t _ (Pool.put_self _ _ _ _)
          obtain ⟨_, hp, _⟩ := (along_append [] th.hist [⟨o, a⟩]).mp hi
          have hout : ¬ m.held th.hist = true := fun hh =>
            hne (hex.same m ht hl hh hu' hlu hhu)
          have hholds := (hex.1 u thu hu' hlu).mp hhu
          refine hother _ _ _ _ hs ?_ ?_ (fun hg => hout (hp.2.2 hg)) _ (hc u thu hu' hlu hhu)
          · cases ha : m.acquires o with
            | false => rfl
            | true =>
                have hfree := (m.sem_acquire _ _ _ _ ha hs).1
                rw [hholds] at hfree
                cases hfree
          · cases hr : m.releases o with
            | false => rfl
            | true => exact absurd (hp.2.1 hr) hout
    | again t th l ht hl hrest =>
        intro u thu hu hlu hhu
        rcases Pool.put_cases hu with ⟨rfl, rfl⟩ | ⟨_, hu⟩
        · exact hc u th ht hl hhu
        · exact hc u thu hu hlu hhu
    | start t p s' ht hs =>
        intro u thu hu hlu hhu
        rcases Pool.put_cases hu with ⟨rfl, rfl⟩ | ⟨_, hu⟩
        · cases hhu
        · exact hstart _ _ _ _ hs _ (hc u thu hu hlu hhu)
    | halt s' hs =>
        intro u thu hu hlu
        obtain ⟨th, _, rfl⟩ := Option.map_eq_some_iff.mp hu
        cases hlu

end Run

end Mutex

end Interact
