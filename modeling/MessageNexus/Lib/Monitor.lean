/-
  File:      MessageNexus/Lib/Monitor.lean
  Subject:   MONITORS OF PROGRAMS. The discipline of a program (`Prog.lean`) as an automaton: its
             state says which operations may come next, and every event moves it.

  * `Monitor` -- the automaton, and `Monitor.state`, where a history leaves it;
  * `Monitor.Walks` -- from this state on, whatever the environment answers, the program issues
    what the monitor allows and ends where `E` holds; with rules for sequencing, and for a part
    whose operations do not move the monitor (`Uses.walks`);
  * `Reach.walks` -- what every thread of a pool is known to keep to;
  * `Reach.marks` -- an event leaves a fact behind about the thread that performed it.
-/
import MessageNexus.Lib.Pool

namespace Interact

variable {Op : Type} {Ans : Op → Type} {Q α β L R σ : Type}

/-- An automaton over the events, which allows operations by its state. -/
structure Monitor (Op : Type) (Ans : Op → Type) (Q : Type) where
  start : Q
  next : Q → Event Op Ans → Q
  allows : Q → Op → Prop

namespace Monitor

variable (M : Monitor Op Ans Q)

/-- Where a history leaves the monitor. -/
def state (h : List (Event Op Ans)) : Q := h.foldl M.next M.start

@[simp] theorem state_nil : M.state [] = M.start := rfl

@[simp] theorem state_snoc (h : List (Event Op Ans)) (e : Event Op Ans) :
    M.state (h ++ [e]) = M.next (M.state h) e := by
  simp [state]

/-- A history that has brought the monitor to `P` holds the event that did. -/
theorem entered {P : Q → Prop} (h0 : ¬ P M.start) {h : List (Event Op Ans)} (hP : P (M.state h)) :
    ∃ before e after, h = before ++ e :: after ∧ ¬ P (M.state before) ∧
      P (M.next (M.state before) e) := by
  induction h using List.reverseRecOn with
  | nil => exact absurd hP h0
  | append_singleton h e ih =>
      by_cases hold : P (M.state h)
      · obtain ⟨before, e', after, rfl, hrest⟩ := ih hold
        exact ⟨before, e', after ++ [e], by simp, hrest⟩
      · rw [state_snoc] at hP
        exact ⟨h, e, [], rfl, hold, hP⟩

/-- What every event keeps lasts. -/
theorem lasts {P : Q → Prop} (hstep : ∀ q e, P q → P (M.next q e)) {h h' : List (Event Op Ans)}
    (hpre : h <+: h') (hP : P (M.state h)) : P (M.state h') := by
  obtain ⟨es, rfl⟩ := hpre
  induction es using List.reverseRecOn with
  | nil => rwa [List.append_nil]
  | append_singleton es e ih =>
      rw [← List.append_assoc, state_snoc]
      exact hstep _ _ ih

/-- The operation is issued where the monitor allows it. -/
def Place (h : List (Event Op Ans)) (o : Op) : Prop := M.allows (M.state h) o

/-- From this state on the program keeps to the monitor, and `E` holds where it ends. -/
def Walks (E : Q → α → Prop) : Prog Op Ans α → Q → Prop
  | .ret a, q => E q a
  | .ask o k, q => M.allows q o ∧ ∀ a, Walks E (k a) (M.next q ⟨o, a⟩)

section Rules

variable {M} {E F : Q → α → Prop}

theorem Walks.mono {p : Prog Op Ans α} {q : Q} (hp : M.Walks E p q)
    (hEF : ∀ q a, E q a → F q a) : M.Walks F p q := by
  induction p generalizing q with
  | ret a => exact hEF q a hp
  | ask o k ih => exact ⟨hp.1, fun a => ih a (hp.2 a)⟩

/-- Sequencing: the continuation goes on where the first part ended. -/
theorem Walks.bind {p : Prog Op Ans α} {f : α → Prog Op Ans β} {F : Q → β → Prop} {q : Q}
    (hp : M.Walks E p q) (hf : ∀ q a, E q a → M.Walks F (f a) q) : M.Walks F (p >>= f) q := by
  induction p generalizing q with
  | ret a => exact hf q a hp
  | ask o k ih => exact ⟨hp.1, fun a => ih a (hp.2 a)⟩

/-- In the logic of histories. -/
theorem Walks.holds {p : Prog Op Ans α} {h : List (Event Op Ans)} (hp : M.Walks E p (M.state h)) :
    Holds anyAnswer M.Place (fun a h' => E (M.state h') a) p h := by
  induction p generalizing h with
  | ret a => exact hp
  | ask o k ih =>
      refine ⟨hp.1, fun a _ => ih a ?_⟩
      rw [state_snoc]
      exact hp.2 a

end Rules

/-- Where a program with a loop may end: at the head of a round, or at its end. -/
abbrev Ends (J : Q → L → Prop) (E : Q → R → Prop) (q : Q) : L ⊕ R → Prop :=
  Sum.elim (J q) (E q)

/-- What an event brings about where it may come, and every event keeps, holds since. -/
theorem since {P : Q → Prop} (hstep : ∀ q e, P q → P (M.next q e)) {e : Event Op Ans}
    (he : ∀ q, M.allows q e.op → P (M.next q e)) {h : List (Event Op Ans)}
    (hi : Issued M.Place h) (hin : e ∈ h) : P (M.state h) := by
  obtain ⟨before, after, rfl⟩ := List.append_of_mem hin
  refine M.lasts hstep (h := before ++ [e]) ⟨after, by simp⟩ ?_
  rw [state_snoc]
  exact he _ hi.at

end Monitor

variable {M : Monitor Op Ans Q}

/-- A program keeps to the monitor where its operations are allowed and leave it in its state. -/
theorem Uses.walks {P : Op → Prop} {p : Prog Op Ans α} (hp : Uses P p) {q : Q}
    (hallows : ∀ o, P o → M.allows q o) (hstays : ∀ e, P e.op → M.next q e = q) :
    M.Walks (fun q' _ => q' = q) p q := by
  induction p with
  | ret a => rfl
  | ask o k ih =>
      refine ⟨hallows o hp.1, fun a => ?_⟩
      rw [hstays ⟨o, a⟩ hp.1]
      exact ih a (hp.2 a)

/-- Every thread whose program keeps to the monitor does so in every interleaving. -/
theorem Reach.walks {S : System Op Ans L R σ} {s₀ : σ} {c : Pool Op Ans L R σ}
    {J : Q → L → Prop} {E : Q → R → Prop}
    (hbody : ∀ l q, J q l → M.Walks (Monitor.Ends J E) (S.body l) q) (hr : Reach S (.idle s₀) c) {t : Nat}
    {th : Thread Op Ans L R} (ht : c.threads t = some th)
    (hp : M.Walks (Monitor.Ends J E) th.start M.start) :
    Issued M.Place th.hist ∧
      Holds anyAnswer M.Place (fun r h => Monitor.Ends J E (M.state h) r) th.rest th.hist := by
  have hsplit : (fun (r : L ⊕ R) (h : List (Event Op Ans)) => Monitor.Ends J E (M.state h) r) =
      Sum.elim (fun l h => J (M.state h) l) fun r h => E (M.state h) r := by
    funext r h
    cases r <;> rfl
  have hrounds : ∀ l h, J (M.state h) l → Holds anyAnswer M.Place
      (Sum.elim (fun l h => J (M.state h) l) fun r h => E (M.state h) r) (S.body l) h := by
    intro l h hl
    rw [← hsplit]
    exact (hbody l _ hl).holds
  have hstart : Holds anyAnswer M.Place
      (Sum.elim (fun l h => J (M.state h) l) fun r h => E (M.state h) r) th.start [] := by
    rw [← hsplit]
    exact Monitor.Walks.holds hp
  refine ⟨hr.issued hrounds ht hstart, ?_⟩
  rw [hsplit]
  exact hr.holds hrounds ht hstart

/-- What an event of a thread leaves behind, and no step undoes, is true from then on. -/
theorem Reach.marks {S : System Op Ans L R σ} {s₀ : σ} {c : Pool Op Ans L R σ}
    {F : Nat → Event Op Ans → σ → Prop} (hmarks : ∀ s t e s', S.sem s t e s' → F t e s')
    (hact : ∀ u f s t e s', S.sem s t e s' → F u f s → F u f s')
    (hstart : ∀ u f s t p s', S.start s t p s' → F u f s → F u f s')
    (hhalt : ∀ u f s s', S.halt s s' → F u f s → F u f s') (hr : Reach S (.idle s₀) c) {t : Nat}
    {e : Event Op Ans} (he : e ∈ c.hist t) : F t e c.shared := by
  refine Reach.logged (D := fun _ _ _ => True)
    (P := fun s H => ∀ t e, e ∈ H t → F t e s) (fun _ _ _ => trivial) ?_ ?_ ?_ ?_ hr t e he
  · intro t e he
    cases he
  · intro s H t e s' _ _ hs hc u f hf
    by_cases hu : u = t
    · subst hu
      rw [Function.update_self, List.mem_append, List.mem_singleton] at hf
      rcases hf with hold | rfl
      · exact hact u f s u e s' hs (hc u f hold)
      · exact hmarks s u f s' hs
    · rw [Function.update_of_ne hu] at hf
      exact hact u f s t e s' hs (hc u f hf)
  · intro s t p s' H hs hc u f hf
    exact hstart u f s t p s' hs (hc u f hf)
  · intro s s' H hs hc u f hf
    exact hhalt u f s s' hs (hc u f hf)

end Interact
