/-
  File:      MessageNexus/Lib/Hide.lean
  Subject:   HIDING OPERATIONS AND THREADS. A system that does more than another -- operations that
             the other does not have, and threads that perform only those -- is one in which the
             other can still be seen: what holds of the smaller system holds of the larger one.

  * `SumAns`, `visible` -- operations that are visible or hidden, and what is seen of an event;
  * `Shadows V p' p` -- `p'` does what `p` does, with hidden operations in between whose answers
    make no difference, and ends with results that `V` relates;
  * `Hiding` -- how the larger system is seen as the smaller one: its base state, the numbers of
    the threads that are visible, and what every step of it does there;
  * `Hiding.reach` -- every reachable pool of the larger system shows a reachable one of the smaller.
-/
import MessageNexus.Lib.Pool

namespace Interact

variable {Op I : Type} {Ans : Op → Type} {J : I → Type} {L M R σ σ' α α' β β' : Type}

/-! ## 1. Visible and hidden operations -/

/-- The answers of the visible operations and of the hidden ones. -/
@[reducible] def SumAns (Ans : Op → Type) (J : I → Type) : Op ⊕ I → Type
  | .inl o => Ans o
  | .inr i => J i

/-- What is seen of an event. -/
def visible : Event (Op ⊕ I) (SumAns Ans J) → Option (Event Op Ans)
  | ⟨.inl o, a⟩ => some ⟨o, a⟩
  | ⟨.inr _, _⟩ => none

/-- The first program does what the second one does, and hidden operations besides, whatever these
    answer; the results are related by `V`. -/
def Shadows (V : α' → α → Prop) : Prog (Op ⊕ I) (SumAns Ans J) α' → Prog Op Ans α → Prop
  | .ret a', p => ∃ a, p = .ret a ∧ V a' a
  | .ask (.inl o) k', p => ∃ k, p = .ask o k ∧ ∀ a : Ans o, Shadows V (k' a) (k a)
  | .ask (.inr i) k', p => ∀ a : J i, Shadows V (k' a) p

section Programs

variable {V : α' → α → Prop} {W : β' → β → Prop}

theorem Shadows.bind {p' : Prog (Op ⊕ I) (SumAns Ans J) α'} {p : Prog Op Ans α}
    {f' : α' → Prog (Op ⊕ I) (SumAns Ans J) β'} {f : α → Prog Op Ans β} (hp : Shadows V p' p)
    (hf : ∀ a' a, V a' a → Shadows W (f' a') (f a)) : Shadows W (p' >>= f') (p >>= f) := by
  induction p' generalizing p with
  | ret a' =>
      obtain ⟨a, rfl, hv⟩ := hp
      exact hf a' a hv
  | ask o k' ih =>
      cases o with
      | inl o =>
          obtain ⟨k, rfl, hk⟩ := hp
          exact ⟨fun a => k a >>= f, rfl, fun a => ih a (hk a)⟩
      | inr i => exact fun a => ih a (hp a)

/-- A program as one over more operations. -/
theorem Shadows.lift (p : Prog Op Ans α) :
    Shadows (· = ·) (p.lift Sum.inl fun _ a => a : Prog (Op ⊕ I) (SumAns Ans J) α) p := by
  induction p with
  | ret a => exact ⟨a, rfl, rfl⟩
  | ask o k ih => exact ⟨k, rfl, ih⟩

end Programs

/-- The results of a visible thread: the same round of the loop, or the same end. -/
def SameEnd : (L ⊕ M) ⊕ R → L ⊕ R → Prop
  | .inl (.inl l), x => x = .inl l
  | .inl (.inr _), _ => False
  | .inr r, x => x = .inr r

/-! ## 2. Systems -/

/-- How the larger system is seen as the smaller one. -/
structure Hiding (S' : System (Op ⊕ I) (SumAns Ans J) (L ⊕ M) R σ') (S : System Op Ans L R σ) where
  base : σ' → σ
  place : Nat → Nat
  injective : Function.Injective place
  body : ∀ l, Shadows SameEnd (S'.body (.inl l)) (S.body l)
  act : ∀ s u o (a : Ans o) s', S'.sem s (place u) ⟨.inl o, a⟩ s' →
    S.sem (base s) u ⟨o, a⟩ (base s')
  hidden : ∀ s t i (a : J i) s', S'.sem s t ⟨.inr i, a⟩ s' → base s' = base s
  others : ∀ s t o (a : Ans o) s', S'.sem s t ⟨.inl o, a⟩ s' → ∃ u, t = place u
  start : ∀ s u p' s', S'.start s (place u) p' s' →
    ∃ p, Shadows SameEnd p' p ∧ S.start (base s) u p (base s')
  start_hidden : ∀ s t p' s', (∀ u, t ≠ place u) → S'.start s t p' s' → base s' = base s
  halt : ∀ s s', ¬ S'.halt s s'

/-- A thread shows another: what is seen of what it did, and what it has left. -/
structure Thread.Shows (th' : Thread (Op ⊕ I) (SumAns Ans J) (L ⊕ M) R) (th : Thread Op Ans L R) :
    Prop where
  hist : th.hist = th'.hist.filterMap visible
  rest : Shadows SameEnd th'.rest th.rest
  live : th.live = th'.live

namespace Hiding

variable {S' : System (Op ⊕ I) (SumAns Ans J) (L ⊕ M) R σ'} {S : System Op Ans L R σ}
  (H : Hiding S' S)

/-- A pool shows another: its base state, and its visible threads. -/
structure Shows (c' : Pool (Op ⊕ I) (SumAns Ans J) (L ⊕ M) R σ') (c : Pool Op Ans L R σ) :
    Prop where
  shared : c.shared = H.base c'.shared
  threads : ∀ u, Option.Rel Thread.Shows (c'.threads (H.place u)) (c.threads u)

variable {c' : Pool (Op ⊕ I) (SumAns Ans J) (L ⊕ M) R σ'} {c : Pool Op Ans L R σ}

/-- A visible thread is there, and shown. -/
theorem Shows.thread {H : Hiding S' S} (h : H.Shows c' c) {u : Nat}
    {th' : Thread (Op ⊕ I) (SumAns Ans J) (L ⊕ M) R} (ht : c'.threads (H.place u) = some th') :
    ∃ th, c.threads u = some th ∧ th'.Shows th := by
  have hu := h.threads u
  rw [ht] at hu
  cases hc : c.threads u with
  | none => rw [hc] at hu; cases hu
  | some th =>
      rw [hc] at hu
      cases hu with
      | some hs => exact ⟨th, rfl, hs⟩

/-- Both pools replace the same thread. -/
theorem Shows.put {H : Hiding S' S} (h : H.Shows c' c) {u : Nat} {s' : σ'} {s : σ}
    {th' : Thread (Op ⊕ I) (SumAns Ans J) (L ⊕ M) R} {th : Thread Op Ans L R}
    (hs : s = H.base s') (ht : th'.Shows th) :
    H.Shows (c'.put s' (H.place u) th') (c.put s u th) := by
  refine ⟨hs, fun v => ?_⟩
  by_cases hv : v = u
  · subst hv
    rw [Pool.put_self, Pool.put_self]
    exact .some ht
  · rw [Pool.put_other _ _ _ (fun he => hv (H.injective he)), Pool.put_other _ _ _ hv]
    exact h.threads v

/-- A step that is not seen: the thread shows what it showed before, or it is not visible. -/
theorem Shows.unseen {H : Hiding S' S} (h : H.Shows c' c) {t : Nat} {s' : σ'}
    {th' : Thread (Op ⊕ I) (SumAns Ans J) (L ⊕ M) R} (hs : H.base s' = H.base c'.shared)
    (ht : ∀ u, t = H.place u → ∃ th, c.threads u = some th ∧ th'.Shows th) :
    H.Shows (c'.put s' t th') c := by
  refine ⟨?_, fun v => ?_⟩
  · rw [Pool.put_shared, hs]
    exact h.shared
  · by_cases hv : H.place v = t
    · obtain ⟨th, hth, hshows⟩ := ht v hv.symm
      rw [hv, Pool.put_self, hth]
      exact .some hshows
    · rw [Pool.put_other _ _ _ hv]
      exact h.threads v

/-- Every step of the larger system is one of the smaller, or is not seen. -/
theorem step {c'' : Pool (Op ⊕ I) (SumAns Ans J) (L ⊕ M) R σ'} (h : H.Shows c' c)
    (hs : Step S' c' c'') : ∃ d, (Step S c d ∨ d = c) ∧ H.Shows c'' d := by
  cases hs with
  | act t th' o k' a s' ht hl hr hsem =>
      cases o with
      | inl o =>
          obtain ⟨u, rfl⟩ := H.others _ _ _ _ _ hsem
          obtain ⟨th, hth, hshows⟩ := h.thread ht
          have hrest := hshows.rest
          rw [hr] at hrest
          obtain ⟨k, hk, hnext⟩ := hrest
          refine ⟨_, Or.inl (.act c u th o k a (H.base s') hth (hshows.live.trans hl) hk ?_),
            h.put rfl ⟨?_, hnext a, hshows.live⟩⟩
          · rw [h.shared]
            exact H.act _ _ _ _ _ hsem
          · simp [hshows.hist, visible]
      | inr i =>
          refine ⟨c, Or.inr rfl, h.unseen (H.hidden _ _ _ _ _ hsem) fun u hu => ?_⟩
          subst hu
          obtain ⟨th, hth, hshows⟩ := h.thread ht
          have hrest := hshows.rest
          rw [hr] at hrest
          refine ⟨th, hth, ?_, hrest a, hshows.live⟩
          simp [hshows.hist, visible]
  | again t th' l' ht hl hr =>
      by_cases hvisible : ∃ u, t = H.place u
      · obtain ⟨u, rfl⟩ := hvisible
        obtain ⟨th, hth, hshows⟩ := h.thread ht
        have hrest := hshows.rest
        rw [hr] at hrest
        obtain ⟨x, hx, hsame⟩ := hrest
        cases l' with
        | inl l =>
            cases hsame
            refine ⟨_, Or.inl (.again c u th l hth (hshows.live.trans hl) hx),
              h.put h.shared ⟨hshows.hist, H.body l, hshows.live⟩⟩
        | inr m => exact hsame.elim
      · exact ⟨c, Or.inr rfl, h.unseen rfl fun u hu => absurd ⟨u, hu⟩ hvisible⟩
  | start t p' s' ht hstart =>
      by_cases hvisible : ∃ u, t = H.place u
      · obtain ⟨u, rfl⟩ := hvisible
        obtain ⟨p, hp, hs⟩ := H.start _ _ _ _ hstart
        have hu := h.threads u
        rw [ht] at hu
        have hfree : c.threads u = none := by
          cases hc : c.threads u with
          | none => rfl
          | some th => rw [hc] at hu; cases hu
        refine ⟨_, Or.inl (.start c u p (H.base s') hfree ?_), h.put rfl ⟨rfl, hp, rfl⟩⟩
        rw [h.shared]
        exact hs
      · have hother : ∀ u, t ≠ H.place u := fun u hu => hvisible ⟨u, hu⟩
        exact ⟨c, Or.inr rfl, h.unseen (H.start_hidden _ _ _ _ hother hstart)
          fun u hu => absurd hu (hother u)⟩
  | halt s' hs => exact absurd hs (H.halt _ _)

/-- Every reachable pool of the larger system shows a reachable pool of the smaller one. -/
theorem reach {s₀ : σ'} (hr : Reach S' (.idle s₀) c') :
    ∃ c, Reach S (.idle (H.base s₀)) c ∧ H.Shows c' c := by
  induction hr with
  | refl => exact ⟨_, .refl, rfl, fun _ => .none⟩
  | tail _ hs ih =>
      obtain ⟨c, hc, hshows⟩ := ih
      obtain ⟨d, hd, hshows'⟩ := H.step hshows hs
      rcases hd with hd | rfl
      · exact ⟨d, hc.tail hd, hshows'⟩
      · exact ⟨d, hc, hshows'⟩

end Hiding

end Interact
