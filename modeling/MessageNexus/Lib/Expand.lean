/-
  File:      MessageNexus/Lib/Expand.lean
  Subject:   OPERATIONS THAT ARE PROGRAMS THEMSELVES. The threads of a system perform operations; in
             a finer system each of these is a program over finer operations, and the threads
             interleave inside it. Where only the last step of such a program is seen by the others,
             the coarse system shows all that the fine one does.

  * `Prog.expand` -- a program with each operation replaced by its expansion;
  * `Runs`, `Expanded` -- the events of a program without its environment, and the fine history of
    a coarse one; `Stands` -- what is left of a fine program, and how far it is in its operation;
  * `Expansion` -- what a fine system has to keep to: inside an operation nothing of the coarse
    state changes, and its last step does what the coarse operation does;
  * `Expansion.reach` -- every reachable fine pool shows a reachable coarse one.
-/
import MessageNexus.Lib.Pool

namespace Interact

variable {Op Op' : Type} {Ans : Op → Type} {Ans' : Op' → Type} {L R σ σ' α β : Type}

/-! ## 1. Programs and histories -/

/-- The program with each operation replaced by its expansion. -/
def Prog.expand (f : (o : Op) → Prog Op' Ans' (Ans o)) : Prog Op Ans α → Prog Op' Ans' α
  | .ret a => .ret a
  | .ask o k => f o >>= fun a => (k a).expand f

/-- The events of a program, whatever its environment. -/
inductive Runs : Prog Op Ans α → List (Event Op Ans) → Prog Op Ans α → Prop where
  | here (p : Prog Op Ans α) : Runs p [] p
  | ask {o : Op} {k : Ans o → Prog Op Ans α} {es : List (Event Op Ans)} {q : Prog Op Ans α}
      (a : Ans o) (h : Runs (k a) es q) : Runs (.ask o k) (⟨o, a⟩ :: es) q

section Programs

variable {p q : Prog Op Ans α} {es : List (Event Op Ans)}

theorem Runs.snoc {o : Op} {k : Ans o → Prog Op Ans α} (h : Runs p es (.ask o k)) (a : Ans o) :
    Runs p (es ++ [⟨o, a⟩]) (k a) := by
  generalize hq : Prog.ask o k = r at h
  induction h with
  | here p =>
      subst hq
      exact .ask a (.here _)
  | ask a' _ ih => exact .ask a' (ih hq)

theorem Runs.ret_inv {a : α} (h : Runs (.ret a : Prog Op Ans α) es q) : es = [] ∧ q = .ret a := by
  cases h
  exact ⟨rfl, rfl⟩

/-- What a program uses is used in all that is left of it. -/
theorem Runs.uses {P : Op → Prop} (h : Runs p es q) (hp : Uses P p) :
    Uses P q ∧ ∀ e ∈ es, P e.op := by
  induction h with
  | here p => exact ⟨hp, fun e he => by cases he⟩
  | ask a _ ih =>
      obtain ⟨hq, hall⟩ := ih (hp.2 a)
      refine ⟨hq, fun e he => ?_⟩
      rcases List.mem_cons.mp he with rfl | he
      · exact hp.1
      · exact hall e he

/-- The logic of histories, for a program that ended. -/
theorem Runs.holds {G : List (Event Op Ans) → Op → Prop} {Q : α → List (Event Op Ans) → Prop}
    (h : Runs p es q) {before : List (Event Op Ans)} (hp : Holds anyAnswer G Q p before) :
    Holds anyAnswer G Q q (before ++ es) := by
  induction h generalizing before with
  | here p => simpa using hp
  | ask a _ ih =>
      have h' := ih (hp.2 a trivial)
      rwa [List.append_assoc] at h'

end Programs

section Expansions

variable (f : (o : Op) → Prog Op' Ans' (Ans o))

/-- What holds of every expansion holds of an expanded program. -/
theorem holds_expand {G : List (Event Op' Ans') → Op' → Prop} {I : List (Event Op' Ans') → Prop}
    (hf : ∀ o h, I h → Holds anyAnswer G (fun _ h' => I h') (f o) h) (p : Prog Op Ans α)
    {h : List (Event Op' Ans')} (hI : I h) :
    Holds anyAnswer G (fun _ h' => I h') (p.expand f) h := by
  induction p generalizing h with
  | ret a => exact hI
  | ask o k ih =>
      refine (holds_bind (f o) _ h).mpr ?_
      exact (hf o h hI).mono (fun _ _ hG => hG) fun a h' hI' => ih a hI'

/-- The first history is the second one, with each operation expanded. -/
inductive Expanded : List (Event Op' Ans') → List (Event Op Ans) → Prop where
  | nil : Expanded [] []
  | snoc {es part : List (Event Op' Ans')} {h : List (Event Op Ans)} {o : Op} {a : Ans o}
      (hh : Expanded es h) (hr : Runs (f o) part (.ret a)) : Expanded (es ++ part) (h ++ [⟨o, a⟩])

/-- What is left of the fine program, where the coarse one has this left and the events `part`
    belong to its next operation. -/
def Stands : Prog Op Ans α → List (Event Op' Ans') → Prog Op' Ans' α → Prop
  | .ret a, part, p' => part = [] ∧ p' = .ret a
  | .ask o k, part, p' => ∃ i k', Runs (f o) part (.ask i k') ∧
      p' = .ask i fun a => k' a >>= fun b => (k b).expand f

theorem stands_expand {f : (o : Op) → Prog Op' Ans' (Ans o)} (hbegins : ∀ o a, f o ≠ .ret a)
    (p : Prog Op Ans α) : Stands f p [] (p.expand f) := by
  cases p with
  | ret a => exact ⟨rfl, rfl⟩
  | ask o k =>
      cases ho : f o with
      | ret a => exact absurd ho (hbegins o a)
      | ask i k' =>
          refine ⟨i, k', ho ▸ .here _, ?_⟩
          rw [Prog.expand, ho]
          rfl

end Expansions

/-! ## 2. Systems -/

/-- A fine system with the same threads, in which every operation is a program. -/
structure Expansion (S' : System Op' Ans' L R σ') (S : System Op Ans L R σ) where
  expand : (o : Op) → Prog Op' Ans' (Ans o)
  base : σ' → σ
  begins : ∀ o a, expand o ≠ .ret a
  body : ∀ l, S'.body l = (S.body l).expand expand
  inner : ∀ o part i (k : Ans' i → Prog Op' Ans' (Ans o)) a i' k', Runs (expand o) part (.ask i k) →
    k a = .ask i' k' → ∀ s t s', S'.sem s t ⟨i, a⟩ s' → base s' = base s
  last : ∀ o part i (k : Ans' i → Prog Op' Ans' (Ans o)) a r, Runs (expand o) part (.ask i k) →
    k a = .ret r → ∀ s t s', S'.sem s t ⟨i, a⟩ s' → S.sem (base s) t ⟨o, r⟩ (base s')
  start : ∀ s t p' s', S'.start s t p' s' →
    ∃ p : Prog Op Ans (L ⊕ R), p' = p.expand expand ∧ S.start (base s) t p (base s')
  halt : ∀ s s', S'.halt s s' → S.halt (base s) (base s')

/-- The fine thread has done what the coarse one has, and `part` of its next operation. -/
structure Thread.Expands (f : (o : Op) → Prog Op' Ans' (Ans o)) (th' : Thread Op' Ans' L R)
    (th : Thread Op Ans L R) (part : List (Event Op' Ans')) : Prop where
  hist : ∃ before, th'.hist = before ++ part ∧ Expanded f before th.hist
  rest : Stands f th.rest part th'.rest
  live : th.live = th'.live

namespace Expansion

variable {S' : System Op' Ans' L R σ'} {S : System Op Ans L R σ} (E : Expansion S' S)

/-- A fine pool shows a coarse one: its base state, and its threads as far as they are done with
    an operation. -/
structure Shows (c' : Pool Op' Ans' L R σ') (c : Pool Op Ans L R σ) : Prop where
  shared : c.shared = E.base c'.shared
  threads : ∀ t, Option.Rel (fun th' th => ∃ part, Thread.Expands E.expand th' th part)
    (c'.threads t) (c.threads t)

variable {E} {c' c'' : Pool Op' Ans' L R σ'} {c : Pool Op Ans L R σ}

/-- A fine thread shows a coarse one. -/
theorem Shows.thread (h : E.Shows c' c) {t : Nat} {th' : Thread Op' Ans' L R}
    (ht : c'.threads t = some th') :
    ∃ th part, c.threads t = some th ∧ Thread.Expands E.expand th' th part := by
  have hrel := h.threads t
  rw [ht] at hrel
  cases hc : c.threads t with
  | none =>
      rw [hc] at hrel
      cases hrel
  | some th =>
      rw [hc] at hrel
      cases hrel with
      | some hs =>
          obtain ⟨part, hpart⟩ := hs
          exact ⟨th, part, rfl, hpart⟩

/-- A number is free in both pools. -/
theorem Shows.free (h : E.Shows c' c) {t : Nat} (ht : c'.threads t = none) :
    c.threads t = none := by
  have hrel := h.threads t
  rw [ht] at hrel
  cases hc : c.threads t with
  | none => rfl
  | some th =>
      rw [hc] at hrel
      cases hrel

/-- Both pools replace the same thread. -/
theorem Shows.put (h : E.Shows c' c) {t : Nat} {s' : σ'} {s : σ} {th' : Thread Op' Ans' L R}
    {th : Thread Op Ans L R} (part : List (Event Op' Ans')) (hs : s = E.base s')
    (ht : Thread.Expands E.expand th' th part) : E.Shows (c'.put s' t th') (c.put s t th) := by
  refine ⟨hs, fun u => ?_⟩
  by_cases hu : u = t
  · subst hu
    rw [Pool.put_self, Pool.put_self]
    exact .some ⟨part, ht⟩
  · rw [Pool.put_other _ _ _ hu, Pool.put_other _ _ _ hu]
    exact h.threads u

/-- The fine pool replaces a thread by one that shows the same. -/
theorem Shows.unseen (h : E.Shows c' c) {t : Nat} {s' : σ'} {th' : Thread Op' Ans' L R}
    {th : Thread Op Ans L R} (part : List (Event Op' Ans')) (hs : E.base s' = E.base c'.shared)
    (hth : c.threads t = some th) (ht : Thread.Expands E.expand th' th part) :
    E.Shows (c'.put s' t th') c := by
  have hput := h.put (t := t) part (h.shared.trans hs.symm) ht
  rwa [Pool.put_same hth] at hput

/-- Every step of the fine system is one of the coarse system, or is inside an operation. -/
theorem step (h : E.Shows c' c) (hs : Step S' c' c'') :
    ∃ d, (Step S c d ∨ d = c) ∧ E.Shows c'' d := by
  cases hs with
  | act t th' i kk a s' ht hl hr hsem =>
      obtain ⟨th, part, hth, hexp⟩ := h.thread ht
      obtain ⟨before, hhist, hbefore⟩ := hexp.hist
      have hrest := hexp.rest
      rw [hr] at hrest
      cases hnext : th.rest with
      | ret x =>
          rw [hnext] at hrest
          exact absurd hrest.2 (by simp)
      | ask o k =>
          rw [hnext] at hrest
          obtain ⟨i', k', hruns, he⟩ := hrest
          cases he
          have hmore := hruns.snoc a
          cases hk : k' a with
          | ask i'' k'' =>
              -- still inside: nothing is seen
              refine ⟨c, Or.inr rfl, h.unseen (part ++ [⟨i, a⟩])
                (E.inner _ _ _ _ _ _ _ hruns hk _ _ _ hsem) hth
                ⟨⟨before, ?_, hbefore⟩, ?_, hexp.live⟩⟩
              · simp [hhist]
              · rw [hk] at hmore
                rw [hnext]
                refine ⟨i'', k'', hmore, ?_⟩
                simp only [hk]
                rfl
          | ret r =>
              -- the operation is over: the coarse thread performs it
              rw [hk] at hmore
              have hact := E.last _ _ _ _ _ _ hruns hk _ _ _ hsem
              rw [← h.shared] at hact
              refine ⟨_, Or.inl (.act c t th o k r (E.base s') hth (hexp.live.trans hl) hnext hact),
                h.put [] rfl ⟨⟨before ++ (part ++ [⟨i, a⟩]), ?_, .snoc hbefore hmore⟩,
                  ?_, hexp.live⟩⟩
              · simp [hhist]
              · simp only [hk]
                exact stands_expand E.begins (k r)
  | again t th' l ht hl hr =>
      obtain ⟨th, part, hth, hexp⟩ := h.thread ht
      have hrest := hexp.rest
      rw [hr] at hrest
      cases hnext : th.rest with
      | ask o k =>
          rw [hnext] at hrest
          obtain ⟨i, k', _, he⟩ := hrest
          cases he
      | ret x =>
          rw [hnext] at hrest
          obtain ⟨hpart, he⟩ := hrest
          cases he
          refine ⟨_, Or.inl (.again c t th l hth (hexp.live.trans hl) hnext),
            h.put part h.shared ⟨hexp.hist, ?_, hexp.live⟩⟩
          rw [E.body, hpart]
          exact stands_expand E.begins (S.body l)
  | start t p' s' ht hstart =>
      obtain ⟨p, rfl, hs⟩ := E.start _ _ _ _ hstart
      rw [← h.shared] at hs
      refine ⟨_, Or.inl (.start c t p (E.base s') (h.free ht) hs),
        h.put [] rfl ⟨⟨[], rfl, .nil⟩, stands_expand E.begins p, rfl⟩⟩
  | halt s' hs =>
      have hhalt := E.halt _ _ hs
      rw [← h.shared] at hhalt
      refine ⟨_, Or.inl (.halt c (E.base s') hhalt), rfl, fun t => ?_⟩
      cases ht : c'.threads t with
      | none =>
          simp only [h.free ht, ht, Option.map_none]
          exact .none
      | some th' =>
          obtain ⟨th, part, hth, hexp⟩ := h.thread ht
          simp only [hth, ht, Option.map_some]
          exact .some ⟨part, hexp.hist, hexp.rest, rfl⟩

/-- Every reachable fine pool shows a reachable coarse one. -/
theorem reach {s₀ : σ'} (hr : Reach S' (.idle s₀) c') :
    ∃ c, Reach S (.idle (E.base s₀)) c ∧ E.Shows c' c := by
  induction hr with
  | refl => exact ⟨_, .refl, rfl, fun _ => .none⟩
  | tail _ hs ih =>
      obtain ⟨c, hc, hshows⟩ := ih
      obtain ⟨d, hd, hshows'⟩ := step hshows hs
      rcases hd with hd | rfl
      · exact ⟨d, hc.tail hd, hshows'⟩
      · exact ⟨d, hc, hshows'⟩

end Expansion

end Interact
