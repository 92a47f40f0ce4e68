/-
  File:      MessageNexus/Lib/Prog.lean
  Subject:   PROGRAMS THAT ASK THEIR ENVIRONMENT. A sequential program performs operations and
             continues with whatever the environment answers; this file gives such programs a
             meaning (the histories they can produce) and a logic for these histories.

  * `Prog Op Ans α` -- a finite program over the operations `Op`; the answer to `o` has the type
    `Ans o`. A program that loops is a program with result `L ⊕ R` beside a `body`: the result
    `inl l` means "go on with `body l`", `inr r` means "ended with `r`";
  * `Trace body p es q` -- from `p` the events `es` (operation and answer) lead to the rest `q`;
  * `Holds Adm G Q p h` -- after the history `h`, whatever the environment answers within `Adm`,
    every operation of `p` is issued where `G` allows it, and `Q` holds of the result;
  * `Trace.holds`, `Trace.issued` -- what `Holds` says of a program is true of every trace of it,
    loops included (`J` is the invariant of the loop);
  * `Prog.eval` -- the result of a program under fixed answers, `Prog.lift` -- a program over
    operations that are part of larger ones;
  * `drive` -- a program run against a scripted environment;
  * `Executes sem p s es q s'` -- from `p`, over a state that every operation changes as `sem` says,
    the events `es` lead to the rest `q`; a program that is stopped leaves such a rest. `Leads` is
    the same for some events.
-/

import Mathlib.Data.List.Induction

namespace Interact

variable {Op : Type} {Ans : Op → Type} {α β L R : Type}

/-! ## 1. Programs -/

/-- A program over the operations `Op`: it ends with a result, or performs an operation and
    continues with the answer. -/
inductive Prog (Op : Type) (Ans : Op → Type) (α : Type) : Type where
  | ret (a : α) : Prog Op Ans α
  | ask (o : Op) (k : Ans o → Prog Op Ans α) : Prog Op Ans α

namespace Prog

/-- Sequencing: the continuation `f` runs on the result of the program. -/
def bind : Prog Op Ans α → (α → Prog Op Ans β) → Prog Op Ans β
  | .ret a, f => f a
  | .ask o k, f => .ask o fun a => (k a).bind f

instance : Monad (Prog Op Ans) where
  pure := .ret
  bind := bind

/-- One operation, whose answer is the result. -/
def perform (o : Op) : Prog Op Ans (Ans o) := .ask o .ret

end Prog

/-- One step of a history: an operation with the answer it got. -/
structure Event (Op : Type) (Ans : Op → Type) where
  op : Op
  ans : Ans op

/-! ## 2. Traces -/

/-- The events `es` lead from the first program to the second; at `inl l` the loop goes on
    with `body l`. -/
inductive Trace (body : L → Prog Op Ans (L ⊕ R)) :
    Prog Op Ans (L ⊕ R) → List (Event Op Ans) → Prog Op Ans (L ⊕ R) → Prop where
  | here (p : Prog Op Ans (L ⊕ R)) : Trace body p [] p
  | ask {o : Op} {k : Ans o → Prog Op Ans (L ⊕ R)} {es : List (Event Op Ans)}
      {q : Prog Op Ans (L ⊕ R)} (a : Ans o) (h : Trace body (k a) es q) :
      Trace body (.ask o k) (⟨o, a⟩ :: es) q
  | again {l : L} {es : List (Event Op Ans)} {q : Prog Op Ans (L ⊕ R)}
      (h : Trace body (body l) es q) : Trace body (.ret (.inl l)) es q

section Traces

variable {body : L → Prog Op Ans (L ⊕ R)} {p q r : Prog Op Ans (L ⊕ R)}
  {es fs : List (Event Op Ans)}

theorem Trace.trans (h1 : Trace body p es q) (h2 : Trace body q fs r) :
    Trace body p (es ++ fs) r := by
  induction h1 with
  | here p => exact h2
  | ask a _ ih => exact .ask a (ih h2)
  | again _ ih => exact .again (ih h2)

/-- A trace that stands before an operation is one event longer with any answer. -/
theorem Trace.snoc {o : Op} {k : Ans o → Prog Op Ans (L ⊕ R)} (h : Trace body p es (.ask o k))
    (a : Ans o) : Trace body p (es ++ [⟨o, a⟩]) (k a) :=
  h.trans (.ask a (.here _))

/-- A trace from an operation is empty, or begins with it. -/
theorem Trace.ask_inv {o : Op} {k : Ans o → Prog Op Ans (L ⊕ R)} {e : Event Op Ans}
    (h : Trace body (.ask o k) (e :: es) q) : ∃ a, e = ⟨o, a⟩ ∧ Trace body (k a) es q := by
  cases h with
  | ask a h => exact ⟨a, rfl, h⟩

/-- A trace from the end of a program is empty. -/
theorem Trace.ret_inv {r : R} (h : Trace body (.ret (.inr r)) es q) :
    es = [] ∧ q = .ret (.inr r) := by
  cases h
  exact ⟨rfl, rfl⟩

/-- A trace that stands at the end of a round of the loop enters the next one. -/
theorem Trace.enter {l : L} (h : Trace body p es (.ret (.inl l))) : Trace body p es (body l) := by
  have h' := h.trans (.again (.here (body l)))
  rwa [List.append_nil] at h'

end Traces

/-! ## 3. A logic of histories -/

section Logic

variable {Adm : List (Event Op Ans) → Event Op Ans → Prop} {G G' : List (Event Op Ans) → Op → Prop}
  {Q Q' : α → List (Event Op Ans) → Prop}

/-- After the history `h`, for all answers that `Adm` admits: every operation of the program is
    issued in its place (`G` of the history before it and the operation), and `Q` holds of the
    result and the history at its end. -/
def Holds (Adm : List (Event Op Ans) → Event Op Ans → Prop)
    (G : List (Event Op Ans) → Op → Prop) (Q : α → List (Event Op Ans) → Prop) :
    Prog Op Ans α → List (Event Op Ans) → Prop
  | .ret a, h => Q a h
  | .ask o k, h => G h o ∧ ∀ a, Adm h ⟨o, a⟩ → Holds Adm G Q (k a) (h ++ [⟨o, a⟩])

@[simp] theorem holds_pure (a : α) (h : List (Event Op Ans)) :
    Holds Adm G Q (pure a : Prog Op Ans α) h ↔ Q a h := Iff.rfl

@[simp] theorem holds_perform (o : Op) {Q : Ans o → List (Event Op Ans) → Prop}
    (h : List (Event Op Ans)) :
    Holds Adm G Q (Prog.perform o) h ↔ G h o ∧ ∀ a, Adm h ⟨o, a⟩ → Q a (h ++ [⟨o, a⟩]) := Iff.rfl

/-- Sequencing: the continuation has to hold after whatever the first part ended with. -/
@[simp] theorem holds_bind {Q : β → List (Event Op Ans) → Prop} (p : Prog Op Ans α)
    (f : α → Prog Op Ans β) (h : List (Event Op Ans)) :
    Holds Adm G Q (p >>= f) h ↔ Holds Adm G (fun a h' => Holds Adm G Q (f a) h') p h := by
  induction p generalizing h with
  | ret a => exact Iff.rfl
  | ask o k ih =>
      refine and_congr_right fun _ => forall_congr' fun a => imp_congr_right fun _ => ?_
      exact ih a (h ++ [⟨o, a⟩])

/-- Weaker conditions hold as well. -/
theorem Holds.mono (hG : ∀ h o, G h o → G' h o) (hQ : ∀ a h, Q a h → Q' a h)
    {p : Prog Op Ans α} {h : List (Event Op Ans)} (hp : Holds Adm G Q p h) :
    Holds Adm G' Q' p h := by
  induction p generalizing h with
  | ret a => exact hQ a h hp
  | ask o k ih => exact ⟨hG h o hp.1, fun a ha => ih a (hp.2 a ha)⟩

/-- A condition on all histories of a program holds where the program stands. -/
theorem Holds.now {P : List (Event Op Ans) → Prop} {p : Prog Op Ans α}
    {h : List (Event Op Ans)} (hp : Holds Adm (fun h' _ => P h') (fun _ h' => P h') p h) : P h := by
  cases p with
  | ret a => exact hp
  | ask o k => exact hp.1

/-- Every operation of the program is one of `P`. -/
def Uses (P : Op → Prop) : Prog Op Ans α → Prop
  | .ret _ => True
  | .ask o k => P o ∧ ∀ a, Uses P (k a)

theorem Uses.bind {P : Op → Prop} {p : Prog Op Ans α} {f : α → Prog Op Ans β} (hp : Uses P p)
    (hf : ∀ a, Uses P (f a)) : Uses P (p >>= f) := by
  induction p with
  | ret a => exact hf a
  | ask o k ih => exact ⟨hp.1, fun a => ih a (hp.2 a)⟩

/-- A condition that the operations of a program keep, and that puts them in their places, holds
    all along it. -/
theorem Uses.holds {P : Op → Prop} {I : List (Event Op Ans) → Prop}
    (hstep : ∀ h e, I h → P e.op → I (h ++ [e])) (hG : ∀ h o, I h → P o → G h o)
    {p : Prog Op Ans α} (hp : Uses P p) {h : List (Event Op Ans)} (hI : I h) :
    Holds Adm G (fun _ h' => I h') p h := by
  induction p generalizing h with
  | ret a => exact hI
  | ask o k ih =>
      exact ⟨hG h o hI hp.1, fun a _ => ih a (hp.2 a) (hstep h ⟨o, a⟩ hI hp.1)⟩

/-- A program performs what it uses, whatever is asked of its end. -/
theorem Uses.performs {P : Op → Prop} {p : Prog Op Ans α} (hp : Uses P p)
    {h : List (Event Op Ans)} (hQ : ∀ a h', Q a h') : Holds Adm (fun _ o => P o) Q p h :=
  (hp.holds (I := fun _ => True) (fun _ _ _ _ => trivial) (fun _ _ _ ho => ho) trivial).mono
    (fun _ _ hG => hG) fun a h' _ => hQ a h'

/-- The history before the program stays a prefix of every history in it. -/
theorem Holds.prefix {p : Prog Op Ans α} {h : List (Event Op Ans)} (hp : Holds Adm G Q p h) :
    Holds Adm (fun h' o => h <+: h' ∧ G h' o) (fun a h' => h <+: h' ∧ Q a h') p h := by
  suffices hs : ∀ h', h <+: h' → Holds Adm G Q p h' →
      Holds Adm (fun h' o => h <+: h' ∧ G h' o) (fun a h' => h <+: h' ∧ Q a h') p h' from
    hs h List.prefix_rfl hp
  clear hp
  induction p with
  | ret a => exact fun h' hh hp => ⟨hh, hp⟩
  | ask o k ih =>
      intro h' hh hp
      refine ⟨⟨hh, hp.1⟩, fun a ha => ih a _ ?_ (hp.2 a ha)⟩
      exact hh.trans (List.prefix_append _ _)

/-- Every event of the list satisfies `A` together with the history before it. -/
def Along (A : List (Event Op Ans) → Event Op Ans → Prop) :
    List (Event Op Ans) → List (Event Op Ans) → Prop
  | _, [] => True
  | h, e :: es => A h e ∧ Along A (h ++ [e]) es

theorem along_append {A : List (Event Op Ans) → Event Op Ans → Prop}
    (h es fs : List (Event Op Ans)) :
    Along A h (es ++ fs) ↔ Along A h es ∧ Along A (h ++ es) fs := by
  induction es generalizing h with
  | nil => simp [Along]
  | cons e es ih => simp [Along, ih, and_assoc]

/-- An event of a list that satisfies `A` all along satisfies it in its place. -/
theorem Along.at {A : List (Event Op Ans) → Event Op Ans → Prop} {before after : List (Event Op Ans)}
    {e : Event Op Ans} (h : Along A [] (before ++ e :: after)) : A before e := by
  rw [along_append] at h
  exact h.2.1

theorem Along.mono {A B : List (Event Op Ans) → Event Op Ans → Prop}
    {h es : List (Event Op Ans)} (ha : Along A h es) (hAB : ∀ h e, A h e → B h e) :
    Along B h es := by
  induction es generalizing h with
  | nil => trivial
  | cons e es ih => exact ⟨hAB h e ha.1, ih ha.2⟩

theorem along_of_forall {A : Event Op Ans → Prop} {h es : List (Event Op Ans)}
    (ha : ∀ e ∈ es, A e) : Along (fun _ e => A e) h es := by
  induction es generalizing h with
  | nil => trivial
  | cons e es ih =>
      exact ⟨ha e List.mem_cons_self, ih fun e' he => ha e' (List.mem_cons_of_mem _ he)⟩

theorem Along.forall {A : Event Op Ans → Prop} {h es : List (Event Op Ans)}
    (ha : Along (fun _ e => A e) h es) : ∀ e ∈ es, A e := by
  induction es generalizing h with
  | nil => exact nofun
  | cons e es ih => exact List.forall_mem_cons.mpr ⟨ha.1, ih ha.2⟩

/-- An environment that may answer anything. -/
def anyAnswer : List (Event Op Ans) → Event Op Ans → Prop := fun _ _ => True

theorem along_any (h es : List (Event Op Ans)) : Along anyAnswer h es := by
  induction es generalizing h with
  | nil => trivial
  | cons e es ih => exact ⟨trivial, ih _⟩

/-- The operations of the events are issued in their places. -/
abbrev Issued (G : List (Event Op Ans) → Op → Prop) : List (Event Op Ans) → Prop :=
  Along (fun h e => G h e.op) []

/-- Induction along a history whose operations are issued in their places. -/
theorem issued_induction {P : List (Event Op Ans) → Prop} (nil : P [])
    (snoc : ∀ h e, Issued G h → G h e.op → P h → P (h ++ [e])) (h : List (Event Op Ans))
    (hi : Issued G h) : P h := by
  induction h using List.reverseRecOn with
  | nil => exact nil
  | append_singleton h e ih =>
      obtain ⟨hh, he, _⟩ := (along_append [] h [e]).mp hi
      exact snoc h e hh he (ih hh)

section Loops

variable {body : L → Prog Op Ans (L ⊕ R)} {J : L → List (Event Op Ans) → Prop}
  {E : R → List (Event Op Ans) → Prop} {p q : Prog Op Ans (L ⊕ R)} {es : List (Event Op Ans)}

/-- The logic is sound for loops: where every round keeps the loop invariant `J`, what holds of
    the program after `h` holds of the rest after every admitted trace. -/
theorem Trace.holds (hbody : ∀ l h, J l h → Holds Adm G (Sum.elim J E) (body l) h)
    (ht : Trace body p es q) {h : List (Event Op Ans)} (hp : Holds Adm G (Sum.elim J E) p h)
    (ha : Along Adm h es) : Holds Adm G (Sum.elim J E) q (h ++ es) := by
  induction ht generalizing h with
  | here p => simpa using hp
  | ask a _ ih =>
      have h' := ih (hp.2 a ha.1) ha.2
      rwa [List.append_assoc] at h'
  | again _ ih => exact ih (hbody _ _ hp) ha

/-- Every operation of an admitted trace was issued in its place. -/
theorem Trace.issued (hbody : ∀ l h, J l h → Holds Adm G (Sum.elim J E) (body l) h)
    (ht : Trace body p es q) {h : List (Event Op Ans)} (hp : Holds Adm G (Sum.elim J E) p h)
    (ha : Along Adm h es) : Along (fun h e => G h e.op) h es := by
  induction ht generalizing h with
  | here p => trivial
  | ask a _ ih => exact ⟨hp.1, ih (hp.2 a ha.1) ha.2⟩
  | again _ ih => exact ih (hbody _ _ hp) ha

/-- What a program that ended with `r` satisfies: the final condition. -/
theorem Trace.ended (hbody : ∀ l h, J l h → Holds Adm G (Sum.elim J E) (body l) h) {r : R}
    (ht : Trace body p es (.ret (.inr r))) (hp : Holds Adm G (Sum.elim J E) p [])
    (ha : Along Adm [] es) : E r es := by
  simpa [Holds] using ht.holds hbody hp ha

end Loops

end Logic

/-! ## 4. Running against a scripted environment -/

section Drive

variable {σ : Type} (body : L → Prog Op Ans (L ⊕ R))
  (next : σ → List (Event Op Ans) → (o : Op) → Option (Ans o × σ))

/-- At most `n` operations and rounds of the program against an environment with the state `σ`
    that answers by its state and the history, or stops; the state, the events and the rest. -/
def drive : Nat → σ → List (Event Op Ans) → Prog Op Ans (L ⊕ R) →
    σ × List (Event Op Ans) × Prog Op Ans (L ⊕ R)
  | 0, s, h, p => (s, h, p)
  | n + 1, s, h, .ask o k =>
      match next s h o with
      | none => (s, h, .ask o k)
      | some (a, s') => drive n s' (h ++ [⟨o, a⟩]) (k a)
  | n + 1, s, h, .ret (.inl l) => drive n s h (body l)
  | _ + 1, s, h, .ret (.inr r) => (s, h, .ret (.inr r))

variable {body next}

/-- What is driven is a run of the program. -/
theorem Trace.drive {start p : Prog Op Ans (L ⊕ R)} {s : σ} {h : List (Event Op Ans)} (n : Nat)
    (ht : Trace body start h p) : Trace body start (Interact.drive body next n s h p).2.1
      (Interact.drive body next n s h p).2.2 := by
  induction n generalizing s h p with
  | zero => exact ht
  | succ n ih =>
      match p with
      | .ret (.inr r) => exact ht
      | .ret (.inl l) => exact ih ht.enter
      | .ask o k =>
          simp only [Interact.drive]
          cases next s h o with
          | none => exact ht
          | some r => exact ih (ht.snoc r.1)

end Drive

/-- The result of a program that has ended. -/
def Prog.outcome : Prog Op Ans (L ⊕ R) → Option R
  | .ret (.inr r) => some r
  | _ => none

theorem Prog.outcome_some {p : Prog Op Ans (L ⊕ R)} {r : R} (h : p.outcome = some r) :
    p = .ret (.inr r) := by
  match p with
  | .ret (.inl l) => cases h
  | .ret (.inr r') =>
      cases h
      rfl
  | .ask o k => cases h

/-! ## 5. One run under fixed answers -/

namespace Prog

/-- The result of the program when every operation is answered by `answer`. -/
def eval (answer : (o : Op) → Ans o) : Prog Op Ans α → α
  | .ret a => a
  | .ask o k => (k (answer o)).eval answer

variable {Op' : Type} {Ans' : Op' → Type}

/-- The program over the operations `Op` as one over `Op'`, which embed them. -/
def lift (f : Op → Op') (g : (o : Op) → Ans' (f o) → Ans o) : Prog Op Ans α → Prog Op' Ans' α
  | .ret a => .ret a
  | .ask o k => .ask (f o) fun a => (k (g o a)).lift f g

/-- A lifted program uses the embedded operations only. -/
theorem uses_lift {P : Op' → Prop} {f : Op → Op'} {g : (o : Op) → Ans' (f o) → Ans o}
    (hP : ∀ o, P (f o)) (p : Prog Op Ans α) : Uses P (p.lift f g) := by
  induction p with
  | ret a => trivial
  | ask o k ih => exact ⟨hP o, fun a => ih (g o a)⟩

section Eval

variable (answer : (o : Op) → Ans o)

@[simp] theorem eval_pure (a : α) : (pure a : Prog Op Ans α).eval answer = a := rfl

@[simp] theorem eval_perform (o : Op) : (perform o : Prog Op Ans (Ans o)).eval answer = answer o :=
  rfl

@[simp] theorem eval_bind (p : Prog Op Ans α) (f : α → Prog Op Ans β) :
    (p >>= f).eval answer = (f (p.eval answer)).eval answer := by
  induction p with
  | ret a => rfl
  | ask o k ih => exact ih (answer o)

@[simp] theorem eval_lift (f : Op → Op') (g : (o : Op) → Ans' (f o) → Ans o)
    (answer' : (o : Op') → Ans' o) (p : Prog Op Ans α) :
    (p.lift f g).eval answer' = p.eval fun o => g o (answer' (f o)) := by
  induction p with
  | ret a => rfl
  | ask o k ih => exact ih _

end Eval

end Prog

/-! ## 6. Running over a state -/

section Execution

variable {σ : Type} {sem : σ → Event Op Ans → σ → Prop}

inductive Executes (sem : σ → Event Op Ans → σ → Prop) :
    Prog Op Ans α → σ → List (Event Op Ans) → Prog Op Ans α → σ → Prop where
  | refl (p : Prog Op Ans α) (s : σ) : Executes sem p s [] p s
  | step {o : Op} {k : Ans o → Prog Op Ans α} {a : Ans o} {s s' s'' : σ}
      {es : List (Event Op Ans)} {q : Prog Op Ans α} (hsem : sem s ⟨o, a⟩ s')
      (hrest : Executes sem (k a) s' es q s'') :
      Executes sem (.ask o k) s (⟨o, a⟩ :: es) q s''

/-- A program with a result is over. -/
theorem Executes.ret_inv {r : α} {q : Prog Op Ans α} {s s' : σ} {es : List (Event Op Ans)}
    (h : Executes sem (.ret r) s es q s') : es = [] ∧ q = .ret r ∧ s' = s := by
  cases h
  exact ⟨rfl, rfl, rfl⟩

/-- A program that came to a result did its first operation. -/
theorem Executes.ask_inv {o : Op} {k : Ans o → Prog Op Ans α} {r : α} {s s'' : σ}
    {es : List (Event Op Ans)} (h : Executes sem (.ask o k) s es (.ret r) s'') :
    ∃ a s' rest, es = ⟨o, a⟩ :: rest ∧ sem s ⟨o, a⟩ s' ∧ Executes sem (k a) s' rest (.ret r) s'' := by
  cases h with
  | step hsem hrest => exact ⟨_, _, _, rfl, hsem, hrest⟩

/-- Some events lead there. -/
def Leads (sem : σ → Event Op Ans → σ → Prop) (p : Prog Op Ans α) (s : σ) (q : Prog Op Ans α)
    (s' : σ) : Prop := ∃ es, Executes sem p s es q s'

theorem Leads.refl (p : Prog Op Ans α) (s : σ) : Leads sem p s p s := ⟨[], .refl p s⟩

theorem Leads.step {o : Op} {k : Ans o → Prog Op Ans α} {a : Ans o} {s s' s'' : σ}
    {q : Prog Op Ans α} (hsem : sem s ⟨o, a⟩ s') (hrest : Leads sem (k a) s' q s'') :
    Leads sem (.ask o k) s q s'' := by
  obtain ⟨es, hrest⟩ := hrest
  exact ⟨_, .step hsem hrest⟩

end Execution

end Interact
