/-
  File:      MessageNexus/Lib/Relay.lean
  Subject:   RELAYING A STREAM THAT ENDS BY WHAT IT SAYS. A relay passes the items of a stream on,
             one for one, up to the first item that is the last one by its content, or up to the
             first input it cannot pass on, in whose place it puts one stop. A reader at the other
             end has to find that end from the outputs alone.

  * `Relay`, `Relayed` -- the relay, and what it put out for the inputs it read so far;
  * `Relayed.items`, `Relayed.length_eq` -- items before the last one, in front of a relayed stream;
    a stream that has ended, counted;
  * `Reader`, `Reader.finals`, `Reader.Open`, `Reader.EndsWith` -- a reader with a state, its
    judgements on a list of outputs, that it judges none of them final, and that it judges exactly
    the end of the list final;
  * `Relayed.endsWith` -- a reader that knows a stop, and judges the items as the relay does,
    judges exactly the end of the relayed stream final.
-/
import Mathlib.Data.List.Induction

namespace Interact

variable {ι φ ο σ : Type}

/-! ## 1. The relay -/

/-- A relay: the input in which an item comes, what is put out for the item, and whether the
    item is the last one. -/
structure Relay (ι φ ο : Type) where
  input : φ → ι
  output : φ → ο
  last : φ → Prop

/-- The outputs for the inputs read so far; `true` where the relay has ended. -/
inductive Relayed (R : Relay ι φ ο) (stop : ο → Prop) : Bool → List ι → List ο → Prop where
  | start : Relayed R stop false [] []
  | pending (i : ι) : Relayed R stop false [i] []
  | last (f : φ) (hl : R.last f) : Relayed R stop true [R.input f] [R.output f]
  | stop (i : ι) (o : ο) (hi : ∀ f, i ≠ R.input f) (ho : stop o) : Relayed R stop true [i] [o]
  | item (f : φ) (hl : ¬ R.last f) {d : Bool} {is : List ι} {os : List ο}
      (h : Relayed R stop d is os) : Relayed R stop d (R.input f :: is) (R.output f :: os)

section Relayed

variable {R : Relay ι φ ο} {stop : ο → Prop} {d : Bool} {is : List ι} {os : List ο}

/-- Items that are not the last one stand one for one in front of a relayed stream. -/
theorem Relayed.items (h : Relayed R stop d is os) {fs : List φ} (hfs : ∀ f ∈ fs, ¬ R.last f) :
    Relayed R stop d (fs.map R.input ++ is) (fs.map R.output ++ os) := by
  induction fs with
  | nil => exact h
  | cons f fs ih =>
      exact .item f (hfs f List.mem_cons_self) (ih fun g hg => hfs g (List.mem_cons_of_mem f hg))

/-- A relay that has ended has put out one output for each input, and at least one. -/
theorem Relayed.length_eq (h : Relayed R stop d is os) (hd : d = true) :
    is.length = os.length ∧ os ≠ [] := by
  induction h with
  | start => cases hd
  | pending i => cases hd
  | last f hl => exact ⟨rfl, List.cons_ne_nil _ _⟩
  | stop i o hi ho => exact ⟨rfl, List.cons_ne_nil _ _⟩
  | item f hl h ih => exact ⟨congrArg (· + 1) (ih hd).1, List.cons_ne_nil _ _⟩

end Relayed

/-! ## 2. The reader -/

/-- A reader: what it remembers of an output, and whether it takes it for the final one. -/
structure Reader (ο σ : Type) where
  next : σ → ο → σ
  final : σ → ο → Bool

namespace Reader

variable (r : Reader ο σ)

/-- The judgements on a list of outputs; the judgement on an output knows the output. -/
def finals : σ → List ο → List Bool
  | _, [] => []
  | s, o :: os => r.final (r.next s o) o :: finals (r.next s o) os

/-- What the reader remembers of a list of outputs. -/
def state (s : σ) (os : List ο) : σ := os.foldl r.next s

/-- The reader judges exactly the end of the list final, where `d` says that the list has ended,
    and no output of a list that has not. -/
def EndsWith (s : σ) (os : List ο) (d : Bool) : Prop :=
  ∀ i, (r.finals s os)[i]? = some true ↔ d = true ∧ i + 1 = os.length

/-- No output of the list is judged final. -/
def Open (s : σ) (os : List ο) : Prop := ∀ b ∈ r.finals s os, b = false

variable {r}

theorem state_snoc (s : σ) (os : List ο) (o : ο) :
    r.state s (os ++ [o]) = r.next (r.state s os) o := by
  simp [state]

theorem finals_append (s : σ) (os os' : List ο) :
    r.finals s (os ++ os') = r.finals s os ++ r.finals (r.state s os) os' := by
  induction os generalizing s with
  | nil => rfl
  | cons o os ih => exact congrArg (r.final (r.next s o) o :: ·) (ih (r.next s o))

theorem length_finals (s : σ) (os : List ο) : (r.finals s os).length = os.length := by
  induction os generalizing s with
  | nil => rfl
  | cons o os ih => exact congrArg (· + 1) (ih (r.next s o))

theorem open_nil (s : σ) : r.Open s [] := by
  intro b hb
  cases hb

theorem open_cons {s : σ} {o : ο} {os : List ο} : r.Open s (o :: os) ↔
    r.final (r.next s o) o = false ∧ r.Open (r.next s o) os :=
  List.forall_mem_cons

theorem open_snoc {s : σ} {os : List ο} {o : ο} : r.Open s (os ++ [o]) ↔
    r.Open s os ∧ r.final (r.next (r.state s os) o) o = false := by
  unfold Open
  rw [finals_append]
  constructor
  · intro h
    refine ⟨fun b hb => h b (List.mem_append_left _ hb), h _ ?_⟩
    exact List.mem_append_right _ (List.mem_singleton_self _)
  · rintro ⟨h, hlast⟩ b hb
    rcases List.mem_append.mp hb with hb | hb
    · exact h b hb
    · rw [List.mem_singleton.mp hb]
      exact hlast

theorem endsWith_nil (s : σ) : r.EndsWith s [] false := by
  intro i
  simp [finals]

theorem endsWith_single (s : σ) (o : ο) : r.EndsWith s [o] (r.final (r.next s o) o) := by
  intro i
  cases i <;> simp [finals]

/-- An output that is not final, in front of a list. -/
theorem EndsWith.cons {s : σ} {o : ο} {os : List ο} {d : Bool}
    (hf : r.final (r.next s o) o = false) (hne : os = [] → d = false)
    (h : r.EndsWith (r.next s o) os d) : r.EndsWith s (o :: os) d := by
  intro i
  cases i with
  | zero =>
      simp only [finals, hf, List.getElem?_cons_zero, Option.some.injEq, Bool.false_eq_true,
        List.length_cons, false_iff]
      rintro ⟨hd, hlen⟩
      have hnil : os = [] := List.eq_nil_of_length_eq_zero (by omega)
      rw [hne hnil] at hd
      cases hd
  | succ i =>
      rw [finals, List.getElem?_cons_succ, h i, List.length_cons]
      exact and_congr_right fun _ => (Nat.succ_inj).symm

/-- Of a list whose end is judged final, exactly the whole list is no longer open, once it has
    ended. -/
theorem EndsWith.open_iff {s : σ} {os ws : List ο} {d : Bool} (h : r.EndsWith s ws d)
    (hne : d = true → ws ≠ []) (hp : os <+: ws) : r.Open s os ↔ ¬ (d = true ∧ os = ws) := by
  constructor
  · rintro ho ⟨hd, rfl⟩
    have hlen := List.length_pos_iff.mpr (hne hd)
    have hend := (h (os.length - 1)).mpr ⟨hd, by omega⟩
    exact absurd (ho _ (List.mem_of_getElem? hend)) (by decide)
  · intro hno b hb
    by_cases hfinal : b = true
    · obtain ⟨rest, rfl⟩ := hp
      obtain ⟨i, hi, hget⟩ := List.getElem_of_mem hb
      have hjudged : (r.finals s (os ++ rest))[i]? = some true := by
        rw [finals_append, List.getElem?_append_left hi, List.getElem?_eq_getElem hi, hget, hfinal]
      obtain ⟨hd, hlen⟩ := (h i).mp hjudged
      rw [length_finals] at hi
      rw [List.length_append] at hlen
      have hnil : rest = [] := List.eq_nil_of_length_eq_zero (by omega)
      refine absurd ⟨hd, ?_⟩ hno
      rw [hnil, List.append_nil]
    · exact eq_false_of_ne_true hfinal

end Reader

/-- A reader that judges the items as the relay does, keeps its state over them, and takes a stop
    for final, judges exactly the end of a relayed stream final. -/
theorem Relayed.endsWith {R : Relay ι φ ο} {stop : ο → Prop} {d : Bool} {is : List ι}
    {os : List ο} {r : Reader ο σ} {s : σ} (hnext : ∀ f, r.next s (R.output f) = s)
    (hlast : ∀ f, r.final s (R.output f) = true ↔ R.last f)
    (hstop : ∀ o, stop o → r.final (r.next s o) o = true)
    (h : Relayed R stop d is os) : r.EndsWith s os d ∧ (os = [] → d = false) := by
  induction h with
  | start => exact ⟨Reader.endsWith_nil s, fun _ => rfl⟩
  | pending i => exact ⟨Reader.endsWith_nil s, fun _ => rfl⟩
  | last f hl =>
      have hfin : r.final (r.next s (R.output f)) (R.output f) = true := by
        rw [hnext]
        exact (hlast f).mpr hl
      refine ⟨?_, fun hnil => absurd hnil (List.cons_ne_nil _ _)⟩
      have he := Reader.endsWith_single (r := r) s (R.output f)
      rwa [hfin] at he
  | stop i o hi ho =>
      refine ⟨?_, fun hnil => absurd hnil (List.cons_ne_nil _ _)⟩
      have he := Reader.endsWith_single (r := r) s o
      rwa [hstop o ho] at he
  | item f hl h ih =>
      have hfin : r.final (r.next s (R.output f)) (R.output f) = false := by
        rw [hnext]
        exact Bool.eq_false_iff.mpr fun ht => hl ((hlast f).mp ht)
      refine ⟨Reader.EndsWith.cons hfin ih.2 ?_, fun hnil => absurd hnil (List.cons_ne_nil _ _)⟩
      rw [hnext]
      exact ih.1

end Interact
