/-
  File:      MessageNexus/Lib/Lines.lean
  Subject:   THE LINES OF A STREAM, and reading them one by one under a limit, as the stream arrives.

  * `upTo` -- the first line of some symbols; `splitLines` -- all of them, and what is left over;
  * `Source.lines` -- the lines of a stream: what is left over at its end is a line, what a failure
    cuts off is not;
  * `Source.takeLine` -- one line of at most so many symbols, however they arrive;
  * `takeLine_line`, `takeLine_long`, `takeLine_end` -- what it does on a line that is short enough,
    on one that is not, and where there is none.
-/
import MessageNexus.Lib.Framing

namespace Framing

variable {B E : Type} [DecidableEq B] (newline : B)

/-! ## 1. The lines of some symbols -/

/-- The symbols up to the first newline, and with it. -/
def upTo : List B → List B
  | [] => []
  | b :: bytes => if b = newline then [b] else b :: upTo bytes

/-- The lines, each with its newline, and the symbols after the last newline. -/
def splitLines : List B → List (List B) × List B
  | [] => ([], [])
  | b :: bytes =>
      let (lines, left) := splitLines bytes
      if b = newline then ([b] :: lines, left)
      else
        match lines with
        | [] => ([], b :: left)
        | line :: lines => ((b :: line) :: lines, left)

variable {newline} {bytes : List B}

theorem upTo_begins (bytes : List B) : upTo newline bytes <+: bytes := by
  induction bytes with
  | nil => exact List.prefix_rfl
  | cons b bytes ih =>
      by_cases hb : b = newline
      · simp [upTo, hb]
      · simpa [upTo, hb] using ih

theorem upTo_length_le (newline : B) (bytes : List B) : (upTo newline bytes).length ≤ bytes.length :=
  (upTo_begins bytes).length_le

theorem upTo_append_drop (bytes : List B) :
    upTo newline bytes ++ bytes.drop (upTo newline bytes).length = bytes :=
  List.prefix_iff_eq_append.mp (upTo_begins bytes)

theorem upTo_none (h : newline ∉ bytes) : upTo newline bytes = bytes := by
  induction bytes with
  | nil => rfl
  | cons b bytes ih =>
      rw [List.mem_cons, not_or] at h
      simp [upTo, Ne.symm h.1, ih h.2]

/-- The first line of more symbols, once there is a newline. -/
theorem upTo_append (h : newline ∈ bytes) (more : List B) :
    upTo newline (bytes ++ more) = upTo newline bytes := by
  induction bytes with
  | nil => cases h
  | cons b bytes ih =>
      by_cases hb : b = newline
      · simp [upTo, hb]
      · have htail : newline ∈ bytes := by simpa [Ne.symm hb] using h
        simp [upTo, hb, ih htail]

theorem upTo_append_none (h : newline ∉ bytes) (more : List B) :
    upTo newline (bytes ++ more) = bytes ++ upTo newline more := by
  induction bytes with
  | nil => rfl
  | cons b bytes ih =>
      rw [List.mem_cons, not_or] at h
      simp [upTo, Ne.symm h.1, ih h.2]

/-- The first line of the first symbols is the beginning of the first line. -/
theorem upTo_take (newline : B) (n : Nat) (bytes : List B) :
    upTo newline (bytes.take n) = (upTo newline bytes).take n := by
  induction bytes generalizing n with
  | nil => simp [upTo]
  | cons b bytes ih =>
      cases n with
      | zero => rfl
      | succ n =>
          by_cases hb : b = newline
          · simp [upTo, hb]
          · simp [upTo, hb, ih]

theorem mem_upTo : newline ∈ upTo newline bytes ↔ newline ∈ bytes := by
  induction bytes with
  | nil => exact Iff.rfl
  | cons b bytes ih =>
      by_cases hb : b = newline
      · simp [upTo, hb]
      · simp [upTo, hb, ih]

theorem splitLines_none (h : newline ∉ bytes) : splitLines newline bytes = ([], bytes) := by
  induction bytes with
  | nil => rfl
  | cons b bytes ih =>
      rw [List.mem_cons, not_or] at h
      simp [splitLines, Ne.symm h.1, ih h.2]

/-- The first line, and the lines of the rest. -/
theorem splitLines_line (h : newline ∈ bytes) :
    splitLines newline bytes =
      (upTo newline bytes ::
        (splitLines newline (bytes.drop (upTo newline bytes).length)).1,
        (splitLines newline (bytes.drop (upTo newline bytes).length)).2) := by
  induction bytes with
  | nil => cases h
  | cons b bytes ih =>
      by_cases hb : b = newline
      · simp [upTo, splitLines, hb]
      · have htail : newline ∈ bytes := by simpa [Ne.symm hb] using h
        rw [splitLines, ih htail]
        simp [upTo, hb]

/-- A line has one newline, at its end. -/
def IsLine (newline : B) (line : List B) : Prop := ∃ text, line = text ++ [newline] ∧ newline ∉ text

/-- The lines of some lines and of what follows them. -/
theorem splitLines_append {lines : List (List B)} (h : ∀ line ∈ lines, IsLine newline line)
    (rest : List B) : splitLines newline (lines.flatten ++ rest) =
      (lines ++ (splitLines newline rest).1, (splitLines newline rest).2) := by
  induction lines with
  | nil => rfl
  | cons line lines ih =>
      obtain ⟨text, rfl, htext⟩ := h line List.mem_cons_self
      have hin : newline ∈ text ++ [newline] := by simp
      have hfirst : upTo newline ((text ++ [newline]) ++ (lines.flatten ++ rest)) =
          text ++ [newline] := by
        rw [upTo_append hin, upTo_append_none htext]
        simp [upTo]
      rw [List.flatten_cons, List.append_assoc, splitLines_line (by simp), hfirst,
        List.drop_left, ih fun l hl => h l (List.mem_cons_of_mem _ hl)]
      rfl

theorem isLine_upTo (h : newline ∈ bytes) : IsLine newline (upTo newline bytes) := by
  induction bytes with
  | nil => cases h
  | cons b bytes ih =>
      by_cases hb : b = newline
      · exact ⟨[], by simp [upTo, hb], List.not_mem_nil⟩
      · have htail : newline ∈ bytes := by simpa [Ne.symm hb] using h
        obtain ⟨text, htext, hnone⟩ := ih htail
        refine ⟨b :: text, by simp [upTo, hb, htext], ?_⟩
        simp [Ne.symm hb, hnone]

/-- The lines and what is left over are the symbols; each line has its newline, and what is left
    over has none. -/
theorem splitLines_spec (newline : B) (bytes : List B) :
    (splitLines newline bytes).1.flatten ++ (splitLines newline bytes).2 = bytes ∧
      (∀ line ∈ (splitLines newline bytes).1, IsLine newline line) ∧
      newline ∉ (splitLines newline bytes).2 := by
  induction hn : bytes.length using Nat.strongRecOn generalizing bytes with
  | ind n ih =>
      by_cases h : newline ∈ bytes
      · have hpos : 0 < (upTo newline bytes).length :=
          List.length_pos_of_mem (mem_upTo.mpr h)
        have hle := upTo_length_le newline bytes
        obtain ⟨hjoin, hlines, hleft⟩ := ih (bytes.drop (upTo newline bytes).length).length
          (by rw [List.length_drop]; omega) _ rfl
        rw [splitLines_line h]
        refine ⟨?_, ?_, hleft⟩
        · rw [List.flatten_cons, List.append_assoc, hjoin, upTo_append_drop]
        · intro line hline
          rcases List.mem_cons.mp hline with rfl | hrest
          · exact isLine_upTo h
          · exact hlines line hrest
      · rw [splitLines_none h]
        exact ⟨rfl, fun line hline => (by cases hline), h⟩

/-! ## 2. The lines of a stream -/

/-- The lines of the stream. What is left over after the last newline is a line if the stream ends
    there, and none if it fails. -/
def Source.lines (newline : B) (s : Source B E) : List (List B) :=
  let split := splitLines newline s.bytes
  split.1 ++ (if s.failure.isNone ∧ split.2 ≠ [] then [split.2] else [])

omit [DecidableEq B] in
theorem drop_ne_nil {n : Nat} (h : n < bytes.length) : bytes.drop n ≠ [] := by
  intro he
  have := List.drop_eq_nil_iff.mp he
  omega

/-- The loop that reads up to a newline, at most `n` symbols: what it read, what is still to come,
    and whether it met the end. -/
def fillLine (newline : B) : Nat → List (Piece B) → List B × List (Piece B) × Bool
  | 0, pieces => ([], pieces, false)
  | _ + 1, [] => ([], [], true)
  | n + 1, piece :: rest =>
      let taken := upTo newline (piece.val.take (n + 1))
      if h : taken.length < piece.val.length then
        (taken, ⟨piece.val.drop taken.length, drop_ne_nil h⟩ :: rest, false)
      else if newline ∈ taken then (taken, rest, false)
      else
        let more := fillLine newline (n + 1 - taken.length) rest
        (taken ++ more.1, more.2)

/-- A line of at most `n` symbols, with its newline if it has one; nothing is the end. A failure
    leaves nothing of what was read before it. -/
def Source.takeLine (newline : B) (n : Nat) (s : Source B E) : Except E (List B) × Source B E :=
  let filled := fillLine newline n s.pieces
  let rest := { s with pieces := filled.2.1 }
  match filled.2.2, s.failure with
  | true, some error => (.error error, rest)
  | _, _ => (.ok filled.1, rest)

/-- A piece that is taken in part has a newline, or more symbols than are wanted. -/
theorem part_cases {n : Nat} {piece : List B}
    (h : ((upTo newline piece).take n).length < piece.length) :
    newline ∈ piece ∨ n < piece.length := by
  by_cases hnew : newline ∈ piece
  · exact Or.inl hnew
  · rw [upTo_none hnew, List.length_take] at h
    exact Or.inr (by omega)

/-- What is taken of such a piece is taken of the whole. -/
theorem take_part {n : Nat} {piece : List B}
    (h : ((upTo newline piece).take n).length < piece.length) (more : List B) :
    (upTo newline (piece ++ more)).take n = (upTo newline piece).take n := by
  by_cases hnew : newline ∈ piece
  · rw [upTo_append hnew]
  · have hlong : n < piece.length := (part_cases h).resolve_left hnew
    rw [upTo_append_none hnew, upTo_none hnew, List.take_append_of_le_length (by omega)]

/-- However the symbols arrive, the loop takes the next ones up to a newline, or `n` of them, and
    meets the end if there are neither. -/
theorem fillLine_spec (newline : B) (n : Nat) (pieces : List (Piece B)) :
    let bytes := pieces.flatMap (·.val)
    let filled := fillLine newline n pieces
    filled.1 = (upTo newline bytes).take n ∧
      filled.2.1.flatMap (·.val) = bytes.drop filled.1.length ∧
      (filled.2.2 = true ↔ newline ∉ bytes ∧ bytes.length < n) := by
  induction pieces generalizing n with
  | nil =>
      cases n with
      | zero => simp [fillLine]
      | succ n => simp [fillLine, upTo]
  | cons piece rest ih =>
      cases n with
      | zero => simp [fillLine]
      | succ n =>
          have htaken := upTo_take newline (n + 1) piece.val
          have hle : ((upTo newline piece.val).take (n + 1)).length ≤ piece.val.length := by
            have := upTo_length_le newline piece.val
            simp only [List.length_take]
            omega
          simp only [fillLine, htaken, List.flatMap_cons]
          by_cases hpart : ((upTo newline piece.val).take (n + 1)).length < piece.val.length
          · -- the loop stops within the piece, at a newline or at the limit
            rw [dif_pos hpart]
            refine ⟨?_, ?_, ?_⟩
            · exact (take_part hpart _).symm
            · rw [List.flatMap_cons, List.drop_append_of_le_length hle]
            · simp only [Bool.false_eq_true, List.mem_append, List.length_append, false_iff]
              rcases part_cases hpart with hnew | hlong
              · exact fun h => h.1 (Or.inl hnew)
              · exact fun h => by omega
          rw [dif_neg hpart]
          have hall : (upTo newline piece.val).take (n + 1) = piece.val :=
            ((List.take_prefix _ _).trans (upTo_begins piece.val)).eq_of_length (by omega)
          have hfits : piece.val.length ≤ n + 1 := by
            rw [← hall, List.length_take]
            omega
          rw [hall]
          by_cases hnew : newline ∈ piece.val
          · -- the piece ends with the newline
            rw [if_pos hnew, upTo_append hnew, hall]
            refine ⟨rfl, by simp, ?_⟩
            simp [hnew]
          · rw [if_neg hnew, upTo_append_none hnew]
            obtain ⟨hline, hleft, hended⟩ := ih (n + 1 - piece.val.length)
            refine ⟨?_, ?_, ?_⟩
            · rw [hline, List.take_append, List.take_of_length_le hfits]
            · rw [hleft, List.length_append, List.drop_length_add_append]
            · rw [hended, List.mem_append, not_or, List.length_append]
              constructor
              · exact fun h => ⟨⟨hnew, h.1⟩, by omega⟩
              · exact fun h => ⟨h.1.2, by omega⟩

/-- The symbols of the stream after one line was taken. -/
theorem takeLine_rest (newline : B) (n : Nat) (s : Source B E) :
    (s.takeLine newline n).2.bytes = s.bytes.drop ((upTo newline s.bytes).take n).length ∧
      (s.takeLine newline n).2.failure = s.failure := by
  obtain ⟨hline, hleft, _⟩ := fillLine_spec newline n s.pieces
  have hrest : (s.takeLine newline n).2 =
      { s with pieces := (fillLine newline n s.pieces).2.1 } := by
    rw [Source.takeLine]
    split <;> rfl
  rw [hrest]
  refine ⟨?_, rfl⟩
  rw [Source.bytes, hleft, hline]
  rfl

/-- Where there is a newline, or enough symbols, the line is read, up to the limit. -/
theorem takeLine_ok {n : Nat} {s : Source B E} (h : newline ∈ s.bytes ∨ n ≤ s.bytes.length) :
    (s.takeLine newline n).1 = .ok ((upTo newline s.bytes).take n) := by
  obtain ⟨hline, _, hended⟩ := fillLine_spec newline n s.pieces
  have hgoing : (fillLine newline n s.pieces).2.2 = false := by
    rw [Bool.eq_false_iff]
    intro htrue
    obtain ⟨hnone, hshort⟩ := hended.mp htrue
    rcases h with hnew | hlong
    · exact hnone hnew
    · exact absurd hshort (Nat.not_lt.mpr hlong)
  rw [Source.takeLine, hgoing, hline]
  rfl

/-- Where there is neither, the read meets the end of the stream or its failure. -/
theorem takeLine_ended {n : Nat} {s : Source B E} (hnone : newline ∉ s.bytes)
    (hshort : s.bytes.length < n) :
    (s.failure = none → (s.takeLine newline n).1 = .ok s.bytes) ∧
      ∀ error, s.failure = some error → (s.takeLine newline n).1 = .error error := by
  obtain ⟨hline, _, hended⟩ := fillLine_spec newline n s.pieces
  have htaken : (fillLine newline n s.pieces).1 = s.bytes := by
    rw [hline]
    show (upTo newline s.bytes).take n = s.bytes
    rw [upTo_none hnone, List.take_of_length_le (Nat.le_of_lt hshort)]
  rw [Source.takeLine, hended.mpr ⟨hnone, hshort⟩]
  refine ⟨fun h => ?_, fun error h => ?_⟩
  · simp [h, htaken]
  · simp [h]

/-! ## 3. Reading the lines -/

theorem lines_none {s : Source B E} (h : newline ∉ s.bytes) :
    s.lines newline = if s.failure.isNone ∧ s.bytes ≠ [] then [s.bytes] else [] := by
  rw [Source.lines, splitLines_none h, List.nil_append]

/-- A stream that ends without a line has nothing. -/
theorem lines_nil {s : Source B E} (h : s.lines newline = []) (hf : s.failure = none) :
    s.bytes = [] := by
  by_cases hnew : newline ∈ s.bytes
  · rw [Source.lines, splitLines_line hnew] at h
    cases h
  · rw [lines_none hnew] at h
    by_contra hne
    rw [if_pos ⟨by simp [hf], hne⟩] at h
    cases h

/-- The first line of a stream with a newline, and the lines of a stream that goes on after it. -/
theorem lines_line {s rest : Source B E} (h : newline ∈ s.bytes)
    (hbytes : rest.bytes = s.bytes.drop (upTo newline s.bytes).length)
    (hfailure : rest.failure = s.failure) :
    s.lines newline = upTo newline s.bytes :: rest.lines newline := by
  rw [Source.lines, splitLines_line h, Source.lines, hbytes, hfailure]
  rfl

/-- A line that is shorter than the limit is read, and the stream goes on after it. -/
theorem takeLine_line {n : Nat} {s : Source B E} {line : List B} {lines : List (List B)}
    (h : s.lines newline = line :: lines) (hn : line.length < n) :
    (s.takeLine newline n).1 = .ok line ∧ (s.takeLine newline n).2.lines newline = lines := by
  obtain ⟨hbytes, hfailure⟩ := takeLine_rest newline n s
  by_cases hnew : newline ∈ s.bytes
  · have hline : upTo newline s.bytes = line := by
      have hsplit := h
      rw [Source.lines, splitLines_line hnew] at hsplit
      exact (List.cons.inj hsplit).1
    have htaken : (upTo newline s.bytes).take n = upTo newline s.bytes :=
      List.take_of_length_le (by rw [hline]; omega)
    rw [htaken] at hbytes
    rw [lines_line hnew hbytes hfailure] at h
    rw [takeLine_ok (Or.inl hnew), htaken]
    exact ⟨congrArg Except.ok hline, (List.cons.inj h).2⟩
  · rw [lines_none hnew] at h
    by_cases hlast : s.failure.isNone ∧ s.bytes ≠ []
    · rw [if_pos hlast] at h
      obtain ⟨hline, hlines⟩ := List.cons.inj h
      rw [← hline] at hn
      have hdrop : (s.takeLine newline n).2.bytes = [] := by
        rw [hbytes, upTo_none hnew, List.take_of_length_le (Nat.le_of_lt hn), List.drop_length]
      refine ⟨?_, ?_⟩
      · rw [(takeLine_ended hnew hn).1 (Option.isNone_iff_eq_none.mp hlast.1), hline]
      · rw [lines_none (by rw [hdrop]; exact List.not_mem_nil), hdrop, ← hlines]
        simp
    · rw [if_neg hlast] at h
      cases h

/-- Of a line that is not, so much is read as the limit admits. -/
theorem takeLine_long {n : Nat} {s : Source B E} {line : List B} {lines : List (List B)}
    (h : s.lines newline = line :: lines) (hn : n ≤ line.length) :
    (s.takeLine newline n).1 = .ok (line.take n) := by
  by_cases hnew : newline ∈ s.bytes
  · rw [Source.lines, splitLines_line hnew] at h
    rw [takeLine_ok (Or.inl hnew), (List.cons.inj h).1]
  · rw [lines_none hnew] at h
    by_cases hlast : s.failure.isNone ∧ s.bytes ≠ []
    · rw [if_pos hlast] at h
      have hline := (List.cons.inj h).1
      rw [takeLine_ok (Or.inr (by rw [hline]; exact hn)), upTo_none hnew, hline]
    · rw [if_neg hlast] at h
      cases h

/-- Where there is no line, nothing is read, or the failure, or more than a line may have. -/
theorem takeLine_end {n : Nat} {s : Source B E} (h : s.lines newline = []) :
    (s.takeLine newline n).1 = .ok [] ∨ (∃ error, (s.takeLine newline n).1 = .error error) ∨
      ∃ taken, (s.takeLine newline n).1 = .ok taken ∧ taken.length = n := by
  have hnew : newline ∉ s.bytes := by
    intro hnew
    rw [Source.lines, splitLines_line hnew] at h
    cases h
  rw [lines_none hnew] at h
  by_cases hshort : s.bytes.length < n
  · obtain ⟨hend, hfail⟩ := takeLine_ended hnew hshort
    cases hf : s.failure with
    | some error => exact Or.inr (Or.inl ⟨error, hfail error hf⟩)
    | none =>
        have hempty : s.bytes = [] := by
          by_contra hne
          rw [if_pos ⟨by simp [hf], hne⟩] at h
          cases h
        left
        rw [hend hf, hempty]
  · right
    right
    refine ⟨s.bytes.take n, ?_, by rw [List.length_take]; omega⟩
    rw [takeLine_ok (Or.inr (by omega)), upTo_none hnew]

end Framing
