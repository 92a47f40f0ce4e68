/-
  File:      MessageNexus/Lib/Text.lean
  Subject:   TEXT READ FROM BYTES: bytes that must be UTF-8, a text split at the last occurrence of
             a separator or at its blanks, and numbers in decimal.

  * `encode`, `textBytes`, `Utf8`, `decode` -- the bytes of characters and of a text, the bytes of
    some text, and the text of bytes; `ascii_mem_encode` -- where the byte of an ASCII character
    stands; `utf8_between_iff` -- what stands between two texts decides;
  * `rsplitOnce` -- the last occurrence of a separator; `rsplitOnce_last`;
  * `words` -- the text between the blanks; `words_line`;
  * `decimal`, `parseInt` -- a number in decimal, and back; `parseInt_decimal`;
  * `escapeDebug`, `debugText` -- a text in quotes with its characters escaped.
-/
import Mathlib.Data.List.Basic

namespace Text

/-! ## 1. UTF-8 -/

/-- The bytes of characters, and of a text. -/
def encode (chars : List Char) : List UInt8 := chars.flatMap String.utf8EncodeChar

def textBytes (text : String) : List UInt8 := text.toByteArray.data.toList

/-- The bytes are those of some text. -/
def Utf8 (bytes : List UInt8) : Prop := ∃ chars, bytes = encode chars

/-- The text of the bytes, if they are UTF-8. -/
def decode (bytes : List UInt8) : Option String := String.fromUTF8? bytes.toByteArray

@[simp] theorem encode_append (chars chars' : List Char) :
    encode (chars ++ chars') = encode chars ++ encode chars' := by
  simp [encode]

@[simp] theorem encode_toByteArray (chars : List Char) :
    (encode chars).toByteArray = chars.utf8Encode := rfl

theorem utf8_iff {bytes : List UInt8} : Utf8 bytes ↔ bytes.toByteArray.IsValidUTF8 := by
  constructor
  · rintro ⟨chars, rfl⟩
    exact ⟨chars, rfl⟩
  · rintro ⟨chars, h⟩
    exact ⟨chars, List.toByteArray_inj.mp h⟩

theorem utf8_encode (chars : List Char) : Utf8 (encode chars) := ⟨chars, rfl⟩

theorem decode_encode (chars : List Char) : decode (encode chars) = some (String.ofList chars) := by
  have hvalid : (encode chars).toByteArray.IsValidUTF8 := utf8_iff.mp (utf8_encode chars)
  rw [decode, String.fromUTF8?, dif_pos hvalid]
  rfl

theorem textBytes_eq (text : String) : textBytes text = encode text.toList := by
  refine List.toByteArray_inj.mp ?_
  rw [encode_toByteArray, String.utf8Encode_toList]
  exact ByteArray.ext (by simp [textBytes])

/-- An ASCII byte in the encoding of a character is that character. -/
theorem ascii_encodeChar {b : UInt8} {c : Char} (hb : b.toNat < 128)
    (h : b ∈ String.utf8EncodeChar c) : b.toNat = c.toNat := by
  have hlow : ∀ {n : Nat}, 128 ≤ n → n < 256 → b ≠ UInt8.ofNat n := by
    intro n hn hlt he
    rw [he, UInt8.toNat_ofNat_of_lt' hlt] at hb
    omega
  unfold String.utf8EncodeChar at h
  dsimp only at h
  split at h
  · rename_i hc
    rw [List.mem_singleton.mp h]
    exact UInt8.toNat_ofNat_of_lt' (show c.val.toNat < UInt8.size from by
      simp only [UInt8.size]
      omega)
  · exfalso
    split at h
    · simp only [List.mem_cons, List.not_mem_nil, or_false] at h
      rcases h with h | h <;> exact hlow (by omega) (by omega) h
    · split at h
      · simp only [List.mem_cons, List.not_mem_nil, or_false] at h
        rcases h with h | h | h <;> exact hlow (by omega) (by omega) h
      · simp only [List.mem_cons, List.not_mem_nil, or_false] at h
        rcases h with h | h | h | h <;> exact hlow (by omega) (by omega) h

/-- A byte of an ASCII character stands only where the character does. -/
theorem ascii_mem_encode {c : Char} (hc : c.toNat < 128) {chars : List Char} :
    UInt8.ofNat c.toNat ∈ encode chars ↔ c ∈ chars := by
  have hbyte : (UInt8.ofNat c.toNat).toNat = c.toNat :=
    UInt8.toNat_ofNat_of_lt' (Nat.lt_of_lt_of_le hc (by decide))
  constructor
  · intro h
    obtain ⟨d, hd, hin⟩ := List.mem_flatMap.mp h
    have hsame := ascii_encodeChar (by rw [hbyte]; exact hc) hin
    rw [hbyte] at hsame
    rw [Char.toNat_inj.mp hsame]
    exact hd
  · intro h
    refine List.mem_flatMap.mpr ⟨c, h, ?_⟩
    unfold String.utf8EncodeChar
    dsimp only
    rw [if_pos (show c.val.toNat ≤ 127 from by
      have hc' : c.val.toNat < 128 := hc
      omega)]
    exact List.mem_cons_self

theorem textBytes_length (text : String) : (textBytes text).length = text.utf8ByteSize := by
  rw [textBytes_eq, ← List.size_toByteArray, encode_toByteArray, String.utf8Encode_toList,
    String.size_toByteArray]

theorem decode_textBytes (text : String) : decode (textBytes text) = some text := by
  rw [textBytes_eq, decode_encode, String.ofList_toList]

/-- The text of the bytes is the one with these bytes. -/
theorem decode_some {bytes : List UInt8} {text : String} (h : decode bytes = some text) :
    textBytes text = bytes := by
  by_cases hv : bytes.toByteArray.IsValidUTF8
  · obtain ⟨chars, rfl⟩ := utf8_iff.mpr hv
    rw [decode_encode] at h
    rw [textBytes_eq, ← Option.some.inj h, String.toList_ofList]
  · rw [decode, String.fromUTF8?, dif_neg hv] at h
    cases h

/-- Bytes that are no text have none. -/
theorem decode_none {bytes : List UInt8} (h : ¬ Utf8 bytes) : decode bytes = none := by
  rw [decode, String.fromUTF8?, dif_neg fun hv => h (utf8_iff.mpr hv)]

/-- A text before the bytes changes nothing. -/
theorem utf8_after_iff (chars : List Char) (bytes : List UInt8) :
    Utf8 (encode chars ++ bytes) ↔ Utf8 bytes := by
  induction chars with
  | nil => exact Iff.rfl
  | cons c chars ih =>
      rw [← ih, utf8_iff, utf8_iff]
      have hsplit : (encode (c :: chars) ++ bytes).toByteArray =
          [c].utf8Encode ++ (encode chars ++ bytes).toByteArray := by
        simp [encode, List.utf8Encode]
      rw [hsplit, ByteArray.isValidUTF8_utf8Encode_singleton_append_iff]

/-- A text after the bytes changes nothing: its first byte begins a character, so no character
    reaches over the seam. -/
theorem utf8_before_iff (bytes : List UInt8) (chars : List Char) :
    Utf8 (bytes ++ encode chars) ↔ Utf8 bytes := by
  constructor
  · intro h
    cases chars with
    | nil => simpa [encode] using h
    | cons c chars =>
        have hvalid := utf8_iff.mp h
        have hcons : encode (c :: chars) = String.utf8EncodeChar c ++ encode chars := rfl
        rw [hcons, List.toByteArray_append, List.toByteArray_append] at hvalid
        -- The seam is a position of the text: a first byte stands there.
        have hseam : String.Pos.Raw.IsValid (.ofByteArray _ hvalid) ⟨bytes.length⟩ := by
          rw [String.Pos.Raw.isValid_iff_isUTF8FirstByte]
          refine Or.inr ⟨?_, ?_⟩
          · have hpos := c.utf8Size_pos
            simp only [String.Pos.Raw.lt_iff, String.byteIdx_rawEndPos, String.utf8ByteSize_ofByteArray,
              ByteArray.size_append, List.size_toByteArray, String.length_utf8EncodeChar]
            omega
          · simp only [String.getUTF8Byte]
            rw [ByteArray.getElem_append_right (by simp)]
            simp only [List.size_toByteArray, Nat.sub_self]
            exact ByteArray.isUTF8FirstByte_getElem_zero_utf8EncodeChar_append
        have hbefore := (String.Pos.Raw.isValid_iff_isValidUTF8_extract_zero.mp hseam).2
        rw [ByteArray.extract_append_eq_left (by simp)] at hbefore
        exact utf8_iff.mpr hbefore
  · rintro ⟨before, rfl⟩
    exact ⟨before ++ chars, (encode_append before chars).symm⟩

/-- UTF-8 begins with a first byte. -/
theorem utf8_first {b : UInt8} {bytes : List UInt8} (h : Utf8 (b :: bytes)) :
    b.IsUTF8FirstByte := by
  have hsize : 0 < (b :: bytes).toByteArray.size := by simp
  have hfirst := (utf8_iff.mp h).isUTF8FirstByte_getElem_zero hsize
  simpa using hfirst

/-- What stands between two texts decides whether the whole is one. -/
theorem utf8_between_iff (before after : List Char) (bytes : List UInt8) :
    Utf8 (encode before ++ bytes ++ encode after) ↔ Utf8 bytes := by
  rw [utf8_before_iff, utf8_after_iff]

/-! ## 2. The last occurrence of a separator -/

section Separator

variable {α : Type} [DecidableEq α]

/-- What stands before and after the last occurrence of the separator. -/
def rsplitOnce (sep : List α) : List α → Option (List α × List α)
  | [] => if sep = [] then some ([], []) else none
  | c :: text =>
      match rsplitOnce sep text with
      | some (before, after) => some (c :: before, after)
      | none =>
        if sep.isPrefixOf (c :: text) then some ([], (c :: text).drop sep.length) else none

/-- Without the first symbol of the separator there is no occurrence. -/
theorem rsplitOnce_none {a : α} {sep text : List α} (h : a ∉ text) :
    rsplitOnce (a :: sep) text = none := by
  induction text with
  | nil => rfl
  | cons c text ih =>
      rw [List.mem_cons, not_or] at h
      obtain ⟨hc, htext⟩ := h
      simp [rsplitOnce, ih htext, hc]

/-- An occurrence after which the first symbol of the separator does not come again is the last
    one, whatever stands before it. -/
theorem rsplitOnce_last {a : α} {sep after : List α} (h : a ∉ sep ++ after) (before : List α) :
    rsplitOnce (a :: sep) (before ++ (a :: sep) ++ after) = some (before, after) := by
  induction before with
  | nil =>
      have hprefix : sep.isPrefixOf (sep ++ after) = true := by simp
      simp [rsplitOnce, rsplitOnce_none h]
  | cons c before ih =>
      rw [List.cons_append, List.cons_append, rsplitOnce, ih]

end Separator

/-! ## 3. The text between the blanks -/

section Words

variable {α : Type} {blank : α → Bool}

/-- The longest stretches without a blank. -/
def words (blank : α → Bool) (text : List α) : List (List α) :=
  (text.splitOnP blank).filter fun word => !word.isEmpty

/-- A line of words: `sep` before every word but the first, and `fin` at its end. -/
def line (sep fin : α) (first : List α) (rest : List (List α)) : List α :=
  first ++ rest.flatMap (sep :: ·) ++ [fin]

theorem words_cons {word : List α} (hword : word ≠ []) (hblank : ∀ c ∈ word, blank c = false)
    {sep : α} (hsep : blank sep = true) (text : List α) :
    words blank (word ++ sep :: text) = word :: words blank text := by
  rw [words, List.splitOnP_append_cons_of_forall_mem hblank sep hsep text, List.filter_cons_of_pos]
  · rfl
  · simpa using hword

/-- The words of a line come back in order. -/
theorem words_line {sep fin : α} (hsep : blank sep = true) (hfin : blank fin = true)
    {first : List α} {rest : List (List α)}
    (hwords : ∀ word ∈ first :: rest, word ≠ [] ∧ ∀ c ∈ word, blank c = false) :
    words blank (line sep fin first rest) = first :: rest := by
  obtain ⟨hne, hblank⟩ := hwords first List.mem_cons_self
  induction rest generalizing first with
  | nil =>
      have hnil : words blank ([] : List α) = [] := rfl
      rw [line, List.flatMap_nil, List.append_nil, words_cons hne hblank hfin, hnil]
  | cons second rest ih =>
      have hrest : ∀ word ∈ second :: rest, word ≠ [] ∧ ∀ c ∈ word, blank c = false :=
        fun word hword => hwords word (List.mem_cons_of_mem first hword)
      have hsecond := hrest second List.mem_cons_self
      have hline : line sep fin first (second :: rest) =
          first ++ sep :: line sep fin second rest := by
        simp [line]
      rw [hline, words_cons hne hblank hsep, ih hrest hsecond.1 hsecond.2]

end Words

/-! ## 4. Decimal numbers -/

/-- A number in decimal, with a minus sign before the digits of a negative one. -/
def decimal : Int → List Char
  | .ofNat n => Nat.toDigits 10 n
  | .negSucc n => '-' :: Nat.toDigits 10 (n + 1)

/-- The number of a text that has digits and nothing else. -/
def parseNat (text : List Char) : Option Nat :=
  if text ≠ [] ∧ text.all Char.isDigit then some (Nat.ofDigitChars 10 text 0) else none

/-- The number of a text of digits, which may have a sign before them. -/
def parseInt : List Char → Option Int
  | '-' :: digits => (parseNat digits).map fun n => -(n : Int)
  | '+' :: digits => (parseNat digits).map fun n => (n : Int)
  | digits => (parseNat digits).map fun n => (n : Int)

theorem isDigit_decimal_nat {n : Nat} {c : Char} (h : c ∈ Nat.toDigits 10 n) :
    c.isDigit = true :=
  Nat.isDigit_of_mem_toDigits (by omega) (by omega) h

theorem parseNat_toDigits (n : Nat) : parseNat (Nat.toDigits 10 n) = some n := by
  have hdigits : (Nat.toDigits 10 n).all Char.isDigit = true :=
    List.all_eq_true.mpr fun c hc => isDigit_decimal_nat hc
  simp [parseNat, hdigits, Nat.toDigits_ne_nil]

/-- The characters of a number. -/
theorem decimal_mem {n : Int} {c : Char} (h : c ∈ decimal n) : c = '-' ∨ c.isDigit = true := by
  cases n with
  | ofNat n => exact Or.inr (isDigit_decimal_nat h)
  | negSucc n =>
      rcases List.mem_cons.mp h with hc | hc
      · exact Or.inl hc
      · exact Or.inr (isDigit_decimal_nat hc)

theorem decimal_ne_nil (n : Int) : decimal n ≠ [] := by
  cases n with
  | ofNat n => exact Nat.toDigits_ne_nil
  | negSucc n => exact List.cons_ne_nil _ _

/-- A number in decimal is read back. -/
theorem parseInt_decimal (n : Int) : parseInt (decimal n) = some n := by
  cases n with
  | ofNat n =>
      obtain ⟨hminus, hplus⟩ : (Nat.toDigits 10 n).head? ≠ some '-' ∧
          (Nat.toDigits 10 n).head? ≠ some '+' := by
        constructor <;> intro h <;>
          exact absurd (isDigit_decimal_nat (List.mem_of_mem_head? h)) (by decide)
      rw [decimal, parseInt, parseNat_toDigits]
      · rfl
      all_goals
        intro digits h
        simp [h] at hminus hplus
  | negSucc n =>
      rw [decimal, parseInt, parseNat_toDigits]
      simp [Int.negSucc_eq]

/-! ## 5. A text in quotes -/

/-- The characters that stand for a character between quotes. Beyond ASCII, `printed` tells which
    characters stand for themselves: those that can be printed and extend no grapheme. -/
def escapeDebug (printed : Char → Bool) (c : Char) : List Char :=
  if c = '\x00' then ['\\', '0']
  else if c = '\t' then ['\\', 't']
  else if c = '\r' then ['\\', 'r']
  else if c = '\n' then ['\\', 'n']
  else if c = '\\' then ['\\', '\\']
  else if c = '"' then ['\\', '"']
  else if 32 ≤ c.toNat ∧ c.toNat < 127 ∨ 128 ≤ c.toNat ∧ printed c then [c]
  else ['\\', 'u', '\x7b'] ++ Nat.toDigits 16 c.toNat ++ ['\x7d']

/-- The text in quotes, as `{:?}` prints it. -/
def debugText (printed : Char → Bool) (text : String) : String :=
  String.ofList ('"' :: text.toList.flatMap (escapeDebug printed) ++ ['"'])

example : debugText (fun _ => true) "a\r\u007f'\"" = "\"a\\r\\u\x7b7f\x7d'\\\"\"" := by decide

end Text
