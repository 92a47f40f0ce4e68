/-
  File:      MessageNexus/Lib/Framing.lean
  Subject:   LENGTH-PREFIXED FRAMES ON A STREAM: a header of fixed width that holds the length of
             the body, then the body. The stream arrives in pieces and ends, by a failure or not.

  * `Source`, `Source.readExact` -- a stream as it arrives, and reading so many symbols of it;
  * `Header` -- how a length is written, and up to where it is read back;
  * `frame`, `takeFrame` -- a frame, and reading one under a limit;
  * `takeFrame_frame`, `takeFrame_short`, `takeFrame_partial`, `takeFrame_tooLong` -- what reading a
    frame does on a whole frame, on one that is cut, and on one that is too long;
  * `takeFrame_part` -- on a beginning of frames, however cut, what is read is the first of them;
  * `repeatRead` -- reading again and again, until a read fails;
  * `Header.u32Be` -- the big-endian header of four bytes.
-/
import Mathlib.Data.List.Basic

namespace Framing

variable {B E V S : Type}

/-! ## 1. A stream as it arrives -/

/-- What one read can take: at least one symbol. -/
abbrev Piece (B : Type) := { piece : List B // piece ≠ [] }

/-- The pieces still to come, and what the read after them meets: the end, or a failure. -/
structure Source (B E : Type) where
  pieces : List (Piece B)
  failure : Option E

/-- The symbols still to come. -/
def Source.bytes (s : Source B E) : List B := s.pieces.flatMap (·.val)

inductive ReadError (E : Type) where
  | unexpectedEof
  | other (error : E)
  deriving DecidableEq, Repr

/-- What a read meets after the last piece. -/
def Source.ending (s : Source B E) : ReadError E :=
  match s.failure with
  | none => .unexpectedEof
  | some error => .other error

/-- The loop that fills a buffer of `n` symbols: a piece that does not fit stays in part. -/
def fill : Nat → List (Piece B) → Option (List B × List (Piece B))
  | 0, pieces => some ([], pieces)
  | _ + 1, [] => none
  | n + 1, piece :: rest =>
      if h : n + 1 < piece.val.length then
        have hrest : piece.val.drop (n + 1) ≠ [] := fun he => by
          have := List.drop_eq_nil_iff.mp he
          omega
        some (piece.val.take (n + 1), ⟨piece.val.drop (n + 1), hrest⟩ :: rest)
      else
        (fill (n + 1 - piece.val.length) rest).map fun filled =>
          (piece.val ++ filled.1, filled.2)

/-- `n` symbols, or what the stream ends with. -/
def Source.readExact (n : Nat) (s : Source B E) : Except (ReadError E) (List B × Source B E) :=
  match fill n s.pieces with
  | some (filled, rest) => .ok (filled, { s with pieces := rest })
  | none => .error s.ending

theorem fill_enough (n : Nat) (pieces : List (Piece B))
    (hn : n ≤ (pieces.flatMap (·.val)).length) :
    ∃ rest, fill n pieces = some ((pieces.flatMap (·.val)).take n, rest) ∧
      rest.flatMap (·.val) = (pieces.flatMap (·.val)).drop n := by
  induction pieces generalizing n with
  | nil =>
      have hzero : n = 0 := by simpa using hn
      subst hzero
      exact ⟨[], rfl, rfl⟩
  | cons piece rest ih =>
      cases n with
      | zero => exact ⟨piece :: rest, rfl, rfl⟩
      | succ n =>
          rw [List.flatMap_cons] at hn ⊢
          rw [List.length_append] at hn
          by_cases hlong : n + 1 < piece.val.length
          · rw [fill, dif_pos hlong, List.take_append_of_le_length (by omega)]
            refine ⟨_, rfl, ?_⟩
            rw [List.drop_append_of_le_length (by omega), List.flatMap_cons]
          · have hfits : piece.val.length ≤ n + 1 := by omega
            obtain ⟨left, hfill, hleft⟩ := ih (n + 1 - piece.val.length) (by omega)
            refine ⟨left, ?_, ?_⟩
            · rw [fill, dif_neg hlong, hfill, List.take_append, List.take_of_length_le hfits]
              rfl
            · rw [hleft, List.drop_append, List.drop_of_length_le hfits, List.nil_append]

theorem fill_short (n : Nat) (pieces : List (Piece B))
    (hn : (pieces.flatMap (·.val)).length < n) : fill n pieces = none := by
  induction pieces generalizing n with
  | nil =>
      cases n with
      | zero => cases hn
      | succ n => rfl
  | cons piece rest ih =>
      cases n with
      | zero => cases hn
      | succ n =>
          rw [List.flatMap_cons, List.length_append] at hn
          rw [fill, dif_neg (by omega), ih (n + 1 - piece.val.length) (by omega)]
          rfl

/-- However the symbols arrive, a read takes the next `n` of them. -/
theorem Source.readExact_enough {n : Nat} {s : Source B E} (hn : n ≤ s.bytes.length) :
    ∃ rest : Source B E, s.readExact n = .ok (s.bytes.take n, rest) ∧
      rest.bytes = s.bytes.drop n ∧ rest.failure = s.failure := by
  obtain ⟨rest, hfill, hrest⟩ := fill_enough n s.pieces hn
  refine ⟨{ s with pieces := rest }, ?_, hrest, rfl⟩
  rw [Source.readExact, hfill]
  rfl

/-- A stream that is too short ends the read. -/
theorem Source.readExact_short {n : Nat} {s : Source B E} (hn : s.bytes.length < n) :
    s.readExact n = .error s.ending := by
  rw [Source.readExact, fill_short n s.pieces hn]

theorem Source.readExact_length {n : Nat} {s rest : Source B E} {taken : List B}
    (h : s.readExact n = .ok (taken, rest)) : taken.length = n := by
  by_cases hn : n ≤ s.bytes.length
  · obtain ⟨_, hread, _⟩ := Source.readExact_enough hn
    rw [h] at hread
    cases hread
    rw [List.length_take]
    omega
  · rw [Source.readExact_short (by omega)] at h
    cases h

/-- What a read took stood at the front of the stream. -/
theorem Source.readExact_ok {n : Nat} {s rest : Source B E} {taken : List B}
    (h : s.readExact n = .ok (taken, rest)) : s.bytes = taken ++ rest.bytes := by
  by_cases hn : n ≤ s.bytes.length
  · obtain ⟨after, hread, hafter, _⟩ := Source.readExact_enough hn
    rw [h] at hread
    cases hread
    rw [hafter, List.take_append_drop]
  · rw [Source.readExact_short (by omega)] at h
    cases h

/-! ## 2. Frames -/

/-- How a length is written: always as wide, and read back below the capacity. -/
structure Header (B : Type) where
  width : Nat
  capacity : Nat
  encode : Nat → List B
  decode : List B → Nat
  length_encode : ∀ n, (encode n).length = width
  decode_encode : ∀ n, n < capacity → decode (encode n) = n

/-- The frame of a body. -/
def frame (H : Header B) (body : List B) : List B := H.encode body.length ++ body

theorem length_frame (H : Header B) (body : List B) :
    (frame H body).length = H.width + body.length := by
  rw [frame, List.length_append, H.length_encode]

/-- Where reading a frame stops. -/
inductive FrameStop (E : Type) where
  | inHeader (error : ReadError E)
  | tooLong (length : Nat)
  | inBody (error : ReadError E)
  deriving DecidableEq, Repr

/-- A body of this length, if it is not over the limit. -/
def takeBody (limit length : Nat) (s : Source B E) :
    Except (FrameStop E) (List B × Source B E) :=
  if limit < length then .error (.tooLong length)
  else
    match s.readExact length with
    | .error error => .error (.inBody error)
    | .ok taken => .ok taken

/-- One frame: its header, then as many symbols as it says. -/
def takeFrame (H : Header B) (limit : Nat) (s : Source B E) :
    Except (FrameStop E) (List B × Source B E) :=
  match s.readExact H.width with
  | .error error => .error (.inHeader error)
  | .ok (header, s) => takeBody limit (H.decode header) s

section Frames

variable {H : Header B} {limit : Nat} {s : Source B E}

/-- No frame that is read is over the limit. -/
theorem takeFrame_le {body : List B} {s' : Source B E}
    (h : takeFrame H limit s = .ok (body, s')) : body.length ≤ limit := by
  unfold takeFrame at h
  cases hheader : s.readExact H.width with
  | error e =>
      rw [hheader] at h
      cases h
  | ok taken =>
      rw [hheader] at h
      dsimp only at h
      unfold takeBody at h
      by_cases hlong : limit < H.decode taken.1
      · rw [if_pos hlong] at h
        cases h
      · rw [if_neg hlong] at h
        cases hbody : taken.2.readExact (H.decode taken.1) with
        | error e =>
            rw [hbody] at h
            cases h
        | ok read =>
            rw [hbody] at h
            cases h
            have := Source.readExact_length hbody
            omega

/-- What was on the stream where a frame was read: a header with its length, and the body. -/
theorem takeFrame_ok {body : List B} {s' : Source B E}
    (h : takeFrame H limit s = .ok (body, s')) :
    ∃ header, header.length = H.width ∧ H.decode header = body.length ∧
      s.bytes = header ++ (body ++ s'.bytes) := by
  unfold takeFrame at h
  cases hheader : s.readExact H.width with
  | error e =>
      rw [hheader] at h
      cases h
  | ok taken =>
      obtain ⟨header, inside⟩ := taken
      rw [hheader] at h
      dsimp only at h
      unfold takeBody at h
      by_cases hlong : limit < H.decode header
      · rw [if_pos hlong] at h
        cases h
      · rw [if_neg hlong] at h
        cases hbody : inside.readExact (H.decode header) with
        | error e =>
            rw [hbody] at h
            cases h
        | ok read =>
            rw [hbody] at h
            cases h
            refine ⟨header, Source.readExact_length hheader,
              (Source.readExact_length hbody).symm, ?_⟩
            rw [Source.readExact_ok hheader, Source.readExact_ok hbody]

/-- A frame that is read on a beginning of frames is the first of them. -/
theorem takeFrame_part {body first rest : List B} {s' : Source B E}
    (h : takeFrame H limit s = .ok (body, s')) (hcapacity : first.length < H.capacity)
    (hs : s.bytes <+: frame H first ++ rest) : body = first ∧ s'.bytes <+: rest := by
  obtain ⟨header, hwidth, hlength, hbytes⟩ := takeFrame_ok h
  obtain ⟨more, hmore⟩ := hs
  rw [hbytes, frame, List.append_assoc, List.append_assoc, List.append_assoc] at hmore
  obtain ⟨hheader, hinside⟩ :=
    List.append_inj hmore (hwidth.trans (H.length_encode first.length).symm)
  rw [hheader, H.decode_encode _ hcapacity] at hlength
  obtain ⟨hbody, hafter⟩ := List.append_inj hinside hlength.symm
  exact ⟨hbody, more, hafter⟩

/-- A header that is there is read first. -/
theorem takeFrame_header (limit : Nat) {length : Nat} {rest : List B}
    (hs : s.bytes = H.encode length ++ rest) :
    ∃ inside : Source B E, inside.bytes = rest ∧ inside.failure = s.failure ∧
      takeFrame H limit s = takeBody limit (H.decode (H.encode length)) inside := by
  have hwidth := H.length_encode length
  have henough : H.width ≤ s.bytes.length := by
    rw [hs, List.length_append, hwidth]
    omega
  obtain ⟨inside, hread, hbytes, hfailure⟩ := Source.readExact_enough henough
  refine ⟨inside, ?_, hfailure, ?_⟩
  · rw [hbytes, hs, ← hwidth, List.drop_left]
  · have htake : s.bytes.take H.width = H.encode length := by
      rw [hs, ← hwidth, List.take_left]
    rw [takeFrame, hread, htake]

/-- A whole frame within the limit is read, and nothing after it. -/
theorem takeFrame_frame {body rest : List B} (hcapacity : body.length < H.capacity)
    (hlimit : body.length ≤ limit) (hs : s.bytes = frame H body ++ rest) :
    ∃ s', takeFrame H limit s = .ok (body, s') ∧ s'.bytes = rest ∧ s'.failure = s.failure := by
  rw [frame, List.append_assoc] at hs
  obtain ⟨inside, hbytes, hfailure, htake⟩ := takeFrame_header limit hs
  rw [H.decode_encode _ hcapacity, takeBody, if_neg (by omega)] at htake
  have henough : body.length ≤ inside.bytes.length := by
    rw [hbytes, List.length_append]
    omega
  obtain ⟨after, hread, hafter, hsame⟩ := Source.readExact_enough henough
  rw [hread, hbytes, List.take_left] at htake
  refine ⟨after, htake, ?_, hsame.trans hfailure⟩
  rw [hafter, hbytes, List.drop_left]

/-- Fewer symbols than a header has end the read in the header. -/
theorem takeFrame_short (limit : Nat) (hs : s.bytes.length < H.width) :
    takeFrame H limit s = .error (.inHeader s.ending) := by
  rw [takeFrame, Source.readExact_short hs]

/-- A frame that is cut after its header ends the read in the body. -/
theorem takeFrame_partial {body : List B} {k : Nat} (hcapacity : body.length < H.capacity)
    (hlimit : body.length ≤ limit) (hk : k < body.length)
    (hs : s.bytes = H.encode body.length ++ body.take k) :
    takeFrame H limit s = .error (.inBody s.ending) := by
  obtain ⟨inside, hbytes, hfailure, htake⟩ := takeFrame_header limit hs
  rw [H.decode_encode _ hcapacity, takeBody, if_neg (by omega)] at htake
  have hshort : inside.bytes.length < body.length := by
    rw [hbytes, List.length_take]
    omega
  rw [Source.readExact_short hshort] at htake
  rw [htake, Source.ending, Source.ending, hfailure]

/-- A length over the limit is refused before the body is read. -/
theorem takeFrame_tooLong {length : Nat} {rest : List B}
    (hs : s.bytes = H.encode length ++ rest) (hlong : limit < H.decode (H.encode length)) :
    takeFrame H limit s = .error (.tooLong (H.decode (H.encode length))) := by
  obtain ⟨_, _, _, htake⟩ := takeFrame_header limit hs
  rw [htake, takeBody, if_pos hlong]

end Frames

/-! ## 3. Reading again and again -/

/-- At most `n` reads: what they gave, where the stream is then, and the first failure. -/
def repeatRead (read : S → Except E (V × S)) : Nat → S → List V × S × Option E
  | 0, s => ([], s, none)
  | n + 1, s =>
      match read s with
      | .error error => ([], s, some error)
      | .ok (value, s') =>
          let after := repeatRead read n s'
          (value :: after.1, after.2)

section Repeat

variable {read : S → Except E (V × S)} {s s' : S} {value : V} {values : List V} {error : E}

theorem repeatRead_ok (hread : read s = .ok (value, s')) (n : Nat) :
    repeatRead read (n + 1) s =
      (value :: (repeatRead read n s').1, (repeatRead read n s').2) := by
  rw [repeatRead, hread]

theorem repeatRead_error (hread : read s = .error error) (n : Nat) :
    repeatRead read (n + 1) s = ([], s, some error) := by
  rw [repeatRead, hread]

end Repeat

/-! ## 4. Four bytes, the highest first -/

/-- `u32::to_be_bytes`. -/
def toBeBytes (n : UInt32) : List UInt8 :=
  [(n >>> 24).toUInt8, (n >>> 16).toUInt8, (n >>> 8).toUInt8, n.toUInt8]

/-- `u32::from_be_bytes`. -/
def fromBeBytes : List UInt8 → UInt32
  | [a, b, c, d] => a.toUInt32 <<< 24 + b.toUInt32 <<< 16 + c.toUInt32 <<< 8 + d.toUInt32
  | _ => 0

theorem fromBeBytes_toBeBytes (n : UInt32) : fromBeBytes (toBeBytes n) = n := by
  apply UInt32.toNat_inj.mp
  have hn := n.toNat_lt
  simp only [fromBeBytes, toBeBytes, UInt32.toNat_add, UInt32.toNat_shiftLeft,
    UInt32.toNat_shiftRight, UInt32.toNat_toUInt8, UInt8.toNat_toUInt32, Nat.shiftLeft_eq,
    Nat.shiftRight_eq_div_pow, UInt32.reduceToNat, Nat.reduceMod, Nat.reducePow]
  omega

/-- The header of four bytes holds a length modulo 2^32. -/
def Header.u32Be : Header UInt8 where
  width := 4
  capacity := 4294967296
  encode n := toBeBytes (UInt32.ofNat n)
  decode header := (fromBeBytes header).toNat
  length_encode _ := rfl
  decode_encode n hn := by
    rw [fromBeBytes_toBeBytes, UInt32.toNat_ofNat_of_lt' hn]

theorem Header.u32Be_decode (n : Nat) :
    Header.u32Be.decode (Header.u32Be.encode n) = n % 4294967296 := by
  change (fromBeBytes (toBeBytes (UInt32.ofNat n))).toNat = _
  rw [fromBeBytes_toBeBytes, UInt32.toNat_ofNat']

end Framing
