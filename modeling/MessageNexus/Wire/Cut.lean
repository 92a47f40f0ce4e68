/-
  File:      MessageNexus/Wire/Cut.lean
  Subject:   A STREAM THAT IS CUT: what `read_frame` gives of the frames that `write_frame` wrote,
             if the bytes end after any number of them.

  * `framesLength`, `wholeBefore`, `cutInto` -- the lengths of frames, the values whose frames lie
    wholly before a cut, and how far the cut is into the next frame;
  * `onBoundary_iff`, `wholeBefore_spec` -- these say what they should;
  * `cut_read` -- reading the cut stream gives the whole frames, then one error;
  * `cut_told_iff` -- the error tells whether the cut is between two frames, exactly if the cut is
    not inside a header.
-/
import MessageNexus.Wire.RoundTrip

namespace MessageNexus

open Framing

section Cuts

variable {V : Type} [Rkyv V] {s : ByteStream} {value : V} {values : List V} {k : Nat}
  {bytes archive : List UInt8}

/-! ## 1. Where the cut is -/

/-- The length of a value's frame. -/
def frameLength (value : V) : Nat :=
  match Rkyv.toBytes value with
  | .ok archive => 4 + archive.length
  | .error _ => 4

/-- The length of the frames of these values. -/
def framesLength : List V → Nat
  | [] => 0
  | value :: values => frameLength value + framesLength values

/-- The values whose frames lie wholly in the first `k` bytes. -/
def wholeBefore : List V → Nat → List V
  | [], _ => []
  | value :: values, k =>
      if frameLength value ≤ k then value :: wholeBefore values (k - frameLength value) else []

/-- How many of the first `k` bytes belong to the frame after those. -/
def cutInto : List V → Nat → Nat
  | [], k => k
  | value :: values, k =>
      if frameLength value ≤ k then cutInto values (k - frameLength value) else k

/-- The cut falls before, between or after the frames. -/
def OnBoundary (values : List V) (k : Nat) : Prop := ∃ i, k = framesLength (values.take i)

/-- The cut falls inside a header. -/
def InHeader (values : List V) (k : Nat) : Prop := 0 < cutInto values k ∧ cutInto values k < 4

instance (values : List V) (k : Nat) : Decidable (InHeader values k) :=
  inferInstanceAs (Decidable (_ ∧ _))

/-- Reading the cut stream gives the whole frames, then an error, which is `Closed` exactly if the
    cut falls between frames. -/
def CutTold (values : List V) (k : Nat) (s : ByteStream) : Prop :=
  ∃ rest error,
    repeatRead (Unframer.readFrame.read V) ((wholeBefore values k).length + 1) s =
      (wholeBefore values k, rest, some error) ∧
    (error = .closed ↔ OnBoundary values k)

theorem frameLength_ok (h : Rkyv.toBytes value = .ok archive) :
    frameLength value = (frame Header.u32Be archive).length := by
  rw [frameLength, h, length_frame]
  rfl

theorem frameLength_pos (value : V) : 0 < frameLength value := by
  unfold frameLength
  cases Rkyv.toBytes value with
  | ok archive => exact Nat.add_pos_left (by decide) _
  | error e => exact Nat.zero_lt_succ 3

/-- The whole frames are the first ones, and all but `cutInto` of the bytes are theirs. -/
theorem wholeBefore_spec (values : List V) (k : Nat) :
    wholeBefore values k = values.take (wholeBefore values k).length ∧
      framesLength (wholeBefore values k) + cutInto values k = k := by
  induction values generalizing k with
  | nil => exact ⟨rfl, Nat.zero_add k⟩
  | cons value values ih =>
      by_cases hle : frameLength value ≤ k
      · obtain ⟨htake, hsum⟩ := ih (k - frameLength value)
        rw [wholeBefore, cutInto, if_pos hle, if_pos hle, List.length_cons, List.take_succ_cons,
          ← htake, framesLength]
        exact ⟨rfl, by omega⟩
      · rw [wholeBefore, cutInto, if_neg hle, if_neg hle]
        exact ⟨rfl, Nat.zero_add k⟩

/-- A cut falls between frames exactly if no byte of the next frame is before it. -/
theorem onBoundary_iff (values : List V) (k : Nat) : OnBoundary values k ↔ cutInto values k = 0 := by
  induction values generalizing k with
  | nil =>
      constructor
      · rintro ⟨i, rfl⟩
        rw [List.take_nil]
        rfl
      · intro hk
        exact ⟨0, hk⟩
  | cons value values ih =>
      have hpos := frameLength_pos value
      by_cases hle : frameLength value ≤ k
      · rw [cutInto, if_pos hle, ← ih]
        constructor
        · rintro ⟨i, hi⟩
          cases i with
          | zero =>
              rw [List.take_zero] at hi
              have hzero : k = 0 := hi
              omega
          | succ i =>
              rw [List.take_succ_cons, framesLength] at hi
              exact ⟨i, by omega⟩
        · rintro ⟨i, hi⟩
          refine ⟨i + 1, ?_⟩
          rw [List.take_succ_cons, framesLength]
          omega
      · rw [cutInto, if_neg hle]
        constructor
        · rintro ⟨i, hi⟩
          cases i with
          | zero => exact hi
          | succ i =>
              rw [List.take_succ_cons, framesLength] at hi
              omega
        · intro hk
          exact ⟨0, hk⟩

/-! ## 2. Reading -/

/-- A frame that is cut: the error says so, if the cut is after the header. -/
theorem read_cut (harchive : Rkyv.toBytes value = .ok archive)
    (hfits : archive.length ≤ frameLimit) (hk : k < frameLength value) (hend : s.failure = none)
    (hs : s.bytes = (frame Header.u32Be archive).take k) :
    ∃ error, Unframer.readFrame.read V s = .error error ∧ (error = .closed ↔ k < 4) := by
  rw [frameLength_ok harchive] at hk
  have hlength : s.bytes.length = k := by
    rw [hs, List.length_take]
    omega
  by_cases hheader : k < 4
  · have hshort : s.bytes.length < Header.u32Be.width := by
      rw [hlength]
      exact hheader
    have htake := takeFrame_short frameLimit hshort
    refine ⟨.closed, ?_, fun _ => hheader, fun _ => rfl⟩
    unfold Unframer.read
    rw [show Unframer.readFrame.limit = frameLimit from rfl, htake, Source.ending, hend]
    rfl
  · rw [length_frame] at hk
    have hwidth : Header.u32Be.width = 4 := rfl
    have hcapacity : archive.length < Header.u32Be.capacity := Nat.lt_of_le_of_lt hfits (by decide)
    have hbytes : s.bytes = Header.u32Be.encode archive.length ++ archive.take (k - 4) := by
      rw [hs, frame, List.take_append, Header.length_encode, hwidth, List.take_of_length_le]
      rw [Header.length_encode]
      omega
    have htake := takeFrame_partial hcapacity hfits
      (by omega : k - 4 < archive.length) hbytes
    refine ⟨.io (readErrorText .unexpectedEof), ?_, fun he => (by cases he),
      fun h => absurd h hheader⟩
    unfold Unframer.read
    rw [show Unframer.readFrame.limit = frameLimit from rfl, htake, Source.ending, hend]
    rfl

/-- The bytes of values that `write_frame` reported as written. -/
abbrev WrittenByNexus (values : List V) (bytes : List UInt8) : Prop :=
  WrittenFrames (values.map fun value => (.writeFrame, value)) bytes

theorem WrittenByNexus.cons_inv (hw : WrittenByNexus (value :: values) bytes) :
    ∃ archive rest, Rkyv.toBytes value = .ok archive ∧ WrittenByNexus values rest ∧
      bytes = frame Header.u32Be archive ++ rest := by
  cases hw with
  | cons hwrite hrest =>
      obtain ⟨archive, harchive, rfl⟩ := Framer.write_ok hwrite
      exact ⟨archive, _, harchive, hrest, rfl⟩

/-- Reading the cut stream gives the whole frames, then an error, which is `Closed` exactly if fewer
    than four bytes of the next frame are there. -/
theorem cut_read (hrkyv : ReadsBack V) (hw : WrittenByNexus values bytes)
    (hfits : ∀ value ∈ values, FitsFrame value) (hk : k ≤ bytes.length)
    (hs : s.bytes = bytes.take k) (hend : s.failure = none) :
    ∃ rest error,
      repeatRead (Unframer.readFrame.read V) ((wholeBefore values k).length + 1) s =
        (wholeBefore values k, rest, some error) ∧
      (error = .closed ↔ cutInto values k < 4) := by
  induction values generalizing s bytes k with
  | nil =>
      cases hw with
      | nil =>
          have hzero : k = 0 := Nat.le_zero.mp hk
          subst hzero
          refine ⟨s, .closed, repeatRead_error ?_ 0, fun _ => Nat.zero_lt_succ 3, fun _ => rfl⟩
          exact read_ended .readFrame hs hend
  | cons value values ih =>
      obtain ⟨archive, more, harchive, hmore, rfl⟩ := hw.cons_inv
      have hfirst := hfits value List.mem_cons_self archive harchive
      have hlength := frameLength_ok harchive
      by_cases hle : frameLength value ≤ k
      · rw [wholeBefore, cutInto, if_pos hle, if_pos hle]
        rw [List.length_append] at hk
        rw [List.take_append, List.take_of_length_le (by omega)] at hs
        obtain ⟨s', hread, hbytes, hfailure⟩ :=
          read_written (r := Unframer.readFrame) rfl hrkyv harchive hfirst hs
        rw [← hlength] at hbytes
        obtain ⟨rest, error, hreads, hclosed⟩ := ih hmore
          (fun v hv => hfits v (List.mem_cons_of_mem value hv)) (by omega) hbytes
          (hfailure.trans hend)
        refine ⟨rest, error, ?_, hclosed⟩
        rw [List.length_cons, repeatRead_ok hread, hreads]
      · rw [wholeBefore, cutInto, if_neg hle, if_neg hle]
        rw [List.take_append_of_le_length (by omega)] at hs
        obtain ⟨error, hread, hclosed⟩ := read_cut harchive hfirst (by omega) hend hs
        exact ⟨s, error, repeatRead_error hread 0, hclosed⟩

/-- However the bytes are cut, reading gives the whole frames; the error after them tells whether
    the cut falls between frames exactly if it does not fall inside a header. -/
theorem cut_told_iff (hrkyv : ReadsBack V) (hw : WrittenByNexus values bytes)
    (hfits : ∀ value ∈ values, FitsFrame value) (hk : k ≤ bytes.length)
    (hs : s.bytes = bytes.take k) (hend : s.failure = none) :
    CutTold values k s ↔ ¬ InHeader values k := by
  obtain ⟨rest, error, hreads, hclosed⟩ := cut_read hrkyv hw hfits hk hs hend
  constructor
  · rintro ⟨rest', error', hreads', hboundary⟩ ⟨hpos, hheader⟩
    rw [hreads] at hreads'
    cases hreads'
    have hzero := (onBoundary_iff values k).mp (hboundary.mp (hclosed.mpr hheader))
    omega
  · intro hno
    refine ⟨rest, error, hreads, ?_⟩
    rw [hclosed, onBoundary_iff]
    constructor
    · intro hheader
      by_contra hne
      exact hno ⟨Nat.pos_of_ne_zero hne, hheader⟩
    · intro hzero
      rw [hzero]
      decide

end Cuts

/-! ## 3. Two frames -/

/-- The frames of two values. -/
theorem zeros_two : WrittenByNexus [Zeros.mk 2, Zeros.mk 1]
    (frame Header.u32Be (List.replicate 2 0) ++ (frame Header.u32Be (List.replicate 1 0) ++ [])) :=
  .cons (zeros_written .writeFrame (by decide))
    (.cons (zeros_written .writeFrame (by decide)) .nil)

theorem zeros_fit {n : Nat} (hn : n ≤ frameLimit) : FitsFrame (Zeros.mk n) := by
  intro archive harchive
  cases harchive
  rw [List.length_replicate]
  exact hn

/-- A cut inside the second body is told. -/
theorem cut_body : CutTold [Zeros.mk 2, Zeros.mk 1] 10
    ⟨[⟨[0, 0, 0, 2, 0], by decide⟩, ⟨[0, 0, 0, 0, 1], by decide⟩], none⟩ := by
  refine (cut_told_iff zeros_inverse.readsBack zeros_two ?_ (by decide) (by decide) rfl).mpr
    (by decide)
  intro value hm
  rcases List.mem_pair.mp hm with rfl | rfl <;> exact zeros_fit (by decide)

/-- A cut after the first byte of the second header is taken for a close between frames. -/
theorem cut_header :
    let s : ByteStream := ⟨[⟨[0, 0, 0, 2, 0], by decide⟩, ⟨[0, 0], by decide⟩], none⟩
    s.bytes = (frame Header.u32Be (List.replicate 2 0) ++
      (frame Header.u32Be (List.replicate 1 0) ++ [])).take 7 ∧
    ¬ OnBoundary [Zeros.mk 2, Zeros.mk 1] 7 ∧
    (∃ rest, repeatRead (Unframer.readFrame.read Zeros) 2 s =
      ([Zeros.mk 2], rest, some .closed)) ∧
    ¬ CutTold [Zeros.mk 2, Zeros.mk 1] 7 s := by
  intro s
  have hno : ¬ OnBoundary [Zeros.mk 2, Zeros.mk 1] 7 := by
    rw [onBoundary_iff]
    decide
  have hreads : ∃ rest, repeatRead (Unframer.readFrame.read Zeros) 2 s =
      ([Zeros.mk 2], rest, some .closed) := ⟨_, rfl⟩
  refine ⟨by decide, hno, hreads, ?_⟩
  rintro ⟨rest, error, hread, hboundary⟩
  obtain ⟨rest', hreads⟩ := hreads
  change repeatRead (Unframer.readFrame.read Zeros) 2 s = _ at hread
  rw [hreads] at hread
  cases hread
  exact hno (hboundary.mp rfl)

end MessageNexus
