/-
  File:      MessageNexus/Wire/RoundTrip.lean
  Subject:   WHAT IS WRITTEN IS READ: a sequence of values that the writers report as written comes
             back from every reader, if no archive is longer than the readers take.

  * `WrittenFrames` -- values that were reported as written, and the bytes of all of them;
  * `RoundTrip` -- a reader gives back the values, reads their bytes, and meets the end;
  * `read_written`, `read_oversized` -- one frame, within the limit and over it;
  * `round_trip_iff` -- a reader gives the values back exactly if every archive is within the limit.
-/
import MessageNexus.Wire.Stream

namespace MessageNexus

open Framing

section RoundTrips

variable {V : Type} [Rkyv V] {s : ByteStream} {value : V} {values : List V}
  {written : List (FrameWriter × V)} {bytes archive rest : List UInt8}

/-! ## 1. The sequence -/

/-- These values were reported as written, each by its writer, and these are the bytes. -/
inductive WrittenFrames : List (FrameWriter × V) → List UInt8 → Prop where
  | nil : WrittenFrames [] []
  | cons {w : FrameWriter} {value : V} {faults : WriteFaults} {taken bytes : List UInt8}
      {written : List (FrameWriter × V)} (hwrite : w.framer.write value faults = (.ok (), taken))
      (hrest : WrittenFrames written bytes) : WrittenFrames ((w, value) :: written) (taken ++ bytes)

/-- What a reader says at the end of the stream. -/
def FrameReader.ended : (r : FrameReader) → r.Error
  | .readFrame => .closed
  | .message => "failed to fill whole buffer"
  | .messageMeta => "failed to fill whole buffer"
  | .readResponse => "Message stream ended: failed to fill whole buffer"

/-- The reader gives back the values in order, no byte is left, and the next read meets the end. -/
def RoundTrip (r : FrameReader) (values : List V) (s : ByteStream) : Prop :=
  ∃ rest, repeatRead (r.unframer.read V) values.length s = (values, rest, none) ∧
    rest.bytes = [] ∧ r.unframer.read V rest = .error r.ended

/-- The archive of a value is no longer than the readers take. -/
def FitsFrame (value : V) : Prop :=
  ∀ archive, Rkyv.toBytes value = .ok archive → archive.length ≤ frameLimit

/-! ## 2. One frame -/

/-- A frame within the limit is read as its value, and nothing after it. -/
theorem read_written {E : Type} {r : Unframer E} (hlimit : r.limit = frameLimit)
    (hrkyv : ReadsBack V) (harchive : Rkyv.toBytes value = .ok archive)
    (hfits : archive.length ≤ frameLimit) (hs : s.bytes = frame Header.u32Be archive ++ rest) :
    ∃ s', r.read V s = .ok (value, s') ∧ s'.bytes = rest ∧ s'.failure = s.failure := by
  have hcapacity : archive.length < Header.u32Be.capacity := Nat.lt_of_le_of_lt hfits (by decide)
  obtain ⟨s', htake, hrest, hfailure⟩ :=
    takeFrame_frame hcapacity (hlimit ▸ hfits : archive.length ≤ r.limit) hs
  exact ⟨s', Unframer.read_ok_iff.mpr ⟨archive, htake, hrkyv value archive harchive⟩,
    hrest, hfailure⟩

/-- Over the limit nobody reads the value, whatever the header says. -/
theorem read_oversized {E : Type} {r : Unframer E} {s' : ByteStream} (hlimit : r.limit = frameLimit)
    (hrkyv : MutuallyInverse V) (harchive : Rkyv.toBytes value = .ok archive)
    (hlong : frameLimit < archive.length) : r.read V s ≠ .ok (value, s') := by
  intro hread
  obtain ⟨taken, htake, hvalue⟩ := Unframer.read_ok_iff.mp hread
  have hsame := (hrkyv value taken).mpr hvalue
  rw [harchive] at hsame
  have hle := takeFrame_le htake
  rw [hlimit, ← Except.ok.inj hsame] at hle
  omega

/-- At the end of the stream every reader says so. -/
theorem read_ended (r : FrameReader) (hs : s.bytes = []) (hend : s.failure = none) :
    r.unframer.read V s = .error r.ended := by
  have hshort : s.bytes.length < Header.u32Be.width := by
    rw [hs]
    decide
  have htake := takeFrame_short r.unframer.limit hshort
  unfold Unframer.read
  rw [htake, Source.ending, hend]
  cases r <;> rfl

/-! ## 3. The rest of them -/

/-- Reading a value and then the others. -/
theorem roundTrip_cons (r : FrameReader) :
    RoundTrip r (value :: values) s ↔
      ∃ s', r.unframer.read V s = .ok (value, s') ∧ RoundTrip r values s' := by
  unfold RoundTrip
  rw [List.length_cons]
  constructor
  · rintro ⟨rest, hreads, hempty, hended⟩
    cases hread : r.unframer.read V s with
    | error e =>
        rw [repeatRead_error hread] at hreads
        cases hreads
    | ok first =>
        obtain ⟨read, s'⟩ := first
        rw [repeatRead_ok hread] at hreads
        obtain ⟨hfirst, hsecond⟩ := Prod.mk.inj hreads
        obtain ⟨rfl, hvalues⟩ := List.cons.inj hfirst
        exact ⟨s', rfl, rest, Prod.ext hvalues hsecond, hempty, hended⟩
  · rintro ⟨s', hread, rest, hreads, hempty, hended⟩
    refine ⟨rest, ?_, hempty, hended⟩
    rw [repeatRead_ok hread, hreads]

/-- Values that were reported as written come back from a reader exactly if every archive is within
    the limit. -/
theorem round_trip_iff (hrkyv : MutuallyInverse V) (hw : WrittenFrames written bytes)
    (r : FrameReader) (hs : s.bytes = bytes) (hend : s.failure = none) :
    RoundTrip r (written.map (·.2)) s ↔ ∀ entry ∈ written, FitsFrame entry.2 := by
  induction hw generalizing s with
  | nil => exact ⟨fun _ _ hm => absurd hm List.not_mem_nil,
      fun _ => ⟨s, rfl, hs, read_ended r hs hend⟩⟩
  | @cons w value faults taken bytes written hwrite hrest ih =>
      obtain ⟨archive, harchive, rfl⟩ := Framer.write_ok hwrite
      rw [List.map_cons, roundTrip_cons]
      by_cases hfits : archive.length ≤ frameLimit
      · obtain ⟨s', hread, hbytes, hfailure⟩ :=
          read_written r.limit_eq hrkyv.readsBack harchive hfits hs
        have hrest := ih hbytes (hfailure.trans hend)
        have hfirst : FitsFrame value := by
          intro archive' harchive'
          rw [harchive] at harchive'
          cases harchive'
          exact hfits
        rw [List.forall_mem_cons, ← hrest]
        constructor
        · rintro ⟨s'', hread', hround⟩
          rw [hread] at hread'
          cases hread'
          exact ⟨hfirst, hround⟩
        · rintro ⟨_, hround⟩
          exact ⟨s', hread, hround⟩
      · constructor
        · rintro ⟨s', hread, _⟩
          exact absurd hread (read_oversized r.limit_eq hrkyv harchive (by omega))
        · intro hall
          exact absurd (hall _ List.mem_cons_self archive harchive) hfits

end RoundTrips

/-! ## 4. Two values, and one that is too long -/

/-- A value whose archive is so many zeros. -/
structure Zeros where
  count : Nat

instance : Rkyv Zeros where
  toBytes value := .ok (List.replicate value.count 0)
  fromBytes bytes :=
    if bytes = List.replicate bytes.length 0 then .ok ⟨bytes.length⟩ else .error "not an archive"

theorem zeros_inverse : MutuallyInverse Zeros := by
  rintro ⟨n⟩ bytes
  constructor
  · intro h
    cases h
    show (if _ then _ else _) = _
    rw [List.length_replicate, if_pos rfl]
  · intro h
    change (if bytes = List.replicate bytes.length 0 then Except.ok (Zeros.mk bytes.length)
      else .error "not an archive") = _ at h
    by_cases hzeros : bytes = List.replicate bytes.length 0
    · rw [if_pos hzeros] at h
      cases h
      exact congrArg Except.ok hzeros.symm
    · rw [if_neg hzeros] at h
      cases h

/-- A writer of zeros within a header's limit reports the frame as written. -/
theorem zeros_written (w : FrameWriter) {n : Nat} (hn : n ≤ headerLimit) :
    w.framer.write (Zeros.mk n) .none = (.ok (), frame Header.u32Be (List.replicate n 0)) := by
  have hheader : w.framer.header (List.replicate n (0 : UInt8)).length
      = .ok (UInt32.ofNat n) := by
    rw [List.length_replicate]
    cases w with
    | writeFrame => exact if_neg (by omega)
    | send => exact if_neg (by omega)
    | _ => rfl
  unfold Framer.write
  rw [show Rkyv.toBytes (Zeros.mk n) = Except.ok (List.replicate n 0) from rfl]
  dsimp only
  rw [hheader, frame, List.length_replicate]
  cases w <;> rfl

theorem round_trip_two :
    RoundTrip .message [Zeros.mk 2, Zeros.mk 0]
      ⟨[⟨[0, 0, 0], by decide⟩, ⟨[2, 0, 0, 0, 0, 0], by decide⟩, ⟨[0], by decide⟩], none⟩ := by
  have hw := WrittenFrames.cons (zeros_written .writeFrame (n := 2) (by decide))
    (WrittenFrames.cons (zeros_written .send (n := 0) (by decide)) WrittenFrames.nil)
  refine (round_trip_iff zeros_inverse hw .message (by decide) rfl).mpr ?_
  intro entry hm archive harchive
  cases harchive
  rw [List.length_replicate]
  rcases List.mem_pair.mp hm with rfl | rfl <;> decide

/-- An archive of one byte over the limit: every writer reports it as written, and every reader
    refuses it. -/
theorem round_trip_refused :
    ∃ taken, (∀ w : FrameWriter, w.framer.write (Zeros.mk 1048577) .none = (.ok (), taken)) ∧
      ∀ r : FrameReader, ∀ s : ByteStream, s.bytes = taken →
        r.unframer.read Zeros s = .error (r.unframer.tooLong 1048577) ∧
        ¬ RoundTrip r [Zeros.mk 1048577] s := by
  refine ⟨_, fun w => zeros_written w (by decide), fun r s hs => ?_⟩
  have hdecode : Header.u32Be.decode (Header.u32Be.encode 1048577) = 1048577 :=
    Header.u32Be_decode 1048577
  have hread : r.unframer.read Zeros s = .error (r.unframer.tooLong 1048577) := by
    rw [frame, List.length_replicate] at hs
    have hlong : r.unframer.limit < Header.u32Be.decode (Header.u32Be.encode 1048577) := by
      rw [hdecode, r.limit_eq]
      decide
    have htake := takeFrame_tooLong hs hlong
    unfold Unframer.read
    rw [htake, hdecode]
  refine ⟨hread, fun hround => ?_⟩
  obtain ⟨s', hok, _⟩ := (roundTrip_cons r).mp hround
  rw [hread] at hok
  cases hok

end MessageNexus
