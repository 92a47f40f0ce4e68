/-
  File:      MessageNexus/Wire/Prefix.lean
  Subject:   A READER SEES A BEGINNING: whatever writes failed, wherever the stream is cut and in
             whatever pieces it arrives, a reader gets the first values that were written, in order.

  * `FramesOf` -- the frames of values, one after the other;
  * `write_begins`, `write_frame_part` -- a writer puts a beginning of the frame on the stream,
    whatever its writes meet; one that checks the length, of a frame that a header can tell;
  * `OnStream`, `onStream_frames` -- the bytes that a history of events wrote, where nothing is
    written after a failed write: a beginning of the frames of its values;
  * `read_part`, `read_own` -- a reader of a beginning of frames gets the first values; where one
    value was written, that value;
  * `answersFrom`, `answersFrom_read` -- the same for the steps that the clients' reads meet.
-/
import MessageNexus.Wire.RoundTrip

namespace MessageNexus

open Framing SignalFlow

section Prefixes

variable {V E ε : Type} [Rkyv V] {value : V} {values : List V} {bytes taken : List UInt8}

/-! ## 1. The frames of values -/

/-- The frames of these values; each length fits a header. -/
inductive FramesOf : List V → List UInt8 → Prop where
  | nil : FramesOf [] []
  | cons {value : V} {values : List V} {archive bytes : List UInt8}
      (harchive : Rkyv.toBytes value = .ok archive)
      (hcapacity : archive.length < Header.u32Be.capacity) (hrest : FramesOf values bytes) :
      FramesOf (value :: values) (frame Header.u32Be archive ++ bytes)

/-- One more frame behind them. -/
theorem FramesOf.snoc {archive : List UInt8} (h : FramesOf values bytes)
    (harchive : Rkyv.toBytes value = .ok archive)
    (hcapacity : archive.length < Header.u32Be.capacity) :
    FramesOf (values ++ [value]) (bytes ++ frame Header.u32Be archive) := by
  induction h with
  | nil =>
      have hone := FramesOf.cons harchive hcapacity .nil
      rwa [List.append_nil] at hone
  | cons harchive' hcapacity' _ ih =>
      rw [List.append_assoc]
      exact .cons harchive' hcapacity' ih

/-! ## 2. What a write puts on the stream -/

/-- The writer refuses a length that its header cannot hold. -/
def Framer.Checked (w : Framer E) : Prop :=
  ∀ length word, w.header length = .ok word → length < Header.u32Be.capacity

theorem tryFromU32_fits {refused : E} {length : Nat} {word : UInt32}
    (h : tryFromU32 refused length = .ok word) : length < Header.u32Be.capacity := by
  unfold tryFromU32 at h
  by_cases hl : headerLimit < length
  · rw [if_pos hl] at h
    cases h
  · have hlimit : headerLimit + 1 = Header.u32Be.capacity := rfl
    omega

theorem writeFrame_checked : Framer.writeFrame.Checked := fun _ _ h => tryFromU32_fits h

theorem send_checked : Framer.send.Checked := fun _ _ h => tryFromU32_fits h

/-- A `write_all` takes a beginning, and all of it if it succeeds. -/
theorem writeAll_part (fault : Option (Nat × IoError)) (bytes : List UInt8) :
    (writeAll fault bytes).2 <+: bytes ∧
      ((writeAll fault bytes).1 = .ok () → (writeAll fault bytes).2 = bytes) := by
  cases fault with
  | none => exact ⟨List.prefix_rfl, fun _ => rfl⟩
  | some fault =>
      obtain ⟨n, error⟩ := fault
      exact ⟨List.take_prefix n bytes, fun h => by cases h⟩

/-- The body of a frame, written after its header. -/
theorem write_body_part {header archive : List UInt8} (fault : Option (Nat × IoError)) :
    header ++ (writeAll fault archive).2 <+: header ++ archive :=
  (List.prefix_append_right_inj header).mpr (writeAll_part fault archive).1

/-- Whatever its writes meet, a writer puts nothing on the stream, or a beginning of the frame of
    its value, whose length it has accepted. -/
theorem write_begins (w : Framer E) (value : V) (faults : WriteFaults) :
    (w.write value faults).2 = [] ∨ ∃ archive word, Rkyv.toBytes value = .ok archive ∧
      w.header archive.length = .ok word ∧
      (w.write value faults).2 <+: frame Header.u32Be archive := by
  unfold Framer.write
  cases harchive : Rkyv.toBytes value with
  | error e => exact Or.inl rfl
  | ok archive =>
      dsimp only
      cases hheader : w.header archive.length with
      | error e => exact Or.inl rfl
      | ok word =>
          refine Or.inr ⟨archive, word, rfl, hheader, ?_⟩
          have hframe : frame Header.u32Be archive = toBeBytes word ++ archive := by
            rw [w.header_ofNat _ _ hheader]
            rfl
          rw [hframe]
          dsimp only
          have hhead := writeAll_part faults.header (toBeBytes word)
          have hbody := @write_body_part (toBeBytes word) archive faults.body
          cases hh : writeAll faults.header (toBeBytes word) with
          | mk result header =>
              rw [hh] at hhead
              cases result with
              | error e => exact hhead.1.trans (List.prefix_append _ _)
              | ok _ =>
                  obtain rfl : header = toBeBytes word := hhead.2 rfl
                  dsimp only
                  cases hb : writeAll faults.body archive with
                  | mk result body =>
                      rw [hb] at hbody
                      cases result with
                      | error e => exact hbody
                      | ok _ =>
                          dsimp only
                          split <;> exact hbody

/-- A checked writer puts nothing on the stream, or a beginning of a frame that a header can
    tell. -/
theorem write_frame_part {w : Framer E} (hw : w.Checked) (value : V) (faults : WriteFaults) :
    (w.write value faults).2 = [] ∨ ∃ archive, Rkyv.toBytes value = .ok archive ∧
      archive.length < Header.u32Be.capacity ∧
      (w.write value faults).2 <+: frame Header.u32Be archive := by
  rcases write_begins w value faults with hnone | ⟨archive, word, harchive, hheader, hbegins⟩
  · exact Or.inl hnone
  · exact Or.inr ⟨archive, harchive, hw _ _ hheader, hbegins⟩

/-! ## 3. What a history puts on the stream -/

variable {writes : ε → Option (V × Except FrameError Unit)} {h : List ε}

/-- The bytes that a history put on a stream; `writes` tells the values that its events write by
    `write_frame`, and how that ended. -/
inductive OnStream (writes : ε → Option (V × Except FrameError Unit)) :
    List ε → List UInt8 → Prop where
  | start : OnStream writes [] []
  | wrote {h : List ε} {bytes : List UInt8} {e : ε} {value : V} (faults : WriteFaults)
      (he : writes e = some (value, (Framer.writeFrame.write value faults).1))
      (hrest : OnStream writes h bytes) :
      OnStream writes (h ++ [e]) (bytes ++ (Framer.writeFrame.write value faults).2)
  | other {h : List ε} {bytes : List UInt8} {e : ε} (he : writes e = none)
      (hrest : OnStream writes h bytes) : OnStream writes (h ++ [e]) bytes

/-- The values that a history wrote, the one of a failed write included. -/
def valuesOf (writes : ε → Option (V × Except FrameError Unit)) (h : List ε) : List V :=
  h.filterMap fun e => (writes e).map (·.1)

/-- The event is a failed write. -/
def FailedWrite (writes : ε → Option (V × Except FrameError Unit)) (e : ε) : Prop :=
  ∃ value error, writes e = some (value, .error error)

/-- Nothing is written after a failed write. -/
def StopsWriting (writes : ε → Option (V × Except FrameError Unit)) (h : List ε) : Prop :=
  ∀ before e after, h = before ++ e :: after → writes e ≠ none →
    ∀ e' ∈ before, ¬ FailedWrite writes e'

omit [Rkyv V] in
theorem StopsWriting.left {h' : List ε} (hs : StopsWriting writes (h ++ h')) :
    StopsWriting writes h := by
  intro before e after he hne
  refine hs before e (after ++ h') ?_ hne
  rw [he, List.append_assoc]
  rfl

omit [Rkyv V] in
theorem valuesOf_snoc (h : List ε) (e : ε) :
    valuesOf writes (h ++ [e]) = valuesOf writes h ++ ((writes e).map (·.1)).toList := by
  unfold valuesOf
  rw [List.filterMap_append]
  cases he : (writes e).map (·.1) <;> simp [he]

/-- The bytes of a history are a beginning of the frames of its first values, and of all of them as
    long as no write failed. -/
theorem onStream_frames (ho : OnStream writes h bytes) (hs : StopsWriting writes h) :
    ∃ values all, FramesOf values all ∧ values <+: valuesOf writes h ∧ bytes <+: all ∧
      ((∀ e ∈ h, ¬ FailedWrite writes e) → values = valuesOf writes h ∧ bytes = all) := by
  induction ho with
  | start => exact ⟨[], [], .nil, List.prefix_rfl, List.prefix_rfl, fun _ => ⟨rfl, rfl⟩⟩
  | @other h bytes e he hrest ih =>
      obtain ⟨values, all, hframes, hvalues, hbytes, hwhole⟩ := ih hs.left
      refine ⟨values, all, hframes, ?_, hbytes, fun hok => ?_⟩
      · rw [valuesOf_snoc, he]
        exact hvalues.trans (List.prefix_append _ _)
      · rw [valuesOf_snoc, he]
        have hsame := hwhole fun e' hin => hok e' (List.mem_append_left _ hin)
        exact ⟨hsame.1.trans (List.append_nil _).symm, hsame.2⟩
  | @wrote h bytes e value faults he hrest ih =>
      have hbefore : ∀ e' ∈ h, ¬ FailedWrite writes e' :=
        hs h e [] rfl (by rw [he]; exact Option.some_ne_none _)
      obtain ⟨values, all, hframes, _, _, hwhole⟩ := ih hs.left
      obtain ⟨rfl, rfl⟩ := hwhole hbefore
      have hnext : valuesOf writes (h ++ [e]) = valuesOf writes h ++ [value] := by
        rw [valuesOf_snoc, he]
        rfl
      rw [hnext]
      -- a write that succeeds puts its frame there; one that fails, at most a beginning of it
      cases hresult : (Framer.writeFrame.write value faults).1 with
      | ok _ =>
          have hok : Framer.writeFrame.write value faults =
              (.ok (), (Framer.writeFrame.write value faults).2) := Prod.ext hresult rfl
          obtain ⟨archive, harchive, htaken⟩ := Framer.write_ok hok
          rcases write_frame_part writeFrame_checked value faults with
            hnone | ⟨archive', harchive', hcapacity, _⟩
          · rw [hnone] at htaken
            have hlength := congrArg List.length htaken
            rw [length_frame] at hlength
            have hwidth : Header.u32Be.width = 4 := rfl
            rw [List.length_nil] at hlength
            omega
          · rw [harchive] at harchive'
            cases harchive'
            rw [htaken]
            exact ⟨_, _, hframes.snoc harchive hcapacity, List.prefix_rfl, List.prefix_rfl,
              fun _ => ⟨rfl, rfl⟩⟩
      | error error =>
          have hfailed : FailedWrite writes e := ⟨value, error, by rw [he, hresult]⟩
          have hno : ¬ ∀ e' ∈ h ++ [e], ¬ FailedWrite writes e' := fun hall =>
            hall e (List.mem_append_right h (List.mem_singleton_self e)) hfailed
          rcases write_frame_part writeFrame_checked value faults with
            hnone | ⟨archive, harchive, hcapacity, hprefix⟩
          · rw [hnone, List.append_nil]
            exact ⟨_, _, hframes, List.prefix_append _ _, List.prefix_rfl,
              fun hall => absurd hall hno⟩
          · exact ⟨_, _, hframes.snoc harchive hcapacity, List.prefix_rfl,
              (List.prefix_append_right_inj bytes).mpr hprefix, fun hall => absurd hall hno⟩

/-! ## 4. What a reader gets -/

variable {s s' : ByteStream}

/-- A value that is read on a beginning of frames is the first of them. -/
theorem read_first (hrkyv : ReadsBack V) {r : Unframer E} (hf : FramesOf values bytes)
    (hs : s.bytes <+: bytes) (hread : r.read V s = .ok (value, s')) :
    ∃ rest after, values = value :: rest ∧ FramesOf rest after ∧ s'.bytes <+: after := by
  obtain ⟨archive, htake, hvalue⟩ := Unframer.read_ok_iff.mp hread
  cases hf with
  | nil =>
      have hempty := List.prefix_nil.mp hs
      obtain ⟨header, hwidth, _, hbytes⟩ := takeFrame_ok htake
      rw [hempty] at hbytes
      have hnil := (List.append_eq_nil_iff.mp hbytes.symm).1
      rw [hnil] at hwidth
      cases hwidth
  | cons harchive hcapacity hrest =>
      obtain ⟨rfl, hafter⟩ := takeFrame_part htake hcapacity hs
      have hsame := hrkyv _ _ harchive
      rw [hvalue] at hsame
      cases hsame
      exact ⟨_, _, rfl, hrest, hafter⟩

/-- Where nothing was written nothing is read. -/
theorem read_nothing (hrkyv : ReadsBack V) {r : Unframer E} (hs : s.bytes = []) :
    r.read V s ≠ .ok (value, s') := by
  intro hread
  obtain ⟨_, _, hvalues, _⟩ := read_first hrkyv (s := s) .nil (by rw [hs]) hread
  cases hvalues

/-- The archive of a value has a length that a header can tell. -/
def FitsHeader (value : V) : Prop :=
  ∀ archive, Rkyv.toBytes value = .ok archive → archive.length < Header.u32Be.capacity

/-- What is read where one value was written is that value, whatever the writes met. -/
theorem read_own {E' : Type} {w : Framer E'} {r : Unframer E} {faults : WriteFaults} {received : V}
    (hrkyv : ReadsBack V) (hfits : w.Checked ∨ FitsHeader value)
    (hs : s.bytes <+: (w.write value faults).2) (hread : r.read V s = .ok (received, s')) :
    received = value := by
  rcases write_begins w value faults with hnone | ⟨archive, word, harchive, hheader, hbegins⟩
  · rw [hnone] at hs
    exact absurd hread (read_nothing hrkyv (List.prefix_nil.mp hs))
  · have hcapacity : archive.length < Header.u32Be.capacity :=
      hfits.elim (fun hw => hw _ _ hheader) fun hvalue => hvalue archive harchive
    have hall : s.bytes <+: frame Header.u32Be archive ++ [] := by
      rw [List.append_nil]
      exact hs.trans hbegins
    obtain ⟨_, _, hvalues, _⟩ := read_first hrkyv (.cons harchive hcapacity .nil) hall hread
    exact (List.cons.inj hvalues).1.symm

/-- However the bytes are cut, whatever pieces they arrive in and however the stream ends, reading
    gives the first values. -/
theorem read_part (hrkyv : ReadsBack V) (r : Unframer E) (n : Nat)
    (hf : FramesOf values bytes) (hs : s.bytes <+: bytes) :
    (repeatRead (r.read V) n s).1 <+: values := by
  induction n generalizing s values bytes with
  | zero => exact List.nil_prefix
  | succ n ih =>
      cases hread : r.read V s with
      | error e =>
          rw [repeatRead_error hread]
          exact List.nil_prefix
      | ok read =>
          obtain ⟨value, s'⟩ := read
          obtain ⟨rest, after, rfl, hrest, hafter⟩ := read_first hrkyv hf hs hread
          rw [repeatRead_ok hread]
          exact (List.cons_prefix_cons).mpr ⟨rfl, ih hrest hafter⟩

end Prefixes

/-! ## 5. The steps of a client's reads -/

section Answers

variable [Rkyv SignalMessage.Response]

/-- What the steps of at most `n` reads meet, up to the first read that fails. -/
def answersFrom (r : Unframer String) : Nat → ByteStream → List ReadAnswers
  | 0, _ => []
  | n + 1, s =>
      readAnswers s ::
        match r.read SignalMessage.Response s with
        | .ok (_, s') => answersFrom r n s'
        | .error _ => []

/-- A client that computes its results from the steps reads what the bytes say. -/
theorem answersFrom_read {r : Unframer String}
    {result : ReadAnswers → Except String SignalMessage.Response}
    (hresult : ∀ s, (r.read SignalMessage.Response s).map (·.1) = result (readAnswers s))
    (n : Nat) (s : ByteStream) :
    (answersFrom r n s).filterMap (fun a => (result a).toOption) =
      (repeatRead (r.read SignalMessage.Response) n s).1 := by
  induction n generalizing s with
  | zero => rfl
  | succ n ih =>
      have hfirst := hresult s
      rw [answersFrom]
      cases hread : r.read SignalMessage.Response s with
      | error e =>
          rw [hread] at hfirst
          rw [repeatRead_error hread, List.filterMap_cons_none (by rw [← hfirst]; rfl)]
          rfl
      | ok read =>
          rw [hread] at hfirst
          rw [repeatRead_ok hread, List.filterMap_cons_some (by rw [← hfirst]; rfl), ih]

end Answers

end MessageNexus
