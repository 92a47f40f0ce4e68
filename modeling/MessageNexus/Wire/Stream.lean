/-
  File:      MessageNexus/Wire/Stream.lean
  Subject:   SIGNAL FRAMES AS BYTES: what the four writers put on a stream and what the four readers
             make of one, over `Lib/Framing.lean`.

  * `Rkyv`, `ReadsBack`, `MutuallyInverse` -- the archives of a type of values: what rkyv promises,
    and that no other bytes are read;
  * `Framer`, `Unframer` -- a writer and a reader, by what each has of its own: its length
    arithmetic, its limit, its errors;
  * `FrameWriter`, `FrameReader` -- `write_frame`, `read_frame`, and those of the clients;
  * `Framer.write_ok`, `Unframer.read_ok_iff` -- what a write that is reported as done put on the
    stream, and when a read gives a value;
  * `writeFrame_result`, `readResponse_result` and the like -- the results that the rest of the
    development computes from the steps of a stream are those of the bytes.
-/
import MessageNexus.Client.Cli
import MessageNexus.Lib.Framing
import MessageNexus.Mcp.Operation

namespace MessageNexus

open Framing SignalFlow

/-! ## 1. Archives -/

/-- `rkyv::to_bytes` and `rkyv::from_bytes` for a type of values. -/
class Rkyv (V : Type) where
  toBytes : V → Except String (List UInt8)
  fromBytes : List UInt8 → Except String V

/-- What is archived is read back. -/
def ReadsBack (V : Type) [Rkyv V] : Prop :=
  ∀ (value : V) bytes, Rkyv.toBytes value = .ok bytes → Rkyv.fromBytes bytes = .ok value

/-- Each undoes the other: a value is read from its own archive only. -/
def MutuallyInverse (V : Type) [Rkyv V] : Prop :=
  ∀ (value : V) bytes, Rkyv.toBytes value = .ok bytes ↔ Rkyv.fromBytes bytes = .ok value

theorem MutuallyInverse.readsBack {V : Type} [Rkyv V] (h : MutuallyInverse V) : ReadsBack V :=
  fun value bytes => (h value bytes).mp

/-- `FRAME_LIMIT`. -/
def frameLimit : Nat := 1024 * 1024

/-- A stream as a reader meets it. -/
abbrev ByteStream := Source UInt8 IoError

/-- The text of a failed `read_exact`. -/
def readErrorText : ReadError IoError → IoError
  | .unexpectedEof => "failed to fill whole buffer"
  | .other error => error

/-! ## 2. The writers -/

/-- What the writes of one frame meet: a write may fail after it took some bytes. -/
structure WriteFaults where
  header : Option (Nat × IoError)
  body : Option (Nat × IoError)
  flush : Except IoError Unit

/-- Every write goes out. -/
def WriteFaults.none : WriteFaults := ⟨.none, .none, .ok ()⟩

/-- `write_all`: its result, and what the stream took. -/
def writeAll (fault : Option (Nat × IoError)) (bytes : List UInt8) :
    Except IoError Unit × List UInt8 :=
  match fault with
  | none => (.ok (), bytes)
  | some (taken, error) => (.error error, bytes.take taken)

/-- What a writer has of its own: the header of a length, its errors, and whether it flushes. A
    header is the length as a `u32`. -/
structure Framer (E : Type) where
  header : Nat → Except E UInt32
  archive : String → E
  io : IoError → E
  flushes : Bool
  header_ofNat : ∀ length word, header length = .ok word → word = UInt32.ofNat length

section Writers

variable {V E : Type} [Rkyv V]

/-- One frame written: the result, and what the stream took. -/
def Framer.write (w : Framer E) (value : V) (faults : WriteFaults) :
    Except E Unit × List UInt8 :=
  match Rkyv.toBytes value with
  | .error error => (.error (w.archive error), [])
  | .ok bytes =>
    match w.header bytes.length with
    | .error error => (.error error, [])
    | .ok length =>
      match writeAll faults.header (toBeBytes length) with
      | (.error error, taken) => (.error (w.io error), taken)
      | (.ok (), header) =>
        match writeAll faults.body bytes with
        | (.error error, taken) => (.error (w.io error), header ++ taken)
        | (.ok (), body) =>
          match if w.flushes then faults.flush else .ok () with
          | .error error => (.error (w.io error), header ++ body)
          | .ok () => (.ok (), header ++ body)

/-- `u32::try_from`. -/
def tryFromU32 {E : Type} (refused : E) (length : Nat) : Except E UInt32 :=
  if headerLimit < length then .error refused else .ok (UInt32.ofNat length)

theorem tryFromU32_ok {refused : E} {length : Nat} {word : UInt32}
    (h : tryFromU32 refused length = .ok word) : word = UInt32.ofNat length := by
  unfold tryFromU32 at h
  by_cases hl : headerLimit < length
  · rw [if_pos hl] at h
    cases h
  · rw [if_neg hl] at h
    exact (Except.ok.inj h).symm

/-- `FramedStream::write_frame`. -/
def Framer.writeFrame : Framer FrameError where
  header length := tryFromU32 (.tooLarge length) length
  archive := .archive
  io := .io
  flushes := true
  header_ofNat _ _ h := tryFromU32_ok h

/-- The write of `message`: `bytes.len() as u32` wraps. -/
def Framer.message : Framer String where
  header length := .ok (UInt32.ofNat length)
  archive e := e
  io e := e
  flushes := false
  header_ofNat _ _ h := (Except.ok.inj h).symm

/-- The write of `message-meta`. -/
def Framer.messageMeta : Framer String := .message

/-- `ConnectsToMessage::send` of the MCP adapter. -/
def Framer.send : Framer String where
  header length := tryFromU32 "oversized Message frame" length
  archive e := e
  io e := "Uncertain: Send outcome may be unknown; do not retry: " ++ e
  flushes := false
  header_ofNat _ _ h := tryFromU32_ok h

/-- A write that is reported as done put the whole frame on the stream. -/
theorem Framer.write_ok {w : Framer E} {value : V} {faults : WriteFaults} {taken : List UInt8}
    (h : w.write value faults = (.ok (), taken)) :
    ∃ bytes, Rkyv.toBytes value = .ok bytes ∧ taken = frame Header.u32Be bytes := by
  unfold Framer.write at h
  cases harchive : Rkyv.toBytes value with
  | error e =>
      rw [harchive] at h
      cases h
  | ok bytes =>
      refine ⟨bytes, rfl, ?_⟩
      rw [harchive] at h
      dsimp only at h
      cases hheader : w.header bytes.length with
      | error e =>
          rw [hheader] at h
          cases h
      | ok length =>
          have hword := w.header_ofNat _ _ hheader
          rw [hheader] at h
          obtain ⟨header, body, flush⟩ := faults
          cases header with
          | some fault => cases h
          | none =>
              cases body with
              | some fault => cases h
              | none =>
                  simp only [writeAll] at h
                  cases hflush : (if w.flushes then flush else .ok ()) with
                  | error e =>
                      rw [hflush] at h
                      cases h
                  | ok _ =>
                      rw [hflush] at h
                      cases h
                      rw [hword]
                      rfl

end Writers

/-! ## 3. The readers -/

/-- What a reader has of its own: its limit, and its errors. -/
structure Unframer (E : Type) where
  limit : Nat
  header : ReadError IoError → E
  tooLong : Nat → E
  body : ReadError IoError → E
  archive : String → E

section Readers

variable {V E : Type} [Rkyv V]

/-- One frame read. -/
def Unframer.read (V : Type) [Rkyv V] (r : Unframer E) (s : ByteStream) :
    Except E (V × ByteStream) :=
  match takeFrame Header.u32Be r.limit s with
  | .error (.inHeader error) => .error (r.header error)
  | .error (.tooLong length) => .error (r.tooLong length)
  | .error (.inBody error) => .error (r.body error)
  | .ok (bytes, rest) =>
    match Rkyv.fromBytes bytes with
    | .error error => .error (r.archive error)
    | .ok value => .ok (value, rest)

/-- `FramedStream::read_frame`: the end of the stream in the header is `Closed`. -/
def Unframer.readFrame : Unframer FrameError where
  limit := frameLimit
  header
    | .unexpectedEof => .closed
    | .other e => .io e
  tooLong := .tooLarge
  body e := .io (readErrorText e)
  archive := .archive

/-- The reads of `message`. -/
def Unframer.message : Unframer String where
  limit := 1024 * 1024
  header := readErrorText
  tooLong _ := "Signal frame exceeds 1 MiB"
  body := readErrorText
  archive e := e

/-- The read of `message-meta`. -/
def Unframer.messageMeta : Unframer String := .message

/-- `ReadsMessageResponses::read_response` of the MCP adapter. -/
def Unframer.readResponse : Unframer String where
  limit := maxLine
  header e := "Message stream ended: " ++ readErrorText e
  tooLong _ := "oversized Message response"
  body e := "incomplete Message response: " ++ readErrorText e
  archive e := "invalid Message response: " ++ e

/-- A read gives a value exactly when the stream gives a frame and the frame is its archive. -/
theorem Unframer.read_ok_iff {r : Unframer E} {s rest : ByteStream} {value : V} :
    r.read V s = .ok (value, rest) ↔
      ∃ bytes, takeFrame Header.u32Be r.limit s = .ok (bytes, rest) ∧
        Rkyv.fromBytes bytes = .ok value := by
  unfold Unframer.read
  constructor
  · intro h
    cases htake : takeFrame Header.u32Be r.limit s with
    | error stop =>
        rw [htake] at h
        cases stop <;> cases h
    | ok taken =>
        obtain ⟨bytes, after⟩ := taken
        rw [htake] at h
        dsimp only at h
        cases hvalue : (Rkyv.fromBytes bytes : Except String V) with
        | error e =>
            rw [hvalue] at h
            cases h
        | ok read =>
            rw [hvalue] at h
            cases h
            exact ⟨bytes, rfl, hvalue⟩
  · rintro ⟨bytes, htake, hvalue⟩
    rw [htake]
    dsimp only
    rw [hvalue]

end Readers

/-! ## 4. All of them -/

inductive FrameWriter where
  | writeFrame
  | message
  | messageMeta
  | send
  deriving DecidableEq, Repr

inductive FrameReader where
  | readFrame
  | message
  | messageMeta
  | readResponse
  deriving DecidableEq, Repr

@[reducible] def FrameWriter.Error : FrameWriter → Type
  | .writeFrame => FrameError
  | _ => String

@[reducible] def FrameReader.Error : FrameReader → Type
  | .readFrame => FrameError
  | _ => String

def FrameWriter.framer : (w : FrameWriter) → Framer w.Error
  | .writeFrame => .writeFrame
  | .message => .message
  | .messageMeta => .messageMeta
  | .send => .send

def FrameReader.unframer : (r : FrameReader) → Unframer r.Error
  | .readFrame => .readFrame
  | .message => .message
  | .messageMeta => .messageMeta
  | .readResponse => .readResponse

/-- All readers have one limit. -/
theorem FrameReader.limit_eq (r : FrameReader) : r.unframer.limit = frameLimit := by
  cases r <;> rfl

/-! ## 5. The steps of a stream -/

section Steps

variable {V : Type} [Rkyv V]

/-- The result of a write. -/
def faultResult : Option (Nat × IoError) → Except IoError Unit
  | none => .ok ()
  | some (_, error) => .error error

/-- The steps of `write_frame`. -/
def WriteFaults.writeAnswers (faults : WriteFaults) (value : V) : WriteAnswers where
  toBytes := (Rkyv.toBytes value).map List.length
  header := faultResult faults.header
  body := faultResult faults.body
  flush := faults.flush

/-- The steps of a client's write. -/
def WriteFaults.sendAnswers (faults : WriteFaults) (value : V) : SendAnswers where
  toBytes := (Rkyv.toBytes value).map List.length
  header := faultResult faults.header
  body := faultResult faults.body

theorem writeFrame_result (value : V) (faults : WriteFaults) :
    (Framer.writeFrame.write value faults).1 = writeFrame (faults.writeAnswers value) := by
  obtain ⟨header, body, flush⟩ := faults
  unfold Framer.write writeFrame WriteFaults.writeAnswers
  cases Rkyv.toBytes value with
  | error e => rfl
  | ok bytes =>
      by_cases hl : headerLimit < bytes.length
      · simp [Framer.writeFrame, tryFromU32, Except.map, hl]
      · cases header <;> cases body <;> cases flush <;>
          simp [Framer.writeFrame, tryFromU32, Except.map, writeAll, faultResult, hl]

theorem message_send_result (value : V) (faults : WriteFaults) :
    (Framer.message.write value faults).1 = messageSend (faults.sendAnswers value) := by
  obtain ⟨header, body, flush⟩ := faults
  unfold Framer.write messageSend WriteFaults.sendAnswers
  cases Rkyv.toBytes value with
  | error e => rfl
  | ok bytes =>
      cases header <;> cases body <;>
        simp [Framer.message, Except.map, writeAll, faultResult]

theorem send_result (value : V) (faults : WriteFaults) :
    (Framer.send.write value faults).1 = sendResult (faults.sendAnswers value) := by
  obtain ⟨header, body, flush⟩ := faults
  unfold Framer.write sendResult WriteFaults.sendAnswers
  cases Rkyv.toBytes value with
  | error e => rfl
  | ok bytes =>
      by_cases hl : headerLimit < bytes.length
      · simp [Framer.send, tryFromU32, Except.map, hl]
      · cases header <;> cases body <;>
          simp [Framer.send, tryFromU32, Except.map, writeAll, faultResult, hl]

end Steps

section Reads

variable [Rkyv SignalMessage.Response]

/-- The steps of a client's read. A step that is not reached answers as if it had failed. -/
def readAnswers (s : ByteStream) : ReadAnswers :=
  match s.readExact 4 with
  | .error error => ⟨.error (readErrorText error), .error "", .error ""⟩
  | .ok (header, s) =>
    let length := (fromBeBytes header).toNat
    match s.readExact length with
    | .error error => ⟨.ok length, .error (readErrorText error), .error ""⟩
    | .ok (bytes, _) => ⟨.ok length, .ok (), Rkyv.fromBytes bytes⟩

/-- A reader whose errors are made from the texts of the steps. -/
theorem read_result {r : Unframer String} {inHeader inBody : String → String}
    (hheader : ∀ e, r.header e = inHeader (readErrorText e))
    (hbody : ∀ e, r.body e = inBody (readErrorText e)) (s : ByteStream) :
    (r.read SignalMessage.Response s).map (·.1) =
      match (readAnswers s).header with
      | .error e => .error (inHeader e)
      | .ok length =>
        if r.limit < length then .error (r.tooLong length)
        else
          match (readAnswers s).body, (readAnswers s).fromBytes with
          | .error e, _ => .error (inBody e)
          | .ok (), .error e => .error (r.archive e)
          | .ok (), .ok response => .ok response := by
  unfold Unframer.read readAnswers takeFrame
  rw [show Header.u32Be.width = 4 from rfl]
  cases s.readExact 4 with
  | error e => exact congrArg Except.error (hheader e)
  | ok taken =>
      obtain ⟨header, inside⟩ := taken
      dsimp only
      rw [show Header.u32Be.decode header = (fromBeBytes header).toNat from rfl]
      generalize (fromBeBytes header).toNat = length
      by_cases hl : r.limit < length
      · rw [takeBody, if_pos hl]
        cases inside.readExact length <;> exact (if_pos hl).symm
      · rw [takeBody, if_neg hl]
        cases inside.readExact length with
        | error e =>
            dsimp only
            rw [if_neg hl, hbody]
            rfl
        | ok body =>
            dsimp only
            rw [if_neg hl]
            cases (Rkyv.fromBytes body.1 : Except String SignalMessage.Response) <;> rfl

theorem message_read_result (s : ByteStream) :
    (Unframer.message.read SignalMessage.Response s).map (·.1) = messageRead (readAnswers s) :=
  read_result (fun _ => rfl) (fun _ => rfl) s

theorem readResponse_result (s : ByteStream) :
    (Unframer.readResponse.read SignalMessage.Response s).map (·.1) =
      readResponseResult (readAnswers s) :=
  read_result (fun _ => rfl) (fun _ => rfl) s

end Reads

end MessageNexus
