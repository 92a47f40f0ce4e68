/-
  File:      MessageNexus/Nexus/Operation.lean
  Subject:   WHAT A CONNECTION OF THE NEXUS ASKS OF ITS ENVIRONMENT: the store behind its mutex,
             the clock, Flow, and the client's own stream.

  * `FrameError`, `WriteAnswers`, `writeFrame` -- one frame written (`frame.rs`), from what the
    serialiser and the stream answer at each step; `WriteAnswers.complete` says that the whole
    frame reached the stream;
  * `Standard`, `StoreError`, `SystemTime` -- the stored record, the store's failures, the clock;
  * `NexusOp`, `NexusAns`, `NexusProg` -- the operations of a connection, their answers, and the
    programs over them. One `exchange` is one operation: it touches nothing the Nexus shares,
    and its answer tells what each step of the transport did.
-/
import MessageNexus.Lib.Prog
import MessageNexus.Signal

namespace MessageNexus

open Interact SignalFlow

/-! ## 1. Frames on a stream -/

/-- The text of an `io::Error`. -/
abbrev IoError := String

inductive FrameError where
  | io (error : IoError)
  | archive (error : String)
  | tooLarge (bytes : Nat)
  | closed
  deriving DecidableEq, Repr

/-- The largest length a four-byte header holds. -/
def headerLimit : Nat := 4294967295

/-- What the steps of `write_frame` meet: the length of the archive (or why there is none), and
    whether the stream took the header, the body and the flush. -/
structure WriteAnswers where
  toBytes : Except String Nat
  header : Except IoError Unit
  body : Except IoError Unit
  flush : Except IoError Unit

/-- `FramedStream::write_frame`. -/
def writeFrame (w : WriteAnswers) : Except FrameError Unit :=
  match w.toBytes with
  | .error e => .error (.archive e)
  | .ok length =>
    if headerLimit < length then .error (.tooLarge length)
    else
      match w.header, w.body, w.flush with
      | .error e, _, _ => .error (.io e)
      | .ok (), .error e, _ => .error (.io e)
      | .ok (), .ok (), .error e => .error (.io e)
      | .ok (), .ok (), .ok () => .ok ()

/-- The stream took the header and the body of the frame: the peer can read the whole of it. -/
def WriteAnswers.complete (w : WriteAnswers) : Bool :=
  match w.toBytes, w.header, w.body with
  | .ok length, .ok (), .ok () => decide (length ≤ headerLimit)
  | _, _, _ => false

/-- A frame is reported as written exactly when it is complete and flushed. -/
theorem writeFrame_ok_iff (w : WriteAnswers) :
    writeFrame w = .ok () ↔ w.complete = true ∧ w.flush = .ok () := by
  obtain ⟨toBytes, header, body, flush⟩ := w
  cases toBytes with
  | error e => simp [writeFrame, WriteAnswers.complete]
  | ok length =>
      by_cases hl : headerLimit < length
      · have hle : ¬ length ≤ headerLimit := by omega
        cases header <;> cases body <;> simp [writeFrame, WriteAnswers.complete, hl, hle]
      · have hle : length ≤ headerLimit := by omega
        cases header <;> cases body <;> cases flush <;>
          simp [writeFrame, WriteAnswers.complete, hl, hle]

/-! ## 2. The store's record, its failures, and the clock -/

/-- `Standard`: the configuration, and whether a meta Configure has set it. -/
structure Standard where
  configuration : Configuration
  metaConfigured : Bool
  deriving DecidableEq, Repr

inductive StoreError where
  | engine (error : String)
  | unrecognized (path reason : String)
  | stateInvariant
  deriving DecidableEq, Repr

/-- The `Display` text of a `StoreError`. -/
def StoreError.text : StoreError → String
  | .engine error => "sema-engine: " ++ error
  | .unrecognized path reason =>
      "store " ++ path ++ " is not current Message Standard2: " ++ reason
  | .stateInvariant => "the store does not hold exactly one Standard record"

/-- `SystemTime`: nanoseconds since the Unix epoch, negative before it. -/
structure SystemTime where
  nanoseconds : Int
  deriving DecidableEq, Repr

/-- The largest value of an `i64`. -/
def i64Max : Int := 9223372036854775807

/-- `ReadsUnixTime::unix_seconds`: 0 before the epoch, and capped at `i64::MAX`. -/
def SystemTime.unixSeconds (t : SystemTime) : Int :=
  if t.nanoseconds < 0 then 0 else min (t.nanoseconds / 1000000000) i64Max

/-! ## 3. The operations -/

/-- What the steps of one exchange with Flow meet. -/
structure ExchangeAnswers where
  connect : Except IoError Unit
  setReadTimeout : Except IoError Unit
  setWriteTimeout : Except IoError Unit
  write : WriteAnswers
  read : Except FrameError Response

/-- What the steps of opening a subscription meet. -/
structure ObserveAnswers where
  connect : Except IoError Unit
  setWriteTimeout : Except IoError Unit
  write : WriteAnswers

/-- The operations of a connection. `lockStore` and `unlockStore` are the store's mutex,
    `matchRecords` and `mutateKeyed` the engine behind it (both at the key `standard`); `next`,
    `interruptHandle` belong to the connection's Flow subscription, the last group to its own
    stream. Timeouts are in seconds, `none` waits for ever. -/
inductive NexusOp where
  | lockStore
  | unlockStore
  | matchRecords
  | mutateKeyed (standard : Standard)
  | now
  | exchange (socketPath : String) (query : Query) (readTimeout writeTimeout : Option Nat)
  | observe (socketPath : String) (query : Query) (writeTimeout : Option Nat)
  | next
  | interruptHandle
  | readQuery
  | readMetaQuery
  | peerProcess
  | cloneStream
  | writeResponse (response : SignalMessage.Response)
  | writeMetaResponse (response : MetaSignalMessage.Response)
  deriving DecidableEq

/-- What each operation answers. -/
@[reducible] def NexusAns : NexusOp → Type
  | .lockStore => Unit
  | .unlockStore => Unit
  | .matchRecords => Except String (List Standard)
  | .mutateKeyed _ => Except String Unit
  | .now => SystemTime
  | .exchange _ _ _ _ => ExchangeAnswers
  | .observe _ _ _ => ObserveAnswers
  | .next => Except FrameError Response
  | .interruptHandle => Except IoError Unit
  | .readQuery => Except FrameError SignalMessage.Query
  | .readMetaQuery => Except FrameError MetaSignalMessage.Query
  | .peerProcess => Option Process
  | .cloneStream => Except IoError Unit
  | .writeResponse _ => Except FrameError Unit
  | .writeMetaResponse _ => Except FrameError Unit

abbrev NexusProg := Prog NexusOp NexusAns
abbrev NexusEvent := Event NexusOp NexusAns

/-- One operation of a connection. -/
abbrev perform (o : NexusOp) : NexusProg (NexusAns o) := Prog.perform o

end MessageNexus
