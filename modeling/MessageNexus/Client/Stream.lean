/-
  File:      MessageNexus/Client/Stream.lean
  Subject:   A CLIENT'S STREAM TO THE NEXUS: one query out and responses in, as the `message` CLI
             and the MCP adapter read and write them, and when each takes a response for the last.

  * `ConnectAnswers`, `SendAnswers`, `ReadAnswers` -- what the steps of a client's connect, write
    and read meet;
  * `acceptedAfter` -- the accepted delivery, which both clients note from the same frame;
  * `terminalFor` -- the adapter's `terminal_for`.
-/
import MessageNexus.Nexus.Operation

namespace MessageNexus

open SignalFlow SignalMessage

/-! ## 1. The steps of a stream -/

/-- What connecting meets; only the MCP adapter sets a timeout. -/
structure ConnectAnswers where
  connect : Except IoError Unit
  setWriteTimeout : Except IoError Unit

/-- What writing a query meets: the length of its archive, and the two writes. -/
structure SendAnswers where
  toBytes : Except String Nat
  header : Except IoError Unit
  body : Except IoError Unit

/-- What reading a response meets: the length in the header, the body, and the decoder. -/
structure ReadAnswers where
  header : Except IoError Nat
  body : Except IoError Unit
  fromBytes : Except String SignalMessage.Response

/-- The longest response, and the longest line of the MCP adapter: 1 MiB. -/
def maxLine : Nat := 1024 * 1024

/-! ## 2. The last response -/

/-- The states in which a delivery is over. -/
def SignalFlow.DeliveryState.isOver : DeliveryState → Bool
  | .delivered _ => true
  | .failed _ => true
  | _ => false

/-- The accepted delivery after one more response. -/
def acceptedAfter (accepted : Option LogicalDeliveryId) :
    SignalMessage.Response → Option LogicalDeliveryId
  | .sendAccepted acceptance => some acceptance.logicalDeliveryId
  | _ => accepted

/-- `IdentifiesTerminalResponse::terminal_for`. -/
def terminalFor (accepted : Option LogicalDeliveryId) : SignalMessage.Response → Bool
  | .sent _ => true
  | .failed _ => true
  | .sendAccepted _ => false
  | .sendsObserved observation =>
      match accepted with
      | none => false
      | some id => observation.deliverySnapshotVector.any fun snapshot =>
          snapshot.logicalDeliveryId == id && snapshot.deliveryState.isOver
  | .sendChanged snapshot =>
      accepted == some snapshot.logicalDeliveryId && snapshot.deliveryState.isOver
  | .observationInterrupted _ _ => true
  | .refused _ => true
  | .configured => true

end MessageNexus
