/-
  File:      MessageNexus/Signal.lean
  Subject:   THE VOCABULARY OF THE SOCKETS: the values of `signal_flow`, `signal_message` and
             `meta_signal_message` that Message reads and writes.

  The three crates are outside this repository; their types are taken as far as the code here
  names them. Where an enumeration has members that the code never names (it only carries them,
  or matches them with a wildcard), they are one constructor `other`; where a payload is only
  carried and formatted, it is its text.

  `FlowDebug` is the `Debug` text of the two foreign types that Message formats into a reply.
-/

namespace MessageNexus

/-! ## 1. `signal_flow` -/

namespace SignalFlow

inductive Aspect where
  | field
  | mind
  | other (name : String)
  deriving DecidableEq, Repr

inductive Layer where
  | primary
  | secondary
  | other (name : String)
  deriving DecidableEq, Repr

structure Address where
  aspect : Aspect
  topic : String
  layer : Layer
  deriving DecidableEq, Repr

/-- The sender of a lock is the address Flow identified. -/
abbrev Sender := Address

abbrev FlowId := String
abbrev DeliveryCursor := Int
abbrev LogicalDeliveryId := String

/-- Flow's process identity: the process id and the start time of `/proc`. -/
structure Process where
  pid : Int
  started : Int
  deriving DecidableEq, Repr

inductive Recipient where
  | address (address : Address)
  | up
  deriving DecidableEq, Repr

/-- A lock on an address; `lockedUntil` is the `until` of the source (a word of Lean). -/
structure Lock where
  sender : Sender
  address : Address
  lockedUntil : Int
  deriving DecidableEq, Repr

inductive Delivery where
  | queue
  | wake
  | other (name : String)
  deriving DecidableEq, Repr

inductive Request where
  | question (text : String)
  | other (name text : String)
  deriving DecidableEq, Repr

inductive Message where
  | soft (request : Request)
  | middleAbrupt (request : Request)
  | hardAbrupt (request : Request)
  deriving DecidableEq, Repr

/-- `matches!(message, Message::Soft(_))`. -/
def Message.isSoft : Message → Bool
  | .soft _ => true
  | _ => false

structure SendRequest where
  recipient : Recipient
  delivery : Delivery
  message : Message
  deriving DecidableEq, Repr

inductive HarnessKind where
  | codex
  | other (name : String)
  deriving DecidableEq, Repr

structure NativeReceipt where
  harnessKind : HarnessKind
  nativeSessionId : String
  nativePromptId : String
  deriving DecidableEq, Repr

inductive DeliveryState where
  | queued
  | delivered (receipt : NativeReceipt)
  | failed (reason : String)
  | other (name : String)
  deriving DecidableEq, Repr

structure SendAcceptance where
  logicalDeliveryId : LogicalDeliveryId
  deliveryCursor : DeliveryCursor
  deliveryState : DeliveryState
  deriving DecidableEq, Repr

structure SendReceipt where
  logicalDeliveryId : LogicalDeliveryId
  nativeReceipt : NativeReceipt
  deriving DecidableEq, Repr

inductive SentBy where
  | sender (address : Address)
  | other (name : String)
  deriving DecidableEq, Repr

structure DeliverySnapshot where
  deliveryCursor : DeliveryCursor
  logicalDeliveryId : LogicalDeliveryId
  sentBy : SentBy
  address : Address
  deliveryState : DeliveryState
  deriving DecidableEq, Repr

structure SendObservation where
  deliveryCursor : DeliveryCursor
  deliverySnapshotVector : List DeliverySnapshot
  deriving DecidableEq, Repr

structure SendPayloadSize where
  actualBytes : Int
  maximumBytes : Int
  deriving DecidableEq, Repr

inductive UnknownData where
  | address (address : Address)
  | lock (lock : Lock)
  | other (debug : String)
  deriving DecidableEq, Repr

/-- Flow's refusals; `Refusal::for_message` matches every one of them. -/
inductive Refusal where
  | locked
  | held (lock : Lock)
  | asleep
  | lapsed
  | unknown (unknown : UnknownData)
  | noLayer
  | noneAbove
  | notMessage
  | notConfigured
  | notSendServer (process : Process)
  | unidentified (process : Process)
  | store (error : String)
  | oversized (size : SendPayloadSize)
  | awake (debug : String)
  | taken (debug : String)
  | offRoute
  | direct (debug : String)
  deriving DecidableEq, Repr

inductive SendFailureReason where
  | queueNotPermitted
  | refused (refusal : Refusal)
  | receiptUncertain
  | notSent (text : String)
  | other (name : String)
  deriving DecidableEq, Repr

structure SendFailure where
  logicalDeliveryIdOption : Option LogicalDeliveryId
  sendFailureReason : SendFailureReason
  deriving DecidableEq, Repr

/-- The requests Message makes of Flow. -/
inductive Query where
  | bind (address : Address) (process : Process)
  | identify (process : Process)
  | identifyThread (process : Process) (nativeSessionId : String)
  | lock (sender : Sender) (recipient : Recipient)
  | deliver (lock : Lock) (delivery : Delivery) (message : Message)
  | observeSender (process : Process) (nativeSessionIdOption : Option String)
      (deliveryCursorOption : Option DeliveryCursor)
  | release (lock : Lock)
  deriving DecidableEq, Repr

/-- Flow's answers; `other` stands for those that no exchange of Message asks for. -/
inductive Response where
  | bound (flowId : FlowId)
  | identified (address : Address)
  | locked (lock : Lock)
  | released
  | sendAccepted (acceptance : SendAcceptance)
  | sent (receipt : SendReceipt)
  | failed (failure : SendFailure)
  | sendsObserved (observation : SendObservation)
  | sendChanged (snapshot : DeliverySnapshot)
  | refused (refusal : Refusal)
  | other (debug : String)
  deriving DecidableEq, Repr

end SignalFlow

/-- The derived `Debug` texts of `signal_flow` that end up in a reply. -/
class FlowDebug where
  refusal : SignalFlow.Refusal → String
  response : SignalFlow.Response → String

/-! ## 2. `signal_message` and `meta_signal_message` -/

/-- `Configuration`: the two sockets of the Nexus and the one of Flow; `metaSocket` is the `meta`
    of the source (a word of Lean). -/
structure Configuration where
  ordinary : String
  metaSocket : String
  flow : String
  deriving DecidableEq, Repr

namespace SignalMessage

open SignalFlow

inductive Query where
  | send (request : SendRequest)
  | sendThread (sendRequest : SendRequest) (nativeSessionId : String)
  | observeSends (cursor : Option DeliveryCursor)
  | observeThread (deliveryCursorOption : Option DeliveryCursor) (nativeSessionId : String)
  | configure (configuration : Configuration)
  deriving DecidableEq, Repr

inductive UnknownData where
  | address (address : Address)
  | lock (lock : Lock)
  deriving DecidableEq, Repr

inductive SendRefusal where
  | alreadyConfigured
  | flowUnreachable
  | locked
  | held (lock : Lock)
  | asleep
  | lapsed
  | unknown (unknown : UnknownData)
  | noLayer
  | noneAbove
  | notMessage
  | notConfigured
  | notSendServer (process : Process)
  | unidentified (process : Process)
  | store (error : String)
  | oversized (size : SendPayloadSize)
  deriving DecidableEq, Repr

inductive Response where
  | configured
  | refused (refusal : SendRefusal)
  | sent (receipt : SendReceipt)
  | failed (failure : SendFailure)
  | sendAccepted (acceptance : SendAcceptance)
  | sendsObserved (observation : SendObservation)
  | sendChanged (snapshot : DeliverySnapshot)
  | observationInterrupted (deliveryCursorOption : Option DeliveryCursor) (string : String)
  deriving DecidableEq, Repr

end SignalMessage

namespace MetaSignalMessage

inductive Query where
  | configure (configuration : Configuration)
  deriving DecidableEq, Repr

inductive ConfigureRefusal where
  | storeRefused
  deriving DecidableEq, Repr

inductive Response where
  | configured
  | restartRequired
  | refused (refusal : ConfigureRefusal)
  deriving DecidableEq, Repr

end MetaSignalMessage

end MessageNexus
