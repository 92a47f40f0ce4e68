/-
  File:      MessageNexus/Nexus/Service.lean
  Subject:   THE REQUESTS (`service.rs`, `nexus.rs`): Configure over the store, Send and Observe
             over the Flow edge, and how an edge failure is told to the client.

  `withStore` is the scope of the guard that `HoldsNexusState::store` returns: the mutex is taken
  before the first use of the store and released where the guard is dropped.
-/
import MessageNexus.Nexus.FlowEdge
import MessageNexus.Nexus.Store

namespace MessageNexus

open Interact SignalFlow

variable {α : Type}

/-! ## 1. The store guard and the edge -/

/-- A program that holds the store's guard. -/
def withStore (use : NexusProg α) : NexusProg α := do
  let _ ← perform .lockStore
  let result ← use
  let _ ← perform .unlockStore
  return result

/-- `HoldsNexusState::flow_edge`: the edge to the Flow socket that is stored now. -/
def flowEdge : NexusProg (Except StoreError FlowEdge) := do
  let current ← withStore standard
  return current.map fun current => ⟨current.configuration.flow⟩

section Rules

variable {Adm : List NexusEvent → NexusEvent → Prop} {G : List NexusEvent → NexusOp → Prop}

/-- The guard: the mutex is taken before the use and released after it. -/
@[simp] theorem holds_withStore {Q : α → List NexusEvent → Prop} (use : NexusProg α)
    (h : List NexusEvent) : Holds Adm G Q (withStore use) h ↔
      G h .lockStore ∧ (Adm h ⟨.lockStore, ()⟩ →
        Holds Adm G (fun a h' => G h' .unlockStore ∧
          (Adm h' ⟨.unlockStore, ()⟩ → Q a (h' ++ [⟨.unlockStore, ()⟩])))
          use (h ++ [⟨.lockStore, ()⟩])) := by
  unfold withStore
  rw [holds_bind]
  constructor
  · intro hw
    refine ⟨hw.1, fun ha => ?_⟩
    have hu := (holds_bind use _ _).mp (hw.2 () ha)
    exact hu.mono (fun _ _ hG => hG) fun a h' hq => ⟨hq.1, fun ha' => hq.2 () ha'⟩
  · intro hw
    refine ⟨hw.1, fun _ ha => (holds_bind use _ _).mpr ?_⟩
    exact (hw.2 ha).mono (fun _ _ hG => hG) fun a h' hq => ⟨hq.1, fun _ ha' => hq.2 ha'⟩

@[simp] theorem holds_flowEdge {Q : Except StoreError FlowEdge → List NexusEvent → Prop}
    (h : List NexusEvent) : Holds Adm G Q flowEdge h ↔
      Holds Adm G (fun records h' => Q (records.map fun s => ⟨s.configuration.flow⟩) h')
        (withStore standard) h := by
  unfold flowEdge
  rw [holds_bind]
  exact Iff.rfl

@[simp] theorem holds_now {Q : SystemTime → List NexusEvent → Prop} (h : List NexusEvent) :
    Holds Adm G Q (perform .now) h ↔
      G h .now ∧ ∀ t : SystemTime, Adm h ⟨.now, t⟩ → Q t (h ++ [⟨.now, t⟩]) :=
  Iff.rfl

end Rules

/-! ## 2. Configure -/

inductive ConfigureFailure where
  | alreadyConfigured
  | store (error : StoreError)
  deriving DecidableEq, Repr

/-- The body of `configure`, under the guard. -/
def configureStore (configuration : Configuration) (isMeta : Bool) :
    NexusProg (Except ConfigureFailure Bool) := do
  match ← standard with
  | .error error => return .error (.store error)
  | .ok current =>
    if !isMeta && current.metaConfigured then
      return .error .alreadyConfigured
    else
      let restartRequired := current.configuration != configuration
      let updated := current.changedConfiguration configuration isMeta
      match ← replaceStandard updated with
      | .error error => return .error (.store error)
      | .ok () => return .ok restartRequired

/-- `ConfiguresMessage::configure`. -/
def configure (configuration : Configuration) (isMeta : Bool) :
    NexusProg (Except ConfigureFailure Bool) :=
  withStore (configureStore configuration isMeta)

/-- The answer of an ordinary Configure. -/
def configureResponse : Except ConfigureFailure Bool → SignalMessage.Response
  | .ok _ => .configured
  | .error .alreadyConfigured => .refused .alreadyConfigured
  | .error (.store error) => .refused (.store error.text)

/-- `ServesMessages::serve_query`. -/
def serveQuery (_process : Process) : SignalMessage.Query → NexusProg SignalMessage.Response
  | .configure configuration => do
      let outcome ← configure configuration false
      return configureResponse outcome
  | _ => return .refused .flowUnreachable

/-! ## 3. Edge failures, told to the client -/

/-- `MapsFlowRefusal::for_message`; `none` for the refusals outside the Send contract. -/
def refusalForMessage : Refusal → Option SignalMessage.SendRefusal
  | .locked => some .locked
  | .held lock => some (.held lock)
  | .asleep => some .asleep
  | .lapsed => some .lapsed
  | .unknown (.address address) => some (.unknown (.address address))
  | .unknown (.lock lock) => some (.unknown (.lock lock))
  | .noLayer => some .noLayer
  | .noneAbove => some .noneAbove
  | .notMessage => some .notMessage
  | .notConfigured => some .notConfigured
  | .notSendServer process => some (.notSendServer process)
  | .unidentified process => some (.unidentified process)
  | .store error => some (.store error)
  | .oversized size => some (.oversized size)
  | .unknown (.other _) => none
  | .awake _ => none
  | .taken _ => none
  | .offRoute => none
  | .direct _ => none

/-- `ReportsMessageRefusal::for_message`; the line it prints for a refusal outside the contract
    is left out. -/
def EdgeFailure.forMessage : EdgeFailure → SignalMessage.SendRefusal
  | .refused refusal => (refusalForMessage refusal).getD .flowUnreachable
  | .unreachable => .flowUnreachable
  | .broken => .flowUnreachable
  | .unexpected => .flowUnreachable

/-- The reason of an abrupt send that failed at the edge. -/
def EdgeFailure.sendReason [FlowDebug] (failure : EdgeFailure) (deliveryMayHaveStarted : Bool) :
    SendFailureReason :=
  let notSent := .notSent ("Flow exchange ended before delivery: " ++ failure.debug)
  match failure with
  | .refused refusal => .refused refusal
  | .broken => if deliveryMayHaveStarted then .receiptUncertain else notSent
  | .unexpected => if deliveryMayHaveStarted then .receiptUncertain else notSent
  | .unreachable => notSent

/-- `ReportsMessageRefusal::for_send`. -/
def EdgeFailure.forSend [FlowDebug] (failure : EdgeFailure) (abrupt : Bool)
    (deliveryMayHaveStarted : Bool) : SignalMessage.Response :=
  if !abrupt then .refused failure.forMessage
  else .failed ⟨none, failure.sendReason deliveryMayHaveStarted⟩

/-! ## 4. Send and Observe -/

inductive SendReply where
  | queued (acceptance : SendAcceptance)
      (subscription : Except SignalMessage.Response FlowSubscription)
  | sent (receipt : SendReceipt)
  | failed (failure : SendFailure)

/-- The reply to a subscription that did not open. -/
def couldNotOpen [FlowDebug] (cursor : Option DeliveryCursor) (failure : EdgeFailure) :
    SignalMessage.Response :=
  .observationInterrupted cursor ("Flow subscription could not open: " ++ failure.debug)

/-- The end of `accept_send`: what the Deliver came to, and the Release or the subscription that
    follows it. -/
def settleDelivery [FlowDebug] (edge : FlowEdge) (process : Process) (thread : Option String)
    (abrupt : Bool) (lock : Lock) (outcome : Except EdgeFailure FlowSendReply) :
    NexusProg (Except SignalMessage.Response SendReply) := do
  match outcome with
  | .error (.refused refusal) => return .error ((EdgeFailure.refused refusal).forSend abrupt true)
  | .error failure =>
    let _ ← edge.release lock
    return .error (failure.forSend abrupt true)
  | .ok (.sent receipt) =>
    let _ ← edge.release lock
    return .ok (.sent receipt)
  | .ok (.failed failure) =>
    let _ ← edge.release lock
    return .ok (.failed failure)
  | .ok (.queued acceptance) =>
    let opened ← edge.observeSender process thread (some acceptance.deliveryCursor)
    let subscription := opened.mapError (couldNotOpen (some acceptance.deliveryCursor))
    return .ok (.queued acceptance subscription)

/-- `accept_send` from the lock on: it must not have lapsed, and one Deliver goes out under it. -/
def sendLocked [FlowDebug] (edge : FlowEdge) (process : Process) (request : SendRequest)
    (thread : Option String) (lock : Lock) :
    NexusProg (Except SignalMessage.Response SendReply) := do
  let abrupt := !request.message.isSoft
  let now ← perform .now
  if now.unixSeconds ≥ lock.lockedUntil then
    return .error ((EdgeFailure.refused .lapsed).forSend abrupt false)
  else
    let outcome ← edge.deliver lock request
    settleDelivery edge process thread abrupt lock outcome

/-- `accept_send` from the identified sender on. -/
def sendIdentified [FlowDebug] (edge : FlowEdge) (process : Process) (request : SendRequest)
    (thread : Option String) (sender : Sender) :
    NexusProg (Except SignalMessage.Response SendReply) := do
  let abrupt := !request.message.isSoft
  if abrupt && request.delivery == .queue then
    return .ok (.failed ⟨none, .queueNotPermitted⟩)
  else
    match ← edge.lock sender request.recipient with
    | .error failure => return .error (failure.forSend abrupt false)
    | .ok lock => sendLocked edge process request thread lock

/-- The first exchange of `accept_send`: the sender is identified, by its thread where there is
    one. -/
def identifySender (edge : FlowEdge) (process : Process) :
    Option String → NexusProg (Except EdgeFailure Address)
  | some thread => edge.identifyThread process thread
  | none => edge.identify process

/-- `ServesMessages::accept_send`. -/
def acceptSend [FlowDebug] (process : Process) (request : SendRequest)
    (thread : Option String) : NexusProg (Except SignalMessage.Response SendReply) := do
  let abrupt := !request.message.isSoft
  match ← flowEdge with
  | .error error => return .error (.refused (.store error.text))
  | .ok edge =>
  match ← identifySender edge process thread with
  | .error failure => return .error (failure.forSend abrupt false)
  | .ok sender => sendIdentified edge process request thread sender

/-- `ServesMessages::observe_sends`. -/
def observeSends [FlowDebug] (process : Process) (thread : Option String)
    (cursor : Option DeliveryCursor) :
    NexusProg (Except SignalMessage.Response FlowSubscription) := do
  match ← flowEdge with
  | .error error => return .error (.refused (.store error.text))
  | .ok edge =>
  match ← edge.observeSender process thread cursor with
  | .ok subscription => return .ok subscription
  | .error (.refused refusal) =>
    return .error (.refused (EdgeFailure.refused refusal).forMessage)
  | .error failure => return .error (couldNotOpen cursor failure)

end MessageNexus
