/-
  File:      MessageNexus/Nexus/FlowEdge.lean
  Subject:   THE EDGE TO FLOW (`flow_edge.rs`): the typed operations Message sends to Flow's
             ordinary socket, and what each makes of Flow's answer.

  * `exchangeResult` -- how the steps of one exchange become a response or an `EdgeFailure`;
  * `answered` -- the answer match that `bind`, `identify`, `identifyThread`, `lock`, `deliver`
    and `release` share: the responses a call knows, a refusal, anything else;
  * `FlowEdge.observeSender` -- opening the subscription, of which no answer is read.
-/
import MessageNexus.Nexus.Operation

namespace MessageNexus

open Interact SignalFlow

variable {α : Type}

/-! ## 1. One exchange -/

inductive EdgeFailure where
  | unreachable
  | broken
  | refused (refusal : Refusal)
  | unexpected
  deriving DecidableEq, Repr

/-- The derived `Debug` text of an `EdgeFailure`. -/
def EdgeFailure.debug [FlowDebug] : EdgeFailure → String
  | .unreachable => "Unreachable"
  | .broken => "Broken"
  | .refused refusal => "Refused(" ++ FlowDebug.refusal refusal ++ ")"
  | .unexpected => "Unexpected"

/-- The read timeout of an exchange: none for an abrupt Deliver that wakes, two seconds else. -/
def readTimeout : Query → Option Nat
  | .deliver _ delivery message =>
      if delivery == .wake && !message.isSoft then none else some 2
  | _ => some 2

/-- `FlowEdge::exchange`, from what its steps meet. -/
def exchangeResult (t : ExchangeAnswers) : Except EdgeFailure Response :=
  match t.connect with
  | .error _ => .error .unreachable
  | .ok () =>
    match t.setReadTimeout, t.setWriteTimeout with
    | .error _, _ => .error .broken
    | .ok (), .error _ => .error .broken
    | .ok (), .ok () =>
      match writeFrame t.write with
      | .error _ => .error .unreachable
      | .ok () =>
        match t.read with
        | .error _ => .error .broken
        | .ok response => .ok response

/-- What a call makes of an exchange: `accept` names the responses it knows, a refusal is passed
    on, and every other response is unexpected. -/
def answered (accept : Response → Option α) (t : ExchangeAnswers) : Except EdgeFailure α :=
  match exchangeResult t with
  | .error failure => .error failure
  | .ok response =>
    match accept response with
    | some a => .ok a
    | none =>
      match response with
      | .refused refusal => .error (.refused refusal)
      | _ => .error .unexpected

/-- A call that succeeds got a response that it knows. -/
theorem answered_ok {accept : Response → Option α} {t : ExchangeAnswers} {a : α}
    (h : answered accept t = .ok a) :
    ∃ response, exchangeResult t = .ok response ∧ accept response = some a := by
  unfold answered at h
  cases hr : exchangeResult t with
  | error failure => rw [hr] at h; cases h
  | ok response =>
      rw [hr] at h
      cases ha : accept response with
      | some b => simp only [ha, Except.ok.injEq] at h; exact ⟨response, rfl, h ▸ ha⟩
      | none => simp only [ha] at h; cases response <;> cases h

/-! ## 2. The calls -/

inductive FlowSendReply where
  | queued (acceptance : SendAcceptance)
  | sent (receipt : SendReceipt)
  | failed (failure : SendFailure)
  deriving DecidableEq, Repr

structure FlowEdge where
  socketPath : String
  deriving DecidableEq, Repr

/-- The open subscription of a connection. Its stream is what the operations `next` and
    `interruptHandle` of the connection act on. -/
structure FlowSubscription where
  deriving DecidableEq, Repr

namespace FlowEdge

/-- One exchange on the edge's socket, with the answer match of the call. -/
def call (edge : FlowEdge) (query : Query) (accept : Response → Option α) :
    NexusProg (Except EdgeFailure α) := do
  let t ← perform (.exchange edge.socketPath query (readTimeout query) (some 2))
  return answered accept t

/-- The answer `bind` knows. -/
def bound : Response → Option FlowId
  | .bound flowId => some flowId
  | _ => none

def bind (edge : FlowEdge) (address : Address) (process : Process) :
    NexusProg (Except EdgeFailure FlowId) :=
  edge.call (.bind address process) bound

/-- The answer `identify` and `identify_thread` know. -/
def identified : Response → Option Address
  | .identified address => some address
  | _ => none

def identify (edge : FlowEdge) (process : Process) : NexusProg (Except EdgeFailure Address) :=
  edge.call (.identify process) identified

def identifyThread (edge : FlowEdge) (process : Process) (nativeSessionId : String) :
    NexusProg (Except EdgeFailure Address) :=
  edge.call (.identifyThread process nativeSessionId) identified

/-- The answer `lock` knows. -/
def locked : Response → Option Lock
  | .locked lock => some lock
  | _ => none

def lock (edge : FlowEdge) (sender : Sender) (recipient : Recipient) :
    NexusProg (Except EdgeFailure Lock) :=
  edge.call (.lock sender recipient) locked

/-- The answers `deliver` knows. An abrupt message that Flow queued counts as failed, with an
    uncertain receipt. -/
def delivered (abrupt : Bool) : Response → Option FlowSendReply
  | .sendAccepted acceptance =>
      if abrupt then
        some (.failed ⟨some acceptance.logicalDeliveryId, .receiptUncertain⟩)
      else some (.queued acceptance)
  | .sent receipt => some (.sent receipt)
  | .failed failure => some (.failed failure)
  | _ => none

def deliver (edge : FlowEdge) (lock : Lock) (request : SendRequest) :
    NexusProg (Except EdgeFailure FlowSendReply) :=
  let abrupt := !request.message.isSoft
  edge.call (.deliver lock request.delivery request.message) (delivered abrupt)

/-- The answer `release` knows. -/
def released : Response → Option Unit
  | .released => some ()
  | _ => none

def release (edge : FlowEdge) (lock : Lock) : NexusProg (Except EdgeFailure Unit) :=
  edge.call (.release lock) released

/-- Opening a subscription, from what its steps meet. -/
def observeResult (t : ObserveAnswers) : Except EdgeFailure FlowSubscription :=
  match t.connect, t.setWriteTimeout with
  | .error _, _ => .error .unreachable
  | .ok (), .error _ => .error .broken
  | .ok (), .ok () =>
    match writeFrame t.write with
    | .error _ => .error .unreachable
    | .ok () => .ok ⟨⟩

/-- Opening a subscription never meets a refusal of Flow: no answer of it is read. -/
theorem observeResult_open (t : ObserveAnswers) (refusal : Refusal) :
    observeResult t ≠ .error (.refused refusal) := by
  intro he
  obtain ⟨connect, setWriteTimeout, write⟩ := t
  unfold observeResult at he
  cases connect with
  | error e => cases he
  | ok _ =>
      cases setWriteTimeout with
      | error e => cases he
      | ok _ =>
          dsimp only at he
          cases hw : writeFrame write with
          | error e =>
              rw [hw] at he
              cases he
          | ok _ =>
              rw [hw] at he
              cases he

def observeSender (edge : FlowEdge) (process : Process) (nativeSessionId : Option String)
    (cursor : Option DeliveryCursor) : NexusProg (Except EdgeFailure FlowSubscription) := do
  let t ← perform
    (.observe edge.socketPath (.observeSender process nativeSessionId cursor) (some 2))
  return observeResult t

end FlowEdge

/-- `FlowSubscription::next`: any failure to read a frame is a broken edge. -/
def FlowSubscription.next (_ : FlowSubscription) : NexusProg (Except EdgeFailure Response) := do
  let frame ← perform .next
  return frame.mapError fun _ => .broken

/-! ## 3. The calls in the logic -/

section Rules

variable {Adm : List NexusEvent → NexusEvent → Prop} {G : List NexusEvent → NexusOp → Prop}

/-- A call is one exchange on the edge's socket. -/
@[simp] theorem holds_call {Q : Except EdgeFailure α → List NexusEvent → Prop} (edge : FlowEdge)
    (query : Query) (accept : Response → Option α) (h : List NexusEvent) :
    Holds Adm G Q (edge.call query accept) h ↔
      G h (.exchange edge.socketPath query (readTimeout query) (some 2)) ∧ ∀ t : ExchangeAnswers,
        Adm h ⟨.exchange edge.socketPath query (readTimeout query) (some 2), t⟩ →
        Q (answered accept t)
          (h ++ [⟨.exchange edge.socketPath query (readTimeout query) (some 2), t⟩]) :=
  Iff.rfl

@[simp] theorem holds_observeSender {Q : Except EdgeFailure FlowSubscription →
    List NexusEvent → Prop} (edge : FlowEdge) (process : Process) (thread : Option String)
    (cursor : Option DeliveryCursor) (h : List NexusEvent) :
    Holds Adm G Q (edge.observeSender process thread cursor) h ↔
      G h (.observe edge.socketPath (.observeSender process thread cursor) (some 2)) ∧
      ∀ t : ObserveAnswers,
        Adm h ⟨.observe edge.socketPath (.observeSender process thread cursor) (some 2), t⟩ →
        Q (FlowEdge.observeResult t)
          (h ++ [⟨.observe edge.socketPath (.observeSender process thread cursor) (some 2), t⟩]) :=
  Iff.rfl

@[simp] theorem holds_next {Q : Except EdgeFailure Response → List NexusEvent → Prop}
    (subscription : FlowSubscription) (h : List NexusEvent) :
    Holds Adm G Q subscription.next h ↔
      G h .next ∧ ∀ frame : Except FrameError Response, Adm h ⟨.next, frame⟩ →
        Q (frame.mapError fun _ => .broken) (h ++ [⟨.next, frame⟩]) :=
  Iff.rfl

end Rules

end MessageNexus
