/-
  File:      MessageNexus/Nexus/Listener.lean
  Subject:   THE CONNECTIONS (`listener.rs`): what a handler reads, does and writes on one
             accepted connection of either socket.

  * `forwardRound` -- one round of the loop of `forward_subscription`; its state is the accepted
    delivery and the last cursor forwarded;
  * `answerOrdinary`, `answerMeta` -- the two handlers, as programs whose loop is `forwardRound`.

  The watcher thread of `forward_subscription` is not a program of its own here: all it does is
  end the Flow stream when the client goes away, which `next` may answer at any time.
-/
import MessageNexus.Nexus.Service

namespace MessageNexus

open Interact SignalFlow

/-- `TerminalDeliveryState::is_terminal`. -/
def SignalFlow.DeliveryState.isTerminal : DeliveryState → Bool
  | .delivered _ => true
  | .failed _ => true
  | _ => false

/-! ## 1. Forwarding a subscription -/

/-- The state of the forwarding loop: the delivery the connection waits for, if it waits for one,
    and the cursor of the last frame it forwarded. -/
structure ForwardLoop where
  terminalId : Option LogicalDeliveryId
  lastCursor : Option DeliveryCursor
  deriving DecidableEq, Repr

/-- The end of a handler, or the next round of its loop. -/
abbrev Handler := NexusProg (ForwardLoop ⊕ Except FrameError Unit)

/-- `finished` for `SendsObserved`. -/
def observedFinished (terminalId : Option LogicalDeliveryId) (observation : SendObservation) :
    Bool :=
  match terminalId with
  | none => false
  | some id => observation.deliverySnapshotVector.any fun item =>
      item.logicalDeliveryId == id && item.deliveryState.isTerminal

/-- `finished` for `SendChanged`. -/
def changedFinished (terminalId : Option LogicalDeliveryId) (snapshot : DeliverySnapshot) : Bool :=
  terminalId == some snapshot.logicalDeliveryId && snapshot.deliveryState.isTerminal

/-- A frame to forward: the response, the cursor it carries, and whether it is the last one. -/
structure Forwarded where
  response : SignalMessage.Response
  cursor : DeliveryCursor
  finished : Bool
  deriving DecidableEq, Repr

/-- The match on Flow's status frame; a foreign frame is not forwarded. -/
def forwarded (terminalId : Option LogicalDeliveryId) : Response → Option Forwarded
  | .sendsObserved observation =>
      some ⟨.sendsObserved observation, observation.deliveryCursor,
        observedFinished terminalId observation⟩
  | .sendChanged snapshot =>
      some ⟨.sendChanged snapshot, snapshot.deliveryCursor, changedFinished terminalId snapshot⟩
  | _ => none

/-- One forwarded frame: it is written, and then the loop ends or goes on with its cursor. -/
def forwardFrame (l : ForwardLoop) (frame : Forwarded) : Handler := do
  match ← perform (.writeResponse frame.response) with
  | .error error => return .inr (.error error)
  | .ok () =>
    if frame.finished then return .inr (.ok ())
    else return .inl { l with lastCursor := some frame.cursor }

/-- The frame that ends a forwarding loop early. -/
def interrupt (l : ForwardLoop) (text : String) : Handler := do
  let outcome ← perform (.writeResponse (.observationInterrupted l.lastCursor text))
  return .inr outcome

/-- One round of the loop of `forward_subscription`. -/
def forwardRound [FlowDebug] (l : ForwardLoop) : Handler := do
  match ← FlowSubscription.next ⟨⟩ with
  | .error error => interrupt l ("Flow status stream ended: " ++ error.debug)
  | .ok response =>
    match forwarded l.terminalId response with
    | some frame => forwardFrame l frame
    | none => interrupt l ("Unexpected Flow status response: " ++ FlowDebug.response response)

/-- `forward_subscription` up to its loop: the handle that the watcher would close, and the clone
    of the client's stream that it reads. -/
def forwardSubscription (terminalId : Option LogicalDeliveryId) : Handler := do
  match ← perform .interruptHandle with
  | .error _ => return .inr (.error (.io "cannot monitor Flow subscription"))
  | .ok () =>
  match ← perform .cloneStream with
  | .error error => return .inr (.error (.io error))
  | .ok () => return .inl ⟨terminalId, none⟩

/-! ## 2. The handlers -/

/-- A handler that ends with one frame. -/
def answerWith (response : SignalMessage.Response) : Handler := do
  let outcome ← perform (.writeResponse response)
  return .inr outcome

/-- The frames that follow the reply of `accept_send`. -/
def answerReply : Except SignalMessage.Response SendReply → Handler
  | .error response => answerWith response
  | .ok (.sent receipt) => answerWith (.sent receipt)
  | .ok (.failed failure) => answerWith (.failed failure)
  | .ok (.queued accepted subscription) => do
      match ← perform (.writeResponse (.sendAccepted accepted)) with
      | .error error => return .inr (.error error)
      | .ok () =>
        match subscription with
        | .ok _ => forwardSubscription (some accepted.logicalDeliveryId)
        | .error response => answerWith response

/-- `AnswersConnection::answer_send`. -/
def answerSend [FlowDebug] (process : Process) (request : SendRequest)
    (thread : Option String) : Handler := do
  let reply ← acceptSend process request thread
  answerReply reply

/-- `AnswersConnection::answer_observation`. -/
def answerObservation [FlowDebug] (process : Process) (thread : Option String)
    (cursor : Option DeliveryCursor) : Handler := do
  match ← observeSends process thread cursor with
  | .error response => answerWith response
  | .ok _ => forwardSubscription none

/-- The dispatch of `answer_ordinary` on the query. -/
def answerQuery [FlowDebug] (process : Process) : SignalMessage.Query → Handler
  | .send request => answerSend process request none
  | .sendThread request thread => answerSend process request (some thread)
  | .observeSends cursor => answerObservation process none cursor
  | .observeThread cursor thread => answerObservation process (some thread) cursor
  | query => do
      let response ← serveQuery process query
      answerWith response

/-- `AnswersConnection::answer_ordinary`. -/
def answerOrdinary [FlowDebug] : Handler := do
  match ← perform .readQuery with
  | .error error => return .inr (.error error)
  | .ok query =>
  match ← perform .peerProcess with
  | none => return .inr (.error (.io "cannot read the peer process identity"))
  | some process => answerQuery process query

/-- The answer of a meta Configure. -/
def metaResponse : Except ConfigureFailure Bool → MetaSignalMessage.Response
  | .ok true => .restartRequired
  | .ok false => .configured
  | .error _ => .refused .storeRefused

/-- `AnswersConnection::answer_meta`. -/
def answerMeta : Handler := do
  match ← perform .readMetaQuery with
  | .error error => return .inr (.error error)
  | .ok (.configure configuration) =>
    let outcome ← configure configuration true
    let written ← perform (.writeMetaResponse (metaResponse outcome))
    return .inr written

/-! ## 3. What a connection was asked -/

/-- The query and the peer that a history of the ordinary handler begins with. -/
def asked : List NexusEvent → Option (Process × SignalMessage.Query)
  | ⟨.readQuery, .ok query⟩ :: ⟨.peerProcess, some process⟩ :: _ => some (process, query)
  | _ => none

/-- The send that a query asks for, with its native thread. -/
def SignalMessage.Query.sends : SignalMessage.Query → Option (SendRequest × Option String)
  | .send request => some (request, none)
  | .sendThread request thread => some (request, some thread)
  | _ => none

/-- The events with which a handler comes to know its query. -/
def askedBy (process : Process) (query : SignalMessage.Query) : List NexusEvent :=
  [⟨.readQuery, .ok query⟩, ⟨.peerProcess, some process⟩]

/-- What begins a history that tells its query. -/
theorem asked_eq {h : List NexusEvent} {process : Process} {query : SignalMessage.Query}
    (ha : asked h = some (process, query)) : ∃ rest, h = askedBy process query ++ rest := by
  unfold asked at ha
  split at ha
  · cases ha
    exact ⟨_, rfl⟩
  · cases ha

/-- A handler that was asked `query` has gone on with its answer. -/
theorem asked_trace [FlowDebug] {p q : Handler} {rest : List NexusEvent} {process : Process}
    {query : SignalMessage.Query} (ht : Trace forwardRound p (askedBy process query ++ rest) q)
    (hp : p = answerOrdinary ∨ p = answerMeta) :
    Trace forwardRound (answerQuery process query) rest q := by
  rcases hp with rfl | rfl
  · have h1 : Trace forwardRound (.ask .readQuery _) _ _ := ht
    obtain ⟨_, he1, h2⟩ := h1.ask_inv
    cases he1
    have h2' : Trace forwardRound (.ask .peerProcess _) _ _ := h2
    obtain ⟨_, he2, h3⟩ := h2'.ask_inv
    cases he2
    exact h3
  · have h1 : Trace forwardRound (.ask .readMetaQuery _) _ _ := ht
    obtain ⟨_, he1, _⟩ := h1.ask_inv
    cases he1

/-- Both queries that send are answered by `answer_send`. -/
theorem answerQuery_sends [FlowDebug] {process : Process} {query : SignalMessage.Query}
    {request : SendRequest} {thread : Option String}
    (h : query.sends = some (request, thread)) :
    answerQuery process query = answerSend process request thread := by
  cases query with
  | send request' => cases h; rfl
  | sendThread request' thread' => cases h; rfl
  | observeSends cursor => cases h
  | observeThread cursor thread' => cases h
  | configure configuration => cases h

/-! ## 4. The steps of a handler in the logic -/

section Rules

variable {Adm : List NexusEvent → NexusEvent → Prop} {G : List NexusEvent → NexusOp → Prop}

@[simp] theorem holds_writeResponse {Q : Except FrameError Unit → List NexusEvent → Prop}
    (response : SignalMessage.Response) (h : List NexusEvent) :
    Holds Adm G Q (perform (.writeResponse response)) h ↔
      G h (.writeResponse response) ∧ ∀ outcome : Except FrameError Unit, Adm h ⟨.writeResponse response, outcome⟩ →
        Q outcome (h ++ [⟨.writeResponse response, outcome⟩]) :=
  Iff.rfl

@[simp] theorem holds_answerWith {Q : ForwardLoop ⊕ Except FrameError Unit →
    List NexusEvent → Prop} (response : SignalMessage.Response) (h : List NexusEvent) :
    Holds Adm G Q (answerWith response) h ↔
      G h (.writeResponse response) ∧ ∀ outcome : Except FrameError Unit, Adm h ⟨.writeResponse response, outcome⟩ →
        Q (.inr outcome) (h ++ [⟨.writeResponse response, outcome⟩]) :=
  Iff.rfl

@[simp] theorem holds_interrupt {Q : ForwardLoop ⊕ Except FrameError Unit →
    List NexusEvent → Prop} (l : ForwardLoop) (text : String) (h : List NexusEvent) :
    Holds Adm G Q (interrupt l text) h ↔
      Holds Adm G Q (answerWith (.observationInterrupted l.lastCursor text)) h :=
  Iff.rfl

end Rules

end MessageNexus
