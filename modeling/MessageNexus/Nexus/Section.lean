/-
  File:      MessageNexus/Nexus/Section.lean
  Subject:   A CONNECTION READS ITS REQUEST ONCE AND TAKES THE STORE'S MUTEX ONCE, and up to its
             forwarding loop it reads no frame of a subscription.

  * `AnswerStage`, `answerMonitor` -- the request unread, before the section, inside, and past it;
    inside there is nothing but the use of the store, and no second section follows;
  * `Uses .. ahead` -- the parts of the handlers that leave the stage alone;
  * `handler_walks` -- both handlers keep to it up to their loop.
-/
import MessageNexus.Lib.Monitor
import MessageNexus.Nexus.StoreLock

namespace MessageNexus

open Interact SignalFlow

/-! ## 1. The stages -/

/-- Where a connection is: with its request, and with its one section. -/
inductive AnswerStage where
  | unread
  | before
  | inside
  | past
  deriving DecidableEq

/-- The operations of a connection outside its section, from its request up to its loop; the read
    timeout of an exchange is that of its query. -/
def NexusOp.ahead : NexusOp → Bool
  | .exchange _ query timeout _ => timeout == readTimeout query
  | .readQuery => false
  | .readMetaQuery => false
  | .next => false
  | o => o.offStore

/-- What an operation makes of the stage. -/
def AnswerStage.after (stage : AnswerStage) : NexusOp → AnswerStage
  | .readQuery => .before
  | .readMetaQuery => .before
  | .lockStore => .inside
  | .unlockStore => .past
  | _ => stage

/-- What may come in a stage: the request first; the section, once; in it only the use of the
    store. -/
def AnswerStage.Allows : AnswerStage → NexusOp → Prop
  | .unread, o => o = .readQuery ∨ o = .readMetaQuery
  | .before, o => o = .lockStore ∨ o.ahead = true
  | .inside, o => o ≠ .lockStore ∧ o.offStore = false
  | .past, o => o.ahead = true

def answerMonitor : Monitor NexusOp NexusAns AnswerStage where
  start := .unread
  next stage e := stage.after e.op
  allows := AnswerStage.Allows

/-- From this stage on the program keeps to the monitor, and ends where `E` holds. -/
abbrev WalksAnswer {α : Type} (E : AnswerStage → α → Prop) (p : NexusProg α)
    (stage : AnswerStage) : Prop :=
  answerMonitor.Walks E p stage

/-- The request is read, and the connection is outside its section. -/
def AnswerStage.Clear (stage : AnswerStage) : Prop := stage = .before ∨ stage = .past

/-- A program that ends there. -/
abbrev EndsClear {α : Type} (stage : AnswerStage) (_ : α) : Prop := stage.Clear

theorem AnswerStage.after_ahead (stage : AnswerStage) {o : NexusOp} (ho : o.ahead = true) :
    stage.after o = stage := by
  cases o with
  | readQuery => cases ho
  | readMetaQuery => cases ho
  | lockStore => cases ho
  | unlockStore => cases ho
  | _ => rfl

theorem AnswerStage.Clear.allows {stage : AnswerStage} (hs : stage.Clear) {o : NexusOp}
    (ho : o.ahead = true) : stage.Allows o := by
  rcases hs with rfl | rfl
  · exact Or.inr ho
  · exact ho

/-- Where it is clear, what is ahead of the loop leaves the stage alone. -/
theorem ahead_walks {α : Type} {p : NexusProg α} (hp : Uses (fun o => o.ahead = true) p)
    {stage : AnswerStage} (hs : stage.Clear) : WalksAnswer EndsClear p stage :=
  Monitor.Walks.mono (Uses.walks hp (fun _ ho => hs.allows ho) fun _ ho => stage.after_ahead ho)
    fun _ _ he => he ▸ hs

/-! ## 2. What is ahead of the loop -/

section Ahead

variable {edge : FlowEdge}

theorem call_ahead {α : Type} (query : Query) (accept : Response → Option α) :
    Uses (fun o => o.ahead = true) (edge.call query accept) :=
  ⟨beq_self_eq_true (readTimeout query), fun _ => trivial⟩

theorem answerWith_ahead (response : SignalMessage.Response) :
    Uses (fun o => o.ahead = true) (answerWith response) :=
  ⟨rfl, fun _ => trivial⟩

theorem forwardSubscription_ahead (terminalId : Option LogicalDeliveryId) :
    Uses (fun o => o.ahead = true) (forwardSubscription terminalId) := by
  refine ⟨rfl, fun handle => ?_⟩
  cases handle with
  | error error => trivial
  | ok _ =>
      refine ⟨rfl, fun clone => ?_⟩
      cases clone <;> trivial

theorem answerReply_ahead (reply : Except SignalMessage.Response SendReply) :
    Uses (fun o => o.ahead = true) (answerReply reply) := by
  cases reply with
  | error response => exact answerWith_ahead response
  | ok reply =>
      cases reply with
      | sent receipt => exact answerWith_ahead _
      | failed failure => exact answerWith_ahead _
      | queued accepted subscription =>
          refine ⟨rfl, fun outcome => ?_⟩
          cases outcome with
          | error error => trivial
          | ok _ =>
              cases subscription with
              | ok _ => exact forwardSubscription_ahead _
              | error response => exact answerWith_ahead response

theorem identifySender_ahead (process : Process) (thread : Option String) :
    Uses (fun o => o.ahead = true) (identifySender edge process thread) := by
  cases thread with
  | none => exact call_ahead _ _
  | some thread => exact call_ahead _ _

variable [FlowDebug] {process : Process} {request : SendRequest} {thread : Option String}

theorem settleDelivery_ahead (abrupt : Bool) (lock : Lock)
    (outcome : Except EdgeFailure FlowSendReply) :
    Uses (fun o => o.ahead = true)
      (settleDelivery edge process thread abrupt lock outcome) := by
  cases outcome with
  | error failure =>
      cases failure with
      | refused refusal => trivial
      | _ => exact (call_ahead _ _).bind fun _ => trivial
  | ok reply =>
      cases reply with
      | sent receipt => exact (call_ahead _ _).bind fun _ => trivial
      | failed failure => exact (call_ahead _ _).bind fun _ => trivial
      | queued acceptance => exact ⟨rfl, fun _ => trivial⟩

theorem sendIdentified_ahead (sender : Sender) :
    Uses (fun o => o.ahead = true) (sendIdentified edge process request thread sender) := by
  unfold sendIdentified
  dsimp only
  split
  · trivial
  · refine (call_ahead _ _).bind fun locked => ?_
    cases locked with
    | error failure => trivial
    | ok lock =>
        refine ⟨rfl, fun now => ?_⟩
        change Uses _ (if SystemTime.unixSeconds now ≥ lock.lockedUntil then _ else _)
        split
        · trivial
        · exact (call_ahead _ _).bind fun outcome => settleDelivery_ahead _ _ outcome

end Ahead

/-! ## 3. The handlers -/

theorem past_clear : AnswerStage.Clear .past := Or.inr rfl

/-- The guard makes the one section of its use. -/
theorem withStore_walks {α : Type} {use : NexusProg α}
    (hu : WalksAnswer (fun stage _ => stage = .inside) use .inside) :
    WalksAnswer (fun stage _ => stage = .past) (withStore use) .before := by
  refine ⟨Or.inl rfl, fun _ => ?_⟩
  show WalksAnswer _ (use >>= fun result => perform .unlockStore >>= fun _ => pure result) .inside
  refine Monitor.Walks.bind hu fun stage a hinside => ?_
  subst hinside
  exact ⟨⟨nofun, rfl⟩, fun _ => rfl⟩

theorem flowEdge_walks : WalksAnswer (fun stage _ => stage = .past) flowEdge .before :=
  Monitor.Walks.bind (withStore_walks ⟨⟨nofun, rfl⟩, fun _ => rfl⟩) fun _ _ hpast => hpast

theorem configure_walks (configuration : Configuration) (isMeta : Bool) :
    WalksAnswer (fun stage _ => stage = .past) (configure configuration isMeta) .before := by
  refine withStore_walks ⟨⟨nofun, rfl⟩, fun records => ?_⟩
  dsimp only [Prog.bind, pure]
  cases (records.mapError StoreError.engine).bind theStandard with
  | error error => exact rfl
  | ok current =>
      change WalksAnswer _ (if !isMeta && current.metaConfigured then _ else _) _
      split
      · exact rfl
      · refine ⟨⟨nofun, rfl⟩, fun outcome => ?_⟩
        cases outcome <;> exact rfl

section Handlers

variable [FlowDebug] {process : Process}

theorem acceptSend_walks (request : SendRequest) (thread : Option String) :
    WalksAnswer EndsClear (acceptSend process request thread) .before := by
  refine Monitor.Walks.bind flowEdge_walks fun stage edge hpast => ?_
  subst hpast
  cases edge with
  | error error => exact past_clear
  | ok edge =>
      refine Monitor.Walks.bind (ahead_walks (identifySender_ahead process thread) past_clear)
        fun stage sender hclear => ?_
      cases sender with
      | error failure => exact hclear
      | ok sender => exact ahead_walks (sendIdentified_ahead sender) hclear

theorem observeSends_walks (thread : Option String) (cursor : Option DeliveryCursor) :
    WalksAnswer EndsClear (observeSends process thread cursor) .before := by
  refine Monitor.Walks.bind flowEdge_walks fun stage edge hpast => ?_
  subst hpast
  cases edge with
  | error error => exact past_clear
  | ok edge =>
      have hopen : Uses (fun o => o.ahead = true) (edge.observeSender process thread cursor) :=
        ⟨rfl, fun _ => trivial⟩
      refine Monitor.Walks.bind (ahead_walks hopen past_clear) fun stage opened hclear => ?_
      cases opened with
      | ok subscription => exact hclear
      | error failure => cases failure <;> exact hclear

theorem answerSend_walks (request : SendRequest) (thread : Option String) :
    WalksAnswer EndsClear (answerSend process request thread) .before :=
  Monitor.Walks.bind (acceptSend_walks request thread) fun _ reply hclear =>
    ahead_walks (answerReply_ahead reply) hclear

theorem answerObservation_walks (thread : Option String) (cursor : Option DeliveryCursor) :
    WalksAnswer EndsClear (answerObservation process thread cursor) .before := by
  refine Monitor.Walks.bind (observeSends_walks thread cursor) fun stage opened hclear => ?_
  cases opened with
  | error response => exact ahead_walks (answerWith_ahead response) hclear
  | ok _ => exact ahead_walks (forwardSubscription_ahead none) hclear

theorem answerQuery_walks (query : SignalMessage.Query) :
    WalksAnswer EndsClear (answerQuery process query) .before := by
  cases query with
  | send request => exact answerSend_walks request none
  | sendThread request thread => exact answerSend_walks request (some thread)
  | observeSends cursor => exact answerObservation_walks none cursor
  | observeThread cursor thread => exact answerObservation_walks (some thread) cursor
  | configure configuration =>
      have hserve : WalksAnswer (fun stage _ => stage = .past)
          (serveQuery process (.configure configuration)) .before :=
        Monitor.Walks.bind (configure_walks configuration false) fun _ _ hpast => hpast
      refine Monitor.Walks.bind hserve fun stage response hpast => ?_
      subst hpast
      exact ahead_walks (answerWith_ahead response) past_clear

/-- Both handlers keep to the stages, and are clear at their loop and at their end. -/
theorem handler_walks (socket : Socket) : WalksAnswer EndsClear socket.handler .unread := by
  have hbefore : AnswerStage.Clear .before := Or.inl rfl
  cases socket with
  | ordinary =>
      refine ⟨Or.inl rfl, fun query => ?_⟩
      cases query with
      | error error => exact hbefore
      | ok query =>
          refine ⟨Or.inr rfl, fun process => ?_⟩
          cases process with
          | none => exact hbefore
          | some process => exact answerQuery_walks query
  | owner =>
      refine ⟨Or.inr rfl, fun query => ?_⟩
      cases query with
      | error error => exact hbefore
      | ok query =>
          cases query with
          | configure configuration =>
              change WalksAnswer EndsClear (configure configuration true >>= _) _
              refine Monitor.Walks.bind (configure_walks configuration true)
                fun stage outcome hpast => ?_
              subst hpast
              exact ⟨rfl, fun _ => past_clear⟩

end Handlers

end MessageNexus
