/-
  File:      MessageNexus/Nexus/Replies.lean
  Subject:   THE REPLY OF A SEND: what `accept_send` makes of its one Deliver, and what it may
             reply when there was none.

  * `written`, `statuses`, `delivers`, `openings` -- the frames of a history, what its subscription
    read, its Deliver exchanges, and what opening its subscription came to;
  * `EarlyReply`, `DeliverReply` -- the replies without and after a Deliver;
  * `acceptSend_replies` -- every run of `accept_send` ends with one of them, and writes no frame.
-/
import MessageNexus.Nexus.SendPath

namespace MessageNexus

open Interact SignalFlow

/-! ## 1. The frames, the Deliver and the subscription of a history -/

def written? : NexusEvent → Option SignalMessage.Response
  | ⟨.writeResponse response, _⟩ => some response
  | _ => none

/-- The frames a connection wrote, in order. -/
def written (h : List NexusEvent) : List SignalMessage.Response := h.filterMap written?

def status? : NexusEvent → Option (Except FrameError Response)
  | ⟨.next, frame⟩ => some frame
  | _ => none

/-- What the reads of the subscription answered, in order. -/
def statuses (h : List NexusEvent) : List (Except FrameError Response) := h.filterMap status?

def deliver? : NexusEvent → Option ExchangeAnswers
  | ⟨.exchange _ (.deliver _ _ _) _ _, answers⟩ => some answers
  | _ => none

/-- What the Deliver exchanges met, in order. -/
def delivers (h : List NexusEvent) : List ExchangeAnswers := h.filterMap deliver?

def opening? : NexusEvent → Option (Except EdgeFailure FlowSubscription)
  | ⟨.observe _ _ _, answers⟩ => some (FlowEdge.observeResult answers)
  | _ => none

/-- What opening a subscription came to, in order. -/
def openings (h : List NexusEvent) : List (Except EdgeFailure FlowSubscription) :=
  h.filterMap opening?

@[simp] theorem written_append (h es : List NexusEvent) :
    written (h ++ es) = written h ++ written es := List.filterMap_append

@[simp] theorem statuses_append (h es : List NexusEvent) :
    statuses (h ++ es) = statuses h ++ statuses es := List.filterMap_append

@[simp] theorem delivers_append (h es : List NexusEvent) :
    delivers (h ++ es) = delivers h ++ delivers es := List.filterMap_append

@[simp] theorem openings_append (h es : List NexusEvent) :
    openings (h ++ es) = openings h ++ openings es := List.filterMap_append

/-- A history in which nothing was written and no status was read. -/
def Silent (h : List NexusEvent) : Prop := written h = [] ∧ statuses h = []

theorem Silent.snoc {h : List NexusEvent} (hs : Silent h) (e : NexusEvent)
    (hw : written? e = none) (hn : status? e = none) : Silent (h ++ [e]) := by
  refine ⟨?_, ?_⟩
  · simp [written, hw, ← hs.1]
  · simp [statuses, hn, ← hs.2]

theorem delivers_snoc (h : List NexusEvent) (e : NexusEvent) (hd : deliver? e = none) :
    delivers (h ++ [e]) = delivers h := by
  simp [delivers, hd]

theorem openings_snoc (h : List NexusEvent) (e : NexusEvent) (ho : opening? e = none) :
    openings (h ++ [e]) = openings h := by
  simp [openings, ho]

theorem openings_first {h : List NexusEvent} (hn : openings h = []) (path : String) (query : Query)
    (timeout : Option Nat) (t : ObserveAnswers) :
    openings (h ++ [⟨.observe path query timeout, t⟩]) = [FlowEdge.observeResult t] := by
  rw [openings_append, hn]
  rfl

/-- A history in which nothing was delivered, and no subscription opened. -/
def Unsent (h : List NexusEvent) : Prop := delivers h = [] ∧ openings h = []

theorem Unsent.snoc {h : List NexusEvent} (hu : Unsent h) (e : NexusEvent) (hd : deliver? e = none)
    (ho : opening? e = none) : Unsent (h ++ [e]) :=
  ⟨(delivers_snoc h e hd).trans hu.1, (openings_snoc h e ho).trans hu.2⟩

/-! ## 2. The replies -/

/-- A reply without a Deliver: a refusal or a failure. -/
def EarlyReply (reply : Except SignalMessage.Response SendReply) : Prop :=
  (∃ refusal, reply = .error (.refused refusal)) ∨ (∃ failure, reply = .error (.failed failure)) ∨
    ∃ failure, reply = .ok (.failed failure)

/-- The reply after a Deliver that met `t`. Only a queued message has a subscription; it is open, or
    did not open and is told with the acceptance's cursor. -/
def DeliverReply [FlowDebug] (request : SendRequest) (t : ExchangeAnswers)
    (opened : List (Except EdgeFailure FlowSubscription))
    (reply : Except SignalMessage.Response SendReply) : Prop :=
  match deliverOutcome request t with
  | .error failure =>
      opened = [] ∧ reply = .error (failure.forSend (!request.message.isSoft) true)
  | .ok (.sent receipt) => opened = [] ∧ reply = .ok (.sent receipt)
  | .ok (.failed failure) => opened = [] ∧ reply = .ok (.failed failure)
  | .ok (.queued acceptance) => ∃ opening, opened = [opening] ∧ reply = .ok (.queued acceptance
      (opening.mapError (couldNotOpen (some acceptance.deliveryCursor))))

/-- The reply is one without a Deliver, or the one after the only Deliver of the history. -/
def ReplyOf [FlowDebug] (request : SendRequest) (h : List NexusEvent)
    (reply : Except SignalMessage.Response SendReply) : Prop :=
  (Unsent h ∧ EarlyReply reply) ∨
    ∃ t, delivers h = [t] ∧ DeliverReply request t (openings h) reply

/-- An event that neither delivers nor opens a subscription changes nothing of the reply. -/
theorem ReplyOf.snoc [FlowDebug] {request : SendRequest} {h : List NexusEvent}
    {reply : Except SignalMessage.Response SendReply} (hr : ReplyOf request h reply)
    (e : NexusEvent) (hd : deliver? e = none) (ho : opening? e = none) :
    ReplyOf request (h ++ [e]) reply := by
  rw [ReplyOf, Unsent, delivers_snoc h e hd, openings_snoc h e ho]
  exact hr

/-- Where `accept_send` ends: nothing is written yet, and the reply is the history's. -/
def SendReplied [FlowDebug] (request : SendRequest)
    (reply : Except SignalMessage.Response SendReply) (h : List NexusEvent) : Prop :=
  Silent h ∧ ReplyOf request h reply

/-- The first frame that tells a reply. -/
def firstFrame : Except SignalMessage.Response SendReply → SignalMessage.Response
  | .error response => response
  | .ok (.queued accepted _) => .sendAccepted accepted
  | .ok (.sent receipt) => .sent receipt
  | .ok (.failed failure) => .failed failure

/-- The first frame of a history, if there is one, tells the reply of the send. -/
def Answered [FlowDebug] (request : SendRequest) (h : List NexusEvent) : Prop :=
  ∀ first, (written h).head? = some first →
    ∃ reply, ReplyOf request h reply ∧ first = firstFrame reply

section Replies

variable [FlowDebug] {process : Process} {request : SendRequest} {thread : Option String}

/-- An edge failure is told as a refusal or as a failure. -/
theorem forSend_early (failure : EdgeFailure) (abrupt started : Bool) :
    EarlyReply (.error (failure.forSend abrupt started)) := by
  cases abrupt with
  | false => exact Or.inl ⟨_, rfl⟩
  | true => exact Or.inr (Or.inl ⟨_, rfl⟩)

theorem settleDelivery_replies {edge : FlowEdge} {lock : Lock} (t : ExchangeAnswers)
    {h : List NexusEvent} (hs : Silent h) (hd : delivers h = [t]) (hn : openings h = []) :
    Holds anyAnswer (fun h' _ => Silent h') (SendReplied request)
      (settleDelivery edge process thread (!request.message.isSoft) lock
        (deliverOutcome request t)) h := by
  -- The Release and the subscription leave the frames and the Deliver of the history as they are.
  have hafter : ∀ (e : NexusEvent) reply, written? e = none → status? e = none →
      deliver? e = none → DeliverReply request t (openings (h ++ [e])) reply →
      SendReplied request reply (h ++ [e]) :=
    fun e reply hw hn hde hr =>
      ⟨hs.snoc e hw hn, Or.inr ⟨t, (delivers_snoc h e hde).trans hd, hr⟩⟩
  cases ho : deliverOutcome request t with
  | error failure =>
      cases failure with
      | refused refusal =>
          refine ⟨hs, Or.inr ⟨t, hd, ?_⟩⟩
          rw [DeliverReply, ho]
          exact ⟨hn, rfl⟩
      | unreachable =>
          refine ⟨hs, fun a _ => hafter _ _ rfl rfl rfl ?_⟩
          rw [DeliverReply, ho]
          exact ⟨(openings_snoc h _ rfl).trans hn, rfl⟩
      | broken =>
          refine ⟨hs, fun a _ => hafter _ _ rfl rfl rfl ?_⟩
          rw [DeliverReply, ho]
          exact ⟨(openings_snoc h _ rfl).trans hn, rfl⟩
      | unexpected =>
          refine ⟨hs, fun a _ => hafter _ _ rfl rfl rfl ?_⟩
          rw [DeliverReply, ho]
          exact ⟨(openings_snoc h _ rfl).trans hn, rfl⟩
  | ok settled =>
      cases settled with
      | sent receipt =>
          refine ⟨hs, fun a _ => hafter _ _ rfl rfl rfl ?_⟩
          rw [DeliverReply, ho]
          exact ⟨(openings_snoc h _ rfl).trans hn, rfl⟩
      | failed failure =>
          refine ⟨hs, fun a _ => hafter _ _ rfl rfl rfl ?_⟩
          rw [DeliverReply, ho]
          exact ⟨(openings_snoc h _ rfl).trans hn, rfl⟩
      | queued acceptance =>
          refine ⟨hs, fun a _ => hafter _ _ rfl rfl rfl ?_⟩
          rw [DeliverReply, ho]
          exact ⟨FlowEdge.observeResult a, openings_first hn _ _ _ a, rfl⟩

theorem sendLocked_replies {edge : FlowEdge} {lock : Lock} {h : List NexusEvent} (hs : Silent h)
    (hu : Unsent h) :
    Holds anyAnswer (fun h' _ => Silent h') (SendReplied request)
      (sendLocked edge process request thread lock) h := by
  rw [sendLocked, holds_bind, holds_now]
  refine ⟨hs, fun now _ => ?_⟩
  have hs' := hs.snoc ⟨.now, now⟩ rfl rfl
  have hu' := hu.snoc ⟨.now, now⟩ rfl rfl
  split
  · exact ⟨hs', Or.inl ⟨hu', forSend_early _ _ _⟩⟩
  · rw [holds_bind, FlowEdge.deliver, holds_call]
    refine ⟨hs', fun t _ => settleDelivery_replies t (hs'.snoc _ rfl rfl) ?_ ?_⟩
    · rw [delivers_append, hu'.1]
      rfl
    · rw [openings_append, hu'.2]
      rfl

theorem sendIdentified_replies {edge : FlowEdge} {sender : Sender} {h : List NexusEvent}
    (hs : Silent h) (hu : Unsent h) :
    Holds anyAnswer (fun h' _ => Silent h') (SendReplied request)
      (sendIdentified edge process request thread sender) h := by
  unfold sendIdentified
  dsimp only
  split
  · exact ⟨hs, Or.inl ⟨hu, Or.inr (Or.inr ⟨_, rfl⟩)⟩⟩
  · rw [holds_bind, FlowEdge.lock, holds_call]
    refine ⟨hs, fun t1 _ => ?_⟩
    have hs' := hs.snoc ⟨.exchange edge.socketPath (.lock sender request.recipient)
      (readTimeout (.lock sender request.recipient)) (some 2), t1⟩ rfl rfl
    have hu' := hu.snoc ⟨.exchange edge.socketPath (.lock sender request.recipient)
      (readTimeout (.lock sender request.recipient)) (some 2), t1⟩ rfl rfl
    cases answered FlowEdge.locked t1 with
    | error failure => exact ⟨hs', Or.inl ⟨hu', forSend_early _ _ _⟩⟩
    | ok lock => exact sendLocked_replies hs' hu'

/-- Every run of `accept_send` ends with a reply of its kind. -/
theorem acceptSend_replies {h : List NexusEvent} (hs : Silent h) (hu : Unsent h) :
    Holds anyAnswer (fun h' _ => Silent h') (SendReplied request)
      (acceptSend process request thread) h := by
  rw [acceptSend, holds_bind, holds_flowEdge, holds_withStore]
  simp only [holds_standard]
  have hs0 : Silent (h ++ [⟨.lockStore, ()⟩]) := hs.snoc _ rfl rfl
  refine ⟨hs, fun _ => ⟨hs0, fun records _ => ⟨hs0.snoc _ rfl rfl, fun _ => ?_⟩⟩⟩
  generalize hh : h ++ [⟨.lockStore, ()⟩] ++ [⟨.matchRecords, records⟩] ++ [⟨.unlockStore, ()⟩] = h1
  have hs1 : Silent h1 := hh ▸ (hs0.snoc _ rfl rfl).snoc _ rfl rfl
  have hu1 : Unsent h1 := hh ▸ ((hu.snoc _ rfl rfl).snoc _ rfl rfl).snoc _ rfl rfl
  cases ((records.mapError StoreError.engine).bind theStandard) with
  | error error => exact ⟨hs1, Or.inl ⟨hu1, Or.inl ⟨_, rfl⟩⟩⟩
  | ok current =>
      change Holds _ _ _ (identifySender ⟨current.configuration.flow⟩ process thread >>= _) h1
      rw [holds_bind, holds_identifySender, holds_call]
      refine ⟨hs1, fun t0 _ => ?_⟩
      have hs2 := hs1.snoc ⟨.exchange current.configuration.flow (identifyQuery process thread)
        (readTimeout (identifyQuery process thread)) (some 2), t0⟩ rfl rfl
      have hu2 := hu1.snoc ⟨.exchange current.configuration.flow (identifyQuery process thread)
        (readTimeout (identifyQuery process thread)) (some 2), t0⟩ (by cases thread <;> rfl) rfl
      cases answered FlowEdge.identified t0 with
      | error failure => exact ⟨hs2, Or.inl ⟨hu2, forSend_early _ _ _⟩⟩
      | ok sender => exact sendIdentified_replies hs2 hu2

/-! ## 3. The first frame -/

theorem Silent.answered {h : List NexusEvent} (hs : Silent h) : Answered request h := by
  intro first hf
  rw [hs.1] at hf
  cases hf

/-- A reply is told by its first frame, and the frames after it do not change that. -/
theorem Answered.of_first {h : List NexusEvent} {reply : Except SignalMessage.Response SendReply}
    (hr : ReplyOf request h reply)
    (hw : (written h).head? = some (firstFrame reply)) : Answered request h := by
  intro first hf
  rw [hw] at hf
  exact ⟨reply, hr, (Option.some.inj hf).symm⟩

/-- After the first frame, events that neither deliver nor open a subscription leave the condition
    as it is. -/
theorem Answered.snoc {h : List NexusEvent} (ha : Answered request h) (hw : written h ≠ [])
    (e : NexusEvent) (hd : deliver? e = none) (ho : opening? e = none) :
    Answered request (h ++ [e]) ∧ written (h ++ [e]) ≠ [] := by
  have hhead : (written (h ++ [e])).head? = (written h).head? := by
    obtain ⟨first, rest, hcons⟩ := List.exists_cons_of_ne_nil hw
    rw [written_append, hcons]
    rfl
  refine ⟨fun first hf => ?_, fun hnil => hw ?_⟩
  · rw [hhead] at hf
    obtain ⟨reply, hr, he⟩ := ha first hf
    exact ⟨reply, hr.snoc e hd ho, he⟩
  · rw [written_append] at hnil
    exact (List.append_eq_nil_iff.mp hnil).1

/-- The condition on the histories of a send, and at the end of its rounds. -/
abbrev EndsAnswered (request : SendRequest) :
    ForwardLoop ⊕ Except FrameError Unit → List NexusEvent → Prop :=
  Sum.elim (fun _ h => Answered request h ∧ written h ≠ [])
    (fun _ h => Answered request h ∧ written h ≠ [])

theorem forwardRound_answered (l : ForwardLoop) {h : List NexusEvent}
    (ha : Answered request h ∧ written h ≠ []) :
    Holds anyAnswer (fun h' _ => Answered request h') (EndsAnswered request)
      (forwardRound l) h := by
  rw [forwardRound, holds_bind, holds_next]
  refine ⟨ha.1, fun frame _ => ?_⟩
  have ha' := ha.1.snoc ha.2 ⟨.next, frame⟩ rfl rfl
  have hlast : ∀ response, Holds anyAnswer (fun h' _ => Answered request h')
      (EndsAnswered request) (answerWith response) (h ++ [⟨.next, frame⟩]) :=
    fun response => ⟨ha'.1, fun _ _ => ha'.1.snoc ha'.2 _ rfl rfl⟩
  cases frame with
  | error error => exact hlast _
  | ok response =>
      cases hf : forwarded l.terminalId response with
      | none =>
          simp only [Except.mapError, hf]
          exact hlast _
      | some frame =>
          simp only [Except.mapError, hf]
          rw [forwardFrame, holds_bind, holds_writeResponse]
          refine ⟨ha'.1, fun outcome _ => ?_⟩
          have ha'' := ha'.1.snoc ha'.2 ⟨.writeResponse frame.response, outcome⟩ rfl rfl
          cases outcome with
          | error error => exact ha''
          | ok _ => cases hfin : frame.finished <;> exact ha''

theorem forwardSubscription_answered (terminalId : Option LogicalDeliveryId)
    {h : List NexusEvent} (ha : Answered request h ∧ written h ≠ []) :
    Holds anyAnswer (fun h' _ => Answered request h') (EndsAnswered request)
      (forwardSubscription terminalId) h := by
  refine ⟨ha.1, fun handle _ => ?_⟩
  have ha' := ha.1.snoc ha.2 ⟨.interruptHandle, handle⟩ rfl rfl
  cases handle with
  | error error => exact ha'
  | ok _ =>
      refine ⟨ha'.1, fun clone _ => ?_⟩
      have ha'' := ha'.1.snoc ha'.2 ⟨.cloneStream, clone⟩ rfl rfl
      cases clone with
      | error error => exact ha''
      | ok _ => exact ha''

theorem answerReply_answered {reply : Except SignalMessage.Response SendReply}
    {h : List NexusEvent} (hr : SendReplied request reply h) :
    Holds anyAnswer (fun h' _ => Answered request h') (EndsAnswered request)
      (answerReply reply) h := by
  -- The first frame tells the reply; whatever comes after it is no Deliver.
  have hfirst : ∀ outcome : Except FrameError Unit,
      Answered request (h ++ [⟨.writeResponse (firstFrame reply), outcome⟩]) ∧
        written (h ++ [⟨.writeResponse (firstFrame reply), outcome⟩]) ≠ [] := by
    intro outcome
    have hw : written (h ++ [⟨.writeResponse (firstFrame reply), outcome⟩]) =
        [firstFrame reply] := by
      rw [written_append, hr.1.1]
      rfl
    refine ⟨@Answered.of_first _ _ _ reply ?_ ?_, ?_⟩
    · exact hr.2.snoc _ rfl rfl
    · rw [hw]
      rfl
    · rw [hw]
      exact List.cons_ne_nil _ _
  cases reply with
  | error response => exact ⟨hr.1.answered, fun outcome _ => hfirst outcome⟩
  | ok reply =>
      cases reply with
      | sent receipt => exact ⟨hr.1.answered, fun outcome _ => hfirst outcome⟩
      | failed failure => exact ⟨hr.1.answered, fun outcome _ => hfirst outcome⟩
      | queued accepted subscription =>
          refine ⟨hr.1.answered, fun outcome _ => ?_⟩
          have ha := hfirst outcome
          cases outcome with
          | error error => exact ha
          | ok _ =>
              cases subscription with
              | error response => exact ⟨ha.1, fun _ _ => ha.1.snoc ha.2 _ rfl rfl⟩
              | ok _ => exact forwardSubscription_answered _ ha

theorem answerSend_answered {h : List NexusEvent} (hs : Silent h) (hu : Unsent h) :
    Holds anyAnswer (fun h' _ => Answered request h') (EndsAnswered request)
      (answerSend process request thread) h := by
  rw [answerSend, holds_bind]
  exact (acceptSend_replies hs hu).mono (fun _ _ hq => hq.answered)
    fun reply h' hr => answerReply_answered hr

/-- In every interleaving, the first frame of a connection that was asked a send tells the reply
    of its send. -/
theorem connection_answered {s₀ : NexusShared} {c : NexusPool}
    (hr : Reach nexusSystem (.idle s₀) c) {t : Nat}
    {th : Thread NexusOp NexusAns ForwardLoop (Except FrameError Unit)}
    (ht : c.threads t = some th) {query : SignalMessage.Query}
    (ha : asked th.hist = some (process, query)) (hs : query.sends = some (request, thread)) :
    Answered request th.hist := by
  obtain ⟨rest, hh, htr⟩ := connection_trace hr ht ha
  rw [answerQuery_sends hs] at htr
  have hrest := htr.holds (h := askedBy process query)
    (fun l h hl => forwardRound_answered l hl) (answerSend_answered ⟨rfl, rfl⟩ ⟨rfl, rfl⟩)
    (along_any _ _)
  rw [← hh] at hrest
  refine (hrest.mono (fun _ _ hq => hq) (fun result h' hq => ?_)).now
  cases result with
  | inl l => exact hq.1
  | inr r => exact hq.1

end Replies

end MessageNexus
