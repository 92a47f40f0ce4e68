/-
  File:      MessageNexus/Nexus/Forwarding.lean
  Subject:   THE FRAMES OF A CONNECTION: what a handler has written when it ended, and what while
             it runs, for every query.

  * `StatusFrame` -- the frames of a subscription that are passed on;
  * `Relaying`, `RelayEnd` -- the histories before a round of the forwarding loop and at its end:
    the status frames read so far, the frames written for them, and the cursor of the loop;
  * `SendEnd`, `ObserveEnd` -- the ends of the handlers of a send and of an observation, and
    `SendRunning`, `ObserveRunning` what holds before every operation;
  * `connection_frames` -- so it is for every connection of every reachable pool.
-/
import MessageNexus.Nexus.Faults

namespace MessageNexus

open Interact SignalFlow

/-! ## 1. Status frames -/

/-- A frame of the subscription that is passed on to the client. -/
inductive StatusFrame where
  | observed (observation : SendObservation)
  | changed (snapshot : DeliverySnapshot)
  deriving DecidableEq, Repr

namespace StatusFrame

/-- The frame as Flow sends it. -/
def flow : StatusFrame → Response
  | .observed observation => .sendsObserved observation
  | .changed snapshot => .sendChanged snapshot

/-- The frame as the client gets it. -/
def frame : StatusFrame → SignalMessage.Response
  | .observed observation => .sendsObserved observation
  | .changed snapshot => .sendChanged snapshot

def cursor : StatusFrame → DeliveryCursor
  | .observed observation => observation.deliveryCursor
  | .changed snapshot => snapshot.deliveryCursor

/-- The frame shows the delivery in a terminal state. -/
def Shows (id : LogicalDeliveryId) : StatusFrame → Prop
  | .observed observation => ∃ item ∈ observation.deliverySnapshotVector,
      item.logicalDeliveryId = id ∧ item.deliveryState.isTerminal = true
  | .changed snapshot =>
      snapshot.logicalDeliveryId = id ∧ snapshot.deliveryState.isTerminal = true

/-- The frame ends the forwarding: it shows the delivery the connection waits for. -/
def Last (terminalId : Option LogicalDeliveryId) (f : StatusFrame) : Prop :=
  ∃ id, terminalId = some id ∧ f.Shows id

end StatusFrame

/-- A frame of Flow is a status frame, or it is foreign. -/
theorem status_or_foreign (response : Response) :
    (∃ f : StatusFrame, response = f.flow) ∨
      ((∀ f : StatusFrame, response ≠ f.flow) ∧
        ∀ terminalId, forwarded terminalId response = none) := by
  cases response with
  | sendsObserved observation => exact Or.inl ⟨.observed observation, rfl⟩
  | sendChanged snapshot => exact Or.inl ⟨.changed snapshot, rfl⟩
  | _ =>
      refine Or.inr ⟨fun f hf => ?_, fun _ => rfl⟩
      cases f <;> cases hf

/-- What the loop makes of a status frame. -/
theorem forwarded_flow (terminalId : Option LogicalDeliveryId) (f : StatusFrame) :
    ∃ finished, forwarded terminalId f.flow = some ⟨f.frame, f.cursor, finished⟩ ∧
      (finished = true ↔ f.Last terminalId) := by
  cases f with
  | observed observation =>
      refine ⟨_, rfl, ?_⟩
      cases terminalId with
      | none => simp [observedFinished, StatusFrame.Last]
      | some id => simp [observedFinished, StatusFrame.Last, StatusFrame.Shows]
  | changed snapshot =>
      refine ⟨_, rfl, ?_⟩
      cases terminalId with
      | none => simp [changedFinished, StatusFrame.Last]
      | some id =>
          simp [changedFinished, StatusFrame.Last, StatusFrame.Shows, eq_comm (a := id)]

/-! ## 2. The forwarding loop -/

/-- The cursor of the last frame forwarded. -/
def lastCursor (fs : List StatusFrame) : Option DeliveryCursor :=
  fs.getLast?.map (·.cursor)

theorem lastCursor_concat (fs : List StatusFrame) (f : StatusFrame) :
    lastCursor (fs ++ [f]) = some f.cursor := by
  rw [lastCursor, List.getLast?_concat]
  rfl

/-- The frames of Flow that were passed on, as the subscription read them. -/
def readOf (fs : List StatusFrame) : List (Except FrameError Response) :=
  fs.map fun f => .ok f.flow

/-- The history has opened its subscription and relayed `fs`, none of them the last frame, behind
    the frames `first`, and has then read `pending`, which is not relayed yet. -/
structure RelayedSoFar (first : List SignalMessage.Response)
    (terminalId : Option LogicalDeliveryId) (fs : List StatusFrame)
    (pending : List (Except FrameError Response)) (h : List NexusEvent) : Prop where
  opened : openings h = [.ok ⟨⟩]
  read : statuses h = readOf fs ++ pending
  wrote : written h = first ++ fs.map (·.frame)
  going : ∀ f ∈ fs, ¬ f.Last terminalId

/-- Before a round of the loop. -/
def Relaying (first : List SignalMessage.Response) (terminalId : Option LogicalDeliveryId)
    (l : ForwardLoop) (h : List NexusEvent) : Prop :=
  ∃ fs, RelayedSoFar first terminalId fs [] h ∧ l = ⟨terminalId, lastCursor fs⟩

/-- Before an operation of the loop. -/
def RelayRunning (first : List SignalMessage.Response) (terminalId : Option LogicalDeliveryId)
    (h : List NexusEvent) : Prop :=
  ∃ fs pending, RelayedSoFar first terminalId fs pending h ∧ pending.length ≤ 1

/-- The input ends the stream: the read failed, or the frame is foreign. -/
def EndsStream (input : Except FrameError Response) : Prop :=
  ∀ f : StatusFrame, input ≠ .ok f.flow

/-- The end of the forwarding with its last event, and the handler's result: the loop was never
    entered, the client did not get a frame of Flow, or got the last one, or the stream ended. -/
inductive RelayEnd (first : List SignalMessage.Response)
    (terminalId : Option LogicalDeliveryId) :
    List NexusEvent → Except FrameError Unit → Prop where
  | unopened (before : List NexusEvent) (e : NexusEvent) (error : FrameError)
      (hr : RelayedSoFar first terminalId [] [] before) (hfails : failsClient e = true)
      (hw : written? e = none) (hn : status? e = none) (ho : opening? e = none) :
      RelayEnd first terminalId (before ++ [e]) (.error error)
  | cut (before : List NexusEvent) (fs : List StatusFrame) (f : StatusFrame) (error : FrameError)
      (hr : RelayedSoFar first terminalId fs [.ok f.flow] before) :
      RelayEnd first terminalId (before ++ [⟨.writeResponse f.frame, .error error⟩]) (.error error)
  | finished (before : List NexusEvent) (fs : List StatusFrame) (f : StatusFrame)
      (hr : RelayedSoFar first terminalId fs [.ok f.flow] before) (hlast : f.Last terminalId) :
      RelayEnd first terminalId (before ++ [⟨.writeResponse f.frame, .ok ()⟩]) (.ok ())
  | interrupted (before : List NexusEvent) (fs : List StatusFrame)
      (input : Except FrameError Response) (text : String) (result : Except FrameError Unit)
      (hr : RelayedSoFar first terminalId fs [input] before) (hends : EndsStream input) :
      RelayEnd first terminalId
        (before ++ [⟨.writeResponse (.observationInterrupted (lastCursor fs) text), result⟩]) result

section Loop

variable {first : List SignalMessage.Response} {terminalId : Option LogicalDeliveryId}
  {fs : List StatusFrame} {pending : List (Except FrameError Response)} {h : List NexusEvent}

/-- An event that opens no subscription, reads no status and writes no frame keeps what was
    relayed. -/
theorem RelayedSoFar.snoc (hr : RelayedSoFar first terminalId fs pending h) (e : NexusEvent)
    (hw : written? e = none) (hn : status? e = none) (ho : opening? e = none) :
    RelayedSoFar first terminalId fs pending (h ++ [e]) := by
  refine ⟨(openings_snoc h e ho).trans hr.opened, ?_, ?_, hr.going⟩
  · rw [statuses_append, hr.read]
    simp [statuses, hn]
  · rw [written_append, hr.wrote]
    simp [written, hw]

theorem RelayedSoFar.next (hr : RelayedSoFar first terminalId fs [] h)
    (input : Except FrameError Response) :
    RelayedSoFar first terminalId fs [input] (h ++ [⟨.next, input⟩]) := by
  refine ⟨(openings_snoc h _ rfl).trans hr.opened, ?_, ?_, hr.going⟩
  · rw [statuses_append, hr.read]
    simp [statuses, status?]
  · rw [written_append, hr.wrote]
    simp [written, written?]

/-- The frames after one more was written. -/
theorem RelayedSoFar.write (hr : RelayedSoFar first terminalId fs pending h)
    (response : SignalMessage.Response) (outcome : Except FrameError Unit) :
    statuses (h ++ [⟨.writeResponse response, outcome⟩]) = readOf fs ++ pending ∧
      written (h ++ [⟨.writeResponse response, outcome⟩]) =
        first ++ fs.map (·.frame) ++ [response] := by
  refine ⟨?_, ?_⟩
  · rw [statuses_append, hr.read]
    simp [statuses, status?]
  · rw [written_append, hr.wrote]
    rfl

theorem RelayedSoFar.running (hr : RelayedSoFar first terminalId fs pending h)
    (hp : pending.length ≤ 1) : RelayRunning first terminalId h :=
  ⟨fs, pending, hr, hp⟩

/-- The condition at the end of a round. -/
abbrev EndsRelay (first : List SignalMessage.Response) (terminalId : Option LogicalDeliveryId) :
    ForwardLoop ⊕ Except FrameError Unit → List NexusEvent → Prop :=
  Sum.elim (Relaying first terminalId) (fun result h => RelayEnd first terminalId h result)

theorem interrupt_relays (text : String) {input : Except FrameError Response}
    (hr : RelayedSoFar first terminalId fs [input] h) (hends : EndsStream input) :
    Holds anyAnswer (fun h' _ => RelayRunning first terminalId h')
      (EndsRelay first terminalId) (interrupt ⟨terminalId, lastCursor fs⟩ text) h := by
  rw [holds_interrupt, holds_answerWith]
  exact ⟨hr.running (Nat.le_refl 1), fun outcome _ => .interrupted h fs input text outcome hr hends⟩

theorem forwardFrame_relays {f : StatusFrame} {finished : Bool}
    (hr : RelayedSoFar first terminalId fs [.ok f.flow] h)
    (hfin : finished = true ↔ f.Last terminalId) :
    Holds anyAnswer (fun h' _ => RelayRunning first terminalId h')
      (EndsRelay first terminalId)
      (forwardFrame ⟨terminalId, lastCursor fs⟩ ⟨f.frame, f.cursor, finished⟩) h := by
  rw [forwardFrame, holds_bind, holds_writeResponse]
  refine ⟨hr.running (Nat.le_refl 1), fun outcome _ => ?_⟩
  obtain ⟨hread, hwrote⟩ := hr.write f.frame outcome
  cases outcome with
  | error error => exact .cut h fs f error hr
  | ok _ =>
      cases finished with
      | true => exact .finished h fs f hr (hfin.mp rfl)
      | false =>
          have hgo : ¬ f.Last terminalId := fun hl => Bool.false_ne_true (hfin.mpr hl)
          refine ⟨fs ++ [f], ⟨(openings_snoc h _ rfl).trans hr.opened, ?_, ?_, ?_⟩, ?_⟩
          · rw [hread, readOf, readOf, List.map_append, List.append_nil]
            rfl
          · rw [hwrote, List.map_append, List.append_assoc]
            rfl
          · intro g hg
            rcases List.mem_append.mp hg with hg | hg
            · exact hr.going g hg
            · cases List.mem_singleton.mp hg
              exact hgo
          · rw [lastCursor_concat]

/-- One round relays one frame, or ends. -/
theorem forwardRound_relays [FlowDebug] (l : ForwardLoop) (hl : Relaying first terminalId l h) :
    Holds anyAnswer (fun h' _ => RelayRunning first terminalId h')
      (EndsRelay first terminalId) (forwardRound l) h := by
  obtain ⟨fs, hr, rfl⟩ := hl
  rw [forwardRound, holds_bind, holds_next]
  refine ⟨hr.running (Nat.zero_le 1), fun input _ => ?_⟩
  have hr' := hr.next input
  cases input with
  | error error => exact interrupt_relays _ hr' fun f hf => by cases hf
  | ok response =>
      rcases status_or_foreign response with ⟨f, rfl⟩ | ⟨hne, hforeign⟩
      · obtain ⟨finished, hf, hfin⟩ := forwarded_flow terminalId f
        simp only [Except.mapError, hf]
        exact forwardFrame_relays hr' hfin
      · simp only [Except.mapError, hforeign]
        exact interrupt_relays _ hr' fun f hf => hne f (Except.ok.inj hf)

theorem forwardSubscription_relays (hr : RelayedSoFar first terminalId [] [] h) :
    Holds anyAnswer (fun h' _ => RelayRunning first terminalId h')
      (EndsRelay first terminalId) (forwardSubscription terminalId) h := by
  refine ⟨hr.running (Nat.zero_le 1), fun handle _ => ?_⟩
  have hr' := hr.snoc ⟨.interruptHandle, handle⟩ rfl rfl rfl
  cases handle with
  | error error => exact .unopened h _ _ hr rfl rfl rfl rfl
  | ok _ =>
      refine ⟨hr'.running (Nat.zero_le 1), fun clone _ => ?_⟩
      have hr'' := hr'.snoc ⟨.cloneStream, clone⟩ rfl rfl rfl
      cases clone with
      | error error => exact .unopened _ _ _ hr' rfl rfl rfl rfl
      | ok _ => exact ⟨[], hr'', rfl⟩

end Loop

/-! ## 3. The handlers -/

/-- The Deliver of the history was queued with this acceptance. -/
def Queued (request : SendRequest) (acceptance : SendAcceptance) (h : List NexusEvent) : Prop :=
  ∃ t ∈ delivers h, deliverOutcome request t = .ok (.queued acceptance)

theorem Queued.mono {request : SendRequest} {acceptance : SendAcceptance}
    {h h' : List NexusEvent} (hq : Queued request acceptance h) (hh : h <+: h') :
    Queued request acceptance h' := by
  obtain ⟨t, ht, ho⟩ := hq
  obtain ⟨es, rfl⟩ := hh
  exact ⟨t, by rw [delivers_append]; exact List.mem_append_left _ ht, ho⟩

/-- The reply of a send that is not queued. -/
def SingleReply [FlowDebug] (request : SendRequest) (h : List NexusEvent)
    (response : SignalMessage.Response) : Prop :=
  ∃ reply, ReplyOf request h reply ∧ response = firstFrame reply ∧
    ∀ acceptance subscription, reply ≠ .ok (.queued acceptance subscription)

/-- A send that is not queued opens no subscription. -/
theorem SingleReply.unopened [FlowDebug] {request : SendRequest} {h : List NexusEvent}
    {response : SignalMessage.Response} (hs : SingleReply request h response) : openings h = [] := by
  obtain ⟨reply, hr, _, hnq⟩ := hs
  rcases hr with ⟨hu, _⟩ | ⟨t, _, hr⟩
  · exact hu.2
  · unfold DeliverReply at hr
    cases ho : deliverOutcome request t with
    | error failure => rw [ho] at hr; exact hr.1
    | ok settled =>
        rw [ho] at hr
        cases settled with
        | sent receipt => exact hr.1
        | failed failure => exact hr.1
        | queued acceptance =>
            obtain ⟨opening, _, he⟩ := hr
            exact absurd he (hnq acceptance _)

/-- The acceptance is the only frame so far, and opening the subscription came to `opening`. -/
structure OnlyAccepted (acceptance : SendAcceptance) (opening : Except EdgeFailure FlowSubscription)
    (h : List NexusEvent) : Prop where
  opened : openings h = [opening]
  wrote : written h = [.sendAccepted acceptance]
  read : statuses h = []

/-- The end of the handler of a send with its last event: one frame, perhaps an acceptance that the
    client did not take; or an acceptance, and then the frame that the subscription could not open,
    or the end of the forwarding. -/
inductive SendEnd [FlowDebug] (request : SendRequest) :
    List NexusEvent → Except FrameError Unit → Prop where
  | single (before : List NexusEvent) (response : SignalMessage.Response)
      (result : Except FrameError Unit) (hs : Silent before)
      (hreply : SingleReply request before response) :
      SendEnd request (before ++ [⟨.writeResponse response, result⟩]) result
  | unaccepted (before : List NexusEvent) (acceptance : SendAcceptance) (error : FrameError)
      (hs : Silent before) (hq : Queued request acceptance before) :
      SendEnd request (before ++ [⟨.writeResponse (.sendAccepted acceptance), .error error⟩])
        (.error error)
  | closed (before : List NexusEvent) (acceptance : SendAcceptance) (failure : EdgeFailure)
      (result : Except FrameError Unit) (hq : Queued request acceptance before)
      (ha : OnlyAccepted acceptance (.error failure) before) :
      SendEnd request (before ++
        [⟨.writeResponse (couldNotOpen (some acceptance.deliveryCursor) failure), result⟩]) result
  | relayed (h : List NexusEvent) (acceptance : SendAcceptance) (result : Except FrameError Unit)
      (hq : Queued request acceptance h)
      (hend : RelayEnd [.sendAccepted acceptance] (some acceptance.logicalDeliveryId) h result) :
      SendEnd request h result

/-- The handler of a send before an operation. -/
def SendRunning (request : SendRequest) (h : List NexusEvent) : Prop :=
  Silent h ∨ ∃ acceptance, Queued request acceptance h ∧
    ((∃ failure, OnlyAccepted acceptance (.error failure) h) ∨
      RelayRunning [.sendAccepted acceptance] (some acceptance.logicalDeliveryId) h)

/-- The handler of a send before a round of its loop. -/
def SendRelaying (request : SendRequest) (l : ForwardLoop) (h : List NexusEvent) : Prop :=
  ∃ acceptance, Queued request acceptance h ∧
    Relaying [.sendAccepted acceptance] (some acceptance.logicalDeliveryId) l h

/-- The condition at the end of a round of a send. -/
abbrev EndsSend [FlowDebug] (request : SendRequest) :
    ForwardLoop ⊕ Except FrameError Unit → List NexusEvent → Prop :=
  Sum.elim (SendRelaying request) (fun result h => SendEnd request h result)

section Send

variable [FlowDebug] {process : Process} {request : SendRequest} {thread : Option String}
  {h : List NexusEvent}

/-- A send that is forwarded is a forwarding that knows its acceptance. -/
theorem relays_send {acceptance : SendAcceptance} {p : Handler}
    (hq : Queued request acceptance h)
    (hp : Holds anyAnswer
      (fun h' _ => RelayRunning [.sendAccepted acceptance] (some acceptance.logicalDeliveryId) h')
      (EndsRelay [.sendAccepted acceptance] (some acceptance.logicalDeliveryId)) p h) :
    Holds anyAnswer (fun h' _ => SendRunning request h') (EndsSend request) p h := by
  refine hp.prefix.mono (fun h' _ hr => Or.inr ⟨acceptance, hq.mono hr.1, Or.inr hr.2⟩) ?_
  rintro (l | result) h' ⟨hh, hr⟩
  · exact ⟨acceptance, hq.mono hh, hr⟩
  · exact .relayed h' acceptance result (hq.mono hh) hr

theorem forwardRound_send (l : ForwardLoop) (hl : SendRelaying request l h) :
    Holds anyAnswer (fun h' _ => SendRunning request h') (EndsSend request) (forwardRound l) h := by
  obtain ⟨acceptance, hq, hr⟩ := hl
  exact relays_send hq (forwardRound_relays l hr)

omit [FlowDebug] in
/-- The first frame of a silent history. -/
theorem written_silent (hs : Silent h) (response : SignalMessage.Response)
    (outcome : Except FrameError Unit) :
    written (h ++ [⟨.writeResponse response, outcome⟩]) = [response] ∧
      statuses (h ++ [⟨.writeResponse response, outcome⟩]) = [] := by
  refine ⟨?_, ?_⟩
  · rw [written_append, hs.1]
    rfl
  · rw [statuses_append, hs.2]
    rfl

/-- The handler that tells a reply which is not queued. -/
theorem answerWith_send {reply : Except SignalMessage.Response SendReply}
    (hr : SendReplied request reply h)
    (hnq : ∀ acceptance subscription, reply ≠ .ok (.queued acceptance subscription)) :
    Holds anyAnswer (fun h' _ => SendRunning request h') (EndsSend request)
      (answerWith (firstFrame reply)) h := by
  rw [holds_answerWith]
  exact ⟨Or.inl hr.1, fun outcome _ =>
    .single h (firstFrame reply) outcome hr.1 ⟨reply, hr.2, rfl, hnq⟩⟩

/-- A queued reply comes from a queued Deliver, and carries what opening the subscription came
    to. -/
theorem replyOf_queued {acceptance : SendAcceptance}
    {subscription : Except SignalMessage.Response FlowSubscription}
    (hr : ReplyOf request h (.ok (.queued acceptance subscription))) :
    Queued request acceptance h ∧ ∃ opening, openings h = [opening] ∧
      subscription = opening.mapError (couldNotOpen (some acceptance.deliveryCursor)) := by
  rcases hr with ⟨_, hearly⟩ | ⟨t, hts, hr⟩
  · rcases hearly with ⟨refusal, he⟩ | ⟨failure, he⟩ | ⟨failure, he⟩ <;> cases he
  · unfold DeliverReply at hr
    cases ho : deliverOutcome request t with
    | error failure => rw [ho] at hr; cases hr.2
    | ok settled =>
        rw [ho] at hr
        cases settled with
        | sent receipt => cases hr.2
        | failed failure => cases hr.2
        | queued acceptance' =>
            obtain ⟨opening, hopened, he⟩ := hr
            cases he
            exact ⟨⟨t, by rw [hts]; exact List.mem_singleton_self t, ho⟩, opening, hopened, rfl⟩

theorem answerReply_send {reply : Except SignalMessage.Response SendReply}
    (hr : SendReplied request reply h) :
    Holds anyAnswer (fun h' _ => SendRunning request h') (EndsSend request)
      (answerReply reply) h := by
  cases reply with
  | error response => exact answerWith_send hr fun _ _ he => by cases he
  | ok reply =>
      cases reply with
      | sent receipt => exact answerWith_send hr fun _ _ he => by cases he
      | failed failure => exact answerWith_send hr fun _ _ he => by cases he
      | queued acceptance subscription =>
          obtain ⟨hq, opening, hopened, rfl⟩ := replyOf_queued hr.2
          refine ⟨Or.inl hr.1, fun outcome _ => ?_⟩
          obtain ⟨hw, hn⟩ := written_silent hr.1 (.sendAccepted acceptance) outcome
          have hq' : Queued request acceptance
              (h ++ [⟨.writeResponse (.sendAccepted acceptance), outcome⟩]) :=
            Queued.mono hq (List.prefix_append _ _)
          have hopened' := (openings_snoc h ⟨.writeResponse (.sendAccepted acceptance), outcome⟩
            rfl).trans hopened
          cases outcome with
          | error error => exact .unaccepted h acceptance error hr.1 hq
          | ok _ =>
              cases opening with
              | ok subscription =>
                  refine relays_send hq' (forwardSubscription_relays ⟨hopened', hn, hw, ?_⟩)
                  intro f hf
                  cases hf
              | error failure =>
                  have ha : OnlyAccepted acceptance (.error failure) _ := ⟨hopened', hw, hn⟩
                  exact ⟨Or.inr ⟨acceptance, hq', Or.inl ⟨failure, ha⟩⟩,
                    fun outcome' _ => .closed _ acceptance failure outcome' hq' ha⟩

/-- The handler of a send keeps to its frames. -/
theorem answerSend_frames (hs : Silent h) (hu : Unsent h) :
    Holds anyAnswer (fun h' _ => SendRunning request h') (EndsSend request)
      (answerSend process request thread) h := by
  rw [answerSend, holds_bind]
  exact (acceptSend_replies hs hu).mono (fun _ _ hq => Or.inl hq)
    fun reply h' hr => answerReply_send hr

end Send

/-! ## 4. Observations and Configure -/

/-- The refusals of an observation. -/
def ObserveRefused (response : SignalMessage.Response) : Prop :=
  ∃ refusal, response = .refused refusal

/-- The end of the handler of an observation that asked for the frames behind `cursor`, with its
    last event: the store could not be read, the subscription could not open, or the forwarding
    ended. -/
inductive ObserveEnd [FlowDebug] (cursor : Option DeliveryCursor) :
    List NexusEvent → Except FrameError Unit → Prop where
  | refused (before : List NexusEvent) (response : SignalMessage.Response)
      (result : Except FrameError Unit) (hs : Silent before) (ho : openings before = [])
      (hrefused : ObserveRefused response) :
      ObserveEnd cursor (before ++ [⟨.writeResponse response, result⟩]) result
  | closed (before : List NexusEvent) (failure : EdgeFailure) (result : Except FrameError Unit)
      (hs : Silent before) (ho : openings before = [.error failure]) :
      ObserveEnd cursor (before ++ [⟨.writeResponse (couldNotOpen cursor failure), result⟩]) result
  | relayed (h : List NexusEvent) (result : Except FrameError Unit)
      (hend : RelayEnd [] none h result) : ObserveEnd cursor h result

/-- The handler of an observation before an operation. -/
def ObserveRunning (h : List NexusEvent) : Prop := Silent h ∨ RelayRunning [] none h

/-- The condition at the end of a round of an observation. -/
abbrev EndsObserve [FlowDebug] (cursor : Option DeliveryCursor) :
    ForwardLoop ⊕ Except FrameError Unit → List NexusEvent → Prop :=
  Sum.elim (Relaying [] none) (fun result h => ObserveEnd cursor h result)

section Observe

variable [FlowDebug] {process : Process} {cursor : Option DeliveryCursor}
  {thread : Option String} {h : List NexusEvent}

theorem relays_observe {p : Handler}
    (hp : Holds anyAnswer (fun h' _ => RelayRunning [] none h') (EndsRelay [] none) p h) :
    Holds anyAnswer (fun h' _ => ObserveRunning h') (EndsObserve cursor) p h := by
  refine hp.mono (fun _ _ hr => Or.inr hr) ?_
  rintro (l | result) h' hr
  · exact hr
  · exact .relayed h' result hr

/-- How an observation begins: it is open, was refused before it was tried, or could not open. -/
def ObserveReplied (cursor : Option DeliveryCursor)
    (reply : Except SignalMessage.Response FlowSubscription) (h : List NexusEvent) : Prop :=
  Silent h ∧
    match reply with
    | .ok _ => openings h = [.ok ⟨⟩]
    | .error response => (openings h = [] ∧ ObserveRefused response) ∨
        ∃ failure, openings h = [.error failure] ∧ response = couldNotOpen cursor failure

theorem observeSends_replies (hs : Silent h) (ho : openings h = []) :
    Holds anyAnswer (fun h' _ => ObserveRunning h') (ObserveReplied cursor)
      (observeSends process thread cursor) h := by
  rw [observeSends, holds_bind, holds_flowEdge, holds_withStore]
  simp only [holds_standard]
  have hs0 : Silent (h ++ [⟨.lockStore, ()⟩]) := hs.snoc _ rfl rfl
  refine ⟨Or.inl hs, fun _ => ⟨Or.inl hs0, fun records _ => ?_⟩⟩
  have hs1 := hs0.snoc ⟨.matchRecords, records⟩ rfl rfl
  refine ⟨Or.inl hs1, fun _ => ?_⟩
  have hs2 := hs1.snoc ⟨.unlockStore, ()⟩ rfl rfl
  have ho2 : openings (h ++ [⟨.lockStore, ()⟩] ++ [⟨.matchRecords, records⟩] ++
      [⟨.unlockStore, ()⟩]) = [] := by
    rw [openings_snoc _ _ rfl, openings_snoc _ _ rfl, openings_snoc _ _ rfl, ho]
  cases ((records.mapError StoreError.engine).bind theStandard) with
  | error error => exact ⟨hs2, Or.inl ⟨ho2, .store error.text, rfl⟩⟩
  | ok current =>
      change Holds _ _ _ (FlowEdge.observeSender ⟨current.configuration.flow⟩ process thread
        cursor >>= _) _
      rw [holds_bind, holds_observeSender]
      refine ⟨Or.inl hs2, fun t _ => ?_⟩
      have hs3 := hs2.snoc ⟨.observe current.configuration.flow
        (.observeSender process thread cursor) (some 2), t⟩ rfl rfl
      have ho3 := openings_first ho2 current.configuration.flow
        (.observeSender process thread cursor) (some 2) t
      cases hopen : FlowEdge.observeResult t with
      | ok subscription =>
          rw [hopen] at ho3
          exact ⟨hs3, ho3⟩
      | error failure =>
          rw [hopen] at ho3
          cases failure with
          | refused refusal => exact absurd hopen (FlowEdge.observeResult_open t refusal)
          | unreachable => exact ⟨hs3, Or.inr ⟨_, ho3, rfl⟩⟩
          | broken => exact ⟨hs3, Or.inr ⟨_, ho3, rfl⟩⟩
          | unexpected => exact ⟨hs3, Or.inr ⟨_, ho3, rfl⟩⟩

/-- The handler of an observation keeps to its frames. -/
theorem answerObservation_frames (hs : Silent h) (ho : openings h = []) :
    Holds anyAnswer (fun h' _ => ObserveRunning h') (EndsObserve cursor)
      (answerObservation process thread cursor) h := by
  rw [answerObservation, holds_bind]
  refine (observeSends_replies hs ho).mono (fun _ _ hr => hr) fun reply h' hr => ?_
  cases reply with
  | ok subscription =>
      refine relays_observe (forwardSubscription_relays ⟨hr.2, hr.1.2, hr.1.1, fun f hf => ?_⟩)
      cases hf
  | error response =>
      refine ⟨Or.inl hr.1, fun outcome _ => ?_⟩
      rcases hr.2 with ⟨ho', hrefused⟩ | ⟨failure, ho', rfl⟩
      · exact .refused h' response outcome hr.1 ho' hrefused
      · exact .closed h' failure outcome hr.1 ho'

end Observe

/-- The end of the handler of an ordinary Configure with its last event: one frame. -/
inductive ConfigureEnd : List NexusEvent → Except FrameError Unit → Prop where
  | answered (before : List NexusEvent) (outcome : Except ConfigureFailure Bool)
      (result : Except FrameError Unit) (hs : Silent before) (ho : openings before = []) :
      ConfigureEnd (before ++ [⟨.writeResponse (configureResponse outcome), result⟩]) result

theorem ConfigureEnd.told {h : List NexusEvent} {result : Except FrameError Unit}
    (he : ConfigureEnd h result) : ∃ outcome, written h = [configureResponse outcome] := by
  obtain ⟨before, outcome, result, hs, _⟩ := he
  exact ⟨outcome, (written_silent hs _ _).1⟩

/-- The condition at the end of an ordinary Configure, which has no loop. -/
abbrev EndsConfigure : ForwardLoop ⊕ Except FrameError Unit → List NexusEvent → Prop :=
  Sum.elim (fun _ _ => False) fun result h => ConfigureEnd h result

theorem answerConfigure_frames [FlowDebug] {process : Process} {configuration : Configuration}
    {h : List NexusEvent} (hs : Silent h) (ho : openings h = []) :
    Holds anyAnswer (fun h' _ => Silent h') EndsConfigure
      (answerQuery process (.configure configuration)) h := by
  change Holds _ _ _ ((configure configuration false >>= fun outcome =>
    pure (configureResponse outcome)) >>= answerWith) h
  rw [holds_bind, holds_bind, configure, holds_withStore]
  -- The end of the Configure: nothing was written, and the guard is released.
  have hend : ∀ (outcome : Except ConfigureFailure Bool) (h' : List NexusEvent), Silent h' →
      openings h' = [] → Silent h' ∧ (anyAnswer h' ⟨.unlockStore, ()⟩ →
        Holds anyAnswer (fun h' _ => Silent h') EndsConfigure
          (answerWith (configureResponse outcome)) (h' ++ [⟨.unlockStore, ()⟩])) := by
    intro outcome h' hs' ho'
    refine ⟨hs', fun _ => ?_⟩
    have hs'' := hs'.snoc ⟨.unlockStore, ()⟩ rfl rfl
    have ho'' := (openings_snoc h' ⟨.unlockStore, ()⟩ rfl).trans ho'
    exact ⟨hs'', fun result _ => .answered _ outcome result hs'' ho''⟩
  have hs0 : Silent (h ++ [⟨.lockStore, ()⟩]) := hs.snoc _ rfl rfl
  have ho0 := (openings_snoc h ⟨.lockStore, ()⟩ rfl).trans ho
  refine ⟨hs, fun _ => ?_⟩
  rw [configureStore, holds_bind, holds_standard]
  refine ⟨hs0, fun records _ => ?_⟩
  have hs1 := hs0.snoc ⟨.matchRecords, records⟩ rfl rfl
  have ho1 := (openings_snoc _ ⟨.matchRecords, records⟩ rfl).trans ho0
  cases ((records.mapError StoreError.engine).bind theStandard) with
  | error error => exact hend _ _ hs1 ho1
  | ok current =>
      dsimp only
      split
      · exact hend _ _ hs1 ho1
      · rw [holds_bind, holds_replaceStandard]
        refine ⟨hs1, fun outcome _ => ?_⟩
        have hs2 := hs1.snoc
          ⟨.mutateKeyed (current.changedConfiguration configuration false), outcome⟩ rfl rfl
        have ho2 := (openings_snoc _
          ⟨.mutateKeyed (current.changedConfiguration configuration false), outcome⟩ rfl).trans ho1
        cases outcome with
        | error error => exact hend _ _ hs2 ho2
        | ok _ => exact hend _ _ hs2 ho2

/-! ## 5. The frames of a connection -/

/-- The end of the handler of a query. -/
def QueryEnd [FlowDebug] (query : SignalMessage.Query) (h : List NexusEvent)
    (result : Except FrameError Unit) : Prop :=
  match query with
  | .send request => SendEnd request h result
  | .sendThread request _ => SendEnd request h result
  | .observeSends cursor => ObserveEnd cursor h result
  | .observeThread cursor _ => ObserveEnd cursor h result
  | .configure _ => ConfigureEnd h result

/-- The handler of a query before its end. -/
def QueryRunning (query : SignalMessage.Query) (h : List NexusEvent) : Prop :=
  match query with
  | .send request => SendRunning request h
  | .sendThread request _ => SendRunning request h
  | .observeSends _ => ObserveRunning h
  | .observeThread _ _ => ObserveRunning h
  | .configure _ => Silent h

/-- Where a connection stands that was asked a query: it has ended with the frames of the query,
    or it runs. -/
def QueryFrames [FlowDebug] (query : SignalMessage.Query) (h : List NexusEvent)
    (rest : Handler) : Prop :=
  match rest with
  | .ret (.inr result) => QueryEnd query h result
  | _ => QueryRunning query h

/-- A program that keeps a condition before its operations and rounds, and ends with another. -/
theorem queryFrames_of_holds [FlowDebug] {query : SignalMessage.Query} {h : List NexusEvent}
    {rest : Handler} {J : ForwardLoop → List NexusEvent → Prop}
    (hJ : ∀ l h, J l h → QueryRunning query h)
    (hr : Holds anyAnswer (fun h' _ => QueryRunning query h')
      (Sum.elim J fun result h' => QueryEnd query h' result) rest h) :
    QueryFrames query h rest := by
  match rest with
  | .ask o k => exact hr.1
  | .ret (.inl l) => exact hJ l h hr
  | .ret (.inr result) => exact hr

theorem relaying_running {first : List SignalMessage.Response}
    {terminalId : Option LogicalDeliveryId} {l : ForwardLoop} {h : List NexusEvent}
    (hr : Relaying first terminalId l h) : RelayRunning first terminalId h := by
  obtain ⟨fs, hr, _⟩ := hr
  exact hr.running (Nat.zero_le 1)

/-- In every interleaving, a connection that was asked a query keeps to its frames. -/
theorem connection_frames [FlowDebug] {s₀ : NexusShared} {c : NexusPool}
    (hr : Reach nexusSystem (.idle s₀) c) {t : Nat}
    {th : Thread NexusOp NexusAns ForwardLoop (Except FrameError Unit)}
    (ht : c.threads t = some th) {process : Process} {query : SignalMessage.Query}
    (ha : asked th.hist = some (process, query)) : QueryFrames query th.hist th.rest := by
  obtain ⟨rest, hh, htr⟩ := connection_trace hr ht ha
  have hs : Silent (askedBy process query) := ⟨rfl, rfl⟩
  -- The start of a send, of an observation and of a Configure.
  have hsend : ∀ request thread, answerQuery process query = answerSend process request thread →
      Holds anyAnswer (fun h' _ => SendRunning request h') (EndsSend request)
        th.rest th.hist := by
    intro request thread he
    rw [he] at htr
    have hrest := htr.holds (h := askedBy process query) (fun l h hl => forwardRound_send l hl)
      (answerSend_frames hs ⟨rfl, rfl⟩) (along_any _ _)
    rwa [← hh] at hrest
  have hobserve : ∀ thread cursor,
      answerQuery process query = answerObservation process thread cursor →
      Holds anyAnswer (fun h' _ => ObserveRunning h') (EndsObserve cursor)
        th.rest th.hist := by
    intro thread cursor he
    rw [he] at htr
    have hrest := htr.holds (h := askedBy process query)
      (fun l h hl => @relays_observe _ cursor h _ (forwardRound_relays l hl))
      (answerObservation_frames hs rfl) (along_any _ _)
    rwa [← hh] at hrest
  have hsendJ : ∀ request l h, SendRelaying request l h → SendRunning request h :=
    fun request l h ⟨acceptance, hq, hl⟩ =>
      Or.inr ⟨acceptance, hq, Or.inr (relaying_running hl)⟩
  have hobserveJ : ∀ l h, Relaying [] none l h → ObserveRunning h :=
    fun l h hl => Or.inr (relaying_running hl)
  cases query with
  | send request => exact queryFrames_of_holds (hsendJ request) (hsend request none rfl)
  | sendThread request thread =>
      exact queryFrames_of_holds (hsendJ request) (hsend request (some thread) rfl)
  | observeSends cursor =>
      exact queryFrames_of_holds hobserveJ (hobserve none cursor rfl)
  | observeThread cursor thread =>
      exact queryFrames_of_holds hobserveJ (hobserve (some thread) cursor rfl)
  | configure configuration =>
      have hrest := htr.holds (h := askedBy process (.configure configuration))
        (fun l h hl => hl.elim) (answerConfigure_frames hs rfl) (along_any _ _)
      rw [← hh] at hrest
      exact queryFrames_of_holds (J := fun _ _ => False) (fun _ _ hl => hl.elim) hrest

end MessageNexus
