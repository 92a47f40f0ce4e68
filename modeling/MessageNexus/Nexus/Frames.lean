/-
  File:      MessageNexus/Nexus/Frames.lean
  Subject:   THE FRAMES OF A SEND, told without the code: one verdict, or an acceptance and the
             status frames of Flow's subscription, one for one, up to their end.

  * `statusRelay` -- the subscription of a connection as a relay (`Lib/Relay.lean`);
  * `RelayEnd.relayed`, `RelayRunning.relayed` -- the forwarding loop refines it;
  * `RelayEnd.short`, `SendEnd.short` -- a handler that fails its client leaves the frames short;
  * `SendFrames` -- the frames of a send, and whose answers Sent and SendAccepted are;
  * `send_frames_iff` -- so it is for every connection whose client stays, in every interleaving,
    exactly as long as the Nexus does not fail it.
-/
import MessageNexus.Lib.Relay
import MessageNexus.Nexus.Forwarding
import MessageNexus.Nexus.Verdict

namespace MessageNexus

open Interact SignalFlow

/-! ## 1. The subscription as a relay -/

/-- The relay of a subscription whose connection waits for `terminalId`. -/
def statusRelay (terminalId : Option LogicalDeliveryId) :
    Relay (Except FrameError Response) StatusFrame SignalMessage.Response where
  input f := .ok f.flow
  output f := f.frame
  last f := f.Last terminalId

def IsInterruption (response : SignalMessage.Response) : Prop :=
  ∃ cursor text, response = .observationInterrupted cursor text

/-- The subscription is open, and the frames behind `first` are status frames and interruptions, and
    relay what was read. -/
def RelayedTail (first : List SignalMessage.Response) (terminalId : Option LogicalDeliveryId)
    (done : Bool) (h : List NexusEvent) : Prop :=
  openings h = [.ok ⟨⟩] ∧ ∃ tail, takenFrames h = first ++ tail ∧
    (∀ r ∈ tail, (∃ f : StatusFrame, r = f.frame) ∨ IsInterruption r) ∧
    Relayed (statusRelay terminalId) IsInterruption done (statuses h) tail

section Refines

variable {first : List SignalMessage.Response} {terminalId : Option LogicalDeliveryId}
  {h : List NexusEvent}

/-- While the loop runs, the frames behind `first` relay what was read. -/
theorem RelayRunning.relayed (hr : RelayRunning first terminalId h)
    (hfine : ∀ e ∈ h, stopsHandler e = false) : RelayedTail first terminalId false h := by
  obtain ⟨fs, pending, hr, hp⟩ := hr
  refine ⟨hr.opened, fs.map (·.frame), (takenFrames_eq hfine).trans hr.wrote, fun r hmem => ?_, ?_⟩
  · obtain ⟨f, _, rfl⟩ := List.mem_map.mp hmem
    exact Or.inl ⟨f, rfl⟩
  · have hrest : Relayed (statusRelay terminalId) IsInterruption false pending [] := by
      match pending with
      | [] => exact .start
      | [input] => exact .pending input
      | _ :: _ :: _ => simp at hp
    have hall := hrest.items hr.going
    rw [List.append_nil] at hall
    rw [hr.read]
    exact hall

/-- Frames of the subscription with one more frame behind them. -/
theorem mem_frames_last {fs : List StatusFrame} {last : SignalMessage.Response}
    (hlast : (∃ f : StatusFrame, last = f.frame) ∨ IsInterruption last) :
    ∀ r ∈ fs.map (·.frame) ++ [last], (∃ f : StatusFrame, r = f.frame) ∨ IsInterruption r := by
  intro r hmem
  rcases List.mem_append.mp hmem with hmem | hmem
  · obtain ⟨f, _, rfl⟩ := List.mem_map.mp hmem
    exact Or.inl ⟨f, rfl⟩
  · cases List.mem_singleton.mp hmem
    exact hlast

/-- Where the loop has ended without a fault, they relay it to its end. -/
theorem RelayEnd.relayed {result : Except FrameError Unit}
    (hr : RelayEnd first terminalId h result) (hfine : ∀ e ∈ h, stopsHandler e = false) :
    RelayedTail first terminalId true h := by
  have htaken := takenFrames_eq hfine
  cases hr with
  | unopened before e error hr hfails hw hn ho =>
      have hgood := hfine e (List.mem_append_right _ (List.mem_singleton_self e))
      rw [failsClient_stops hfails] at hgood
      cases hgood
  | cut before fs f error hr =>
      have hgood := hfine _ (List.mem_append_right _ (List.mem_singleton_self _))
      cases hgood
  | finished before fs f hr hlast =>
      obtain ⟨hread, hwrote⟩ := hr.write f.frame (.ok ())
      refine ⟨(openings_snoc before _ rfl).trans hr.opened, fs.map (·.frame) ++ [f.frame], ?_,
        mem_frames_last (Or.inl ⟨f, rfl⟩), ?_⟩
      · rw [htaken, hwrote, List.append_assoc]
      · rw [hread]
        exact (Relayed.last (R := statusRelay terminalId) f hlast).items hr.going
  | interrupted before fs input text result hr hends =>
      have hint : IsInterruption (.observationInterrupted (lastCursor fs) text) :=
        ⟨lastCursor fs, text, rfl⟩
      obtain ⟨hread, hwrote⟩ := hr.write (.observationInterrupted (lastCursor fs) text) result
      refine ⟨(openings_snoc before _ rfl).trans hr.opened,
        fs.map (·.frame) ++ [.observationInterrupted (lastCursor fs) text], ?_,
        mem_frames_last (Or.inr hint), ?_⟩
      · rw [htaken, hwrote, List.append_assoc]
      · rw [hread]
        exact (Relayed.stop (R := statusRelay terminalId) input _ hends hint).items hr.going

/-- A last event that is a fault: the client took the frames before it. -/
theorem takenFrames_fault {before : List NexusEvent} {e : NexusEvent} (he : stopsHandler e = true)
    (hs : StopsAtFault (before ++ [e]) true) : takenFrames (before ++ [e]) = written before := by
  have hnone : takenFrame? e = none := by
    obtain ⟨o, a⟩ := e
    cases o with
    | writeResponse response =>
        cases a with
        | error error => rfl
        | ok _ => cases he
    | _ => rfl
  rw [takenFrames_append, takenFrames_eq hs.before, takenFrames, List.filterMap_cons_none hnone,
    List.filterMap_nil, List.append_nil]

/-- A fault of the history is its last event. -/
theorem StopsAtFault.fault {before : List NexusEvent} {e : NexusEvent}
    (hs : StopsAtFault (before ++ [e]) true)
    (hfault : ∃ e' ∈ before ++ [e], stopsHandler e' = true) : stopsHandler e = true := by
  obtain ⟨e', hin, hstop⟩ := hfault
  rcases List.mem_append.mp hin with hin | hin
  · rw [hs.before e' hin] at hstop
    cases hstop
  · exact List.mem_singleton.mp hin ▸ hstop

/-- What a forwarding that ends with a fault has told behind `first`: status frames, none of them the
    last one, and fewer than it read, unless it told none. -/
def ToldShort (first : List SignalMessage.Response) (terminalId : Option LogicalDeliveryId)
    (h : List NexusEvent) : Prop :=
  ∃ fs : List StatusFrame, takenFrames h = first ++ fs.map (·.frame) ∧
    (∀ f ∈ fs, ¬ f.Last terminalId) ∧ (fs = [] ∨ (statuses h).length = fs.length + 1)

/-- The frame for the input that was read last is not taken. -/
theorem RelayedSoFar.short {before : List NexusEvent} {fs : List StatusFrame}
    {input : Except FrameError Response} {response : SignalMessage.Response}
    {outcome : Except FrameError Unit} (hr : RelayedSoFar first terminalId fs [input] before)
    (hs : StopsAtFault (before ++ [⟨.writeResponse response, outcome⟩]) true)
    (hfault : ∃ e ∈ before ++ [⟨.writeResponse response, outcome⟩], stopsHandler e = true) :
    ToldShort first terminalId (before ++ [⟨.writeResponse response, outcome⟩]) := by
  refine ⟨fs, (takenFrames_fault (hs.fault hfault) hs).trans hr.wrote, hr.going, Or.inr ?_⟩
  rw [(hr.write response outcome).1]
  simp [readOf]

theorem RelayEnd.short {result : Except FrameError Unit} (hr : RelayEnd first terminalId h result)
    (hs : StopsAtFault h true) (hfault : ∃ e ∈ h, stopsHandler e = true) :
    ToldShort first terminalId h := by
  cases hr with
  | unopened before e error hr hfails hw hn ho =>
      exact ⟨[], (takenFrames_fault (failsClient_stops hfails) hs).trans hr.wrote, hr.going,
        Or.inl rfl⟩
  | cut before fs f error hr => exact hr.short hs hfault
  | finished before fs f hr hlast => exact hr.short hs hfault
  | interrupted before fs input text result hr hends => exact hr.short hs hfault

end Refines

/-! ## 2. The frames of a send -/

/-- The frames that answer a send at once. -/
def IsVerdict (response : SignalMessage.Response) : Prop :=
  (∃ refusal, response = .refused refusal) ∨ (∃ failure, response = .failed failure) ∨
    ∃ receipt, response = .sent receipt

/-- The frames of a send; the flag tells whether its handler has ended. After the acceptance come
    the frames of the subscription, or one interruption if it did not open. -/
inductive SendFrames [FlowDebug] (h : List NexusEvent) : Bool → Prop where
  | silent (hwrote : takenFrames h = []) : SendFrames h false
  | verdict (response : SignalMessage.Response) (hv : IsVerdict response)
      (hwrote : takenFrames h = [response]) : SendFrames h true
  | accepted (acceptance : SendAcceptance) (failure : EdgeFailure)
      (hopened : openings h = [.error failure])
      (hwrote : takenFrames h = [.sendAccepted acceptance]) : SendFrames h false
  | unopened (acceptance : SendAcceptance) (failure : EdgeFailure)
      (hopened : openings h = [.error failure])
      (hwrote : takenFrames h =
        [.sendAccepted acceptance, couldNotOpen (some acceptance.deliveryCursor) failure]) :
      SendFrames h true
  | relayed (acceptance : SendAcceptance) (tail : List SignalMessage.Response) {done : Bool}
      (hopened : openings h = [.ok ⟨⟩]) (hwrote : takenFrames h = .sendAccepted acceptance :: tail)
      (hr : Relayed (statusRelay (some acceptance.logicalDeliveryId)) IsInterruption done
        (statuses h) tail) : SendFrames h done

/-- The answer of a send: the frames that its client takes, whose answers its Sent and SendAccepted
    are, and that an abrupt message is answered by one frame. -/
structure SendAnswer [FlowDebug] (request : SendRequest) (h : List NexusEvent) (done : Bool) :
    Prop where
  frames : SendFrames h done
  sentOwn : ∀ receipt, .sent receipt ∈ written h →
    ∃ t ∈ delivers h, exchangeResult t = .ok (.sent receipt)
  acceptedOwn : ∀ acceptance, .sendAccepted acceptance ∈ written h →
    ∃ t ∈ delivers h, exchangeResult t = .ok (.sendAccepted acceptance)
  abruptSingle : request.message.isSoft = false →
    (∀ acceptance, .sendAccepted acceptance ∉ written h) ∧
    (done = true → ∃ response, takenFrames h = [response])

section Send

variable [FlowDebug] {request : SendRequest} {h : List NexusEvent}

omit [FlowDebug] in
theorem deliverOutcome_sent {t : ExchangeAnswers} {receipt : SendReceipt}
    (ho : deliverOutcome request t = .ok (.sent receipt)) :
    exchangeResult t = .ok (.sent receipt) := by
  obtain ⟨response, hr, ha⟩ := answered_ok ho
  cases response with
  | sent receipt' => cases ha; exact hr
  | sendAccepted acceptance =>
      simp only [FlowEdge.delivered] at ha
      split at ha <;> cases ha
  | failed failure => cases ha
  | _ => cases ha

omit [FlowDebug] in
/-- Only a Soft message is queued, with Flow's own acceptance. -/
theorem deliverOutcome_queued {t : ExchangeAnswers} {acceptance : SendAcceptance}
    (ho : deliverOutcome request t = .ok (.queued acceptance)) :
    exchangeResult t = .ok (.sendAccepted acceptance) ∧ request.message.isSoft = true := by
  obtain ⟨response, hr, ha⟩ := answered_ok ho
  cases response with
  | sendAccepted acceptance' =>
      simp only [FlowEdge.delivered] at ha
      split at ha
      · cases ha
      · rename_i hsoft
        cases ha
        exact ⟨hr, by simpa using hsoft⟩
  | sent receipt => cases ha
  | failed failure => cases ha
  | _ => cases ha

/-- The only frame of a send that is not queued. -/
theorem singleReply_verdict {response : SignalMessage.Response}
    (hs : SingleReply request h response) :
    IsVerdict response ∧ ∀ receipt, response = .sent receipt →
      ∃ t ∈ delivers h, exchangeResult t = .ok (.sent receipt) := by
  obtain ⟨reply, hr, rfl, hnq⟩ := hs
  -- A reply without a Deliver, and an edge failure, are a refusal or a failure.
  have hearly : EarlyReply reply → IsVerdict (firstFrame reply) ∧
      ∀ receipt, firstFrame reply = .sent receipt →
        ∃ t ∈ delivers h, exchangeResult t = .ok (.sent receipt) := by
    rintro (⟨refusal, rfl⟩ | ⟨failure, rfl⟩ | ⟨failure, rfl⟩)
    · exact ⟨Or.inl ⟨refusal, rfl⟩, fun _ he => by cases he⟩
    · exact ⟨Or.inr (Or.inl ⟨failure, rfl⟩), fun _ he => by cases he⟩
    · exact ⟨Or.inr (Or.inl ⟨failure, rfl⟩), fun _ he => by cases he⟩
  rcases hr with ⟨_, he⟩ | ⟨t, ht, hr⟩
  · exact hearly he
  · unfold DeliverReply at hr
    cases ho : deliverOutcome request t with
    | error failure =>
        rw [ho] at hr
        exact hearly (hr.2 ▸ forSend_early _ _ _)
    | ok settled =>
        rw [ho] at hr
        cases settled with
        | sent receipt =>
            rw [hr.2]
            refine ⟨Or.inr (Or.inr ⟨receipt, rfl⟩), fun receipt' he => ?_⟩
            cases he
            exact ⟨t, by rw [ht]; exact List.mem_singleton_self t, deliverOutcome_sent ho⟩
        | failed failure =>
            rw [hr.2]
            exact ⟨Or.inr (Or.inl ⟨failure, rfl⟩), fun _ he => by cases he⟩
        | queued acceptance =>
            obtain ⟨opening, _, he⟩ := hr
            exact absurd he (hnq acceptance _)

/-- The answer of a queued send, whose frames behind the acceptance are those of a subscription. -/
theorem sendAnswer_queued {acceptance : SendAcceptance} {tail : List SignalMessage.Response}
    {done : Bool} (hq : Queued request acceptance h)
    (hw : written h = .sendAccepted acceptance :: tail)
    (htail : ∀ r ∈ tail, (∃ f : StatusFrame, r = f.frame) ∨ IsInterruption r)
    (hf : SendFrames h done) : SendAnswer request h done := by
  obtain ⟨t, ht, ho⟩ := hq
  obtain ⟨hresult, hsoft⟩ := deliverOutcome_queued ho
  -- No frame of the subscription is a receipt or an acceptance.
  have hnot : ∀ r ∈ tail, (∀ receipt, r ≠ .sent receipt) ∧ ∀ a, r ≠ .sendAccepted a := by
    intro r hr
    rcases htail r hr with ⟨f, rfl⟩ | ⟨cursor, text, rfl⟩
    · cases f <;> exact ⟨fun _ he => (by cases he), fun _ he => (by cases he)⟩
    · exact ⟨fun _ he => (by cases he), fun _ he => (by cases he)⟩
  refine ⟨hf, fun receipt hmem => ?_, fun a hmem => ?_, fun habrupt => ?_⟩
  · rw [hw] at hmem
    rcases List.mem_cons.mp hmem with he | hmem
    · cases he
    · exact absurd rfl ((hnot _ hmem).1 receipt)
  · rw [hw] at hmem
    rcases List.mem_cons.mp hmem with he | hmem
    · cases he
      exact ⟨t, ht, hresult⟩
    · exact absurd rfl ((hnot _ hmem).2 a)
  · rw [hsoft] at habrupt
    cases habrupt

/-- A send whose frames behind the acceptance relay its subscription. -/
theorem sendAnswer_relayed {acceptance : SendAcceptance} {done : Bool}
    (hq : Queued request acceptance h) (hfine : ∀ e ∈ h, stopsHandler e = false)
    (hr : RelayedTail [.sendAccepted acceptance] (some acceptance.logicalDeliveryId) done h) :
    SendAnswer request h done := by
  obtain ⟨hopened, tail, hw, htail, hr⟩ := hr
  refine sendAnswer_queued hq ?_ htail (.relayed acceptance tail hopened hw hr)
  rw [← takenFrames_eq hfine, hw]
  rfl

/-- While the handler of a send runs, its frames are as they should be. -/
theorem SendRunning.answer (hr : SendRunning request h)
    (hfine : ∀ e ∈ h, stopsHandler e = false) : SendAnswer request h false := by
  have htaken := takenFrames_eq hfine
  rcases hr with hs | ⟨acceptance, hq, ⟨failure, ha⟩ | hr⟩
  · refine ⟨.silent (htaken.trans hs.1), ?_, ?_, fun _ => ⟨?_, fun hd => by cases hd⟩⟩ <;>
      simp [hs.1]
  · refine sendAnswer_queued hq ha.wrote (fun r hin => ?_)
      (.accepted acceptance failure ha.opened (htaken.trans ha.wrote))
    cases hin
  · exact sendAnswer_relayed hq hfine (hr.relayed hfine)

/-- Where it has ended without a fault, too. -/
theorem SendEnd.answer {result : Except FrameError Unit} (hr : SendEnd request h result)
    (hfine : ∀ e ∈ h, stopsHandler e = false) : SendAnswer request h true := by
  have htaken := takenFrames_eq hfine
  cases hr with
  | single before response result hs hreply =>
      obtain ⟨hv, hown⟩ := singleReply_verdict hreply
      have hwrote := (written_silent hs response result).1
      have hnot : ∀ acceptance,
          .sendAccepted acceptance ∉ written (before ++ [⟨.writeResponse response, result⟩]) := by
        intro acceptance hmem
        rw [hwrote] at hmem
        cases List.mem_singleton.mp hmem
        rcases hv with ⟨_, he⟩ | ⟨_, he⟩ | ⟨_, he⟩ <;> cases he
      refine ⟨.verdict response hv (htaken.trans hwrote), fun receipt hmem => ?_,
        fun acceptance hmem => absurd hmem (hnot acceptance),
        fun _ => ⟨hnot, fun _ => ⟨response, htaken.trans hwrote⟩⟩⟩
      rw [hwrote] at hmem
      rw [delivers_snoc _ _ rfl]
      exact hown receipt (List.mem_singleton.mp hmem).symm
  | unaccepted before acceptance error hs hq =>
      have hgood := hfine _ (List.mem_append_right _ (List.mem_singleton_self _))
      cases hgood
  | closed before acceptance failure result hq ha =>
      have hopened := (openings_snoc before ⟨.writeResponse
        (couldNotOpen (some acceptance.deliveryCursor) failure), result⟩ rfl).trans ha.opened
      have hwrote := congrArg (· ++ [couldNotOpen (some acceptance.deliveryCursor) failure]) ha.wrote
      have hw := (written_append before [⟨.writeResponse
        (couldNotOpen (some acceptance.deliveryCursor) failure), result⟩]).trans hwrote
      refine sendAnswer_queued (hq.mono (List.prefix_append _ _)) hw (fun r hmem => ?_)
        (.unopened acceptance failure hopened (htaken.trans hw))
      cases List.mem_singleton.mp hmem
      exact Or.inr ⟨_, _, rfl⟩
  | relayed h acceptance result hq hend =>
      exact sendAnswer_relayed hq hfine (hend.relayed hfine)

/-- The frames of a send that ends with a fault: none, or the acceptance and status frames, none of
    them the last one. -/
theorem SendEnd.short {result : Except FrameError Unit} (hr : SendEnd request h result)
    (hs : StopsAtFault h true) (hfault : ∃ e ∈ h, stopsHandler e = true) :
    takenFrames h = [] ∨ ∃ acceptance : SendAcceptance,
      ToldShort [.sendAccepted acceptance] (some acceptance.logicalDeliveryId) h := by
  cases hr with
  | single before response result hsilent hreply =>
      exact Or.inl ((takenFrames_fault (hs.fault hfault) hs).trans hsilent.1)
  | unaccepted before acceptance error hsilent hq =>
      exact Or.inl ((takenFrames_fault rfl hs).trans hsilent.1)
  | closed before acceptance failure result hq ha =>
      refine Or.inr ⟨acceptance, [], (takenFrames_fault (hs.fault hfault) hs).trans ha.wrote, ?_,
        Or.inl rfl⟩
      exact fun f hf => by cases hf
  | relayed h acceptance result hq hend => exact Or.inr ⟨acceptance, hend.short hs hfault⟩

/-- Such frames are not those of a send. -/
theorem SendEnd.not_answer {result : Except FrameError Unit} (hr : SendEnd request h result)
    (hs : StopsAtFault h true) (hfault : ∃ e ∈ h, stopsHandler e = true) :
    ¬ SendAnswer request h true := by
  intro ha
  have hframes := ha.frames
  rcases hr.short hs hfault with hnone | ⟨acceptance, fs, htaken, _, hcount⟩
  · cases hframes with
    | verdict response hv hw => rw [hnone] at hw; cases hw
    | unopened acceptance failure _ hw => rw [hnone] at hw; cases hw
    | relayed acceptance tail _ hw _ => rw [hnone] at hw; cases hw
  · rw [List.singleton_append] at htaken
    cases hframes with
    | verdict response hv hw =>
        rw [htaken] at hw
        injection hw with hfirst _
        rw [← hfirst] at hv
        rcases hv with ⟨_, he⟩ | ⟨_, he⟩ | ⟨_, he⟩ <;> cases he
    | unopened acceptance' failure _ hw =>
        rw [htaken] at hw
        injection hw with _ htail
        cases fs with
        | nil => cases htail
        | cons f fs =>
            injection htail with hf _
            cases f <;> cases hf
    | relayed acceptance' tail _ hw hrelayed =>
        rw [htaken] at hw
        injection hw with _ htail
        obtain ⟨hlen, hne⟩ := hrelayed.length_eq rfl
        rcases hcount with rfl | hcount
        · exact hne htail.symm
        · rw [hcount, ← htail, List.length_map] at hlen
          omega

end Send

/-- A connection that was asked a query runs, or has ended. -/
theorem QueryFrames.split [FlowDebug] {P : Bool → Prop} {query : SignalMessage.Query}
    {h : List NexusEvent} {rest : Handler} (hf : QueryFrames query h rest)
    (hrunning : QueryRunning query h → P false)
    (hended : ∀ result, QueryEnd query h result → P true) : P (ended rest) := by
  match rest with
  | .ask o k => exact hrunning hf
  | .ret (.inl l) => exact hrunning hf
  | .ret (.inr result) => exact hended result hf

/-- The frames of a send are told without fault or with one, by the history of its handler. -/
theorem SendEnd.answer_iff [FlowDebug] {request : SendRequest} {h : List NexusEvent}
    {result : Except FrameError Unit} (hr : SendEnd request h result) (hs : StopsAtFault h true)
    (hstay : ∀ e ∈ h, clientGone e = false) :
    SendAnswer request h true ↔ ∀ e ∈ h, failsClient e = false := by
  constructor
  · intro ha e he
    by_contra hfails
    exact hr.not_answer hs ⟨e, he, failsClient_stops (eq_true_of_ne_false hfails)⟩ ha
  · exact fun hfails => hr.answer fun e he => stopsHandler_false.mpr ⟨hstay e he, hfails e he⟩

/-- In every interleaving, a connection that was asked a send, and whose client stays, has the
    frames of that send exactly as long as the Nexus does not fail it. -/
theorem send_frames_iff [FlowDebug] {s₀ : NexusShared} {c : NexusPool}
    (hr : Reach nexusSystem (.idle s₀) c) {t : Nat}
    {th : Thread NexusOp NexusAns ForwardLoop (Except FrameError Unit)}
    (ht : c.threads t = some th) {process : Process} {query : SignalMessage.Query}
    (ha : asked th.hist = some (process, query)) {request : SendRequest}
    {thread : Option String} (hs : query.sends = some (request, thread))
    (hstay : ∀ e ∈ th.hist, clientGone e = false) :
    SendAnswer request th.hist (ended th.rest) ↔ ∀ e ∈ th.hist, failsClient e = false := by
  have hfaults := connection_faults hr ht
  have hrunning : SendRunning request th.hist → ended th.rest = false →
      (SendAnswer request th.hist false ↔ ∀ e ∈ th.hist, failsClient e = false) := by
    intro hrun hgoing
    have hfine := hfaults.going hgoing
    exact iff_of_true (hrun.answer hfine) fun e he => (stopsHandler_false.mp (hfine e he)).2
  have hended : ∀ result, SendEnd request th.hist result → ended th.rest = true →
      (SendAnswer request th.hist true ↔ ∀ e ∈ th.hist, failsClient e = false) := by
    intro result hend hdone
    exact hend.answer_iff (hdone ▸ hfaults) hstay
  refine (connection_frames hr ht ha).split (P := fun done => ended th.rest = done →
    (SendAnswer request th.hist done ↔ _)) (fun hrun => ?_) (fun result hend => ?_) rfl
  · cases query with
    | send request' => cases hs; exact hrunning hrun
    | sendThread request' thread' => cases hs; exact hrunning hrun
    | observeSends cursor => cases hs
    | observeThread cursor thread' => cases hs
    | configure configuration => cases hs
  · cases query with
    | send request' => cases hs; exact hended result hend
    | sendThread request' thread' => cases hs; exact hended result hend
    | observeSends cursor => cases hs
    | observeThread cursor thread' => cases hs
    | configure configuration => cases hs

/-- A Soft send that Flow queues as `delivery-1` and then shows delivered, after a snapshot of
    another delivery. -/
def queuedScript : NexusScript :=
  { lostScript with
    flow := fun
      | .deliver _ _ _ => transported (.ok (.sendAccepted ⟨"delivery-1", 3, .queued⟩))
      | query => lostScript.flow query
    frames :=
      [.ok (.sendsObserved ⟨4, [⟨4, "delivery-0", .other "Operator", ⟨.mind, "flow", .primary⟩,
          .delivered ⟨.codex, "session", "prompt"⟩⟩]⟩),
        .ok (.sendChanged ⟨5, "delivery-1", .other "Operator", ⟨.mind, "flow", .primary⟩,
          .delivered ⟨.codex, "session", "prompt"⟩⟩)] }

/-- No event of this history is of this kind. -/
theorem none_of_all {h : List NexusEvent} {test : NexusEvent → Bool}
    (hall : h.all (fun e => !test e) = true) : ∀ e ∈ h, test e = false := by
  intro e he
  simpa using List.all_eq_true.mp hall e he

theorem send_frames_queued :
    @SendAnswer unitDebug ⟨.up, .wake, .soft (.question "What is current?")⟩
      (queuedScript.history 30 (.serving sampleConfiguration)) true ∧
    (takenFrames (queuedScript.history 30 (.serving sampleConfiguration))).length = 3 :=
  ⟨(@send_frames_iff unitDebug _ _ (@NexusScript.pool_reach unitDebug queuedScript 30 _ rfl)
    0 _ (@NexusScript.pool_thread unitDebug _ _ _) _ _ rfl _ _ rfl (none_of_all rfl)).mpr
      (none_of_all rfl), rfl⟩

/-- The same send, on a connection whose descriptor cannot be duplicated. -/
def unclonedScript : NexusScript :=
  { queuedScript with clone := .error "Too many open files (os error 24)" }

def unclonedHistory : List NexusEvent := unclonedScript.history 30 (.serving sampleConfiguration)

/-- Its client stays, and is told of the acceptance and nothing more. -/
theorem send_frames_uncloned :
    Reach (@nexusSystem unitDebug) (.idle (.serving sampleConfiguration))
      (@NexusScript.pool unitDebug unclonedScript 30 (.serving sampleConfiguration)) ∧
    (∀ e ∈ unclonedHistory, clientGone e = false) ∧
    takenFrames unclonedHistory = [.sendAccepted ⟨"delivery-1", 3, .queued⟩] ∧
    openings unclonedHistory = [.ok ⟨⟩] ∧
    ¬ @SendAnswer unitDebug ⟨.up, .wake, .soft (.question "What is current?")⟩ unclonedHistory
      true := by
  have htaken : takenFrames unclonedHistory = [.sendAccepted ⟨"delivery-1", 3, .queued⟩] := rfl
  refine ⟨@NexusScript.pool_reach unitDebug unclonedScript 30 _ rfl, none_of_all rfl, htaken, rfl,
    fun ha => ?_⟩
  obtain ⟨hframes, _, _, _⟩ := ha
  cases hframes with
  | verdict response hv hw =>
      rw [htaken] at hw
      cases hw
      rcases hv with ⟨_, he⟩ | ⟨_, he⟩ | ⟨_, he⟩ <;> cases he
  | unopened acceptance failure _ hw => rw [htaken] at hw; cases hw
  | relayed acceptance tail _ hw hr =>
      rw [htaken] at hw
      injection hw with _ htail
      exact (hr.length_eq rfl).2 htail.symm

end MessageNexus
