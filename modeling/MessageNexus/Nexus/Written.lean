/-
  File:      MessageNexus/Nexus/Written.lean
  Subject:   WHAT A CONNECTION PUTS ON ITS STREAM: nothing after a write that failed, and no frame
             that is not Flow's where it says it is.

  * `connection_stops`, `owner_stops` -- a connection on either socket writes nothing after a failed
    write;
  * `OwnFrames`, `connection_own` -- the receipts, acceptances and statuses among the frames of a
    connection are what Flow answered to its own exchanges, whether or not its client stayed;
  * `send_issued`, `DeliveredUnder` -- the exchanges in front of a Deliver.
-/
import MessageNexus.Nexus.Frames
import MessageNexus.Wire.Prefix

namespace MessageNexus

open Interact SignalFlow

/-! ## 1. Nothing after a failed write -/

section Stops

variable [FlowDebug] {s₀ : NexusShared} {c : NexusPool} {t : Nat}
  {th : Thread NexusOp NexusAns ForwardLoop (Except FrameError Unit)}

/-- A write to the ordinary client, and how it ended. -/
def wroteResponse? : NexusEvent → Option (SignalMessage.Response × Except FrameError Unit)
  | ⟨.writeResponse response, outcome⟩ => some (response, outcome)
  | _ => none

/-- A write to the owner, and how it ended. -/
def wroteMeta? : NexusEvent → Option (MetaSignalMessage.Response × Except FrameError Unit)
  | ⟨.writeMetaResponse response, outcome⟩ => some (response, outcome)
  | _ => none

omit [FlowDebug] in
theorem wroteResponse_eq {e : NexusEvent} {response : SignalMessage.Response}
    {outcome : Except FrameError Unit} (he : wroteResponse? e = some (response, outcome)) :
    e = ⟨.writeResponse response, outcome⟩ := by
  obtain ⟨o, a⟩ := e
  cases o with
  | writeResponse response' => cases he; rfl
  | _ => cases he

omit [FlowDebug] in
theorem wroteMeta_eq {e : NexusEvent} {response : MetaSignalMessage.Response}
    {outcome : Except FrameError Unit} (he : wroteMeta? e = some (response, outcome)) :
    e = ⟨.writeMetaResponse response, outcome⟩ := by
  obtain ⟨o, a⟩ := e
  cases o with
  | writeMetaResponse response' => cases he; rfl
  | _ => cases he

omit [FlowDebug] in
theorem valuesOf_written (h : List NexusEvent) : valuesOf wroteResponse? h = written h := by
  unfold valuesOf written
  congr 1
  funext e
  obtain ⟨o, a⟩ := e
  cases o <;> rfl

omit [FlowDebug] in
/-- A handler that ends with its first fault writes nothing after a failed write. -/
theorem StopsAtFault.stopsWriting {V : Type} {writes : NexusEvent → Option (V × Except FrameError Unit)}
    (hfailed : ∀ e, FailedWrite writes e → stopsHandler e = true) {h : List NexusEvent} {done : Bool}
    (hs : StopsAtFault h done) : StopsWriting writes h := by
  intro before e after he _ e' hin hbad
  obtain ⟨front, back, rfl⟩ := List.append_of_mem hin
  have hnil := hs.last front e' (back ++ e :: after) (by rw [he]; simp) (hfailed e' hbad)
  simp at hnil

/-- A connection on the ordinary socket writes nothing after a failed write. -/
theorem connection_stops (hr : Reach nexusSystem (.idle s₀) c) (ht : c.threads t = some th) :
    StopsWriting wroteResponse? th.hist := by
  refine (connection_faults hr ht).stopsWriting ?_
  rintro e ⟨response, error, he⟩
  rw [wroteResponse_eq he]
  rfl

/-- So does one on the meta socket. -/
theorem owner_stops (hr : Reach nexusSystem (.idle s₀) c) (ht : c.threads t = some th) :
    StopsWriting wroteMeta? th.hist := by
  refine (connection_faults hr ht).stopsWriting ?_
  rintro e ⟨response, error, he⟩
  rw [wroteMeta_eq he]
  rfl

end Stops

/-! ## 2. Whose answers the frames are -/

/-- The receipts, acceptances and statuses among the frames of a connection are what Flow answered
    to its own Deliver and on its own subscription. -/
structure OwnFrames (h : List NexusEvent) : Prop where
  sent : ∀ receipt, .sent receipt ∈ written h →
    ∃ t ∈ delivers h, exchangeResult t = .ok (.sent receipt)
  accepted : ∀ acceptance, .sendAccepted acceptance ∈ written h →
    ∃ t ∈ delivers h, exchangeResult t = .ok (.sendAccepted acceptance)
  shown : ∀ f : StatusFrame, f.frame ∈ written h → .ok f.flow ∈ statuses h

/-- Behind the frames `first` come statuses that were read, and interruptions. -/
def StatusTail (first : List SignalMessage.Response) (h : List NexusEvent) : Prop :=
  ∃ fs : List StatusFrame, ∃ last : List SignalMessage.Response,
    written h = first ++ fs.map (·.frame) ++ last ∧ (∀ f ∈ fs, .ok f.flow ∈ statuses h) ∧
    ∀ r ∈ last, IsInterruption r

section Own

variable {first : List SignalMessage.Response} {terminalId : Option LogicalDeliveryId}
  {request : SendRequest} {h : List NexusEvent}

theorem StatusFrame.frame_injective {f g : StatusFrame} (he : f.frame = g.frame) : f = g := by
  cases f <;> cases g <;> cases he <;> rfl

theorem mem_readOf {fs : List StatusFrame} {f : StatusFrame} (hin : f ∈ fs) :
    (.ok f.flow : Except FrameError Response) ∈ readOf fs :=
  List.mem_map_of_mem (f := fun f : StatusFrame => (.ok f.flow : Except FrameError Response)) hin

theorem RelayedSoFar.statusTail {fs : List StatusFrame}
    {pending : List (Except FrameError Response)}
    (hr : RelayedSoFar first terminalId fs pending h) : StatusTail first h := by
  refine ⟨fs, [], ?_, fun f hin => ?_, fun r hin => by cases hin⟩
  · rw [hr.wrote, List.append_nil]
  · rw [hr.read]
    exact List.mem_append_left _ (mem_readOf hin)

/-- The frames that were passed on, the last of them included. -/
theorem RelayedSoFar.passed {fs : List StatusFrame} {f : StatusFrame}
    (hr : RelayedSoFar first terminalId fs [.ok f.flow] h) (outcome : Except FrameError Unit) :
    StatusTail first (h ++ [⟨.writeResponse f.frame, outcome⟩]) := by
  obtain ⟨hread, hwrote⟩ := hr.write f.frame outcome
  refine ⟨fs ++ [f], [], ?_, fun g hin => ?_, fun r hin => by cases hin⟩
  · rw [hwrote, List.map_append, List.append_nil, List.append_assoc]
    rfl
  · rw [hread]
    rcases List.mem_append.mp hin with hin | hin
    · exact List.mem_append_left _ (mem_readOf hin)
    · rw [List.mem_singleton.mp hin]
      exact List.mem_append_right _ (List.mem_singleton_self _)

theorem RelayEnd.statusTail {result : Except FrameError Unit}
    (hr : RelayEnd first terminalId h result) : StatusTail first h := by
  cases hr with
  | unopened before e error hr _ hw hn ho => exact (hr.snoc e hw hn ho).statusTail
  | cut before fs f error hr => exact hr.passed _
  | finished before fs f hr _ => exact hr.passed _
  | interrupted before fs input text result hr hends =>
      obtain ⟨hread, hwrote⟩ := hr.write (.observationInterrupted (lastCursor fs) text) result
      refine ⟨fs, [.observationInterrupted (lastCursor fs) text], hwrote, fun f hin => ?_,
        fun r hin => ⟨_, _, List.mem_singleton.mp hin⟩⟩
      rw [hread]
      exact List.mem_append_left _ (mem_readOf hin)

/-- What is not among the first frames is a status that was read, or an interruption. -/
theorem StatusTail.mem (ht : StatusTail first h) {r : SignalMessage.Response}
    (hin : r ∈ written h) (hfirst : r ∉ first) :
    (∃ f : StatusFrame, r = f.frame ∧ .ok f.flow ∈ statuses h) ∨ IsInterruption r := by
  obtain ⟨fs, last, hwrote, hread, hlast⟩ := ht
  rw [hwrote] at hin
  rcases List.mem_append.mp hin with hin | hin
  · rcases List.mem_append.mp hin with hin | hin
    · exact absurd hin hfirst
    · obtain ⟨f, hf, rfl⟩ := List.mem_map.mp hin
      exact Or.inl ⟨f, rfl, hread f hf⟩
  · exact Or.inr (hlast r hin)

/-- Behind first frames that are no statuses, the frames are the connection's own. -/
theorem StatusTail.own (ht : StatusTail first h) (hstatus : ∀ f : StatusFrame, f.frame ∉ first)
    (hsent : ∀ receipt, .sent receipt ∉ first)
    (haccepted : ∀ acceptance, .sendAccepted acceptance ∈ first →
      ∃ t ∈ delivers h, exchangeResult t = .ok (.sendAccepted acceptance)) : OwnFrames h := by
  refine ⟨fun receipt hin => ?_, fun acceptance hin => ?_, fun f hin => ?_⟩
  · rcases ht.mem hin (hsent receipt) with ⟨f, he, _⟩ | ⟨_, _, he⟩
    · cases f <;> cases he
    · cases he
  · by_cases hfirst : .sendAccepted acceptance ∈ first
    · exact haccepted acceptance hfirst
    · rcases ht.mem hin hfirst with ⟨f, he, _⟩ | ⟨_, _, he⟩
      · cases f <;> cases he
      · cases he
  · rcases ht.mem hin (hstatus f) with ⟨g, he, hread⟩ | ⟨_, _, he⟩
    · rw [StatusFrame.frame_injective he]
      exact hread
    · cases f <;> cases he

/-- The frames of a queued send. -/
theorem Queued.own {acceptance : SendAcceptance} (hq : Queued request acceptance h)
    (ht : StatusTail [.sendAccepted acceptance] h) : OwnFrames h := by
  refine ht.own (fun f hin => ?_) (fun receipt hin => ?_) fun acceptance' hin => ?_
  · cases f <;> cases List.mem_singleton.mp hin
  · cases List.mem_singleton.mp hin
  · cases List.mem_singleton.mp hin
    obtain ⟨t, ht, ho⟩ := hq
    exact ⟨t, ht, (deliverOutcome_queued ho).1⟩

/-- Frames without a status, a receipt or an acceptance. -/
theorem own_of_verdict (hsent : ∀ receipt, .sent receipt ∈ written h →
      ∃ t ∈ delivers h, exchangeResult t = .ok (.sent receipt))
    (hall : ∀ r ∈ written h, IsVerdict r ∨ IsInterruption r ∨ r = .configured) : OwnFrames h := by
  refine ⟨hsent, fun acceptance hin => ?_, fun f hin => ?_⟩
  · rcases hall _ hin with (⟨_, he⟩ | ⟨_, he⟩ | ⟨_, he⟩) | ⟨_, _, he⟩ | he <;> cases he
  · rcases hall _ hin with (⟨_, he⟩ | ⟨_, he⟩ | ⟨_, he⟩) | ⟨_, _, he⟩ | he <;>
      cases f <;> cases he

/-- One frame that is no receipt. -/
theorem own_of_single {r : SignalMessage.Response} (hwrote : written h = [r])
    (hr : IsVerdict r ∨ IsInterruption r ∨ r = .configured) (hno : ∀ receipt, r ≠ .sent receipt) :
    OwnFrames h := by
  refine own_of_verdict (fun receipt hin => ?_) fun r' hin => ?_
  · rw [hwrote] at hin
    exact absurd (List.mem_singleton.mp hin).symm (hno receipt)
  · rw [hwrote] at hin
    rw [List.mem_singleton.mp hin]
    exact hr

variable [FlowDebug]

theorem SendEnd.own {result : Except FrameError Unit} (he : SendEnd request h result) :
    OwnFrames h := by
  cases he with
  | single before response result hs hreply =>
      obtain ⟨hv, hown⟩ := singleReply_verdict hreply
      have hwrote := (written_silent hs response result).1
      refine own_of_verdict (fun receipt hin => ?_) fun r hin => ?_
      · rw [hwrote] at hin
        rw [delivers_snoc _ _ rfl]
        exact hown receipt (List.mem_singleton.mp hin).symm
      · rw [hwrote] at hin
        rw [List.mem_singleton.mp hin]
        exact Or.inl hv
  | unaccepted before acceptance error hs hq =>
      refine (hq.mono (List.prefix_append _ _)).own ⟨[], [], (written_silent hs _ _).1, ?_, ?_⟩
      · exact fun f hin => by cases hin
      · exact fun r hin => by cases hin
  | closed before acceptance failure result hq ha =>
      refine (hq.mono (List.prefix_append _ _)).own
        ⟨[], [couldNotOpen (some acceptance.deliveryCursor) failure], ?_,
          fun f hin => (by cases hin), fun r hin => ⟨_, _, List.mem_singleton.mp hin⟩⟩
      rw [written_append, ha.wrote]
      rfl
  | relayed h acceptance result hq hend => exact hq.own hend.statusTail

theorem ObserveEnd.own {cursor : Option DeliveryCursor} {result : Except FrameError Unit}
    (he : ObserveEnd cursor h result) : OwnFrames h := by
  cases he with
  | refused before response result hs ho hrefused =>
      obtain ⟨refusal, rfl⟩ := hrefused
      exact own_of_single (written_silent hs _ _).1 (Or.inl (Or.inl ⟨refusal, rfl⟩))
        fun _ he => by cases he
  | closed before failure result hs ho =>
      exact own_of_single (written_silent hs _ _).1 (Or.inr (Or.inl ⟨_, _, rfl⟩))
        fun _ he => by cases he
  | relayed h result hend =>
      exact hend.statusTail.own (fun _ hin => by cases hin) (fun _ hin => by cases hin)
        fun _ hin => by cases hin

omit [FlowDebug] in
theorem own_of_silent (hs : Silent h) : OwnFrames h := by
  refine own_of_verdict (fun receipt hin => ?_) fun r hin => ?_ <;>
  · rw [hs.1] at hin
    cases hin

/-- In every interleaving, and whether or not the client stays, the frames of a connection are its
    own. -/
theorem connection_own {s₀ : NexusShared} {c : NexusPool} (hr : Reach nexusSystem (.idle s₀) c)
    {t : Nat} {th : Thread NexusOp NexusAns ForwardLoop (Except FrameError Unit)}
    (ht : c.threads t = some th) {process : Process} {query : SignalMessage.Query}
    (ha : asked th.hist = some (process, query)) : OwnFrames th.hist := by
  have hsend : ∀ request, SendRunning request th.hist → OwnFrames th.hist := by
    rintro request (hs | ⟨acceptance, hq, ⟨failure, ha⟩ | ⟨fs, pending, hr, _⟩⟩)
    · exact own_of_silent hs
    · refine hq.own ⟨[], [], ha.wrote, ?_, ?_⟩
      · exact fun f hin => by cases hin
      · exact fun r hin => by cases hin
    · exact hq.own hr.statusTail
  have hobserve : ObserveRunning th.hist → OwnFrames th.hist := by
    rintro (hs | ⟨fs, pending, hr, _⟩)
    · exact own_of_silent hs
    · exact hr.statusTail.own (fun _ hin => by cases hin) (fun _ hin => by cases hin)
        fun _ hin => by cases hin
  refine (connection_frames hr ht ha).split (P := fun _ => _) (fun hrun => ?_)
    fun result hend => ?_
  · cases query with
    | send request => exact hsend request hrun
    | sendThread request thread => exact hsend request hrun
    | observeSends cursor => exact hobserve hrun
    | observeThread cursor thread => exact hobserve hrun
    | configure configuration => exact own_of_silent hrun
  · cases query with
    | send request => exact SendEnd.own hend
    | sendThread request thread => exact SendEnd.own hend
    | observeSends cursor => exact ObserveEnd.own hend
    | observeThread cursor thread => exact ObserveEnd.own hend
    | configure configuration =>
        obtain ⟨outcome, hwrote⟩ := ConfigureEnd.told hend
        cases outcome with
        | ok changed =>
            exact own_of_single hwrote (Or.inr (Or.inr rfl)) fun _ he => by cases he
        | error failure =>
            cases failure with
            | alreadyConfigured =>
                exact own_of_single hwrote (Or.inl (Or.inl ⟨_, rfl⟩)) fun _ he => by cases he
            | store error =>
                exact own_of_single hwrote (Or.inl (Or.inl ⟨_, rfl⟩)) fun _ he => by cases he

/-- A frame that tells nothing of a Deliver. -/
def NoDelivery (r : SignalMessage.Response) : Prop :=
  (∀ receipt, r ≠ .sent receipt) ∧ ∀ acceptance, r ≠ .sendAccepted acceptance

omit [FlowDebug] in
theorem StatusTail.noDelivery (ht : StatusTail [] h) : ∀ r ∈ written h, NoDelivery r := by
  intro r hin
  rcases ht.mem hin (by simp) with ⟨f, rfl, _⟩ | ⟨_, _, rfl⟩
  · cases f <;> exact ⟨fun _ he => (by cases he), fun _ he => by cases he⟩
  · exact ⟨fun _ he => (by cases he), fun _ he => by cases he⟩

omit [FlowDebug] in
theorem noDelivery_single {r : SignalMessage.Response} (hwrote : written h = [r])
    (hr : NoDelivery r) : ∀ r' ∈ written h, NoDelivery r' := by
  rw [hwrote]
  intro r' hin
  rw [List.mem_singleton.mp hin]
  exact hr

theorem ObserveEnd.noDelivery {cursor : Option DeliveryCursor} {result : Except FrameError Unit}
    (he : ObserveEnd cursor h result) : ∀ r ∈ written h, NoDelivery r := by
  cases he with
  | refused before response result hs ho hrefused =>
      obtain ⟨refusal, rfl⟩ := hrefused
      exact noDelivery_single (written_silent hs _ _).1
        ⟨fun _ he => (by cases he), fun _ he => by cases he⟩
  | closed before failure result hs ho =>
      exact noDelivery_single (written_silent hs _ _).1
        ⟨fun _ he => (by cases he), fun _ he => by cases he⟩
  | relayed h result hend => exact hend.statusTail.noDelivery

/-- A query that sends nothing is told of no Deliver. -/
theorem unsent_frames {s₀ : NexusShared} {c : NexusPool} (hr : Reach nexusSystem (.idle s₀) c)
    {t : Nat} {th : Thread NexusOp NexusAns ForwardLoop (Except FrameError Unit)}
    (ht : c.threads t = some th) {process : Process} {query : SignalMessage.Query}
    (ha : asked th.hist = some (process, query)) (hunsent : query.sends = none) :
    ∀ r ∈ written th.hist, NoDelivery r := by
  have hrelay : ObserveRunning th.hist → ∀ r ∈ written th.hist, NoDelivery r := by
    rintro (hs | ⟨fs, pending, hr, _⟩)
    · rw [hs.1]
      exact fun r hin => by cases hin
    · exact hr.statusTail.noDelivery
  refine (connection_frames hr ht ha).split (P := fun _ => _) (fun hrun => ?_)
    fun result hend => ?_
  · cases query with
    | send request => cases hunsent
    | sendThread request thread => cases hunsent
    | observeSends cursor => exact hrelay hrun
    | observeThread cursor thread => exact hrelay hrun
    | configure configuration =>
        have hsilent : Silent th.hist := hrun
        rw [hsilent.1]
        exact fun r hin => by cases hin
  · cases query with
    | send request => cases hunsent
    | sendThread request thread => cases hunsent
    | observeSends cursor => exact ObserveEnd.noDelivery hend
    | observeThread cursor thread => exact ObserveEnd.noDelivery hend
    | configure configuration =>
        obtain ⟨outcome, hwrote⟩ := ConfigureEnd.told hend
        refine noDelivery_single hwrote ?_
        cases outcome with
        | ok changed => exact ⟨fun _ he => (by cases he), fun _ he => by cases he⟩
        | error failure =>
            cases failure <;> exact ⟨fun _ he => (by cases he), fun _ he => by cases he⟩

end Own

/-! ## 3. The exchanges in front of a Deliver -/

/-- The Deliver of this send that met `t`: it went out under the lock that Flow gave to the sender
    whom it identified for this process and thread. -/
def DeliveredUnder (process : Process) (request : SendRequest) (thread : Option String)
    (t : ExchangeAnswers) (h : List NexusEvent) : Prop :=
  ∃ path lock before after, LockedCalls path process request thread lock before ∧
    flowCalls h =
      before ++ .exchange path (.deliver lock request.delivery request.message) t :: after

section Send

variable [FlowDebug] {s₀ : NexusShared} {c : NexusPool} {t : Nat}
  {th : Thread NexusOp NexusAns ForwardLoop (Except FrameError Unit)} {process : Process}
  {query : SignalMessage.Query} {request : SendRequest} {thread : Option String}

/-- Every operation of a connection that was asked a send stands in its place. -/
theorem send_issued (hr : Reach nexusSystem (.idle s₀) c) (ht : c.threads t = some th)
    (ha : asked th.hist = some (process, query)) (hs : query.sends = some (request, thread)) :
    Issued (SendPlace process request thread) th.hist := by
  obtain ⟨rest, hh, htr⟩ := connection_trace hr ht ha
  rw [answerQuery_sends hs] at htr
  have hempty : ∀ h, flowCalls h = [] → Settled process request thread h :=
    fun h hc => settled_of_length (by simp [hc])
  rw [hh, Issued, along_append]
  refine ⟨⟨(hempty [] rfl).place trivial, (hempty _ rfl).place trivial, trivial⟩, ?_⟩
  exact htr.issued (J := fun _ h => Settled process request thread h)
    (E := fun _ h => Settled process request thread h)
    (fun l h hsl => forwardRound_places l hsl) (answerSend_places rfl rfl) (along_any _ _)

omit [FlowDebug] in
theorem mem_delivers {h : List NexusEvent} {a : ExchangeAnswers} (hin : a ∈ delivers h) :
    ∃ path lock delivery message readTimeout writeTimeout,
      (⟨.exchange path (.deliver lock delivery message) readTimeout writeTimeout, a⟩ : NexusEvent)
        ∈ h := by
  obtain ⟨⟨o, answers⟩, hmem, he⟩ := List.mem_filterMap.mp hin
  cases o with
  | exchange path query readTimeout writeTimeout =>
      cases query with
      | deliver lock delivery message =>
          cases he
          exact ⟨path, lock, delivery, message, readTimeout, writeTimeout, hmem⟩
      | _ => cases he
  | _ => cases he

/-- Its Deliver carries its own delivery and message, under its own lock. -/
theorem delivered_under (hr : Reach nexusSystem (.idle s₀) c) (ht : c.threads t = some th)
    (ha : asked th.hist = some (process, query)) (hs : query.sends = some (request, thread))
    {answers : ExchangeAnswers} (hin : answers ∈ delivers th.hist) :
    DeliveredUnder process request thread answers th.hist := by
  obtain ⟨path, lock, delivery, message, readTimeout, writeTimeout, hmem⟩ := mem_delivers hin
  obtain ⟨before, after, hhist⟩ := List.append_of_mem hmem
  have hi := send_issued hr ht ha hs
  rw [hhist] at hi
  obtain ⟨_, _, hplace⟩ := hi.at
  obtain ⟨rfl, rfl, _, hlocked, _⟩ := hplace
  refine ⟨path, lock, flowCalls before, flowCalls after, hlocked, ?_⟩
  rw [hhist, flowCalls_append, flowCalls_cons]
  rfl

end Send

end MessageNexus
