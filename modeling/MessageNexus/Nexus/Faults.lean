/-
  File:      MessageNexus/Nexus/Faults.lean
  Subject:   THE FAULTS OF A CONNECTION: which failing steps end its handler, and whose faults they
             are, its client's or the Nexus's own.

  * `clientGone` -- the client's stream did not take a frame;
  * `failsClient` -- the Nexus fails a client that is there: it could not duplicate a descriptor,
    or could not make a frame;
  * `takenFrames` -- the frames that the client took;
  * `stopMonitor`, `handler_stops` -- a handler does nothing after such a step;
    `connection_faults` -- so it is in every reachable pool, on either socket.
-/
import Mathlib.Data.List.Basic
import MessageNexus.Lib.Monitor
import MessageNexus.Nexus.Replies

namespace MessageNexus

open Interact SignalFlow

/-! ## 1. The faults -/

/-- The frame was never made: rkyv refused the value, or no header holds the archive's length. -/
def FrameError.unframed : FrameError → Bool
  | .archive _ => true
  | .tooLarge _ => true
  | _ => false

/-- The client is gone: its stream did not take a frame. -/
def clientGone : NexusEvent → Bool
  | ⟨.writeResponse _, .error error⟩ => !error.unframed
  | ⟨.writeMetaResponse _, .error error⟩ => !error.unframed
  | _ => false

/-- The Nexus fails a client that is there: it could not make a frame, or could not duplicate the
    descriptor of the subscription or of the connection. -/
def failsClient : NexusEvent → Bool
  | ⟨.writeResponse _, .error error⟩ => error.unframed
  | ⟨.writeMetaResponse _, .error error⟩ => error.unframed
  | ⟨.interruptHandle, .error _⟩ => true
  | ⟨.cloneStream, .error _⟩ => true
  | _ => false

/-- The failing steps that end a handler. -/
def stopsHandler : NexusEvent → Bool
  | ⟨.writeResponse _, .error _⟩ => true
  | ⟨.writeMetaResponse _, .error _⟩ => true
  | ⟨.interruptHandle, .error _⟩ => true
  | ⟨.cloneStream, .error _⟩ => true
  | _ => false

/-- They are the client's fault or the Nexus's own. -/
theorem stopsHandler_eq (e : NexusEvent) : stopsHandler e = (clientGone e || failsClient e) := by
  obtain ⟨o, a⟩ := e
  cases o with
  | writeResponse response =>
      cases a with
      | error error => exact (Bool.not_or_self error.unframed).symm
      | ok _ => rfl
  | writeMetaResponse response =>
      cases a with
      | error error => exact (Bool.not_or_self error.unframed).symm
      | ok _ => rfl
  | interruptHandle => cases a <;> rfl
  | cloneStream => cases a <;> rfl
  | _ => rfl

theorem failsClient_stops {e : NexusEvent} (he : failsClient e = true) : stopsHandler e = true := by
  rw [stopsHandler_eq, he, Bool.or_true]

theorem stopsHandler_false {e : NexusEvent} :
    stopsHandler e = false ↔ clientGone e = false ∧ failsClient e = false := by
  rw [stopsHandler_eq, Bool.or_eq_false_iff]

def takenFrame? : NexusEvent → Option SignalMessage.Response
  | ⟨.writeResponse response, .ok _⟩ => some response
  | _ => none

/-- The frames that the client took, in order. -/
def takenFrames (h : List NexusEvent) : List SignalMessage.Response := h.filterMap takenFrame?

@[simp] theorem takenFrames_append (h es : List NexusEvent) :
    takenFrames (h ++ es) = takenFrames h ++ takenFrames es := List.filterMap_append

/-- Without a fault the client took every frame that was written. -/
theorem takenFrames_eq {h : List NexusEvent} (hfine : ∀ e ∈ h, stopsHandler e = false) :
    takenFrames h = written h := by
  refine List.filterMap_congr fun e he => ?_
  have hstop := hfine e he
  obtain ⟨o, a⟩ := e
  cases o with
  | writeResponse response =>
      cases a with
      | error error => cases hstop
      | ok _ => rfl
  | _ => rfl

/-- Where nothing was written nothing was taken. -/
theorem takenFrames_of_silent {h : List NexusEvent} (hs : Silent h) : takenFrames h = [] := by
  refine List.filterMap_eq_nil_iff.mpr fun e he => ?_
  have hnone := List.filterMap_eq_nil_iff.mp hs.1 e he
  obtain ⟨o, a⟩ := e
  cases o with
  | writeResponse response => cases hnone
  | _ => rfl

/-- The handler has ended. -/
def ended : Handler → Bool
  | .ret (.inr _) => true
  | _ => false

theorem ended_eq {rest : Handler} (h : ended rest = true) :
    ∃ result, rest = .ret (.inr result) := by
  cases rest with
  | ask o k => cases h
  | ret v =>
      cases v with
      | inl l => cases h
      | inr result => exact ⟨result, rfl⟩

/-- The handler ends with its first fault: nothing comes after it, and one that has not ended had
    none. -/
structure StopsAtFault (h : List NexusEvent) (done : Bool) : Prop where
  last : ∀ before e after, h = before ++ e :: after → stopsHandler e = true → after = []
  going : done = false → ∀ e ∈ h, stopsHandler e = false

/-- Before the last event there was no fault. -/
theorem StopsAtFault.before {before : List NexusEvent} {e : NexusEvent} {done : Bool}
    (hs : StopsAtFault (before ++ [e]) done) : ∀ e' ∈ before, stopsHandler e' = false := by
  intro e' hin
  by_contra hstop
  obtain ⟨front, back, rfl⟩ := List.append_of_mem hin
  have hnil := hs.last front e' (back ++ [e]) (by simp) (eq_true_of_ne_false hstop)
  simp at hnil

/-! ## 2. Nothing after a fault -/

/-- The operations whose failure ends a handler. -/
def NexusOp.mayStop : NexusOp → Bool
  | .writeResponse _ => true
  | .writeMetaResponse _ => true
  | .interruptHandle => true
  | .cloneStream => true
  | _ => false

/-- Whether there was a fault; then nothing may follow. -/
def stopMonitor : Monitor NexusOp NexusAns Bool where
  start := false
  next stopped e := stopped || stopsHandler e
  allows stopped _ := stopped = false

/-- Before a round of a handler's loop there was no fault. -/
abbrev EndsStopping : Bool → ForwardLoop ⊕ Except FrameError Unit → Prop :=
  Monitor.Ends (fun stopped _ => stopped = false) fun _ _ => True

theorem stopMonitor_state (h : List NexusEvent) :
    stopMonitor.state h = false ↔ ∀ e ∈ h, stopsHandler e = false := by
  induction h using List.reverseRecOn with
  | nil => exact iff_of_true rfl fun e he => by cases he
  | append_singleton h e ih =>
      rw [Monitor.state_snoc, List.forall_mem_append, ← ih, List.forall_mem_singleton]
      exact Bool.or_eq_false_iff

section Walks

theorem quiet_stays {e : NexusEvent} (he : e.op.mayStop = false) (stopped : Bool) :
    stopMonitor.next stopped e = stopped := by
  obtain ⟨o, a⟩ := e
  cases o with
  | writeResponse response => cases he
  | writeMetaResponse response => cases he
  | interruptHandle => cases he
  | cloneStream => cases he
  | _ => exact Bool.or_false stopped

/-- A part without such operations. -/
theorem quiet_walks {α : Type} {p : NexusProg α} (hp : Uses (fun o => o.mayStop = false) p) :
    stopMonitor.Walks (fun q _ => q = false) p false :=
  Uses.walks hp (fun _ _ => rfl) fun _ he => quiet_stays he false

theorem standard_quiet : Uses (fun o => o.mayStop = false) standard :=
  ⟨rfl, fun _ => trivial⟩

theorem withStore_quiet {α : Type} {use : NexusProg α}
    (hu : Uses (fun o => o.mayStop = false) use) :
    Uses (fun o => o.mayStop = false) (withStore use) :=
  ⟨rfl, fun _ => hu.bind fun _ => ⟨rfl, fun _ => trivial⟩⟩

theorem flowEdge_quiet : Uses (fun o => o.mayStop = false) flowEdge :=
  (withStore_quiet standard_quiet).bind fun _ => trivial

theorem call_quiet {α : Type} (edge : FlowEdge) (query : Query) (accept : Response → Option α) :
    Uses (fun o => o.mayStop = false) (edge.call query accept) :=
  ⟨rfl, fun _ => trivial⟩

theorem configure_quiet (configuration : Configuration) (isMeta : Bool) :
    Uses (fun o => o.mayStop = false) (configure configuration isMeta) := by
  refine withStore_quiet (standard_quiet.bind fun read => ?_)
  cases read with
  | error error => trivial
  | ok current =>
      dsimp only
      split
      · trivial
      · refine Uses.bind (p := replaceStandard _) ⟨rfl, fun _ => trivial⟩ fun outcome => ?_
        cases outcome <;> trivial

theorem serveQuery_quiet (process : Process) (query : SignalMessage.Query) :
    Uses (fun o => o.mayStop = false) (serveQuery process query) := by
  cases query with
  | configure configuration => exact (configure_quiet configuration false).bind fun _ => trivial
  | _ => trivial

variable [FlowDebug] {process : Process} {request : SendRequest} {thread : Option String}

theorem settleDelivery_quiet (edge : FlowEdge) (abrupt : Bool) (lock : Lock)
    (outcome : Except EdgeFailure FlowSendReply) :
    Uses (fun o => o.mayStop = false)
      (settleDelivery edge process thread abrupt lock outcome) := by
  cases outcome with
  | error failure =>
      cases failure with
      | refused refusal => trivial
      | _ => exact (call_quiet edge _ _).bind fun _ => trivial
  | ok settled =>
      cases settled with
      | queued acceptance => exact Uses.bind ⟨rfl, fun _ => trivial⟩ fun _ => trivial
      | _ => exact (call_quiet edge _ _).bind fun _ => trivial

theorem sendLocked_quiet (edge : FlowEdge) (lock : Lock) :
    Uses (fun o => o.mayStop = false) (sendLocked edge process request thread lock) := by
  refine ⟨rfl, fun now => ?_⟩
  change Uses _ (if _ then _ else _)
  split
  · trivial
  · exact (call_quiet edge _ _).bind fun outcome => settleDelivery_quiet edge _ lock outcome

theorem sendIdentified_quiet (edge : FlowEdge) (sender : Sender) :
    Uses (fun o => o.mayStop = false)
      (sendIdentified edge process request thread sender) := by
  unfold sendIdentified
  dsimp only
  split
  · trivial
  · refine (call_quiet edge _ _).bind fun locked => ?_
    cases locked with
    | error failure => trivial
    | ok lock => exact sendLocked_quiet edge lock

theorem acceptSend_quiet :
    Uses (fun o => o.mayStop = false) (acceptSend process request thread) := by
  refine flowEdge_quiet.bind fun edge => ?_
  cases edge with
  | error error => trivial
  | ok edge =>
      have hidentify : Uses (fun o => o.mayStop = false)
          (identifySender edge process thread) := by
        cases thread <;> exact call_quiet edge _ _
      refine hidentify.bind fun identified => ?_
      cases identified with
      | error failure => trivial
      | ok sender => exact sendIdentified_quiet edge sender

theorem observeSends_quiet (cursor : Option DeliveryCursor) :
    Uses (fun o => o.mayStop = false) (observeSends process thread cursor) := by
  refine flowEdge_quiet.bind fun edge => ?_
  cases edge with
  | error error => trivial
  | ok edge =>
      refine Uses.bind (p := edge.observeSender process thread cursor)
        ⟨rfl, fun _ => trivial⟩ fun opened => ?_
      cases opened with
      | ok subscription => trivial
      | error failure => cases failure <;> trivial

omit [FlowDebug] in
/-- A last frame. -/
theorem answerWith_stops (response : SignalMessage.Response) :
    stopMonitor.Walks EndsStopping (answerWith response) false :=
  ⟨rfl, fun _ => trivial⟩

omit [FlowDebug] in
theorem forwardSubscription_stops (terminalId : Option LogicalDeliveryId) :
    stopMonitor.Walks EndsStopping (forwardSubscription terminalId) false := by
  refine ⟨rfl, fun handle => ?_⟩
  cases handle with
  | error error => trivial
  | ok _ =>
      refine ⟨rfl, fun clone => ?_⟩
      cases clone with
      | error error => trivial
      | ok _ => exact rfl

omit [FlowDebug] in
theorem answerReply_stops (reply : Except SignalMessage.Response SendReply) :
    stopMonitor.Walks EndsStopping (answerReply reply) false := by
  cases reply with
  | error response => exact answerWith_stops response
  | ok reply =>
      cases reply with
      | sent receipt => exact answerWith_stops _
      | failed failure => exact answerWith_stops _
      | queued accepted subscription =>
          refine ⟨rfl, fun outcome => ?_⟩
          cases outcome with
          | error error => trivial
          | ok _ =>
              cases subscription with
              | ok _ => exact forwardSubscription_stops _
              | error response => exact answerWith_stops response

/-- A round of the loop. -/
theorem forwardRound_stops (l : ForwardLoop) :
    stopMonitor.Walks EndsStopping (forwardRound l) false := by
  refine Monitor.Walks.bind (quiet_walks (p := FlowSubscription.next ⟨⟩)
    ⟨rfl, fun _ => trivial⟩) ?_
  rintro _ frame rfl
  cases frame with
  | error error => exact answerWith_stops _
  | ok response =>
      dsimp only
      cases forwarded l.terminalId response with
      | none => exact answerWith_stops _
      | some frame =>
          refine ⟨rfl, fun outcome => ?_⟩
          cases outcome with
          | error error => trivial
          | ok _ =>
              change stopMonitor.Walks EndsStopping (if frame.finished = true then _ else _) false
              split
              · trivial
              · exact rfl

theorem answerQuery_stops (query : SignalMessage.Query) :
    stopMonitor.Walks EndsStopping (answerQuery process query) false := by
  have hsend : ∀ request thread,
      stopMonitor.Walks EndsStopping (answerSend process request thread) false := by
    intro request thread
    refine (quiet_walks acceptSend_quiet).bind ?_
    rintro _ reply rfl
    exact answerReply_stops reply
  have hobserve : ∀ thread cursor,
      stopMonitor.Walks EndsStopping (answerObservation process thread cursor) false := by
    intro thread cursor
    refine (quiet_walks (observeSends_quiet cursor)).bind ?_
    rintro _ reply rfl
    cases reply with
    | error response => exact answerWith_stops response
    | ok subscription => exact forwardSubscription_stops none
  cases query with
  | send request => exact hsend request none
  | sendThread request thread => exact hsend request (some thread)
  | observeSends cursor => exact hobserve none cursor
  | observeThread cursor thread => exact hobserve (some thread) cursor
  | configure configuration =>
      refine (quiet_walks (serveQuery_quiet process (.configure configuration))).bind ?_
      rintro _ response rfl
      exact answerWith_stops response

/-- Both handlers. -/
theorem handler_stops {p : Handler} (hp : p = answerOrdinary ∨ p = answerMeta) :
    stopMonitor.Walks EndsStopping p false := by
  rcases hp with rfl | rfl
  · refine ⟨rfl, fun read => ?_⟩
    cases read with
    | error error => trivial
    | ok query =>
        refine ⟨rfl, fun process => ?_⟩
        cases process with
        | none => trivial
        | some process => exact answerQuery_stops query
  · refine ⟨rfl, fun read => ?_⟩
    cases read with
    | error error => trivial
    | ok query =>
        obtain ⟨configuration⟩ := query
        refine (quiet_walks (configure_quiet configuration true)).bind ?_
        rintro _ outcome rfl
        exact ⟨rfl, fun _ => trivial⟩

end Walks


/-- In every reachable pool, a connection ends with its first fault. -/
theorem connection_faults [FlowDebug] {s₀ : NexusShared} {c : NexusPool}
    (hr : Reach nexusSystem (.idle s₀) c) {t : Nat}
    {th : Thread NexusOp NexusAns ForwardLoop (Except FrameError Unit)}
    (ht : c.threads t = some th) : StopsAtFault th.hist (ended th.rest) := by
  have hp := hr.started (P := fun p => p = answerOrdinary ∨ p = answerMeta)
    (fun _ _ _ _ => nexusStart_program) t th ht
  have hrounds : ∀ (l : ForwardLoop) (q : Bool), q = false →
      stopMonitor.Walks EndsStopping (nexusSystem.body l) q := by
    rintro l _ rfl
    exact forwardRound_stops l
  obtain ⟨hissued, hrest⟩ := hr.walks hrounds ht (handler_stops hp)
  refine ⟨fun before e after hh hstop => ?_, fun hgoing => (stopMonitor_state _).mp ?_⟩
  · cases after with
    | nil => rfl
    | cons e' after =>
        rw [hh, List.append_cons] at hissued
        have hallowed : stopMonitor.state (before ++ [e]) = false := Along.at hissued
        rw [(stopMonitor_state _).mp hallowed e (by simp)] at hstop
        cases hstop
  · match hq : th.rest with
    | .ask o k =>
        rw [hq] at hrest
        exact hrest.1
    | .ret (.inl l) =>
        rw [hq] at hrest
        exact hrest
    | .ret (.inr result) =>
        rw [hq] at hgoing
        cases hgoing

end MessageNexus
