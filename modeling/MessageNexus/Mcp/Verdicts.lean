/-
  File:      MessageNexus/Mcp/Verdicts.lean
  Subject:   THE VERDICT OF A CALL: a tool result says delivered or failed only where the last
             response says so of this call's own delivery.

  * `ownDelivery`, `ShowsDelivered`, `ShowsFailed` -- the call's own delivery, and what a response
    shows of a delivery;
  * `connection_responses` -- what the Nexus can write to the queries of a call;
  * `FairResult`, `fair_result` -- no false verdict, in every interleaving.
-/
import MessageNexus.Mcp.Told
import MessageNexus.Nexus.Frames

namespace MessageNexus

open Interact SignalFlow SignalMessage Json

/-! ## 1. What responses show -/

def accepted? : SignalMessage.Response → Option LogicalDeliveryId
  | .sendAccepted acceptance => some acceptance.logicalDeliveryId
  | _ => none

/-- The call's own delivery: the one of its last acceptance. -/
def ownDelivery (read : List SignalMessage.Response) : Option LogicalDeliveryId :=
  (read.filterMap accepted?).getLast?

/-- The snapshots in a response. -/
def snapshotsOf : SignalMessage.Response → List DeliverySnapshot
  | .sendsObserved observation => observation.deliverySnapshotVector
  | .sendChanged snapshot => [snapshot]
  | _ => []

/-- The response shows the delivery as Delivered. -/
def ShowsDelivered (id : LogicalDeliveryId) (response : SignalMessage.Response) : Prop :=
  ∃ snapshot ∈ snapshotsOf response, snapshot.logicalDeliveryId = id ∧
    ∃ receipt, snapshot.deliveryState = .delivered receipt

/-- The response shows the delivery as Failed. -/
def ShowsFailed (id : LogicalDeliveryId) (response : SignalMessage.Response) : Prop :=
  ∃ snapshot ∈ snapshotsOf response, snapshot.logicalDeliveryId = id ∧
    ∃ reason, snapshot.deliveryState = .failed reason

/-- What the worker remembers is its own delivery. -/
theorem stateOf_own (read : List SignalMessage.Response) :
    (stateOf read).acceptedId = ownDelivery read := by
  induction read using List.reverseRecOn with
  | nil => rfl
  | append_singleton read response ih =>
      rw [stateOf_snoc, ownDelivery, List.filterMap_append]
      show acceptedAfter (stateOf read).acceptedId response = _
      rw [ih]
      cases response with
      | sendAccepted acceptance => simp [acceptedAfter, accepted?]
      | _ => simp [acceptedAfter, accepted?, ownDelivery]

/-! ## 2. The verdict -/

/-- A result that says `isError` is borne out by the last of these responses. -/
def FairResult (read : List SignalMessage.Response) (isError : Bool) : Prop :=
  ∃ before last, read = before ++ [last] ∧
    (isError = false → (∃ receipt, last = .sent receipt) ∨
      ∃ id, ownDelivery read = some id ∧ ShowsDelivered id last ∧ ¬ ShowsFailed id last) ∧
    (isError = true → (∃ failure, last = .failed failure) ∨ (∃ refusal, last = .refused refusal) ∨
      ∃ id, ownDelivery read = some id ∧ ShowsFailed id last)

/-- A delivery that is over is Delivered or Failed. -/
theorem over_cases {state : DeliveryState} (h : state.isOver = true) :
    (∃ receipt, state = .delivered receipt) ∨ ∃ reason, state = .failed reason := by
  cases state with
  | delivered receipt => exact Or.inl ⟨receipt, rfl⟩
  | failed reason => exact Or.inr ⟨reason, rfl⟩
  | queued => cases h
  | other name => cases h

/-- The two expressions of the source, over the snapshots of a response: whether it is the last
    one, and whether it tells a failure. -/
theorem observed_last {own : Option LogicalDeliveryId} {observation : SendObservation}
    (h : terminalFor own (.sendsObserved observation) = true) :
    ∃ id, own = some id ∧
      (tellsFailure own (.sendsObserved observation) = true ↔
        ShowsFailed id (.sendsObserved observation)) ∧
      (¬ ShowsFailed id (.sendsObserved observation) →
        ShowsDelivered id (.sendsObserved observation)) := by
  cases own with
  | none => cases h
  | some id =>
      have hfailed : tellsFailure (some id) (.sendsObserved observation) = true ↔
          ShowsFailed id (.sendsObserved observation) := by
        constructor
        · intro ht
          obtain ⟨snapshot, hin, hboth⟩ := List.any_eq_true.mp ht
          obtain ⟨hid, hstate⟩ := (Bool.and_eq_true _ _).mp hboth
          have hsame : id = snapshot.logicalDeliveryId := Option.some.inj (beq_iff_eq.mp hid)
          refine ⟨snapshot, hin, hsame.symm, ?_⟩
          cases hs : snapshot.deliveryState with
          | failed reason => exact ⟨reason, rfl⟩
          | _ => rw [hs] at hstate; cases hstate
        · rintro ⟨snapshot, hin, hid, reason, hstate⟩
          refine List.any_eq_true.mpr ⟨snapshot, hin, ?_⟩
          rw [hid, hstate]
          simp
      refine ⟨id, rfl, hfailed, fun hno => ?_⟩
      obtain ⟨snapshot, hin, hboth⟩ := List.any_eq_true.mp h
      obtain ⟨hid, hover⟩ := (Bool.and_eq_true _ _).mp hboth
      refine ⟨snapshot, hin, beq_iff_eq.mp hid, ?_⟩
      rcases over_cases hover with hdelivered | ⟨reason, hstate⟩
      · exact hdelivered
      · exact absurd ⟨snapshot, hin, beq_iff_eq.mp hid, reason, hstate⟩ hno

theorem changed_last {own : Option LogicalDeliveryId} {snapshot : DeliverySnapshot}
    (h : terminalFor own (.sendChanged snapshot) = true) :
    ∃ id, own = some id ∧
      (tellsFailure own (.sendChanged snapshot) = true ↔
        ShowsFailed id (.sendChanged snapshot)) ∧
      (¬ ShowsFailed id (.sendChanged snapshot) → ShowsDelivered id (.sendChanged snapshot)) := by
  obtain ⟨hid, hover⟩ := (Bool.and_eq_true _ _).mp h
  have hown : own = some snapshot.logicalDeliveryId := beq_iff_eq.mp hid
  have hin : snapshot ∈ snapshotsOf (.sendChanged snapshot) := List.mem_singleton_self snapshot
  refine ⟨snapshot.logicalDeliveryId, hown, ?_, fun hno => ?_⟩
  · rcases over_cases hover with ⟨receipt, hs⟩ | ⟨reason, hs⟩
    · refine ⟨fun ht => ?_, fun ⟨other, hother, _, reason, hfailed⟩ => ?_⟩
      · simp [tellsFailure, hs] at ht
      · rw [List.mem_singleton.mp hother, hs] at hfailed
        cases hfailed
    · refine ⟨fun _ => ⟨snapshot, hin, rfl, reason, hs⟩, fun _ => ?_⟩
      simp [tellsFailure, hs]
  · rcases over_cases hover with hdelivered | ⟨reason, hs⟩
    · exact ⟨snapshot, hin, rfl, hdelivered⟩
    · exact absurd ⟨snapshot, hin, rfl, reason, hs⟩ hno

section Result

variable [McpCodec] {request : CallRequest} {call : Nat}

/-- The result after a last response that is not `Configured`. -/
theorem fair_last {before : List SignalMessage.Response} {last : SignalMessage.Response}
    (hlast : IsLast before last = true) (hno : last ≠ .configured) {isError : Bool}
    (hr : (finalResponse request (stateOf (before ++ [last])) last).pointer ["result", "isError"] =
      some (.bool isError)) : FairResult (before ++ [last]) isError := by
  have hflag : tellsFailure (ownDelivery (before ++ [last])) last = isError ∨
      ∃ cursor text, last = .observationInterrupted cursor text := by
    rw [← stateOf_own]
    cases last with
    | observationInterrupted cursor text => exact Or.inr ⟨cursor, text, rfl⟩
    | _ => exact Or.inl (by cases hr; rfl)
  rw [IsLast, stateOf_own] at hlast
  rcases hflag with hflag | ⟨cursor, text, rfl⟩
  · refine ⟨before, last, rfl, ?_⟩
    cases last with
    | configured => exact absurd rfl hno
    | sendAccepted acceptance => cases hlast
    | observationInterrupted cursor text => cases hr
    | sent receipt =>
        refine ⟨fun _ => Or.inl ⟨receipt, rfl⟩, fun he => ?_⟩
        rw [he] at hflag
        cases hflag
    | failed failure =>
        refine ⟨fun he => ?_, fun _ => Or.inl ⟨failure, rfl⟩⟩
        rw [he] at hflag
        cases hflag
    | refused refusal =>
        refine ⟨fun he => ?_, fun _ => Or.inr (Or.inl ⟨refusal, rfl⟩)⟩
        rw [he] at hflag
        cases hflag
    | sendsObserved observation =>
        obtain ⟨id, hown, hfailed, hdelivered⟩ := observed_last hlast
        refine ⟨fun he => Or.inr ⟨id, hown, ?_⟩, fun he => Or.inr (Or.inr ⟨id, hown, ?_⟩)⟩
        · have hnot : ¬ ShowsFailed id (.sendsObserved observation) := by
            rw [← hfailed, hflag, he]
            exact Bool.false_ne_true
          exact ⟨hdelivered hnot, hnot⟩
        · rw [← hfailed, hflag, he]
    | sendChanged snapshot =>
        obtain ⟨id, hown, hfailed, hdelivered⟩ := changed_last hlast
        refine ⟨fun he => Or.inr ⟨id, hown, ?_⟩, fun he => Or.inr (Or.inr ⟨id, hown, ?_⟩)⟩
        · have hnot : ¬ ShowsFailed id (.sendChanged snapshot) := by
            rw [← hfailed, hflag, he]
            exact Bool.false_ne_true
          exact ⟨hdelivered hnot, hnot⟩
        · rw [← hfailed, hflag, he]
  · cases hr

/-- Only the exit after a last response writes a result. -/
theorem exit_result {exit : CallExit} {read : List SignalMessage.Response} {isError : Bool}
    (hr : (exit.value request read).pointer ["result", "isError"] = some (.bool isError)) :
    ∃ response, exit = .lastResponse response := by
  cases exit with
  | lastResponse response => exact ⟨response, rfl⟩
  | _ => cases hr

/-- A progress notification is no result. -/
theorem progress_result {read : List SignalMessage.Response} {value : Value}
    (hin : value ∈ progressOf request read) {isError : Bool} :
    value.pointer ["result", "isError"] ≠ some (.bool isError) := by
  obtain ⟨i, hi, rfl⟩ := List.mem_mapIdx.mp hin
  intro he
  cases he

theorem ToldSoFar.fair {h : List McpEvent} (ht : ToldSoFar request call h)
    (hno : ∀ r ∈ (callLog h).read, r ≠ .configured) {value : Value}
    (hin : value ∈ (callLog h).told) {isError : Bool}
    (hr : value.pointer ["result", "isError"] = some (.bool isError)) :
    FairResult (callLog h).read isError := by
  rcases ht with hl | ⟨before, _, _, htold⟩ | ⟨_, before, exit, _, _, hl, hx, hread, htold⟩
  · rw [hl] at hin
    exact absurd hr (progress_result hin)
  · rw [htold] at hin
    exact absurd hr (progress_result hin)
  · rw [htold, hl] at hin
    rcases List.mem_append.mp hin with hprogress | hfinal
    · exact absurd hr (progress_result hprogress)
    · cases List.mem_singleton.mp hfinal
      obtain ⟨last, rfl⟩ := exit_result hr
      obtain ⟨earlier, hlastRead, _, hlast⟩ := hx
      rw [hread, hlastRead] at hno ⊢
      have hresult : (finalResponse request (stateOf (earlier ++ [last])) last).pointer
          ["result", "isError"] = some (.bool isError) := by
        rw [← hlastRead]
        exact hr
      exact fair_last hlast (hno last (List.mem_append_right _ (List.mem_singleton_self last)))
        hresult

end Result

/-! ## 3. What the Nexus can write to a call -/

section Nexus

variable {h : List NexusEvent}

/-- Status frames and interruptions, behind the frames `first`. -/
theorem RelayedSoFar.members {first : List SignalMessage.Response}
    {terminalId : Option LogicalDeliveryId} {fs : List StatusFrame}
    {pending : List (Except FrameError SignalFlow.Response)}
    (hr : RelayedSoFar first terminalId fs pending h)
    (hfirst : ∀ r ∈ first, r ≠ .configured) : ∀ r ∈ written h, r ≠ .configured := by
  rw [hr.wrote]
  intro r hin
  rcases List.mem_append.mp hin with hin | hin
  · exact hfirst r hin
  · obtain ⟨f, _, rfl⟩ := List.mem_map.mp hin
    cases f <;> exact fun he => by cases he

theorem tail_members {first : List SignalMessage.Response} {fs : List StatusFrame}
    {last : SignalMessage.Response} (hfirst : ∀ r ∈ first, r ≠ .configured)
    (hlast : last ≠ .configured) (hw : written h = first ++ fs.map (·.frame) ++ [last]) :
    ∀ r ∈ written h, r ≠ .configured := by
  rw [hw]
  intro r hin
  rcases List.mem_append.mp hin with hin | hin
  · rcases List.mem_append.mp hin with hin | hin
    · exact hfirst r hin
    · obtain ⟨f, _, rfl⟩ := List.mem_map.mp hin
      cases f <;> exact fun he => by cases he
  · rw [List.mem_singleton.mp hin]
    exact hlast

theorem RelayEnd.members {first : List SignalMessage.Response}
    {terminalId : Option LogicalDeliveryId} {result : Except FrameError Unit}
    (hr : RelayEnd first terminalId h result) (hfirst : ∀ r ∈ first, r ≠ .configured) :
    ∀ r ∈ written h, r ≠ .configured := by
  have hframe : ∀ f : StatusFrame, f.frame ≠ .configured := fun f => by
    cases f <;> exact fun he => by cases he
  cases hr with
  | unopened before e error hr _ hw hn ho => exact (hr.snoc e hw hn ho).members hfirst
  | cut before fs f error hr => exact tail_members hfirst (hframe f) (hr.write _ _).2
  | finished before fs f hr _ => exact tail_members hfirst (hframe f) (hr.write _ _).2
  | interrupted before fs input text result hr hends =>
      exact tail_members hfirst (fun he => by cases he) (hr.write _ _).2

theorem acceptance_members (acceptance : SendAcceptance) :
    ∀ r ∈ [(.sendAccepted acceptance : SignalMessage.Response)], r ≠ .configured := by
  intro r hin
  cases List.mem_singleton.mp hin
  exact fun he => by cases he

theorem none_members : ∀ r ∈ ([] : List SignalMessage.Response), r ≠ .configured :=
  fun r hin => by cases hin

variable [FlowDebug]

theorem SendEnd.members {request : SendRequest} {result : Except FrameError Unit}
    (he : SendEnd request h result) : ∀ r ∈ written h, r ≠ .configured := by
  cases he with
  | single before response result hs hreply =>
      rw [(written_silent hs response result).1]
      intro r hin
      cases List.mem_singleton.mp hin
      rcases (singleReply_verdict hreply).1 with ⟨_, rfl⟩ | ⟨_, rfl⟩ | ⟨_, rfl⟩ <;>
        exact fun he => by cases he
  | unaccepted before acceptance error hs hq =>
      rw [(written_silent hs _ _).1]
      exact acceptance_members acceptance
  | closed before acceptance failure result hq ha =>
      refine @tail_members _ _ [] (couldNotOpen (some acceptance.deliveryCursor) failure)
        (acceptance_members acceptance) (fun he => by cases he) ?_
      rw [written_append, ha.wrote]
      rfl
  | relayed h acceptance result hq hend => exact hend.members (acceptance_members acceptance)

theorem ObserveEnd.members {cursor : Option DeliveryCursor} {result : Except FrameError Unit}
    (he : ObserveEnd cursor h result) : ∀ r ∈ written h, r ≠ .configured := by
  cases he with
  | refused before response result hs ho hrefused =>
      obtain ⟨refusal, rfl⟩ := hrefused
      exact @tail_members _ _ [] _ none_members (fun he => by cases he) (written_silent hs _ _).1
  | closed before failure result hs ho =>
      exact @tail_members _ _ [] _ none_members (fun he => by cases he) (written_silent hs _ _).1
  | relayed h result hend => exact hend.members none_members

/-- A connection that was asked for a send or an observation never says Configured. -/
theorem connection_responses {s₀ : NexusShared} {c : NexusPool}
    (hr : Reach nexusSystem (.idle s₀) c) {t : Nat}
    {th : Thread NexusOp NexusAns ForwardLoop (Except FrameError Unit)}
    (ht : c.threads t = some th) {process : Process} {query : SignalMessage.Query}
    (ha : asked th.hist = some (process, query))
    (hq : ∀ configuration, query ≠ .configure configuration) :
    ∀ r ∈ written th.hist, r ≠ .configured := by
  have hrunning : QueryRunning query th.hist → ∀ r ∈ written th.hist, r ≠ .configured := by
    have hsend : ∀ request, SendRunning request th.hist →
        ∀ r ∈ written th.hist, r ≠ .configured := by
      rintro request (hsilent | ⟨acceptance, _, ⟨failure, ha⟩ | ⟨fs, pending, hr, _⟩⟩)
      · rw [hsilent.1]
        exact none_members
      · rw [ha.wrote]
        exact acceptance_members acceptance
      · exact hr.members (acceptance_members acceptance)
    have hobserve : ObserveRunning th.hist → ∀ r ∈ written th.hist, r ≠ .configured := by
      rintro (hsilent | ⟨fs, pending, hr, _⟩)
      · rw [hsilent.1]
        exact none_members
      · exact hr.members none_members
    intro hrun
    cases query with
    | send request => exact hsend request hrun
    | sendThread request thread => exact hsend request hrun
    | observeSends cursor => exact hobserve hrun
    | observeThread cursor thread => exact hobserve hrun
    | configure configuration => exact absurd rfl (hq configuration)
  have hended : ∀ result, QueryEnd query th.hist result →
      ∀ r ∈ written th.hist, r ≠ .configured := by
    intro result he
    cases query with
    | send request => exact he.members
    | sendThread request thread => exact he.members
    | observeSends cursor => exact he.members
    | observeThread cursor thread => exact he.members
    | configure configuration => exact absurd rfl (hq configuration)
  exact (connection_frames hr ht ha).split (P := fun _ => _) hrunning hended

/-! ## 4. No false verdict -/

/-- In every interleaving of the adapter, and against every connection of every Nexus that was
    asked the query of the call: a result is written only where the last response bears it out. -/
theorem fair_result [McpCodec] {c : McpPool} (hr : Reach mcpSystem McpPool.initial c) {call : Nat}
    {request : CallRequest} {worker : McpThreadState} (ht : c.threads (call + 1) = some worker)
    (hs : (call, request) ∈ c.shared.spawned) {s₀ : NexusShared} {nexus : NexusPool}
    (hnexus : Reach nexusSystem (.idle s₀) nexus) {t : Nat}
    {th : Thread NexusOp NexusAns ForwardLoop (Except FrameError Unit)}
    (hth : nexus.threads t = some th) {process : Process}
    (ha : asked th.hist = some (process, request.query))
    (hread : (callLog worker.hist).read <+: written th.hist) :
    ∀ value ∈ (callLog worker.hist).told, ∀ isError,
      value.pointer ["result", "isError"] = some (.bool isError) →
        FairResult (callLog worker.hist).read isError := by
  obtain ⟨params, hquery⟩ := spawned_query hr hs
  have hresponses := connection_responses hnexus hth ha fun configuration he => by
    rw [he] at hquery
    cases hquery
  have hsofar := toldSoFar (worker_told hr ht (worker_runs hr ht hs)).1
  intro value hin isError hresult
  refine hsofar.fair (fun r hmem => hresponses r ?_) hin hresult
  obtain ⟨rest, hwritten⟩ := hread
  rw [← hwritten]
  exact List.mem_append_left rest hmem

end Nexus

/-! ## 5. A call that is answered -/

/-- The queued send, asked by the sample call. -/
def sampleCallScript : NexusScript :=
  { queuedScript with
    query := .sendThread sampleSend "t1"
    flow := fun
      | .identifyThread process _ => queuedScript.flow (.identify process)
      | query => queuedScript.flow query }

def sampleCallHistory : List NexusEvent :=
  sampleCallScript.history 30 (.serving sampleConfiguration)

/-- The call of the sample messages, answered by what the Nexus writes. -/
def sampleCallPool : McpPool := answeredPool (written sampleCallHistory)

/-- The boolean `isError` of a result. -/
def isErrorOf (value : Value) : Option Bool :=
  match value.pointer ["result", "isError"] with
  | some (.bool isError) => some isError
  | _ => none

theorem isErrorOf_some {value : Value} {isError : Bool} (h : isErrorOf value = some isError) :
    value.pointer ["result", "isError"] = some (.bool isError) := by
  unfold isErrorOf at h
  split at h
  · rename_i b hb
    rw [hb, Option.some.inj h]
  · cases h

/-- The sample call reads what the Nexus writes, in which another delivery comes first. -/
theorem fair_result_delivered : ∃ worker : McpThreadState,
    sampleCallPool.threads 1 = some worker ∧ (callLog worker.hist).read.length = 3 ∧
    (∃ value ∈ (callLog worker.hist).told, isErrorOf value = some false) ∧
    FairResult (callLog worker.hist).read false := by
  have hthree : (written sampleCallHistory).length = 3 := by decide +kernel
  obtain ⟨worker, request, value, ht, hin, hquery, hread, hmem, herror⟩ :=
    @computed_told sampleCallPool sampleCallScript.query (written sampleCallHistory)
      (fun value => isErrorOf value == some false) (by decide +kernel)
  have hreach : Reach (@mcpSystem callCodec) McpPool.initial sampleCallPool :=
    answeredPool_reach (written sampleCallHistory)
  obtain ⟨pool, hpool⟩ : ∃ pool, sampleCallPool = pool := ⟨_, rfl⟩
  rw [hpool] at ht hin hreach ⊢
  have hresult := isErrorOf_some (beq_iff_eq.mp herror)
  refine ⟨worker, ht, by rw [hread, hthree], ⟨value, hmem, beq_iff_eq.mp herror⟩, ?_⟩
  refine @fair_result unitDebug callCodec pool hreach 0 request worker ht hin _ _
    (@NexusScript.pool_reach unitDebug sampleCallScript 30 (.serving sampleConfiguration) rfl) 0 _
    (@NexusScript.pool_thread unitDebug _ _ _) sampleCallScript.process ?_ ?_ value hmem false hresult
  · rw [show request.query = sampleCallScript.query from hquery]
    rfl
  · rw [hread]
    exact List.prefix_rfl

end MessageNexus
