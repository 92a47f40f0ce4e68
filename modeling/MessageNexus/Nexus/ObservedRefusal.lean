/-
  File:      MessageNexus/Nexus/ObservedRefusal.lean
  Subject:   FLOW REFUSES AN OBSERVATION: the request that opens the subscription is only written, so
             Flow's refusal is the first frame of the subscription, and ends it as a foreign one.

  * `SignalMessage.Query.observes` -- the queries that open a subscription at once;
  * `RefusalTold` -- the client is told the refusal, and nothing else;
  * `observe_refusal_never` -- a refused observation is always answered as interrupted.
-/
import MessageNexus.Nexus.Frames

namespace MessageNexus

open Interact SignalFlow

/-- The thread and the cursor of a query that observes sends. -/
def SignalMessage.Query.observes :
    SignalMessage.Query → Option (Option String × Option DeliveryCursor)
  | .observeSends cursor => some (none, cursor)
  | .observeThread cursor thread => some (some thread, cursor)
  | _ => none

/-- The client is told this refusal, and nothing else. -/
def RefusalTold (refusal : SignalMessage.SendRefusal) (h : List NexusEvent) : Prop :=
  written h = [.refused refusal]

/-- A forwarding whose first frame is foreign tells an interruption, and nothing else. -/
theorem RelayEnd.foreign_first {h : List NexusEvent} {result : Except FrameError Unit}
    {response : Response} (hr : RelayEnd [] none h result)
    (hfirst : (statuses h).head? = some (.ok response)) (hforeign : EndsStream (.ok response)) :
    ∃ text, written h = [.observationInterrupted none text] := by
  -- a status frame that was passed on was not the foreign one
  have hno : ∀ (before : List NexusEvent) (fs : List StatusFrame) (f : StatusFrame)
      (outcome : Except FrameError Unit), RelayedSoFar [] none fs [.ok f.flow] before →
      h ≠ before ++ [⟨.writeResponse f.frame, outcome⟩] := by
    rintro before fs f outcome hrelayed rfl
    rw [(hrelayed.write f.frame outcome).1] at hfirst
    cases fs with
    | nil => exact hforeign f (Option.some.inj hfirst).symm
    | cons g gs => exact hforeign g (Option.some.inj hfirst).symm
  cases hr with
  | unopened before e error hrelayed _ hw hn ho =>
      rw [(hrelayed.snoc e hw hn ho).read] at hfirst
      cases hfirst
  | cut before fs f error hr => exact absurd rfl (hno before fs f _ hr)
  | finished before fs f hr _ => exact absurd rfl (hno before fs f _ hr)
  | interrupted before fs input text result hr hends =>
      obtain ⟨hread, hwrote⟩ := hr.write (.observationInterrupted (lastCursor fs) text) result
      cases fs with
      | nil => exact ⟨text, hwrote⟩
      | cons f fs =>
          rw [hread] at hfirst
          exact absurd (Option.some.inj hfirst).symm (hforeign f)

/-- Whatever way an observation ends, it does so. -/
theorem ObserveEnd.foreign_first [FlowDebug] {cursor : Option DeliveryCursor}
    {h : List NexusEvent} {result : Except FrameError Unit} {response : Response}
    (he : ObserveEnd cursor h result) (hfirst : (statuses h).head? = some (.ok response))
    (hforeign : EndsStream (.ok response)) :
    ∃ text, written h = [.observationInterrupted none text] := by
  cases he with
  | refused before response result hs ho _ =>
      rw [(written_silent hs response result).2] at hfirst
      cases hfirst
  | closed before failure result hs ho =>
      rw [(written_silent hs _ result).2] at hfirst
      cases hfirst
  | relayed h result hend => exact hend.foreign_first hfirst hforeign

/-- Refusals are foreign to a subscription. -/
theorem endsStream_refused (refusal : Refusal) : EndsStream (.ok (.refused refusal)) := by
  intro f he
  cases f <;> cases he

/-- In every interleaving, an observation that Flow refuses ends with an interruption, whatever the
    peer, the thread, the cursor and the refusal are: the client is never told the refusal. -/
theorem observe_refusal_never [FlowDebug] {s₀ : NexusShared} {c : NexusPool}
    (hr : Reach nexusSystem (.idle s₀) c) {t : Nat}
    {th : Thread NexusOp NexusAns ForwardLoop (Except FrameError Unit)}
    (ht : c.threads t = some th) {process : Process} {query : SignalMessage.Query}
    (ha : asked th.hist = some (process, query)) {thread : Option String}
    {cursor : Option DeliveryCursor} (hq : query.observes = some (thread, cursor))
    {refusal : Refusal} (hflow : (statuses th.hist).head? = some (.ok (.refused refusal)))
    (hend : ended th.rest = true) :
    (∀ told, refusalForMessage refusal = some told → ¬ RefusalTold told th.hist) ∧
      ∃ text, written th.hist = [.observationInterrupted none text] := by
  have hframes := connection_frames hr ht ha
  obtain ⟨result, hrest⟩ := ended_eq hend
  rw [hrest] at hframes
  have hinterrupted : ∃ text, written th.hist = [.observationInterrupted none text] := by
    cases query with
    | observeSends cursor => exact ObserveEnd.foreign_first hframes hflow (endsStream_refused refusal)
    | observeThread cursor thread =>
        exact ObserveEnd.foreign_first hframes hflow (endsStream_refused refusal)
    | send request => cases hq
    | sendThread request thread => cases hq
    | configure configuration => cases hq
  refine ⟨fun told _ htold => ?_, hinterrupted⟩
  obtain ⟨text, hwritten⟩ := hinterrupted
  rw [RefusalTold, hwritten] at htold
  cases htold

/-- A client observes its sends, and Flow does not know its process. -/
def unidentifiedScript : NexusScript :=
  { deliveredScript with
    query := .observeSends (some 3)
    frames := [.ok (.refused (.unidentified ⟨7, 1⟩))] }

def unidentifiedHistory : List NexusEvent :=
  unidentifiedScript.history 30 (.serving sampleConfiguration)

theorem observe_refusal_unidentified :
    ¬ RefusalTold (.unidentified ⟨7, 1⟩) unidentifiedHistory :=
  (@observe_refusal_never unitDebug _ _ (@NexusScript.pool_reach unitDebug unidentifiedScript 30 _ rfl)
    0 _ (@NexusScript.pool_thread unitDebug _ _ _) _ _ rfl _ _ rfl _ rfl rfl).1 _ rfl

/-- It is told of an interruption with no cursor, though the refusal has an image and a cursor was
    asked for. -/
theorem observe_refusal_interrupted :
    Reach (@nexusSystem unitDebug) (.idle (.serving sampleConfiguration))
      (@NexusScript.pool unitDebug unidentifiedScript 30 (.serving sampleConfiguration)) ∧
    refusalForMessage (.unidentified ⟨7, 1⟩) = some (.unidentified ⟨7, 1⟩) ∧
    statuses unidentifiedHistory = [.ok (.refused (.unidentified ⟨7, 1⟩))] ∧
    written unidentifiedHistory =
      [.observationInterrupted none "Unexpected Flow status response: "] ∧
    ¬ RefusalTold (.unidentified ⟨7, 1⟩) unidentifiedHistory := by
  refine ⟨@NexusScript.pool_reach unitDebug unidentifiedScript 30 _ rfl, rfl, rfl, rfl, ?_⟩
  intro htold
  cases htold

end MessageNexus
