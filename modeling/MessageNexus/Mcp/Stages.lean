/-
  File:      MessageNexus/Mcp/Stages.lean
  Subject:   THE STAGES OF A WORKER, as a monitor: it registers in one section of the active map,
             serves, removes its entry in another, and leaves.

  * `WorkerStage`, `workerMonitor` -- the stages and what each allows; `WorkerStage.Moves` -- which
    operations lead from one to the next;
  * `runCall_walks`, `readRound_walks`, `endCall_walks` -- the worker keeps to them;
  * `held_inside`, `takes_twice` -- where it is in a section, and how often it takes the mutex;
    `past_since` -- it does not read any more once it has removed its entry or lost its connection;
  * `worker_stages` -- every worker of every reachable pool.
-/
import MessageNexus.Lib.Monitor
import MessageNexus.Mcp.ActiveLock

namespace MessageNexus

open Interact SignalFlow SignalMessage Json

/-! ## 1. The stages of a worker -/

/-- How far a worker has come: before its registration, in it, with its observer set, serving, with
    its connection lost, in the section that removes its entry, past the removal, out of it, over. -/
inductive WorkerStage where
  | starting
  | registering
  | registered
  | serving
  | lost
  | closing
  | removed
  | leaving
  | returned
  deriving DecidableEq, Repr

namespace WorkerStage

def after : WorkerStage → McpOp → WorkerStage
  | .starting, .lockActive => .registering
  | .registering, .setObserver _ _ => .registered
  | .registering, .removeActive _ => .removed
  | .registered, .unlockActive => .serving
  | .serving, .storeCancelled _ => .lost
  | .serving, .lockActive => .closing
  | .lost, .lockActive => .closing
  | .closing, .removeActive _ => .removed
  | .removed, .unlockActive => .leaving
  | .leaving, .finish _ => .returned
  | stage, _ => stage

/-- The operations of a stage. An early exit removes the entry in the first section. -/
def allows : WorkerStage → McpOp → Bool
  | .starting, .loadCancelled _ => true
  | .starting, .loadAlive => true
  | .starting, .connect _ => true
  | .starting, .clone _ => true
  | .starting, .writeJson _ => true
  | .starting, .lockActive => true
  | .registering, .setObserver _ _ => true
  | .registering, .removeActive _ => true
  | .registered, .unlockActive => true
  | .serving, .loadCancelled _ => true
  | .serving, .loadAlive => true
  | .serving, .writeJson _ => true
  | .serving, .shutdown _ => true
  | .serving, .send _ _ => true
  | .serving, .readResponse _ => true
  | .serving, .storeCancelled _ => true
  | .serving, .lockActive => true
  | .lost, .storeAlive => true
  | .lost, .shutdown _ => true
  | .lost, .lockActive => true
  | .closing, .removeActive _ => true
  | .removed, .unlockActive => true
  | .leaving, .loadCancelled _ => true
  | .leaving, .loadAlive => true
  | .leaving, .writeJson _ => true
  | .leaving, .finish _ => true
  | _, _ => false

/-- Within a section of the active map. -/
def inside : WorkerStage → Bool
  | .registering => true
  | .registered => true
  | .closing => true
  | .removed => true
  | _ => false

/-- Behind the read loop, or on the way out of it. -/
def past : WorkerStage → Bool
  | .lost => true
  | .closing => true
  | .removed => true
  | .leaving => true
  | .returned => true
  | _ => false

/-- How often the mutex was taken at most. -/
def takings : WorkerStage → Nat
  | .starting => 0
  | .registering => 1
  | .registered => 1
  | .serving => 1
  | .lost => 1
  | _ => 2

end WorkerStage

/-- The stages of a worker as a monitor. -/
def workerMonitor : Monitor McpOp McpAns WorkerStage where
  start := .starting
  next stage e := stage.after e.op
  allows stage o := stage.allows o = true

/-- A worker that returns has finished. -/
def WorkerReturns (stage : WorkerStage) (r : McpLoop ⊕ Unit) : Prop :=
  r = .inr () ∧ stage = .returned

/-- The loop of a worker reads while it serves. -/
def WorkerStage.AtLoop (stage : WorkerStage) : McpLoop → Prop
  | .read _ _ _ => stage = .serving
  | _ => False

abbrev WorkerEnds (stage : WorkerStage) : McpLoop ⊕ Unit → Prop :=
  Monitor.Ends WorkerStage.AtLoop (fun stage _ => stage = .returned) stage

theorem WorkerReturns.ends {stage : WorkerStage} {r : McpLoop ⊕ Unit} (h : WorkerReturns stage r) :
    WorkerEnds stage r := by
  obtain ⟨rfl, hover⟩ := h
  exact hover

/-! ## 2. The worker keeps to its stages -/

section Walks

variable (request : CallRequest) (call : Nat) {stage : WorkerStage}

/-- The stages in which a worker may still remove its entry. -/
def WorkerStage.Leaves (stage : WorkerStage) : Prop :=
  stage = .starting ∨ stage = .serving ∨ stage = .lost

/-- The entry is removed in a section, whatever follows. -/
theorem removeCall_walks {α : Type} {E : WorkerStage → α → Prop} {f : Unit → McpProg α}
    (hs : stage.Leaves) (hf : workerMonitor.Walks E (f ()) .leaving) :
    workerMonitor.Walks E (removeCall request >>= f) stage := by
  rcases hs with rfl | rfl | rfl
  · exact ⟨rfl, fun _ => ⟨rfl, fun _ => ⟨rfl, fun _ => hf⟩⟩⟩
  · exact ⟨rfl, fun _ => ⟨rfl, fun _ => ⟨rfl, fun _ => hf⟩⟩⟩
  · exact ⟨rfl, fun _ => ⟨rfl, fun _ => ⟨rfl, fun _ => hf⟩⟩⟩

theorem finishCall_walks : workerMonitor.Walks WorkerReturns (finishCall call) .leaving :=
  ⟨rfl, fun _ => ⟨rfl, rfl⟩⟩

theorem leave_walks (hs : stage.Leaves) :
    workerMonitor.Walks WorkerReturns (removeCall request >>= fun _ => finishCall call) stage :=
  removeCall_walks request hs (finishCall_walks call)

theorem giveUp_walks (code : Int) (message : String) :
    workerMonitor.Walks WorkerReturns (giveUp request call code message) .starting := by
  refine ⟨rfl, fun alive => ?_⟩
  have hleave := leave_walks request call (Or.inl rfl : WorkerStage.starting.Leaves)
  cases alive with
  | false => exact hleave
  | true => exact ⟨rfl, fun _ => hleave⟩

theorem giveUpFailed_walks (error : String) (hs : stage = .starting ∨ stage = .serving) :
    workerMonitor.Walks WorkerReturns (giveUpFailed request call error) stage := by
  rcases hs with rfl | rfl
  · have hleave := leave_walks request call (Or.inl rfl : WorkerStage.starting.Leaves)
    refine ⟨rfl, fun alive => ?_⟩
    cases alive with
    | false => exact hleave
    | true => exact ⟨rfl, fun _ => ⟨rfl, fun _ => ⟨rfl, fun _ => hleave⟩⟩⟩
  · have hleave := leave_walks request call (Or.inr (Or.inl rfl) : WorkerStage.serving.Leaves)
    refine ⟨rfl, fun alive => ?_⟩
    cases alive with
    | false => exact hleave
    | true => exact ⟨rfl, fun _ => ⟨rfl, fun _ => ⟨rfl, fun _ => hleave⟩⟩⟩

/-- The end after the read loop always comes to its end. -/
theorem endCall_walks (state : ReadState) (final : Option Value) (hs : stage.Leaves) :
    workerMonitor.Walks WorkerReturns (endCall request call state final) stage := by
  refine removeCall_walks request hs ?_
  have hfinish := finishCall_walks call
  cases final with
  | some response => exact ⟨rfl, fun _ => hfinish⟩
  | none =>
      refine ⟨rfl, fun cancelled => ?_⟩
      cases cancelled with
      | false => exact hfinish
      | true =>
          refine ⟨rfl, fun alive => ?_⟩
          cases alive with
          | false => exact hfinish
          | true => exact ⟨rfl, fun _ => hfinish⟩

theorem endCall_ends (state : ReadState) (final : Option Value) (hs : stage.Leaves) :
    workerMonitor.Walks WorkerEnds (endCall request call state final) stage :=
  (endCall_walks request call state final hs).mono fun _ _ => WorkerReturns.ends

variable [McpCodec]

theorem tellResponse_walks (state : ReadState) (response : SignalMessage.Response) :
    workerMonitor.Walks WorkerEnds (tellResponse request call state response) .serving := by
  refine ⟨rfl, fun written => ?_⟩
  cases written with
  | error error =>
      refine ⟨rfl, fun _ => ⟨rfl, fun _ => ⟨rfl, fun _ => ?_⟩⟩⟩
      exact endCall_ends request call state none (Or.inr (Or.inr rfl))
  | ok _ =>
      show workerMonitor.Walks WorkerEnds (if terminalFor state.acceptedId response then _ else _) _
      by_cases hlast : terminalFor state.acceptedId response = true
      · rw [if_pos hlast]
        exact endCall_ends request call _ _ (Or.inr (Or.inl rfl))
      · rw [if_neg hlast]
        rfl

theorem readRound_walks (state : ReadState) :
    workerMonitor.Walks WorkerEnds (readRound request call state) .serving := by
  refine ⟨rfl, fun cancelled => ?_⟩
  cases cancelled with
  | true => exact endCall_ends request call state none (Or.inr (Or.inl rfl))
  | false =>
      refine ⟨rfl, fun answers => ?_⟩
      dsimp only [Prog.bind]
      cases readResponseResult answers with
      | ok response => exact tellResponse_walks request call _ response
      | error error =>
          refine ⟨rfl, fun cancelled => ?_⟩
          cases cancelled with
          | true => exact endCall_ends request call state none (Or.inr (Or.inl rfl))
          | false =>
              exact endCall_ends request call state (some (brokenResponse request state error))
                (Or.inr (Or.inl rfl))

omit [McpCodec] in
theorem runRegistered_walks :
    workerMonitor.Walks WorkerEnds (runRegistered request call) .serving := by
  refine ⟨rfl, fun cancelled => ?_⟩
  cases cancelled with
  | true => exact ⟨rfl, fun _ => rfl⟩
  | false =>
      refine ⟨rfl, fun answers => ?_⟩
      dsimp only [Prog.bind]
      cases sendResult answers with
      | error error =>
          exact (giveUpFailed_walks request call error (Or.inr rfl)).mono fun _ _ => WorkerReturns.ends
      | ok _ => rfl

omit [McpCodec] in
theorem runCall_walks : workerMonitor.Walks WorkerEnds (runCall request call) .starting := by
  refine ⟨rfl, fun cancelled => ?_⟩
  cases cancelled with
  | true => exact (giveUp_walks request call _ _).mono fun _ _ => WorkerReturns.ends
  | false =>
      refine ⟨rfl, fun answers => ?_⟩
      dsimp only [Prog.bind]
      cases connectResult answers with
      | error error =>
          exact (giveUpFailed_walks request call error (Or.inl rfl)).mono fun _ _ => WorkerReturns.ends
      | ok _ =>
          refine ⟨rfl, fun clone => ?_⟩
          cases clone with
          | error error => exact (giveUp_walks request call _ _).mono fun _ _ => WorkerReturns.ends
          | ok _ =>
              refine ⟨rfl, fun _ => ⟨rfl, fun _ => ⟨rfl, fun _ => ?_⟩⟩⟩
              exact runRegistered_walks request call

theorem mcpRound_walks (l : McpLoop) (stage : WorkerStage) (hl : stage.AtLoop l) :
    workerMonitor.Walks WorkerEnds (mcpRound l) stage := by
  cases l with
  | read request call state =>
      cases (show stage = .serving from hl)
      exact readRound_walks request call state
  | _ => exact hl.elim

end Walks

/-! ## 3. What the stages tell -/

/-- The event takes the mutex of the active map. -/
def takesActive (e : McpEvent) : Bool := e.op.acquiresActive

/-- The operations that leave every stage as it is. -/
def McpOp.still : McpOp → Bool
  | .lockActive => false
  | .setObserver _ _ => false
  | .removeActive _ => false
  | .unlockActive => false
  | .storeCancelled _ => false
  | .finish _ => false
  | _ => true

theorem WorkerStage.after_still (stage : WorkerStage) {o : McpOp} (ho : o.still = true) :
    stage.after o = stage := by
  cases o with
  | lockActive => cases ho
  | setObserver key call => cases ho
  | removeActive key => cases ho
  | unlockActive => cases ho
  | storeCancelled call => cases ho
  | finish call => cases ho
  | _ => cases stage <;> rfl

/-- The operations that move a stage, and from where to where. -/
inductive WorkerStage.Moves : WorkerStage → McpOp → WorkerStage → Prop where
  | register : Moves .starting .lockActive .registering
  | observe (key : String) (call : Nat) : Moves .registering (.setObserver key call) .registered
  | serve : Moves .registered .unlockActive .serving
  | lose (call : Nat) : Moves .serving (.storeCancelled call) .lost
  | close : Moves .serving .lockActive .closing
  | abandon : Moves .lost .lockActive .closing
  | giveUp (key : String) : Moves .registering (.removeActive key) .removed
  | remove (key : String) : Moves .closing (.removeActive key) .removed
  | leave : Moves .removed .unlockActive .leaving
  | finish (call : Nat) : Moves .leaving (.finish call) .returned

theorem WorkerStage.moves {stage : WorkerStage} {o : McpOp} (h : stage.allows o = true) :
    o.still = true ∨ stage.Moves o (stage.after o) := by
  cases o with
  | lockActive =>
      right
      cases stage with
      | starting => exact .register
      | serving => exact .close
      | lost => exact .abandon
      | _ => cases h
  | setObserver key call =>
      right
      cases stage with
      | registering => exact .observe key call
      | _ => cases h
  | removeActive key =>
      right
      cases stage with
      | registering => exact .giveUp key
      | closing => exact .remove key
      | _ => cases h
  | unlockActive =>
      right
      cases stage with
      | registered => exact .serve
      | removed => exact .leave
      | _ => cases h
  | storeCancelled call =>
      right
      cases stage with
      | serving => exact .lose call
      | _ => cases h
  | finish call =>
      right
      cases stage with
      | leaving => exact .finish call
      | _ => cases h
  | _ => exact Or.inl rfl

/-- In a section a worker moves on with every operation. -/
theorem WorkerStage.inside_moves {stage : WorkerStage} {o : McpOp} (h : stage.allows o = true)
    (hin : stage.inside = true) : stage.Moves o (stage.after o) := by
  refine (WorkerStage.moves h).resolve_left fun hstill => ?_
  cases stage with
  | registering =>
      cases o <;> first | exact Bool.false_ne_true hstill | exact Bool.false_ne_true h
  | registered =>
      cases o <;> first | exact Bool.false_ne_true hstill | exact Bool.false_ne_true h
  | closing =>
      cases o <;> first | exact Bool.false_ne_true hstill | exact Bool.false_ne_true h
  | removed =>
      cases o <;> first | exact Bool.false_ne_true hstill | exact Bool.false_ne_true h
  | _ => cases hin

/-- A stage counts how often the mutex was taken. -/
theorem WorkerStage.takings_after {stage : WorkerStage} {o : McpOp} (h : stage.allows o = true) :
    stage.takings + (if o.acquiresActive then 1 else 0) ≤ (stage.after o).takings := by
  rcases WorkerStage.moves h with hstill | hmoves
  · rw [stage.after_still hstill]
    cases o with
    | lockActive => cases hstill
    | _ => exact Nat.le_refl _
  · generalize stage.after o = stage' at hmoves
    cases hmoves <;> simp [takings, McpOp.acquiresActive]

/-- No worker takes the mutex more often than twice. -/
theorem takes_twice {h : List McpEvent} (hi : Issued workerMonitor.Place h) :
    h.countP takesActive ≤ (workerMonitor.state h).takings := by
  refine issued_induction (P := fun h => h.countP takesActive ≤ (workerMonitor.state h).takings)
    (Nat.le_refl _) ?_ h hi
  intro h e _ hplace ih
  have hstep := WorkerStage.takings_after hplace
  rw [List.countP_append, List.countP_singleton, workerMonitor.state_snoc]
  exact (Nat.add_le_add_right ih _).trans hstep

theorem WorkerStage.takings_le (stage : WorkerStage) : stage.takings ≤ 2 := by
  cases stage <;> decide

section Held

variable [McpCodec]

/-- The section is open in the stages that say so. -/
theorem WorkerStage.inside_after {stage : WorkerStage} {o : McpOp} (h : stage.allows o = true) :
    activeMutex.after stage.inside o = (stage.after o).inside := by
  rcases WorkerStage.moves h with hstill | hmoves
  · rw [stage.after_still hstill]
    cases o with
    | lockActive => cases hstill
    | unlockActive => cases hstill
    | _ => rfl
  · generalize stage.after o = stage' at hmoves
    cases hmoves <;> rfl

/-- A worker is in its section in these stages only. -/
theorem held_inside {h : List McpEvent} (hi : Issued workerMonitor.Place h) :
    activeMutex.held h = (workerMonitor.state h).inside := by
  refine issued_induction (P := fun h => activeMutex.held h = (workerMonitor.state h).inside)
    rfl ?_ h hi
  intro h e _ hplace ih
  rw [activeMutex.held_snoc, workerMonitor.state_snoc, ih]
  exact WorkerStage.inside_after hplace

end Held

/-- What is behind the read loop stays so. -/
theorem WorkerStage.past_after {stage : WorkerStage} (h : stage.past = true) (o : McpOp) :
    (stage.after o).past = true := by
  cases stage with
  | lost => cases o <;> rfl
  | closing => cases o <;> rfl
  | removed => cases o <;> rfl
  | leaving => cases o <;> rfl
  | returned => rfl
  | _ => cases h

/-- A worker that has removed its entry, or set its own flag, is past its read loop. -/
theorem past_since {h : List McpEvent} (hi : Issued workerMonitor.Place h) {e : McpEvent}
    (hin : e ∈ h) (he : (∃ key, e.op = .removeActive key) ∨ ∃ n, e.op = .storeCancelled n) :
    (workerMonitor.state h).past = true := by
  refine workerMonitor.since (P := fun stage => stage.past = true)
    (fun stage e hp => WorkerStage.past_after hp e.op) (fun stage hplace => ?_) hi hin
  show (stage.after e.op).past = true
  have hmoves := WorkerStage.moves hplace
  generalize stage.after e.op = stage' at hmoves
  rcases he with ⟨key, hop⟩ | ⟨n, hop⟩
  · rw [hop] at hmoves
    rcases hmoves with hstill | hmoves
    · cases hstill
    · cases hmoves <;> rfl
  · rw [hop] at hmoves
    rcases hmoves with hstill | hmoves
    · cases hstill
    · cases hmoves
      rfl

/-- A worker that is over has finished. -/
theorem finished_of_returned {h : List McpEvent} (hi : Issued workerMonitor.Place h)
    (hover : workerMonitor.state h = .returned) : ∃ call, (⟨.finish call, ()⟩ : McpEvent) ∈ h := by
  obtain ⟨before, ⟨o, a⟩, after, rfl, hne, hend⟩ :=
    workerMonitor.entered (P := fun stage => stage = .returned) (fun h => by cases h) hover
  have hplace : (workerMonitor.state before).allows o = true := Along.at hi
  have hlast : (workerMonitor.state before).after o = .returned := hend
  rcases WorkerStage.moves hplace with hstill | hmoves
  · rw [WorkerStage.after_still _ hstill] at hlast
    exact absurd hlast hne
  · rw [hlast] at hmoves
    generalize workerMonitor.state before = stage at hmoves
    cases hmoves
    exact ⟨_, List.mem_append_right _ List.mem_cons_self⟩

/-- and one that has finished is over. -/
theorem returned_of_finished {h : List McpEvent} (hi : Issued workerMonitor.Place h) {call : Nat}
    (hin : (⟨.finish call, ()⟩ : McpEvent) ∈ h) : workerMonitor.state h = .returned := by
  refine workerMonitor.since (P := fun stage => stage = .returned) ?_ (fun stage hplace => ?_) hi hin
  · rintro _ e rfl
    rfl
  · have hmoves := WorkerStage.moves hplace
    show stage.after (.finish call) = .returned
    generalize stage.after (.finish call) = stage' at hmoves ⊢
    rcases hmoves with hstill | hmoves
    · cases hstill
    · cases hmoves
      rfl

/-- The stages of a worker, in any reachable pool. -/
theorem worker_stages [McpCodec] {c : McpPool} (hr : Reach mcpSystem McpPool.initial c) {call : Nat}
    {th : McpThreadState} (ht : c.threads (call + 1) = some th) :
    Issued workerMonitor.Place th.hist ∧
      Holds anyAnswer workerMonitor.Place (fun r h => WorkerEnds (workerMonitor.state h) r)
        th.rest th.hist := by
  obtain ⟨request, _, hstart⟩ := worker_started hr ht
  refine hr.walks mcpRound_walks ht ?_
  rw [hstart]
  exact runCall_walks request call

theorem worker_issued [McpCodec] {c : McpPool} (hr : Reach mcpSystem McpPool.initial c) (call : Nat) :
    Issued workerMonitor.Place (c.hist (call + 1)) := by
  cases ht : c.threads (call + 1) with
  | none =>
      rw [Pool.hist, ht]
      trivial
  | some th =>
      rw [Pool.hist_of ht]
      exact (worker_stages hr ht).1

end MessageNexus
