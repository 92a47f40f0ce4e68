/-
  File:      MessageNexus/Mcp/Stdio.lean
  Subject:   THE STDIO LOOP (`ServesMcpStdio::run`): it reads lines, answers, cancels and dispatches
             calls, reaps their workers, and at its end cancels and joins what is left.

  * `linesRound`, `reapRound`, `joinsRound` -- one round of each of its three loops;
  * `cancelCalls` -- the flag and the observer of each of these calls;
  * `mcpRound` -- one round of any loop of the adapter.
-/
import MessageNexus.Lib.Reap
import MessageNexus.Mcp.Worker

namespace MessageNexus

open Interact SignalFlow SignalMessage Json

def maxActiveCalls : Nat := 16

/-! ## 1. The end of the lines -/

/-- The flag of each call is set, and its observer, where it has one, shut down. -/
def cancelCalls : List ActiveCall → McpProg Unit
  | [] => return ()
  | call :: rest => do
      let _ ← act (.storeCancelled call.cancelled)
      match call.observer with
      | some observer =>
        let _ ← act (.shutdown observer)
        cancelCalls rest
      | none => cancelCalls rest

/-- Calls are cancelled with two operations only. -/
theorem cancelCalls_uses {P : McpOp → Prop} (hstore : ∀ n, P (.storeCancelled n))
    (hshut : ∀ n, P (.shutdown n)) (calls : List ActiveCall) : Uses P (cancelCalls calls) := by
  induction calls with
  | nil => trivial
  | cons call rest ih =>
      obtain ⟨observer, cancelled⟩ := call
      cases observer with
      | none => exact ⟨hstore cancelled, fun _ => ih⟩
      | some socket => exact ⟨hstore cancelled, fun _ => ⟨hshut socket, fun _ => ih⟩⟩

/-- The end of the loop over the lines: every active call is cancelled, and the workers are
    joined. -/
def endLines (workers : List Nat) : McpThread := do
  let _ ← act .storeAlive
  let _ ← act .lockActive
  let calls ← act .activeCalls
  cancelCalls calls
  let _ ← act .unlockActive
  return .inl (.joins workers)

/-- The connection is given up: a failed read or write, or the end of the input. -/
def loseConnection (workers : List Nat) : McpThread := do
  let _ ← act .storeAlive
  endLines workers

/-! ## 2. The lines -/

/-- `notifications/cancelled`: the named call, if it is active. -/
def cancelNamed (input : Value) : McpProg Unit := do
  match input.pointer ["params", "requestId"] with
  | none => return ()
  | some requestId =>
    let _ ← act .lockActive
    let call ← act (.getActive requestId.text)
    cancelCalls call.toList
    let _ ← act .unlockActive

/-- A cancellation is a look at the map, in its section. -/
theorem cancelNamed_uses {P : McpOp → Prop} (hlock : P .lockActive)
    (hget : ∀ key, P (.getActive key)) (hstore : ∀ n, P (.storeCancelled n))
    (hshut : ∀ n, P (.shutdown n)) (hunlock : P .unlockActive) (input : Value) :
    Uses P (cancelNamed input) := by
  unfold cancelNamed
  cases input.pointer ["params", "requestId"] with
  | none => trivial
  | some requestId =>
      refine ⟨hlock, fun _ => ⟨hget requestId.text, fun call => ?_⟩⟩
      exact (cancelCalls_uses hstore hshut call.toList).bind fun _ => ⟨hunlock, fun _ => trivial⟩

/-- An answer of the loop itself, and where it goes on. -/
def answerLine (workers : List Nat) (response : Value) (next : McpLoop) : McpThread := do
  match ← act (.writeJson response) with
  | .error _ => loseConnection workers
  | .ok () => return .inl next

/-- A call that passed the checks: refused if too many are active, else given a flag, an entry and
    a worker. -/
def dispatchCall (adapter : Adapter) (workers : List Nat) (request : CallRequest) : McpThread := do
  let _ ← act .lockActive
  let active ← act .lenActive
  let _ ← act .unlockActive
  if active ≥ maxActiveCalls then
    answerLine workers (rpcError request.id (-32000) "Too many active Send observers")
      (.lines adapter workers)
  else
    let call ← act .newFlag
    let _ ← act .lockActive
    let _ ← act (.insertActive request.key call)
    let _ ← act .unlockActive
    let _ ← act (.spawn request call)
    return .inl (.reap adapter (workers ++ [call]) 0)

section Loop

variable [McpCodec]

/-- A line that parsed. -/
def dispatchInput (adapter : Adapter) (workers : List Nat) (input : Value) : McpThread :=
  if methodOf input = some "notifications/cancelled" then do
    cancelNamed input
    return .inl (.lines adapter workers)
  else if methodOf input = some "tools/call" then
    match adapter.callRequest input with
    | .error response => answerLine workers response (.lines adapter workers)
    | .ok (request, adapter) => dispatchCall adapter workers request
  else
    match adapter.synchronous input with
    | (some response, adapter) => answerLine workers response (.reap adapter workers 0)
    | (none, adapter) => return .inl (.reap adapter workers 0)

/-- A line of the input. -/
def dispatchLine (adapter : Adapter) (workers : List Nat) (line : String) : McpThread :=
  match McpCodec.fromStr line with
  | none => answerLine workers (rpcError .null (-32700) "Parse error") (.lines adapter workers)
  | some input => dispatchInput adapter workers input

/-- One round of the loop over the lines. -/
def linesRound (adapter : Adapter) (workers : List Nat) : McpThread := do
  match ← act .readLine with
  | .error _ => loseConnection workers
  | .ok line =>
    if line = "" then loseConnection workers
    else if maxLine < line.utf8ByteSize then endLines workers
    else dispatchLine adapter workers line

end Loop

/-! ## 3. The workers -/

/-- One round of the reaping pass. -/
def reapRound (adapter : Adapter) (workers : List Nat) (index : Nat) : McpThread :=
  match workers[index]? with
  | none => return .inl (.lines adapter workers)
  | some worker => do
      if ← act (.isFinished worker) then
        let _ ← act (.join worker)
        return .inl (.reap adapter (Reap.swapRemove workers index) index)
      else return .inl (.reap adapter workers (index + 1))

/-- One round of the final joins. -/
def joinsRound : List Nat → McpThread
  | [] => return .inr ()
  | worker :: workers => do
      let _ ← act (.join worker)
      return .inl (.joins workers)

/-- One round of a loop. -/
def mcpRound [McpCodec] : McpLoop → McpThread
  | .lines adapter workers => linesRound adapter workers
  | .reap adapter workers index => reapRound adapter workers index
  | .joins workers => joinsRound workers
  | .read request call state => readRound request call state

/-- `ServesMcpStdio::run`. -/
def runStdio : McpThread := .ret (.inl (.lines .new []))

end MessageNexus
