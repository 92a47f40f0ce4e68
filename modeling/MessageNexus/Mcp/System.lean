/-
  File:      MessageNexus/Mcp/System.lean
  Subject:   THE RUNNING ADAPTER: the stdio loop, thread 0, and the workers it spawns, over the
             active map, the flags and the sockets.

  * `McpShared` -- the liveness flag, the active map and its holder, the cancellation flags, the
    sockets that are shut down, the workers that have ended, the workers that were spawned;
  * `mcpSem` -- what each operation may answer (`answers`) and does (`after`); connects, sends,
    reads, writes and lines are up to the environment;
  * `mcpSystem` -- a spawned worker starts at any later time.

  The interleaving is sequentially consistent. A flag only ever changes once, to the value that
  ends things, and what is decided by the order of two threads is decided under the map's mutex.
-/
import Mathlib.Data.List.Perm.Basic
import MessageNexus.Lib.Lock
import MessageNexus.Mcp.Stdio

namespace MessageNexus

open Interact SignalFlow SignalMessage Json

/-! ## 1. The active map -/

/-- `HashMap<String, ActiveCall>`: the entries, with distinct keys. -/
abbrev ActiveMap := List (String × ActiveCall)

namespace ActiveMap

/-- `get`. -/
def get (active : ActiveMap) (key : String) : Option ActiveCall :=
  (active.find? fun entry => entry.1 == key).map (·.2)

/-- `remove`. -/
def remove (active : ActiveMap) (key : String) : ActiveMap :=
  active.filter fun entry => entry.1 != key

/-- `insert`. -/
def insert (active : ActiveMap) (key : String) (call : ActiveCall) : ActiveMap :=
  (key, call) :: active.remove key

/-- `get_mut` and the store of an observer. -/
def observe (active : ActiveMap) (key : String) (observer : Nat) : ActiveMap :=
  active.map fun entry =>
    if entry.1 == key then (entry.1, { entry.2 with observer := some observer }) else entry

end ActiveMap

/-! ## 2. The shared state -/

structure McpShared where
  alive : Bool
  holder : Option Nat
  active : ActiveMap
  flags : Nat
  cancelled : Nat → Bool
  shut : Nat → Bool
  ended : Nat → Bool
  spawned : List (Nat × CallRequest)

/-- The start of `run`. -/
def McpShared.initial : McpShared where
  alive := true
  holder := none
  active := []
  flags := 0
  cancelled := fun _ => false
  shut := fun _ => false
  ended := fun _ => false
  spawned := []

/-- What an operation may answer; a thread can take the map's mutex while nobody holds it, and can
    join a worker that has ended. -/
def McpShared.answers (s : McpShared) : McpEvent → Prop
  | ⟨.newFlag, call⟩ => call = s.flags
  | ⟨.lenActive, length⟩ => length = s.active.length
  | ⟨.getActive key, call⟩ => call = s.active.get key
  | ⟨.activeCalls, calls⟩ => calls.Perm (s.active.map (·.2))
  | ⟨.isFinished call, finished⟩ => finished = true → s.ended call = true
  | ⟨.join call, _⟩ => s.ended call = true
  | ⟨.lockActive, _⟩ => s.holder = none
  | ⟨.loadCancelled call, flag⟩ => flag = s.cancelled call
  | ⟨.loadAlive, flag⟩ => flag = s.alive
  | _ => True

/-- What an operation of thread `t` does. -/
def McpShared.after (s : McpShared) (t : Nat) : McpOp → McpShared
  | .newFlag => { s with flags := s.flags + 1 }
  | .insertActive key call => { s with active := s.active.insert key ⟨none, call⟩ }
  | .spawn request call => { s with spawned := s.spawned ++ [(call, request)] }
  | .lockActive => { s with holder := some t }
  | .unlockActive => { s with holder := none }
  | .storeCancelled call => { s with cancelled := Function.update s.cancelled call true }
  | .storeAlive => { s with alive := false }
  | .shutdown call => { s with shut := Function.update s.shut call true }
  | .setObserver key call => { s with active := s.active.observe key call }
  | .removeActive key => { s with active := s.active.remove key }
  | .finish call => { s with ended := Function.update s.ended call true }
  | _ => s

/-- One operation of thread `t`. -/
def mcpSem (s : McpShared) (t : Nat) (e : McpEvent) (s' : McpShared) : Prop :=
  s.answers e ∧ s' = s.after t e.op

/-- The stdio loop is thread 0, and the worker of the call `n` is thread `n + 1`. -/
def mcpStart [McpCodec] (s : McpShared) (t : Nat) (p : McpThread) (s' : McpShared) : Prop :=
  s' = s ∧ ((t = 0 ∧ p = runStdio) ∨
    ∃ call request, t = call + 1 ∧ (call, request) ∈ s.spawned ∧ p = runCall request call)

/-- The adapter as a system of threads. -/
def mcpSystem [McpCodec] : System McpOp McpAns McpLoop Unit McpShared where
  body := mcpRound
  sem := mcpSem
  start := mcpStart
  halt := fun _ _ => False

abbrev McpPool := Pool McpOp McpAns McpLoop Unit McpShared
abbrev McpThreadState := Thread McpOp McpAns McpLoop Unit

/-- The adapter before its first step. -/
def McpPool.initial : McpPool := .idle .initial

/-! ## 3. Scripted runs -/

/-- What the world does in a scripted run: the lines of stdin (the loop waits after the last one),
    the answers of a worker's stream, and whether stdout can be written. -/
structure McpScript where
  lines : List String
  connect : ConnectAnswers
  clone : Except IoError Unit
  send : SendAnswers
  reads : List ReadAnswers
  written : Except IoError Unit

/-- The answer of the script to an operation after this history, if it may go on. -/
def McpScript.answer (script : McpScript) (s : McpShared) (h : List McpEvent) :
    (o : McpOp) → Option (McpAns o)
  | .readLine => (script.lines[h.countP fun e => e.op matches .readLine]?).map .ok
  | .newFlag => some s.flags
  | .lenActive => some s.active.length
  | .insertActive _ _ => some ()
  | .getActive key => some (s.active.get key)
  | .activeCalls => some (s.active.map (·.2))
  | .spawn _ _ => some ()
  | .isFinished call => some (s.ended call)
  | .join call => if s.ended call = true then some () else none
  | .lockActive => if s.holder = none then some () else none
  | .unlockActive => some ()
  | .storeCancelled _ => some ()
  | .storeAlive => some ()
  | .shutdown _ => some ()
  | .writeJson _ => some script.written
  | .loadCancelled call => some (s.cancelled call)
  | .loadAlive => some s.alive
  | .connect _ => some script.connect
  | .clone _ => some script.clone
  | .setObserver _ _ => some ()
  | .removeActive _ => some ()
  | .send _ _ => some script.send
  | .readResponse _ => script.reads[h.countP fun e => e.op matches .readResponse _]?
  | .finish _ => some ()

/-- The script keeps to what the operations may answer. -/
theorem McpScript.answer_sem (script : McpScript) (t : Nat) (s : McpShared) (h : List McpEvent)
    (o : McpOp) (a : McpAns o) (s' : McpShared)
    (ha : ((script.answer s h o).map fun a => (a, s.after t o)) = some (a, s')) :
    mcpSem s t ⟨o, a⟩ s' := by
  obtain ⟨a', hanswer, he⟩ := Option.map_eq_some_iff.mp ha
  cases he
  refine ⟨?_, rfl⟩
  cases o with
  | newFlag => cases hanswer; rfl
  | lenActive => cases hanswer; rfl
  | getActive key => cases hanswer; rfl
  | activeCalls => cases hanswer; exact List.Perm.refl _
  | isFinished call => cases hanswer; exact fun h => h
  | join call =>
      by_cases hend : s.ended call = true
      · exact hend
      · rw [McpScript.answer, if_neg hend] at hanswer
        cases hanswer
  | lockActive =>
      by_cases hfree : s.holder = none
      · exact hfree
      · rw [McpScript.answer, if_neg hfree] at hanswer
        cases hanswer
  | loadCancelled call => cases hanswer; rfl
  | loadAlive => cases hanswer; rfl
  | _ => trivial

/-- The pool in which this thread has gone on for at most `n` steps of the script. -/
def McpScript.turn [McpCodec] (script : McpScript) (n t : Nat) (c : McpPool) : McpPool :=
  match c.threads t with
  | none => c
  | some th =>
      let r := drive mcpRound (fun s h o => (script.answer s h o).map fun a => (a, s.after t o))
        n c.shared th.hist th.rest
      c.put r.1 t ⟨th.start, r.2.1, r.2.2, true⟩

theorem McpScript.turn_reach [McpCodec] (script : McpScript) (n t : Nat) {c₀ c : McpPool}
    (hr : Reach mcpSystem c₀ c) (hl : ∀ th, c.threads t = some th → th.live = true) :
    Reach mcpSystem c₀ (script.turn n t c) := by
  have hturn : script.turn n t c = c.turn mcpSystem
      (fun s h o => (script.answer s h o).map fun a => (a, s.after t o)) n t := by
    unfold McpScript.turn Pool.turn
    cases c.threads t <;> rfl
  rw [hturn]
  exact hr.turn (fun s h o a s' => script.answer_sem t s h o a s') n hl

/-- The stdio loop started. -/
def McpPool.stdio (c : McpPool) : McpPool := c.put c.shared 0 (.fresh runStdio)

theorem McpPool.stdio_reach [McpCodec] : Reach mcpSystem McpPool.initial McpPool.initial.stdio :=
  .single (.start McpPool.initial 0 runStdio _ rfl ⟨rfl, Or.inl ⟨rfl, rfl⟩⟩)

/-- The worker of a spawned call started. -/
def McpPool.worker (c : McpPool) (call : Nat) (request : CallRequest) : McpPool :=
  c.put c.shared (call + 1) (.fresh (runCall request call))

theorem McpPool.worker_reach [McpCodec] {c₀ c : McpPool} (hr : Reach mcpSystem c₀ c) {call : Nat}
    {request : CallRequest} (hs : (call, request) ∈ c.shared.spawned)
    (ht : c.threads (call + 1) = none) : Reach mcpSystem c₀ (c.worker call request) :=
  hr.tail (.start _ (call + 1) _ _ ht ⟨rfl, Or.inr ⟨call, request, rfl, hs, rfl⟩⟩)

/-- A parser that knows these messages, and a codec that knows these Send datoms. -/
@[reducible] def sampleCodec (messages : List Value) (datoms : List (String × SendRequest)) :
    McpCodec where
  fromStr line := messages.find? fun message => line == message.text ++ "\n"
  actualize text :=
    match datoms.find? fun datom => datom.1 == text with
    | some datom => .ok (.send datom.2)
    | none => .error "Unknown"
  compact
    | .configured => "Configured"
    | _ => ""
  version := "0.1.0"

/-- A request, with its id, method and parameters. -/
def requestMessage (id : Nat) (method : String) (params : Value) : Value :=
  .object [("jsonrpc", .string "2.0"), ("id", .number (.int id)), ("method", .string method),
    ("params", params)]

/-- A notification. -/
def notificationMessage (method : String) (params : Value) : Value :=
  .object [("jsonrpc", .string "2.0"), ("method", .string method), ("params", params)]

/-- The parameters of a call of this tool, in the thread `t1`, with the progress token `p1`. -/
def toolParams (name : String) (arguments : List (String × Value)) : Value :=
  .object [("name", .string name), ("arguments", .object arguments),
    ("_meta", .object [("threadId", .string "t1"), ("progressToken", .string "p1")])]

end MessageNexus
