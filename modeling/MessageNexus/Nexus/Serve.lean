/-
  File:      MessageNexus/Nexus/Serve.lean
  Subject:   THE LISTENER (`MessageNexus::serve`): it accepts connections on both sockets, spawns a
             handler for each, reaps the handlers that have finished, and at its end joins the rest.

  * `ServeOp`, `ServeAns` -- the operations of the listener and of its handlers, and their answers;
  * `ListensOnSockets.serve`, `pollRound`, `reapHandlers`, `closeListeners`, `joinHandlers` -- the
    listener;
  * `runHandler` -- the closure of a handler; it may unwind at any operation;
  * `serveSystem` -- the listener, thread 0, and the handlers over one Nexus.

  A `thread::spawn` that fails panics; that is no exit of the loop, and a spawn here succeeds.
-/
import MessageNexus.Lib.Reap
import MessageNexus.Nexus.Startup

namespace MessageNexus

open Interact SignalFlow

/-! ## 1. The operations -/

/-- What `poll` reports: a failure, told apart by `ErrorKind::Interrupted`, or which descriptors
    have events. -/
inductive PollAnswer where
  | interrupted
  | failed (error : IoError)
  | ready (signals ordinary owner : Bool)

/-- What `accept` reports; `wouldBlock` is told apart by its kind. -/
inductive AcceptAnswer where
  | accepted
  | wouldBlock
  | failed (error : IoError)

/-- The operations. The first group belongs to the listener, which numbers its handlers as it
    spawns them; the number names the control stream of the handler as well. `cloneNexus` and
    `dropNexus` are the clone and the drop of an `Arc` by the listener. The last group belongs to a
    handler: `release` drops what its closure captured, and `finish` is its return. -/
inductive ServeOp where
  | startup (o : StartOp)
  | poll
  | accept (socket : Socket)
  | tryClone
  | cloneNexus
  | dropNexus
  | spawn (socket : Socket)
  | isFinished (handler : Nat)
  | join (handler : Nat)
  | dropListener (socket : Socket)
  | shutdownBoth (handler : Nat)
  | nexus (o : NexusOp)
  | shutdownWrite
  | report (socket : Socket) (error : FrameError)
  | release
  | finish

/-- What each operation answers; a handler that unwinds at an operation gets no answer. -/
@[reducible] def ServeAns : ServeOp → Type
  | .startup o => StartAns o
  | .poll => PollAnswer
  | .accept _ => AcceptAnswer
  | .tryClone => Except IoError Unit
  | .cloneNexus => Unit
  | .dropNexus => Unit
  | .spawn _ => Nat
  | .isFinished _ => Bool
  | .join _ => Unit
  | .dropListener _ => Unit
  | .shutdownBoth _ => Unit
  | .nexus o => Option (NexusAns o)
  | .shutdownWrite => Unit
  | .report _ _ => Unit
  | .release => Unit
  | .finish => Unit

abbrev ServeProg := Prog ServeOp ServeAns
abbrev ServeEvent := Event ServeOp ServeAns

/-- One operation of the listener or of a handler. -/
abbrev serving (o : ServeOp) : ServeProg (ServeAns o) := Prog.perform o

/-- Where a loop goes round: the listener before its `poll`, in its reaping pass, behind its loop
    and at its final joins (with the handlers it keeps), and a handler in `forward_subscription`. -/
inductive ServeLoop where
  | poll (handlers : List Nat)
  | reap (handlers : List Nat) (index : Nat) (failure : Option IoError)
  | close (handlers : List Nat) (result : Except IoError Unit)
  | joins (handlers : List Nat) (result : Except IoError Unit)
  | forward (socket : Socket) (loop : ForwardLoop)

abbrev ServeThread := ServeProg (ServeLoop ⊕ Except IoError Unit)

/-! ## 2. The listener -/

/-- One ready listener: the handler it spawns, if there is a connection. -/
def acceptOne (socket : Socket) : ServeProg (Except IoError (Option Nat)) := do
  match ← serving (.accept socket) with
  | .wouldBlock => return .ok none
  | .failed error => return .error error
  | .accepted =>
    match ← serving .tryClone with
    | .error error => return .error error
    | .ok () =>
      let _ ← serving .cloneNexus
      match ← serving .tryClone with
      | .error error =>
        let _ ← serving .dropNexus
        return .error error
      | .ok () =>
        let handler ← serving (.spawn socket)
        return .ok (some handler)

/-- The listeners in turn, up to a failure: the handlers kept, and the failure. -/
def acceptReady : List (Bool × Socket) → List Nat → ServeProg (List Nat × Option IoError)
  | [], handlers => return (handlers, none)
  | (false, _) :: listeners, handlers => acceptReady listeners handlers
  | (true, socket) :: listeners, handlers => do
      match ← acceptOne socket with
      | .error error => return (handlers, some error)
      | .ok handler => acceptReady listeners (handlers ++ handler.toList)

/-- One round of the loop, up to its reaping pass. -/
def pollRound (handlers : List Nat) : ServeThread := do
  match ← serving .poll with
  | .interrupted => return .inl (.poll handlers)
  | .failed error => return .inl (.close handlers (.error error))
  | .ready true _ _ => return .inl (.close handlers (.ok ()))
  | .ready false ordinary owner =>
    let (handlers, failure) ← acceptReady [(ordinary, .ordinary), (owner, .owner)] handlers
    return .inl (.reap handlers 0 failure)

/-- Where the loop goes on after its reaping pass. -/
def afterPass (handlers : List Nat) : Option IoError → ServeLoop
  | none => .poll handlers
  | some error => .close handlers (.error error)

/-- One round of the reaping pass. -/
def reapHandlers (handlers : List Nat) (index : Nat) (failure : Option IoError) : ServeThread :=
  match handlers[index]? with
  | none => return .inl (afterPass handlers failure)
  | some handler => do
      if ← serving (.isFinished handler) then
        let _ ← serving (.join handler)
        return .inl (.reap (Reap.swapRemove handlers index) index failure)
      else return .inl (.reap handlers (index + 1) failure)

/-- The control streams are shut down. -/
def shutdownHandlers : List Nat → ServeProg Unit
  | [] => return ()
  | handler :: handlers => do
      let _ ← serving (.shutdownBoth handler)
      shutdownHandlers handlers

/-- After the loop. -/
def closeListeners (handlers : List Nat) (result : Except IoError Unit) : ServeThread := do
  let _ ← serving (.dropListener .ordinary)
  let _ ← serving (.dropListener .owner)
  shutdownHandlers handlers
  return .inl (.joins handlers result)

/-- `serve` returns, and drops its own `Arc`. -/
def leaveServe (result : Except IoError Unit) : ServeThread := do
  let _ ← serving .dropNexus
  return .inr result

/-- One round of the final joins. -/
def joinHandlers (result : Except IoError Unit) : List Nat → ServeThread
  | [] => leaveServe result
  | handler :: handlers => do
      let _ ← serving (.join handler)
      return .inl (.joins handlers result)

/-- `ListensOnSockets::serve`. -/
def ListensOnSockets.serve (bound : Configuration) : ServeThread := do
  match ← (listen bound).lift .startup fun _ a => a with
  | .error error => leaveServe (.error error)
  | .ok () => return .inl (.poll [])

/-! ## 3. The handlers -/

/-- A program of a connection, which may unwind at any operation. -/
def attempt {α : Type} : NexusProg α → ServeProg (Option α)
  | .ret a => .ret (some a)
  | .ask o k => .ask (.nexus o) fun answer => answer.elim (.ret none) fun a => attempt (k a)

/-- The closure of a handler returns, or has unwound. -/
def releaseHandler : ServeThread := do
  let _ ← serving .release
  let _ ← serving .finish
  return .inr (.ok ())

/-- A handler after its answer. -/
def endHandler (socket : Socket) (result : Except FrameError Unit) : ServeThread := do
  let _ ← serving .shutdownWrite
  match result with
  | .ok () => releaseHandler
  | .error .closed => releaseHandler
  | .error error =>
    let _ ← serving (.report socket error)
    releaseHandler

/-- A handler, up to the next round of its loop or to its end. -/
def runHandler (socket : Socket) (p : Handler) : ServeThread := do
  match ← attempt p with
  | none => releaseHandler
  | some (.inl loop) => return .inl (.forward socket loop)
  | some (.inr result) => endHandler socket result

/-- One round of a loop. -/
def serveRound [FlowDebug] : ServeLoop → ServeThread
  | .poll handlers => pollRound handlers
  | .reap handlers index failure => reapHandlers handlers index failure
  | .close handlers result => closeListeners handlers result
  | .joins handlers result => joinHandlers result handlers
  | .forward socket loop => runHandler socket (forwardRound loop)

/-! ## 4. The system -/

/-- The state of the Nexus, the strong count of its `Arc`, the sockets of the spawned handlers by
    their numbers, the handlers whose closure holds an `Arc`, and those that have returned. -/
structure ServeShared where
  nexus : NexusShared
  strong : Nat
  spawned : List Socket
  holders : List Nat
  ended : Nat → Bool

/-- A Nexus that is about to serve. -/
def ServeShared.initial (nexus : NexusShared) : ServeShared where
  nexus := nexus
  strong := 1
  spawned := []
  holders := []
  ended := fun _ => false

/-- A connection unwinds: a mutex that it holds is released, and its poison ignored. -/
def NexusShared.unwound (s : NexusShared) (t : Nat) : NexusShared :=
  { s with holder := if s.holder = some t then none else s.holder }

/-- What an operation may answer; a handler that has returned is finished, and can be joined. -/
def ServeShared.answers (s : ServeShared) : ServeEvent → Prop
  | ⟨.spawn _, handler⟩ => handler = s.spawned.length
  | ⟨.isFinished handler, finished⟩ => finished = true → s.ended handler = true
  | ⟨.join handler, _⟩ => s.ended handler = true
  | _ => True

/-- What an operation of thread `t` does, where it is none on the Nexus; handler `n` is thread
    `n + 1`. -/
def ServeShared.after (s : ServeShared) (t : Nat) : ServeOp → ServeShared
  | .cloneNexus => { s with strong := s.strong + 1 }
  | .dropNexus => { s with strong := s.strong - 1 }
  | .spawn socket =>
      { s with spawned := s.spawned ++ [socket], holders := s.spawned.length :: s.holders }
  | .release => { s with strong := s.strong - 1, holders := s.holders.erase (t - 1) }
  | .finish => { s with ended := Function.update s.ended (t - 1) true }
  | _ => s

/-- One operation of thread `t`; those on the Nexus are the ones of its connection, and one at
    which it unwinds may have taken effect. -/
def serveSem (s : ServeShared) (t : Nat) : ServeEvent → ServeShared → Prop
  | ⟨.nexus o, some a⟩, s' =>
      ∃ nexus, nexusSem s.nexus (t - 1) ⟨o, a⟩ nexus ∧ s' = { s with nexus := nexus }
  | ⟨.nexus o, none⟩, s' =>
      ∃ nexus, (nexus = s.nexus ∨ ∃ a, nexusSem s.nexus (t - 1) ⟨o, a⟩ nexus) ∧
        s' = { s with nexus := nexus.unwound (t - 1) }
  | e, s' => s.answers e ∧ s' = s.after t e.op

/-- The listener is thread 0; a spawned handler starts at any later time. -/
def serveStart [FlowDebug] (s : ServeShared) (t : Nat) (p : ServeThread) (s' : ServeShared) : Prop :=
  (t = 0 ∧ s' = s ∧ ∃ bound, s.nexus.bound = some bound ∧ p = ListensOnSockets.serve bound) ∨
    ∃ handler socket, t = handler + 1 ∧ s.spawned[handler]? = some socket ∧
      p = runHandler socket socket.handler ∧
      s' = { s with nexus := s.nexus.accepted handler socket }

/-- The listener with its handlers. -/
def serveSystem [FlowDebug] :
    System ServeOp ServeAns ServeLoop (Except IoError Unit) ServeShared where
  body := serveRound
  sem := serveSem
  start := serveStart
  halt := fun _ _ => False

abbrev ServePool := Pool ServeOp ServeAns ServeLoop (Except IoError Unit) ServeShared
abbrev ServeThreadState := Thread ServeOp ServeAns ServeLoop (Except IoError Unit)

/-- The listener before its first step. -/
def ServePool.initial (nexus : NexusShared) : ServePool := .idle (.initial nexus)

/-! ## 5. Scripted runs -/

/-- What the world does in a scripted run: the answers to the start, what each `poll` reports (the
    listener waits after the last one), and the connection that every handler meets. -/
structure ServeScript where
  startup : StartEnv
  polls : List PollAnswer
  connection : NexusScript

/-- The answer of the script to an operation of thread `t`, and the state after it. -/
def ServeScript.answer (script : ServeScript) (t : Nat) (s : ServeShared) (h : List ServeEvent) :
    (o : ServeOp) → Option (ServeAns o × ServeShared)
  | .startup o => some (script.startup o, s)
  | .poll => (script.polls[h.countP fun e => e.op matches .poll]?).map fun answer => (answer, s)
  | .accept _ => some (.accepted, s)
  | .tryClone => some (.ok (), s)
  | .cloneNexus => some ((), s.after t .cloneNexus)
  | .dropNexus => some ((), s.after t .dropNexus)
  | .spawn socket => some (s.spawned.length, s.after t (.spawn socket))
  | .isFinished handler => some (s.ended handler, s)
  | .join handler => if s.ended handler = true then some ((), s) else none
  | .dropListener _ => some ((), s)
  | .shutdownBoth _ => some ((), s)
  | .nexus o =>
      (script.connection.answer (t - 1) s.nexus [] o).map fun r =>
        (some r.1, { s with nexus := r.2 })
  | .shutdownWrite => some ((), s)
  | .report _ _ => some ((), s)
  | .release => some ((), s.after t .release)
  | .finish => some ((), s.after t .finish)

/-- The script keeps to what the operations may do. -/
theorem ServeScript.answer_sem (script : ServeScript) (t : Nat) (s : ServeShared)
    (h : List ServeEvent) (o : ServeOp) (a : ServeAns o) (s' : ServeShared)
    (ha : script.answer t s h o = some (a, s')) : serveSem s t ⟨o, a⟩ s' := by
  cases o with
  | poll =>
      obtain ⟨_, _, he⟩ := Option.map_eq_some_iff.mp ha
      cases he
      exact ⟨trivial, rfl⟩
  | spawn socket => cases ha; exact ⟨rfl, rfl⟩
  | isFinished handler => cases ha; exact ⟨fun h => h, rfl⟩
  | join handler =>
      by_cases hended : s.ended handler = true
      · rw [ServeScript.answer, if_pos hended] at ha
        cases ha
        exact ⟨hended, rfl⟩
      · rw [ServeScript.answer, if_neg hended] at ha
        cases ha
  | nexus o =>
      obtain ⟨r, hanswer, he⟩ := Option.map_eq_some_iff.mp ha
      cases he
      exact ⟨r.2, script.connection.answer_sem (t - 1) s.nexus [] o r.1 r.2 hanswer, rfl⟩
  | _ => cases ha; exact ⟨trivial, rfl⟩

section Runs

variable [FlowDebug] {c₀ c : ServePool}

/-- The pool in which this thread has gone on for at most `n` steps of the script. -/
def ServeScript.turn (script : ServeScript) (n t : Nat) (c : ServePool) : ServePool :=
  c.turn serveSystem (script.answer t) n t

theorem ServeScript.turn_reach (script : ServeScript) (n t : Nat) (hr : Reach serveSystem c₀ c)
    (hl : ∀ th, c.threads t = some th → th.live = true) :
    Reach serveSystem c₀ (script.turn n t c) :=
  hr.turn (script.answer_sem t) n hl

/-- The listener started. -/
def ServePool.listener (c : ServePool) (bound : Configuration) : ServePool :=
  c.put c.shared 0 (.fresh (ListensOnSockets.serve bound))

theorem ServePool.listener_reach (hr : Reach serveSystem c₀ c) {bound : Configuration}
    (hb : c.shared.nexus.bound = some bound) (ht : c.threads 0 = none) :
    Reach serveSystem c₀ (c.listener bound) :=
  hr.tail (.start c 0 _ _ ht (Or.inl ⟨rfl, rfl, bound, hb, rfl⟩))

/-- A spawned handler started. -/
def ServePool.handler (c : ServePool) (handler : Nat) (socket : Socket) : ServePool :=
  c.put { c.shared with nexus := c.shared.nexus.accepted handler socket } (handler + 1)
    (.fresh (runHandler socket socket.handler))

theorem ServePool.handler_reach (hr : Reach serveSystem c₀ c) {handler : Nat} {socket : Socket}
    (hs : c.shared.spawned[handler]? = some socket) (ht : c.threads (handler + 1) = none) :
    Reach serveSystem c₀ (c.handler handler socket) :=
  hr.tail (.start c (handler + 1) _ _ ht (Or.inr ⟨handler, socket, rfl, hs, rfl, rfl⟩))

theorem serve_live {nexus : NexusShared} (hr : Reach serveSystem (ServePool.initial nexus) c) :
    ∀ t th, c.threads t = some th → th.live = true :=
  hr.live fun _ _ hs => hs

end Runs

end MessageNexus
