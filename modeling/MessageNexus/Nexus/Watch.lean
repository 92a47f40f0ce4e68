/-
  File:      MessageNexus/Nexus/Watch.lean
  Subject:   THE WATCHERS (`forward_subscription` in `listener.rs`): a handler that forwards a
             subscription has a second thread, which reads the client's stream to its end and
             then shuts the Flow stream down; after its loop the handler shuts its receive half
             down and joins that thread.

  * `WatchOp`, `Half` -- the operations that `Serve.lean` leaves out, and the receive half of a
    stream, which is live or has ended with something left in its queue;
  * `watchedHandler`, `forwardWatched`, `watcherRound`, `clientProgram` -- a handler with its watcher, the
    watcher, and the client;
  * `watchSystem` -- the listener, its handlers, their watchers and the clients;
  * `watchHiding` -- the watchers hidden, this is the system of `Serve.lean`;
  * `watchReadiness` -- which operations wait for nobody.
-/
import MessageNexus.Lib.Fair
import MessageNexus.Lib.Hide
import MessageNexus.Nexus.Joined

namespace MessageNexus

open Interact SignalFlow

/-! ## 1. The operations -/

/-- The operations around a watcher. The first group belongs to the handler, the second to its
    watcher, and the last to its client, which ends what it sends, or closes its stream. -/
inductive WatchOp where
  | spawnWatcher
  | shutdownRead
  | joinWatcher
  | readClient
  | shutdownFlow
  | finishWatcher
  | endSending
  | hangUp
  deriving DecidableEq

/-- `readClient` answers how many bytes were read into a buffer of one. -/
@[reducible] def WatchAns : WatchOp → Type
  | .readClient => Except IoError Nat
  | _ => Unit

abbrev WatchEvent := Event (ServeOp ⊕ WatchOp) (SumAns ServeAns WatchAns)
abbrev WatchProg := Prog (ServeOp ⊕ WatchOp) (SumAns ServeAns WatchAns)

/-- A loop is one of the listener and its handlers, or that of a watcher. -/
abbrev WatchThread := WatchProg ((ServeLoop ⊕ Unit) ⊕ Except IoError Unit)

/-- One operation around a watcher. -/
abbrev watching (o : WatchOp) : WatchProg (WatchAns o) := Prog.perform (Sum.inr o)

/-- A part of the listener or of a handler. -/
def ofServe {α : Type} (p : ServeProg α) : WatchProg α := p.lift Sum.inl fun _ a => a

/-! ## 2. The programs -/

/-- Where a round of `Serve.lean` ends. -/
def unwatchedEnd : ServeLoop ⊕ Except IoError Unit → (ServeLoop ⊕ Unit) ⊕ Except IoError Unit
  | .inl loop => .inl (.inl loop)
  | .inr result => .inr result

/-- A program of `Serve.lean` as it stands. -/
def unwatched (p : ServeThread) : WatchThread := do
  let next ← ofServe p
  return unwatchedEnd next

/-- A handler up to its forwarding loop, whose watcher is spawned first, or to its end. -/
def watchedHandler (socket : Socket) (p : Handler) : WatchThread := do
  match ← ofServe (attempt p) with
  | none => unwatched releaseHandler
  | some (.inl loop) =>
    let _ ← watching .spawnWatcher
    return .inl (.inl (.forward socket loop))
  | some (.inr result) => unwatched (endHandler socket result)

/-- One round of the forwarding loop. After the loop the receive half is shut down, which releases
    the watcher, and the watcher is joined; a handler that unwinds leaves its watcher behind. -/
def forwardWatched [FlowDebug] (socket : Socket) (loop : ForwardLoop) : WatchThread := do
  match ← ofServe (attempt (forwardRound loop)) with
  | none => unwatched releaseHandler
  | some (.inl loop) => return .inl (.inl (.forward socket loop))
  | some (.inr result) =>
    let _ ← watching .shutdownRead
    let _ ← watching .joinWatcher
    unwatched (endHandler socket result)

/-- The watcher shuts the Flow stream down, and returns. -/
def interruptFlow : WatchThread := do
  let _ ← watching .shutdownFlow
  let _ ← watching .finishWatcher
  return .inr (.ok ())

/-- One round of the watcher: it goes on as long as it reads something. -/
def watcherRound : WatchThread := do
  match ← watching .readClient with
  | .ok 0 => interruptFlow
  | .error _ => interruptFlow
  | .ok _ => return .inl (.inr ())

/-- A client, after its request. -/
def clientProgram : WatchThread := do
  let _ ← watching .endSending
  let _ ← watching .hangUp
  return .inr (.ok ())

/-- One round of a loop. -/
def watchRound [FlowDebug] : ServeLoop ⊕ Unit → WatchThread
  | .inl (.forward socket loop) => forwardWatched socket loop
  | .inl loop => unwatched (serveRound loop)
  | .inr () => watcherRound

/-! ## 3. The system -/

/-- The receive half of a stream: it is live, or it has ended and at most so much is left that can
    still be read from it. -/
inductive Half where
  | live
  | ended (queued : Nat)
  deriving DecidableEq

/-- The half ends, with whatever is in its queue; one that has ended gets nothing more. -/
def Half.Ends : Half → Half → Prop
  | .live, half => half ≠ .live
  | .ended queued, half => half = .ended queued

/-- Something is read. -/
def Half.taken : Half → Half
  | .ended (queued + 1) => .ended queued
  | half => half

/-- What a read into a buffer of one byte may answer: nothing is read only at the end, something
    only where there is something. -/
def Half.Reads : Half → Except IoError Nat → Prop
  | .live, .ok n => n = 1
  | .ended 0, .ok n => n = 0
  | .ended (_ + 1), .ok n => n ≤ 1
  | _, .error _ => True

/-- The half after a read. -/
def Half.afterRead (half : Half) : Except IoError Nat → Half
  | .ok (_ + 1) => half.taken
  | _ => half

/-- Beside the listener and its handlers, for the connection of thread `u` of `Serve.lean`: the
    receive half of the client's stream, that of the subscription, whether the client has closed
    its stream, whether the listener has shut it down, whether a watcher was spawned, and whether
    it has returned. -/
structure WatchShared where
  serve : ServeShared
  client : Nat → Half
  flow : Nat → Half
  gone : Nat → Bool
  closed : Nat → Bool
  watched : Nat → Bool
  watcherEnded : Nat → Bool

/-- A Nexus that is about to serve. -/
def WatchShared.initial (nexus : NexusShared) : WatchShared where
  serve := .initial nexus
  client := fun _ => .live
  flow := fun _ => .live
  gone := fun _ => false
  closed := fun _ => false
  watched := fun _ => false
  watcherEnded := fun _ => false

/-- What an operation of thread `u` of `Serve.lean` meets and does on the streams: the listener
    shuts both halves of a client's stream down, and after its end the subscription gives only the
    frames that are left. -/
def WatchShared.streams (s : WatchShared) (u : Nat) : ServeEvent → WatchShared → Prop
  | ⟨.shutdownBoth handler, _⟩, s' => ∃ half, (s.client (handler + 1)).Ends half ∧
      s' = { s with
        client := Function.update s.client (handler + 1) half
        closed := Function.update s.closed (handler + 1) true }
  | ⟨.nexus .next, some (.ok _)⟩, s' =>
      s.flow u ≠ .ended 0 ∧ s' = { s with flow := Function.update s.flow u (s.flow u).taken }
  | _, s' => s' = s

/-- What the operations around the watcher of connection `u` may answer and do. -/
def WatchShared.watch (s : WatchShared) (u : Nat) :
    (o : WatchOp) → WatchAns o → WatchShared → Prop
  | .spawnWatcher, _, s' => s' = { s with watched := Function.update s.watched u true }
  | .shutdownRead, _, s' => ∃ half, (s.client u).Ends half ∧
      s' = { s with client := Function.update s.client u half }
  | .joinWatcher, _, s' => s.watcherEnded u = true ∧ s' = s
  | .readClient, answer, s' => (s.client u).Reads answer ∧
      s' = { s with client := Function.update s.client u ((s.client u).afterRead answer) }
  | .shutdownFlow, _, s' => ∃ half, (s.flow u).Ends half ∧
      s' = { s with flow := Function.update s.flow u half }
  | .finishWatcher, _, s' => s' = { s with watcherEnded := Function.update s.watcherEnded u true }
  | .endSending, _, s' => ∃ half, (s.client u).Ends half ∧
      s' = { s with client := Function.update s.client u half }
  | .hangUp, _, s' => ∃ half, (s.client u).Ends half ∧
      s' = { s with
        client := Function.update s.client u half
        gone := Function.update s.gone u true }

/-- The threads of connection `u`: the one of `Serve.lean`, its watcher, and its client. -/
def serveThread (u : Nat) : Nat := 3 * u
def watcherThread (u : Nat) : Nat := 3 * u + 1
def clientThread (u : Nat) : Nat := 3 * u + 2

@[simp] theorem serveThread_div (u : Nat) : serveThread u / 3 = u := by
  unfold serveThread
  omega

@[simp] theorem watcherThread_div (u : Nat) : watcherThread u / 3 = u := by
  unfold watcherThread
  omega

@[simp] theorem clientThread_div (u : Nat) : clientThread u / 3 = u := by
  unfold clientThread
  omega

/-- One operation of thread `t`. -/
def watchSem (s : WatchShared) (t : Nat) : WatchEvent → WatchShared → Prop
  | ⟨.inl o, a⟩, s' => ∃ u s₁ served, t = serveThread u ∧ s.streams u ⟨o, a⟩ s₁ ∧
      serveSem s.serve u ⟨o, a⟩ served ∧ s' = { s₁ with serve := served }
  | ⟨.inr o, a⟩, s' => s.watch (t / 3) o a s'

/-- The programs that may start: the listener, a handler that it has spawned, a watcher that its
    handler has spawned, and the client of an accepted connection. -/
inductive WatchStart [FlowDebug] (s : WatchShared) : Nat → WatchThread → WatchShared → Prop where
  | listener (bound : Configuration) (hb : s.serve.nexus.bound = some bound) :
      WatchStart s (serveThread 0) (unwatched (ListensOnSockets.serve bound)) s
  | handler (handler : Nat) (socket : Socket) (hs : s.serve.spawned[handler]? = some socket) :
      WatchStart s (serveThread (handler + 1)) (watchedHandler socket socket.handler)
        { s with serve := { s.serve with nexus := s.serve.nexus.accepted handler socket } }
  | watcher (u : Nat) (hu : s.watched u = true) : WatchStart s (watcherThread u) watcherRound s
  | client (handler : Nat) (hh : handler < s.serve.spawned.length) :
      WatchStart s (clientThread (handler + 1)) clientProgram s

/-- The listener and its handlers, with their watchers and their clients. -/
def watchSystem [FlowDebug] : System (ServeOp ⊕ WatchOp) (SumAns ServeAns WatchAns)
    (ServeLoop ⊕ Unit) (Except IoError Unit) WatchShared where
  body := watchRound
  sem := watchSem
  start := WatchStart
  halt := fun _ _ => False

abbrev WatchPool := Pool (ServeOp ⊕ WatchOp) (SumAns ServeAns WatchAns) (ServeLoop ⊕ Unit)
  (Except IoError Unit) WatchShared
abbrev WatchThreadState := Thread (ServeOp ⊕ WatchOp) (SumAns ServeAns WatchAns)
  (ServeLoop ⊕ Unit) (Except IoError Unit)

/-- The listener before its first step. -/
def WatchPool.initial (nexus : NexusShared) : WatchPool := .idle (.initial nexus)

/-! ## 4. The watchers hidden -/

theorem unwatched_shadows (p : ServeThread) : Shadows SameEnd (unwatched p) p := by
  induction p with
  | ret next => cases next <;> exact ⟨_, rfl, rfl⟩
  | ask o k ih => exact ⟨k, rfl, ih⟩

/-- A handler with its watcher is a handler. -/
theorem watchedHandler_shadows (socket : Socket) (p : Handler) :
    Shadows SameEnd (watchedHandler socket p) (runHandler socket p) := by
  refine (Shadows.lift (attempt p)).bind ?_
  rintro next _ rfl
  match next with
  | none => exact unwatched_shadows _
  | some (.inl loop) => exact fun _ => ⟨_, rfl, rfl⟩
  | some (.inr result) => exact unwatched_shadows _

variable [FlowDebug]

theorem forwardWatched_shadows (socket : Socket) (loop : ForwardLoop) :
    Shadows SameEnd (forwardWatched socket loop) (runHandler socket (forwardRound loop)) := by
  refine (Shadows.lift (attempt (forwardRound loop))).bind ?_
  rintro next _ rfl
  match next with
  | none => exact unwatched_shadows _
  | some (.inl loop) => exact ⟨_, rfl, rfl⟩
  | some (.inr result) => exact fun _ _ => unwatched_shadows _

theorem watchRound_shadows (loop : ServeLoop) :
    Shadows SameEnd (watchRound (.inl loop)) (serveRound loop) := by
  cases loop with
  | forward socket loop => exact forwardWatched_shadows socket loop
  | _ => exact unwatched_shadows _

omit [FlowDebug] in
/-- The other operations do nothing on the streams. -/
theorem WatchShared.streams_other {s s' : WatchShared} {u : Nat} {o : ServeOp} {a : ServeAns o}
    (hboth : ∀ handler, o ≠ .shutdownBoth handler) (hnext : o ≠ .nexus .next) :
    s.streams u ⟨o, a⟩ s' ↔ s' = s := by
  cases o with
  | shutdownBoth handler => exact absurd rfl (hboth handler)
  | nexus o =>
      cases o with
      | next => exact absurd rfl hnext
      | _ => exact Iff.rfl
  | _ => exact Iff.rfl

omit [FlowDebug] in
theorem WatchShared.watch_serve {s s' : WatchShared} {u : Nat} {o : WatchOp} {a : WatchAns o}
    (h : s.watch u o a s') : s'.serve = s.serve := by
  cases o with
  | spawnWatcher => rw [show s' = _ from h]
  | finishWatcher => rw [show s' = _ from h]
  | joinWatcher => rw [h.2]
  | readClient => rw [h.2]
  | shutdownRead => obtain ⟨_, _, rfl⟩ := h; rfl
  | shutdownFlow => obtain ⟨_, _, rfl⟩ := h; rfl
  | endSending => obtain ⟨_, _, rfl⟩ := h; rfl
  | hangUp => obtain ⟨_, _, rfl⟩ := h; rfl

/-- The watchers and the clients hidden. -/
def watchHiding : Hiding watchSystem serveSystem where
  base s := s.serve
  place := serveThread
  injective u v h := Nat.eq_of_mul_eq_mul_left (by decide) h
  body := watchRound_shadows
  act s u o a s' hs := by
    obtain ⟨v, s₁, served, hv, _, hsem, rfl⟩ := hs
    cases Nat.eq_of_mul_eq_mul_left (show 0 < 3 by decide) hv
    exact hsem
  hidden s t o a s' hs := WatchShared.watch_serve hs
  others s t o a s' hs := by
    obtain ⟨u, _, _, hu, _⟩ := hs
    exact ⟨u, hu⟩
  start s u p s' hs := by
    generalize ht : serveThread u = t at hs
    cases hs with
    | listener bound hb =>
        have hu : u = 0 := Nat.eq_of_mul_eq_mul_left (show 0 < 3 by decide) ht
        exact ⟨_, unwatched_shadows _, Or.inl ⟨hu, rfl, bound, hb, rfl⟩⟩
    | handler handler socket hs =>
        have hu : u = handler + 1 := Nat.eq_of_mul_eq_mul_left (show 0 < 3 by decide) ht
        exact ⟨_, watchedHandler_shadows _ _, Or.inr ⟨handler, socket, hu, hs, rfl, rfl⟩⟩
    | watcher v hv =>
        unfold serveThread watcherThread at ht
        omega
    | client handler hh =>
        unfold serveThread clientThread at ht
        omega
  start_hidden s t p s' ht hs := by
    cases hs with
    | listener bound hb => rfl
    | handler handler socket hs => exact absurd rfl (ht (handler + 1))
    | watcher v hv => rfl
    | client handler hh => rfl
  halt _ _ hs := hs

/-! ## 5. Scripted runs -/

/-- The half at the end of a stream from which nothing more comes. -/
def Half.close : Half → Half
  | .live => .ended 0
  | half => half

omit [FlowDebug] in
theorem Half.close_ends (half : Half) : half.Ends half.close := by
  cases half with
  | live => exact nofun
  | ended queued => rfl

/-- The answer of a script to an operation of the listener or of a handler: a subscription is silent
    as long as it is live, and has nothing left after its end. -/
def ServeScript.watchedServe (script : ServeScript) (u : Nat) (s : WatchShared)
    (h : List WatchEvent) : (o : ServeOp) → Option (ServeAns o × WatchShared)
  | .shutdownBoth handler => some ((), { s with
      client := Function.update s.client (handler + 1) (s.client (handler + 1)).close
      closed := Function.update s.closed (handler + 1) true })
  | .nexus .next => if s.flow u = .live then none else some (some (.error .closed), s)
  | o => (script.answer u s.serve (h.filterMap visible) o).map fun r => (r.1, { s with serve := r.2 })

/-- The answer to an operation around a watcher: the client sends nothing after its request. -/
def ServeScript.watch (s : WatchShared) (u : Nat) : (o : WatchOp) → Option (WatchAns o × WatchShared)
  | .spawnWatcher => some ((), { s with watched := Function.update s.watched u true })
  | .shutdownRead => some ((), { s with client := Function.update s.client u (s.client u).close })
  | .joinWatcher => if s.watcherEnded u = true then some ((), s) else none
  | .readClient => if s.client u = .live then none else some (.ok 0, s)
  | .shutdownFlow => some ((), { s with flow := Function.update s.flow u (s.flow u).close })
  | .finishWatcher =>
      some ((), { s with watcherEnded := Function.update s.watcherEnded u true })
  | .endSending => some ((), { s with client := Function.update s.client u (s.client u).close })
  | .hangUp => some ((), { s with
      client := Function.update s.client u (s.client u).close
      gone := Function.update s.gone u true })

/-- The answer of the script to an operation of thread `t`, and the state after it. -/
def ServeScript.watched (script : ServeScript) (t : Nat) (s : WatchShared) (h : List WatchEvent) :
    (o : ServeOp ⊕ WatchOp) → Option (SumAns ServeAns WatchAns o × WatchShared)
  | .inl o => if t = serveThread (t / 3) then script.watchedServe (t / 3) s h o else none
  | .inr o => ServeScript.watch s (t / 3) o

omit [FlowDebug] in
theorem ServeScript.watchedServe_sem (script : ServeScript) (u : Nat) (s : WatchShared)
    (h : List WatchEvent) (o : ServeOp) (a : ServeAns o) (s' : WatchShared)
    (ha : script.watchedServe u s h o = some (a, s')) : ∃ s₁ served, s.streams u ⟨o, a⟩ s₁ ∧
      serveSem s.serve u ⟨o, a⟩ served ∧ s' = { s₁ with serve := served } := by
  unfold ServeScript.watchedServe at ha
  split at ha
  · cases ha
    exact ⟨_, _, ⟨_, Half.close_ends _, rfl⟩, ⟨trivial, rfl⟩, rfl⟩
  · split at ha
    · cases ha
    · cases ha
      exact ⟨_, _, rfl, ⟨s.serve.nexus, rfl, rfl⟩, rfl⟩
  · rename_i hboth hnext
    obtain ⟨r, hanswer, he⟩ := Option.map_eq_some_iff.mp ha
    cases he
    exact ⟨s, r.2, (WatchShared.streams_other hboth hnext).mpr rfl,
      script.answer_sem u s.serve _ o r.1 r.2 hanswer, rfl⟩

omit [FlowDebug] in
/-- The script keeps to what the operations may do. -/
theorem ServeScript.watched_sem (script : ServeScript) (t : Nat) (s : WatchShared)
    (h : List WatchEvent) (o : ServeOp ⊕ WatchOp) (a : SumAns ServeAns WatchAns o) (s' : WatchShared)
    (ha : script.watched t s h o = some (a, s')) : watchSem s t ⟨o, a⟩ s' := by
  cases o with
  | inl o =>
      simp only [ServeScript.watched] at ha
      split at ha
      · rename_i ht
        obtain ⟨s₁, served, hstreams, hsem, hs'⟩ := script.watchedServe_sem _ s h o a s' ha
        exact ⟨t / 3, s₁, served, ht, hstreams, hsem, hs'⟩
      · cases ha
  | inr o =>
      simp only [ServeScript.watched] at ha
      cases o with
      | joinWatcher =>
          simp only [ServeScript.watch] at ha
          split at ha
          · rename_i hended
            cases ha
            exact ⟨hended, rfl⟩
          · cases ha
      | readClient =>
          simp only [ServeScript.watch] at ha
          split at ha
          · cases ha
          · rename_i hlive
            cases ha
            refine ⟨?_, ?_⟩
            · cases hc : s.client (t / 3) with
              | live => exact absurd hc hlive
              | ended queued => cases queued <;> simp [Half.Reads]
            · simp [Half.afterRead]
      | spawnWatcher => cases ha; rfl
      | finishWatcher => cases ha; rfl
      | shutdownRead => cases ha; exact ⟨_, Half.close_ends _, rfl⟩
      | shutdownFlow => cases ha; exact ⟨_, Half.close_ends _, rfl⟩
      | endSending => cases ha; exact ⟨_, Half.close_ends _, rfl⟩
      | hangUp => cases ha; exact ⟨_, Half.close_ends _, rfl⟩

/-- The pool in which this thread has gone on for at most `n` steps of the script. -/
def ServeScript.watchTurn (script : ServeScript) (n t : Nat) (c : WatchPool) : WatchPool :=
  c.turn watchSystem (script.watched t) n t

theorem ServeScript.watchTurn_reach {nexus : NexusShared} {c₀ c : WatchPool} (script : ServeScript)
    (n t : Nat) (h₀ : Reach watchSystem (WatchPool.initial nexus) c₀) (hr : Reach watchSystem c₀ c) :
    Reach watchSystem c₀ (script.watchTurn n t c) :=
  hr.turn (script.watched_sem t) n (Reach.live (fun _ _ hs => hs) (h₀.trans hr) t)

/-- The listener started. -/
def WatchPool.listener (c : WatchPool) (bound : Configuration) : WatchPool :=
  c.put c.shared (serveThread 0) (.fresh (unwatched (ListensOnSockets.serve bound)))

/-- A spawned handler started, -/
def WatchPool.handler (c : WatchPool) (handler : Nat) (socket : Socket) : WatchPool :=
  c.put { c.shared with serve := { c.shared.serve with
      nexus := c.shared.serve.nexus.accepted handler socket } } (serveThread (handler + 1))
    (.fresh (watchedHandler socket socket.handler))

omit [FlowDebug] in
/-- its watcher, -/
def WatchPool.watcher (c : WatchPool) (handler : Nat) : WatchPool :=
  c.put c.shared (watcherThread (handler + 1)) (.fresh watcherRound)

omit [FlowDebug] in
/-- and its client. -/
def WatchPool.client (c : WatchPool) (handler : Nat) : WatchPool :=
  c.put c.shared (clientThread (handler + 1)) (.fresh clientProgram)

section Starts

variable {c₀ c : WatchPool}

theorem WatchPool.listener_reach (hr : Reach watchSystem c₀ c) {bound : Configuration}
    (hb : c.shared.serve.nexus.bound = some bound) (ht : c.threads (serveThread 0) = none) :
    Reach watchSystem c₀ (c.listener bound) :=
  hr.tail (.start c _ _ _ ht (WatchStart.listener bound hb))

theorem WatchPool.handler_reach (hr : Reach watchSystem c₀ c) {handler : Nat} {socket : Socket}
    (hs : c.shared.serve.spawned[handler]? = some socket)
    (ht : c.threads (serveThread (handler + 1)) = none) :
    Reach watchSystem c₀ (c.handler handler socket) :=
  hr.tail (.start c _ _ _ ht (WatchStart.handler handler socket hs))

theorem WatchPool.watcher_reach (hr : Reach watchSystem c₀ c) {handler : Nat}
    (hw : c.shared.watched (handler + 1) = true)
    (ht : c.threads (watcherThread (handler + 1)) = none) :
    Reach watchSystem c₀ (c.watcher handler) :=
  hr.tail (.start c _ _ _ ht (WatchStart.watcher (handler + 1) hw))

theorem WatchPool.client_reach (hr : Reach watchSystem c₀ c) {handler : Nat}
    (hh : handler < c.shared.serve.spawned.length)
    (ht : c.threads (clientThread (handler + 1)) = none) :
    Reach watchSystem c₀ (c.client handler) :=
  hr.tail (.start c _ _ _ ht (WatchStart.client handler hh))

end Starts

/-- Both clients observe, and Flow sends nothing. -/
def silentScript (polls : List PollAnswer) : ServeScript :=
  { settleScript polls with connection := { clientScript with query := .observeSends none } }

/-- Two connections, and then a signal. -/
def silentPolls : List PollAnswer :=
  [.ready false true false, .ready false true false, .ready true false false]

section Silent

def acceptedPool : WatchPool :=
  @ServeScript.watchTurn unitDebug (silentScript (silentPolls.take 2)) 60 (serveThread 0)
    (@WatchPool.listener (WatchPool.initial (.serving sampleConfiguration)) sampleConfiguration)

/-- The handler of this number waits for Flow. -/
def WatchPool.observing (c : WatchPool) (handler : Nat) : WatchPool :=
  @ServeScript.watchTurn unitDebug (silentScript []) 60 (serveThread (handler + 1))
    (@WatchPool.handler unitDebug c handler .ordinary)

/-- The first client has hung up, and the listener has left its loop. -/
def signalledWatch : WatchPool :=
  @ServeScript.watchTurn unitDebug (silentScript silentPolls) 1 (serveThread 0)
    ((@ServeScript.watchTurn unitDebug (silentScript []) 60 (clientThread 1)
      (((acceptedPool.observing 0).observing 1).client 0)).client 1)

/-- The watcher of this handler has returned, and the handler after it. -/
def WatchPool.released (c : WatchPool) (handler : Nat) : WatchPool :=
  @ServeScript.watchTurn unitDebug (silentScript []) 60 (serveThread (handler + 1))
    (@ServeScript.watchTurn unitDebug (silentScript []) 60 (watcherThread (handler + 1))
      (c.watcher handler))

/-- Both have returned, and so has `serve`. -/
def stoppedWatch : WatchPool :=
  @ServeScript.watchTurn unitDebug (silentScript []) 60 (serveThread 0)
    (((@ServeScript.watchTurn unitDebug (silentScript []) 60 (serveThread 0)
      signalledWatch).released 0).released 1)

/-- The handler of this number is about to open its subscription. -/
def WatchPool.connecting (c : WatchPool) (handler : Nat) : WatchPool :=
  @ServeScript.watchTurn unitDebug (silentScript []) 5 (serveThread (handler + 1))
    (@WatchPool.handler unitDebug c handler .ordinary)

/-- The first handler is there when the listener leaves its loop. -/
def connectingWatch : WatchPool :=
  @ServeScript.watchTurn unitDebug (silentScript silentPolls) 1 (serveThread 0)
    ((((acceptedPool.connecting 0).observing 1).client 0).client 1)

/-- The second has returned, and the listener waits for the first one. -/
def blockedWatch : WatchPool :=
  (@ServeScript.watchTurn unitDebug (silentScript []) 60 (serveThread 0)
    connectingWatch).released 1

omit [FlowDebug]

theorem acceptedPool_reach : Reach (@watchSystem unitDebug)
    (WatchPool.initial (.serving sampleConfiguration)) acceptedPool :=
  @ServeScript.watchTurn_reach unitDebug _ _ _ (silentScript (silentPolls.take 2)) 60
    (serveThread 0) .refl (@WatchPool.listener_reach unitDebug _
      (WatchPool.initial (.serving sampleConfiguration)) .refl sampleConfiguration rfl rfl)

/-- A handler that has started may go on for any number of steps. -/
theorem started_reach {c : WatchPool} (n handler : Nat)
    (hr : Reach (@watchSystem unitDebug) (WatchPool.initial (.serving sampleConfiguration)) c)
    (hs : c.shared.serve.spawned[handler]? = some .ordinary)
    (ht : c.threads (serveThread (handler + 1)) = none) :
    Reach (@watchSystem unitDebug) (WatchPool.initial (.serving sampleConfiguration))
      (@ServeScript.watchTurn unitDebug (silentScript []) n (serveThread (handler + 1))
        (@WatchPool.handler unitDebug c handler .ordinary)) :=
  @ServeScript.watchTurn_reach unitDebug _ _ _ (silentScript []) n _ .refl
    (@WatchPool.handler_reach unitDebug _ _ hr _ _ hs ht)

theorem signalledWatch_reach : Reach (@watchSystem unitDebug)
    (WatchPool.initial (.serving sampleConfiguration)) signalledWatch := by
  have hfirst := started_reach 60 0 acceptedPool_reach rfl rfl
  have hsecond := started_reach 60 1 hfirst rfl rfl
  have hclient := @ServeScript.watchTurn_reach unitDebug _ _ _ (silentScript []) 60
    (clientThread 1) .refl (@WatchPool.client_reach unitDebug _ _ hsecond 0 (by decide) rfl)
  exact @ServeScript.watchTurn_reach unitDebug _ _ _ (silentScript silentPolls) 1 (serveThread 0)
    .refl (@WatchPool.client_reach unitDebug _ _ hclient 1 (by decide) rfl)

theorem connectingWatch_reach : Reach (@watchSystem unitDebug)
    (WatchPool.initial (.serving sampleConfiguration)) connectingWatch := by
  have hfirst := started_reach 5 0 acceptedPool_reach rfl rfl
  have hsecond := started_reach 60 1 hfirst rfl rfl
  have hclient := @WatchPool.client_reach unitDebug _ _ hsecond 0 (by decide) rfl
  exact @ServeScript.watchTurn_reach unitDebug _ _ _ (silentScript silentPolls) 1 (serveThread 0)
    .refl (@WatchPool.client_reach unitDebug _ _ hclient 1 (by decide) rfl)

theorem released_reach {c₀ c : WatchPool} (handler : Nat)
    (h₀ : Reach (@watchSystem unitDebug) (WatchPool.initial (.serving sampleConfiguration)) c₀)
    (hr : Reach (@watchSystem unitDebug) c₀ c) (hw : c.shared.watched (handler + 1) = true)
    (ht : c.threads (watcherThread (handler + 1)) = none) :
    Reach (@watchSystem unitDebug) c₀ (c.released handler) :=
  @ServeScript.watchTurn_reach unitDebug _ _ _ (silentScript []) 60 _ h₀
    (@ServeScript.watchTurn_reach unitDebug _ _ _ (silentScript []) 60 _ h₀
      (@WatchPool.watcher_reach unitDebug _ _ hr _ hw ht))

theorem stoppedWatch_reach : Reach (@watchSystem unitDebug) signalledWatch stoppedWatch := by
  have hclosed := @ServeScript.watchTurn_reach unitDebug _ _ _ (silentScript []) 60 (serveThread 0)
    signalledWatch_reach .refl
  have hfirst := released_reach 0 signalledWatch_reach hclosed rfl rfl
  have hsecond := released_reach 1 signalledWatch_reach hfirst rfl rfl
  exact @ServeScript.watchTurn_reach unitDebug _ _ _ (silentScript []) 60 (serveThread 0)
    signalledWatch_reach hsecond

theorem blockedWatch_reach : Reach (@watchSystem unitDebug) connectingWatch blockedWatch := by
  have hclosed := @ServeScript.watchTurn_reach unitDebug _ _ _ (silentScript []) 60 (serveThread 0)
    connectingWatch_reach .refl
  exact released_reach 1 connectingWatch_reach hclosed rfl rfl

end Silent

/-! ## 6. What waits for nobody -/

/-- The operations of the listener and of the handlers that complete by themselves. The others wait:
    for a descriptor, for a handler to end, for the store's mutex, for Flow in an exchange and in
    the opening of a subscription, which both begin with a connect that has no timeout, and in a
    live subscription, for the client as long as its stream is open. -/
def WatchShared.serveReady (s : WatchShared) (u : Nat) : ServeOp → Bool
  | .poll => false
  | .join handler => s.serve.ended handler
  | .nexus .lockStore => s.serve.nexus.holder.isNone
  | .nexus (.exchange _ _ _ _) => false
  | .nexus (.observe _ _ _) => false
  | .nexus .next => s.flow u != .live
  | .nexus .readQuery => s.client u != .live
  | .nexus .readMetaQuery => s.client u != .live
  | .nexus (.writeResponse _) => s.gone u || s.closed u
  | .nexus (.writeMetaResponse _) => s.gone u || s.closed u
  | _ => true

/-- The same of the operations around a watcher; a client does what it likes. -/
def WatchShared.watchReady (s : WatchShared) (u : Nat) : WatchOp → Bool
  | .joinWatcher => s.watcherEnded u
  | .readClient => s.client u != .live
  | .endSending => false
  | .hangUp => false
  | _ => true

/-- What is ready for thread `t`. -/
def WatchShared.ready (s : WatchShared) (t : Nat) : ServeOp ⊕ WatchOp → Prop
  | .inl o => t = serveThread (t / 3) ∧ s.serveReady (t / 3) o = true
  | .inr o => s.watchReady (t / 3) o = true

omit [FlowDebug] in
/-- Every script has an answer to what is ready. -/
theorem ServeScript.answers_serve (script : ServeScript) {s : WatchShared} {u : Nat} {o : ServeOp}
    (h : s.serveReady u o = true) : (script.watchedServe u s [] o).isSome = true := by
  cases o with
  | poll => cases h
  | join handler =>
      have hended : s.serve.ended handler = true := h
      simp [ServeScript.watchedServe, ServeScript.answer, hended]
  | nexus o =>
      cases o with
      | exchange path query timeout writeTimeout => cases h
      | observe path query writeTimeout => cases h
      | lockStore =>
          have hfree : s.serve.nexus.holder = none := Option.isNone_iff_eq_none.mp h
          simp [ServeScript.watchedServe, ServeScript.answer, NexusScript.answer, hfree]
      | next =>
          have hlive : s.flow u ≠ .live := by simpa [WatchShared.serveReady] using h
          simp [ServeScript.watchedServe, hlive]
      | matchRecords =>
          cases he : script.connection.storeError <;>
            simp [ServeScript.watchedServe, ServeScript.answer, NexusScript.answer, he]
      | readMetaQuery =>
          cases hq : script.connection.metaQuery <;>
            simp [ServeScript.watchedServe, ServeScript.answer, NexusScript.answer, hq]
      | _ => rfl
  | _ => rfl

omit [FlowDebug] in
theorem ServeScript.answers_watch {s : WatchShared} {u : Nat} {o : WatchOp}
    (h : s.watchReady u o = true) : (ServeScript.watch s u o).isSome = true := by
  cases o with
  | joinWatcher =>
      have hended : s.watcherEnded u = true := h
      simp [ServeScript.watch, hended]
  | readClient =>
      have hlive : s.client u ≠ .live := by simpa [WatchShared.watchReady] using h
      simp [ServeScript.watch, hlive]
  | endSending => cases h
  | hangUp => cases h
  | _ => rfl

/-- Which operations of the system complete by themselves. -/
def watchReadiness : Readiness watchSystem where
  ready := WatchShared.ready
  answered s t o h := by
    have hsome : ((settleScript []).watched t s [] o).isSome = true := by
      cases o with
      | inl o =>
          rw [ServeScript.watched, if_pos h.1]
          exact ServeScript.answers_serve _ h.2
      | inr o => exact ServeScript.answers_watch h
    obtain ⟨⟨a, s'⟩, ha⟩ := Option.isSome_iff_exists.mp hsome
    exact ⟨a, s', ServeScript.watched_sem _ t s [] o a s' ha⟩

end MessageNexus
