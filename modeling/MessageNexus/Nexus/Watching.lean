/-
  File:      MessageNexus/Nexus/Watching.lean
  Subject:   WHAT A HANDLER AND ITS WATCHER MAY DO, stage by stage, and which thread is what.

  * `HandlerStage`, `handlerMonitor` -- a handler on its way through its request, its forwarding
    loop, the end of its watcher, and its return;
  * `WatcherStage`, `watcherMonitor` -- a watcher;
  * `WatchShared.Grows` -- what no step undoes;
  * `WatchKind`, `watch_kind` -- which thread is what; `listener_watched`, `handler_stages`,
    `watcher_stages` -- and what each keeps to in every interleaving.
-/
import MessageNexus.Nexus.Section
import MessageNexus.Nexus.Watch

namespace MessageNexus

open Interact SignalFlow

/-! ## 1. The stages of a handler -/

/-- Where a handler is: at its request, in its forwarding loop, at the end of its watcher, and on
    its way out or back; `detached` says that it has unwound and left a watcher behind. -/
inductive HandlerStage where
  | answering (stage : AnswerStage)
  | forwarding
  | closing
  | leaving (detached : Bool)
  | over (detached : Bool)
  deriving DecidableEq

/-- What an event makes of the stage. -/
def HandlerStage.after : HandlerStage → WatchEvent → HandlerStage
  | .answering stage, ⟨.inl (.nexus o), some _⟩ => .answering (stage.after o)
  | .answering _, ⟨.inl (.nexus _), none⟩ => .leaving false
  | .answering _, ⟨.inr .spawnWatcher, _⟩ => .forwarding
  | .answering _, ⟨.inl .finish, _⟩ => .over false
  | .forwarding, ⟨.inl (.nexus _), none⟩ => .leaving true
  | .forwarding, ⟨.inr .shutdownRead, _⟩ => .closing
  | .closing, ⟨.inr .joinWatcher, _⟩ => .leaving false
  | .leaving detached, ⟨.inl .finish, _⟩ => .over detached
  | stage, _ => stage

/-- The operations with which a handler returns. -/
def ServeOp.ends : ServeOp → Bool
  | .shutdownWrite => true
  | .report _ _ => true
  | .release => true
  | .finish => true
  | _ => false

/-- What a forwarding loop asks. -/
def NexusOp.forwards : NexusOp → Bool
  | .next => true
  | .writeResponse _ => true
  | _ => false

/-- What may come in a stage. -/
def HandlerStage.Allows : HandlerStage → ServeOp ⊕ WatchOp → Prop
  | .answering stage, .inl (.nexus o) => stage.Allows o
  | .answering stage, .inl o => stage.Clear ∧ o.ends = true
  | .answering stage, .inr o => stage.Clear ∧ o = .spawnWatcher
  | .forwarding, .inl (.nexus o) => o.forwards = true
  | .forwarding, .inr o => o = .shutdownRead
  | .closing, .inr o => o = .joinWatcher
  | .leaving _, .inl o => o.ends = true
  | _, _ => False

def handlerMonitor : Monitor (ServeOp ⊕ WatchOp) (SumAns ServeAns WatchAns) HandlerStage where
  start := .answering .unread
  next := HandlerStage.after
  allows := HandlerStage.Allows

/-- A handler keeps to its stages from this one on. -/
abbrev WalksHandler {α : Type} (E : HandlerStage → α → Prop) (p : WatchProg α)
    (stage : HandlerStage) : Prop :=
  handlerMonitor.Walks E p stage

/-- A handler goes round in its forwarding loop only, -/
def HandlerStage.AtLoop (stage : HandlerStage) : ServeLoop ⊕ Unit → Prop
  | .inl (.forward _ _) => stage = .forwarding
  | _ => False

theorem HandlerStage.AtLoop.forward {stage : HandlerStage} {l : ServeLoop ⊕ Unit}
    (h : stage.AtLoop l) : stage = .forwarding ∧ ∃ socket loop, l = .inl (.forward socket loop) := by
  match l with
  | .inl (.forward socket loop) => exact ⟨h, socket, loop, rfl⟩
  | .inl (.poll _) => exact h.elim
  | .inl (.reap _ _ _) => exact h.elim
  | .inl (.close _ _) => exact h.elim
  | .inl (.joins _ _) => exact h.elim
  | .inr () => exact h.elim

/-- and ends when it has returned. -/
def HandlerStage.Over (stage : HandlerStage) (_ : Except IoError Unit) : Prop :=
  ∃ detached, stage = .over detached

abbrev HandlerEnds (stage : HandlerStage) (r : (ServeLoop ⊕ Unit) ⊕ Except IoError Unit) : Prop :=
  Monitor.Ends HandlerStage.AtLoop HandlerStage.Over stage r

/-- A program of a handler that goes round no more. -/
def HandlerReturns (stage : HandlerStage) (r : (ServeLoop ⊕ Unit) ⊕ Except IoError Unit) : Prop :=
  ∃ result, r = .inr result ∧ stage.Over result

theorem HandlerReturns.ends {stage : HandlerStage} {r : (ServeLoop ⊕ Unit) ⊕ Except IoError Unit}
    (h : HandlerReturns stage r) : HandlerEnds stage r := by
  obtain ⟨result, rfl, hover⟩ := h
  exact hover

/-- Where a handler that has nothing more to answer may be. -/
def HandlerStage.Leaves (stage : HandlerStage) : Prop :=
  (∃ answered, stage = .answering answered ∧ answered.Clear) ∨ ∃ detached, stage = .leaving detached

theorem HandlerStage.Leaves.allows {stage : HandlerStage} (hs : stage.Leaves) {o : ServeOp}
    (ho : o.ends = true) : stage.Allows (.inl o) := by
  rcases hs with ⟨answered, rfl, hclear⟩ | ⟨detached, rfl⟩
  · cases o with
    | nexus o => cases ho
    | _ => exact ⟨hclear, ho⟩
  · exact ho

theorem HandlerStage.Leaves.stays {stage : HandlerStage} (hs : stage.Leaves) {o : ServeOp}
    (a : ServeAns o) (ho : o.ends = true) (hne : o ≠ .finish) : stage.after ⟨.inl o, a⟩ = stage := by
  rcases hs with ⟨answered, rfl, _⟩ | ⟨detached, rfl⟩
  · cases o with
    | nexus o => cases ho
    | finish => exact absurd rfl hne
    | _ => rfl
  · cases o with
    | nexus o => cases ho
    | finish => exact absurd rfl hne
    | _ => rfl

/-- There every operation but the last leaves the stage alone. -/
theorem HandlerStage.Leaves.asks {α : Type} {E : HandlerStage → α → Prop} {stage : HandlerStage}
    (hs : stage.Leaves) (o : ServeOp) (ho : o.ends = true) (hne : o ≠ .finish)
    {k : ServeAns o → WatchProg α} (hk : ∀ a, WalksHandler E (k a) stage) :
    WalksHandler E (.ask (Sum.inl o) k) stage := by
  refine ⟨hs.allows ho, fun a => ?_⟩
  rw [show handlerMonitor.next stage ⟨.inl o, a⟩ = stage from hs.stays a ho hne]
  exact hk a

theorem releaseHandler_walks {stage : HandlerStage} (hs : stage.Leaves) :
    WalksHandler HandlerReturns (unwatched releaseHandler) stage := by
  refine hs.asks .release rfl nofun fun _ => ⟨hs.allows rfl, fun _ => ⟨_, rfl, ?_⟩⟩
  rcases hs with ⟨answered, rfl, _⟩ | ⟨detached, rfl⟩
  · exact ⟨false, rfl⟩
  · exact ⟨detached, rfl⟩

theorem endHandler_walks {stage : HandlerStage} (hs : stage.Leaves) (socket : Socket)
    (result : Except FrameError Unit) :
    WalksHandler HandlerReturns (unwatched (endHandler socket result)) stage := by
  have hreport : ∀ error : FrameError, WalksHandler HandlerReturns
      (unwatched (serving (.report socket error) >>= fun _ => releaseHandler)) stage :=
    fun error => hs.asks (.report socket error) rfl nofun fun _ => releaseHandler_walks hs
  refine hs.asks .shutdownWrite rfl nofun fun _ => ?_
  cases result with
  | ok _ => exact releaseHandler_walks hs
  | error error =>
      cases error with
      | closed => exact releaseHandler_walks hs
      | io error => exact hreport (.io error)
      | archive error => exact hreport (.archive error)
      | tooLarge bytes => exact hreport (.tooLarge bytes)

/-- A program of a connection in a handler: it goes on in the stage where it ended, or unwinds. -/
theorem attempt_walks {α : Type} {E : AnswerStage → α → Prop} {p : NexusProg α}
    {stage : AnswerStage} (hp : WalksAnswer E p stage) :
    WalksHandler (fun stage' next => match next with
      | none => stage' = .leaving false
      | some a => ∃ answered, stage' = .answering answered ∧ E answered a)
      (ofServe (attempt p)) (.answering stage) := by
  induction p generalizing stage with
  | ret a => exact ⟨stage, rfl, hp⟩
  | ask o k ih =>
      refine ⟨hp.1, fun a => ?_⟩
      cases a with
      | none => exact rfl
      | some a => exact ih a (hp.2 a)

/-- A handler up to its loop or to its end. -/
theorem watchedHandler_walks (socket : Socket) {p : Handler}
    (hp : WalksAnswer EndsClear p .unread) :
    WalksHandler HandlerEnds (watchedHandler socket p) (.answering .unread) := by
  refine Monitor.Walks.bind (attempt_walks hp) fun stage next hnext => ?_
  match next with
  | none => exact (releaseHandler_walks (Or.inr ⟨false, hnext⟩)).mono fun _ _ h => h.ends
  | some (.inl loop) =>
      obtain ⟨answered, rfl, hclear⟩ := hnext
      exact ⟨⟨hclear, rfl⟩, fun _ => rfl⟩
  | some (.inr result) =>
      obtain ⟨answered, rfl, hclear⟩ := hnext
      have hleaves : HandlerStage.Leaves (.answering answered) := Or.inl ⟨answered, rfl, hclear⟩
      exact (endHandler_walks hleaves socket result).mono fun _ _ h => h.ends

theorem forwardRound_forwards [FlowDebug] (l : ForwardLoop) :
    Uses (fun o => o.forwards = true) (forwardRound l) := by
  have hanswer : ∀ response, Uses (fun o => o.forwards = true) (answerWith response) :=
    fun response => ⟨rfl, fun _ => trivial⟩
  refine ⟨rfl, fun frame => ?_⟩
  cases frame with
  | error error => exact hanswer _
  | ok response =>
      dsimp only [Prog.bind, pure, Except.mapError]
      cases forwarded l.terminalId response with
      | none => exact hanswer _
      | some frame =>
          refine ⟨rfl, fun outcome => ?_⟩
          cases outcome with
          | error error => trivial
          | ok _ => cases frame.finished <;> trivial

/-- A program of the loop in a handler. -/
theorem attempt_forwards {α : Type} {p : NexusProg α} (hp : Uses (fun o => o.forwards = true) p) :
    WalksHandler (fun stage next => stage = if next.isSome then .forwarding else .leaving true)
      (ofServe (attempt p)) .forwarding := by
  induction p with
  | ret a => exact rfl
  | ask o k ih =>
      refine ⟨hp.1, fun a => ?_⟩
      cases a with
      | none => exact rfl
      | some a => exact ih a (hp.2 a)

/-- The end of a handler that has forwarded a subscription. -/
theorem closeWatcher_walks (socket : Socket) (result : Except FrameError Unit) :
    WalksHandler HandlerReturns (do
      let _ ← watching .shutdownRead
      let _ ← watching .joinWatcher
      unwatched (endHandler socket result)) .forwarding :=
  ⟨rfl, fun _ => ⟨rfl, fun _ => endHandler_walks (Or.inr ⟨false, rfl⟩) socket result⟩⟩

theorem forwardWatched_walks [FlowDebug] (socket : Socket) (loop : ForwardLoop) :
    WalksHandler HandlerEnds (forwardWatched socket loop) .forwarding := by
  refine Monitor.Walks.bind (attempt_forwards (forwardRound_forwards loop)) fun stage next hnext => ?_
  match next with
  | none => exact (releaseHandler_walks (Or.inr ⟨true, hnext⟩)).mono fun _ _ h => h.ends
  | some (.inl loop) => exact hnext
  | some (.inr result) =>
      rw [show stage = .forwarding from hnext]
      exact (closeWatcher_walks socket result).mono fun _ _ h => h.ends

/-- Where Flow's stream gives no frame, the round is the last one. -/
theorem forwardWatched_last [FlowDebug] (socket : Socket) (loop : ForwardLoop) :
    ∃ k, forwardWatched socket loop = .ask (.inl (.nexus .next)) k ∧
      ∀ a : Option (Except FrameError Response), (∀ response, a ≠ some (.ok response)) →
        WalksHandler HandlerReturns (k a)
          (HandlerStage.after .forwarding ⟨.inl (.nexus .next), a⟩) := by
  refine ⟨_, rfl, fun a ha => ?_⟩
  match a with
  | none => exact releaseHandler_walks (Or.inr ⟨true, rfl⟩)
  | some (.ok response) => exact absurd rfl (ha response)
  | some (.error error) =>
      refine ⟨rfl, fun outcome => ?_⟩
      match outcome with
      | none => exact releaseHandler_walks (Or.inr ⟨true, rfl⟩)
      | some outcome => exact closeWatcher_walks socket outcome

theorem watchRound_walks [FlowDebug] (l : ServeLoop ⊕ Unit) (stage : HandlerStage)
    (hl : stage.AtLoop l) : WalksHandler HandlerEnds (watchRound l) stage := by
  obtain ⟨rfl, socket, loop, rfl⟩ := hl.forward
  exact forwardWatched_walks socket loop

/-! ## 2. The stages of a watcher and of a client -/

/-- Where a watcher is: it reads; it has read the end, or could not read; it has shut the Flow
    stream down; it has returned. -/
inductive WatcherStage where
  | reading
  | cutting
  | finishing
  | returned
  deriving DecidableEq

/-- The answers at which a watcher stops reading. -/
def endsReading : Except IoError Nat → Bool
  | .ok 0 => true
  | .ok _ => false
  | .error _ => true

def WatcherStage.after : WatcherStage → WatchEvent → WatcherStage
  | .reading, ⟨.inr .readClient, answer⟩ => if endsReading answer then .cutting else .reading
  | .cutting, ⟨.inr .shutdownFlow, _⟩ => .finishing
  | .finishing, ⟨.inr .finishWatcher, _⟩ => .returned
  | stage, _ => stage

def WatcherStage.Allows : WatcherStage → ServeOp ⊕ WatchOp → Prop
  | .reading, o => o = .inr .readClient
  | .cutting, o => o = .inr .shutdownFlow
  | .finishing, o => o = .inr .finishWatcher
  | .returned, _ => False

def watcherMonitor : Monitor (ServeOp ⊕ WatchOp) (SumAns ServeAns WatchAns) WatcherStage where
  start := .reading
  next := WatcherStage.after
  allows := WatcherStage.Allows

/-- A watcher goes round as long as it reads, and ends when it has returned. -/
abbrev WatcherEnds (stage : WatcherStage) : (ServeLoop ⊕ Unit) ⊕ Except IoError Unit → Prop :=
  Monitor.Ends (fun stage l => l = .inr () ∧ stage = .reading) (fun stage _ => stage = .returned)
    stage

/-- A watcher on its way back. -/
def WatcherReturns (stage : WatcherStage) (r : (ServeLoop ⊕ Unit) ⊕ Except IoError Unit) : Prop :=
  ∃ result, r = .inr result ∧ stage = .returned

theorem interruptFlow_walks : watcherMonitor.Walks WatcherReturns interruptFlow .cutting :=
  ⟨rfl, fun _ => ⟨rfl, fun _ => ⟨_, rfl, rfl⟩⟩⟩

/-- Where nothing is read, the round is the last one; -/
theorem watcherRound_last : ∃ k, watcherRound = .ask (.inr .readClient) k ∧
    ∀ answer, endsReading answer = true → k answer = interruptFlow := by
  refine ⟨_, rfl, fun answer hends => ?_⟩
  match answer with
  | .ok 0 => rfl
  | .ok (n + 1) => cases hends
  | .error _ => rfl

/-- and where something is, the watcher goes round. -/
theorem watcherRound_walks : watcherMonitor.Walks WatcherEnds watcherRound .reading := by
  have hlast : watcherMonitor.Walks WatcherEnds interruptFlow .cutting := by
    refine interruptFlow_walks.mono ?_
    rintro _ _ ⟨result, rfl, hreturned⟩
    exact hreturned
  refine ⟨rfl, fun answer => ?_⟩
  match answer with
  | .ok 0 => exact hlast
  | .ok (n + 1) => exact ⟨rfl, rfl⟩
  | .error _ => exact hlast

/-- What a client does. -/
def clientOp (o : ServeOp ⊕ WatchOp) : Prop := o = .inr .endSending ∨ o = .inr .hangUp

/-- A client goes round nowhere. -/
abbrev ClientKept (p : WatchThread) (h : List WatchEvent) : Prop :=
  Holds anyAnswer (fun _ o => clientOp o) (Sum.elim (fun _ _ => False) fun _ _ => True) p h

theorem clientProgram_kept : ClientKept clientProgram [] :=
  ⟨Or.inl rfl, fun _ _ => ⟨Or.inr rfl, fun _ _ => trivial⟩⟩

/-! ## 3. What no step undoes -/

/-- A flag that is set stays set. -/
theorem update_true {f : Nat → Bool} {u v : Nat} (h : f u = true) :
    Function.update f v true u = true := by
  by_cases huv : u = v
  · rw [huv, Function.update_self]
  · rwa [Function.update_of_ne huv]

/-- A half that has ended stays so, and what is left in it only gets less. -/
def Half.Shrinks : Half → Half → Prop
  | .live, _ => True
  | .ended queued, half => ∃ left, left ≤ queued ∧ half = .ended left

theorem Half.Shrinks.refl (half : Half) : half.Shrinks half := by
  cases half with
  | live => trivial
  | ended queued => exact ⟨queued, le_rfl, rfl⟩

theorem Half.Shrinks.trans {h₁ h₂ h₃ : Half} (h : h₁.Shrinks h₂) (h' : h₂.Shrinks h₃) :
    h₁.Shrinks h₃ := by
  cases h₁ with
  | live => trivial
  | ended queued =>
      obtain ⟨left, hle, rfl⟩ := h
      obtain ⟨left', hle', rfl⟩ := h'
      exact ⟨left', hle'.trans hle, rfl⟩

theorem Half.Shrinks.ended {half half' : Half} (h : half.Shrinks half') (hne : half ≠ .live) :
    half' ≠ .live := by
  cases half with
  | live => exact absurd rfl hne
  | ended queued =>
      obtain ⟨left, _, rfl⟩ := h
      exact nofun

theorem Half.Ends.shrinks {half half' : Half} (h : half.Ends half') : half.Shrinks half' := by
  cases half with
  | live => trivial
  | ended queued => exact ⟨queued, le_rfl, h⟩

theorem Half.Ends.ended {half half' : Half} (h : half.Ends half') : half' ≠ .live := by
  cases half with
  | live => exact h
  | ended queued => exact (Half.Ends.shrinks h).ended nofun

theorem Half.taken_shrinks (half : Half) : half.Shrinks half.taken := by
  match half with
  | .live => trivial
  | .ended 0 => exact ⟨0, le_rfl, rfl⟩
  | .ended (queued + 1) => exact ⟨queued, queued.le_succ, rfl⟩

theorem Half.afterRead_shrinks (half : Half) (answer : Except IoError Nat) :
    half.Shrinks (half.afterRead answer) := by
  match answer with
  | .ok 0 => exact .refl half
  | .ok (_ + 1) => exact half.taken_shrinks
  | .error _ => exact .refl half

theorem Half.taken_live {half : Half} (h : half = .live) : half.taken = .live := by
  rw [h]
  rfl

theorem Half.afterRead_live {half : Half} (h : half = .live) (answer : Except IoError Nat) :
    half.afterRead answer = .live := by
  match answer with
  | .ok 0 => exact h
  | .ok (_ + 1) => exact Half.taken_live h
  | .error _ => exact h

theorem update_shrinks {f : Nat → Half} {v : Nat} {half : Half} (hv : (f v).Shrinks half)
    (u : Nat) : (f u).Shrinks (Function.update f v half u) := by
  by_cases huv : u = v
  · subst huv
    rwa [Function.update_self]
  · rw [Function.update_of_ne huv]
    exact .refl _

/-- Threads stay spawned and ended, and streams closed. -/
structure WatchShared.Grows (s s' : WatchShared) : Prop where
  spawned : s.serve.spawned.length ≤ s'.serve.spawned.length
  ended : ∀ handler, s.serve.ended handler = true → s'.serve.ended handler = true
  client : ∀ u, (s.client u).Shrinks (s'.client u)
  flow : ∀ u, (s.flow u).Shrinks (s'.flow u)
  gone : ∀ u, s.gone u = true → s'.gone u = true
  closed : ∀ u, s.closed u = true → s'.closed u = true
  watched : ∀ u, s.watched u = true → s'.watched u = true
  watcherEnded : ∀ u, s.watcherEnded u = true → s'.watcherEnded u = true

variable {s s' : WatchShared} {u : Nat}

theorem WatchShared.Grows.refl (s : WatchShared) : s.Grows s where
  spawned := le_rfl
  ended _ h := h
  client _ := .refl _
  flow _ := .refl _
  gone _ h := h
  closed _ h := h
  watched _ h := h
  watcherEnded _ h := h

theorem WatchShared.streams_grows {e : ServeEvent} (h : s.streams u e s') : s.Grows s' := by
  obtain ⟨o, a⟩ := e
  unfold WatchShared.streams at h
  split at h
  · obtain ⟨half, hends, rfl⟩ := h
    exact { WatchShared.Grows.refl s with
      client := update_shrinks hends.shrinks
      closed := fun _ h => update_true h }
  · obtain ⟨_, rfl⟩ := h
    exact { WatchShared.Grows.refl s with
      flow := update_shrinks (Half.taken_shrinks _) }
  · rw [h]
    exact .refl s

theorem WatchShared.watch_grows {o : WatchOp} {a : WatchAns o} (h : s.watch u o a s') :
    s.Grows s' := by
  cases o with
  | spawnWatcher =>
      rw [show s' = _ from h]
      exact { WatchShared.Grows.refl s with watched := fun _ h => update_true h }
  | finishWatcher =>
      rw [show s' = _ from h]
      exact { WatchShared.Grows.refl s with watcherEnded := fun _ h => update_true h }
  | joinWatcher =>
      rw [h.2]
      exact .refl s
  | readClient =>
      rw [h.2]
      exact { WatchShared.Grows.refl s with
        client := update_shrinks (Half.afterRead_shrinks _ _) }
  | shutdownFlow =>
      obtain ⟨half, hends, rfl⟩ := h
      exact { WatchShared.Grows.refl s with
        flow := update_shrinks hends.shrinks }
  | hangUp =>
      obtain ⟨half, hends, rfl⟩ := h
      exact { WatchShared.Grows.refl s with
        client := update_shrinks hends.shrinks
        gone := fun _ h => update_true h }
  | _ =>
      obtain ⟨half, hends, rfl⟩ := h
      exact { WatchShared.Grows.refl s with
        client := update_shrinks hends.shrinks }

theorem watchSem_grows {t : Nat} {e : WatchEvent} (h : watchSem s t e s') : s.Grows s' := by
  obtain ⟨o, a⟩ := e
  cases o with
  | inl o =>
      obtain ⟨u, s₁, served, _, hstreams, hsem, rfl⟩ := h
      obtain ⟨hspawned, hended⟩ := serveSem_grows hsem
      exact { WatchShared.streams_grows hstreams with
        spawned := hspawned
        ended := hended }
  | inr o => exact WatchShared.watch_grows h

theorem WatchStart.grows [FlowDebug] {t : Nat} {p : WatchThread} (h : WatchStart s t p s') :
    s.Grows s' := by
  cases h with
  | handler handler socket hs => exact { WatchShared.Grows.refl s with spawned := le_rfl }
  | _ => exact .refl s

/-! ## 4. Which thread is what -/

section Kinds

variable [FlowDebug] {nexus : NexusShared} {c : WatchPool}

/-- A thread is the listener, a handler that was spawned, the watcher of one, or a client. -/
inductive WatchKind (s : WatchShared) : Nat → WatchThread → Prop where
  | listener (bound : Configuration) :
      WatchKind s (serveThread 0) (unwatched (ListensOnSockets.serve bound))
  | handler (handler : Nat) (socket : Socket) (hh : handler < s.serve.spawned.length) :
      WatchKind s (serveThread (handler + 1)) (watchedHandler socket socket.handler)
  | watcher (u : Nat) (hu : s.watched u = true) : WatchKind s (watcherThread u) watcherRound
  | client (handler : Nat) (hh : handler < s.serve.spawned.length) :
      WatchKind s (clientThread (handler + 1)) clientProgram

theorem WatchKind.grows {t : Nat} {start : WatchThread} (h : WatchKind s t start)
    (hg : s.Grows s') : WatchKind s' t start := by
  cases h with
  | listener bound => exact .listener bound
  | handler handler socket hh => exact .handler handler socket (hh.trans_le hg.spawned)
  | watcher u hu => exact .watcher u (hg.watched u hu)
  | client handler hh => exact .client handler (hh.trans_le hg.spawned)

theorem WatchStart.kind {t : Nat} {p : WatchThread} (h : WatchStart s t p s') :
    WatchKind s' t p := by
  cases h with
  | listener bound hb => exact .listener bound
  | handler handler socket hs => exact .handler handler socket (List.getElem?_eq_some_iff.mp hs).1
  | watcher u hu => exact .watcher u hu
  | client handler hh => exact .client handler hh

theorem watch_kind (hr : Reach watchSystem (WatchPool.initial nexus) c) :
    ∀ t th, c.threads t = some th → WatchKind c.shared t th.start := by
  refine Reach.invariant (P := fun c : WatchPool => ∀ t th, c.threads t = some th →
    WatchKind c.shared t th.start) ?_ ?_ hr
  · intro t th ht
    cases ht
  · intro c c' _ _ hc hs t th' ht'
    have hgrows : c.shared.Grows c'.shared := by
      cases hs with
      | act t th o k a s' ht hl hrest hs => exact watchSem_grows hs
      | again t th l ht hl hrest => exact .refl _
      | start t p s' ht hs => exact WatchStart.grows hs
      | halt s' hs => exact hs.elim
    rcases hs.thread_cases ht' with ⟨th, ht, hstart, _⟩ | ⟨th, e, ht, _, hstart, _, _⟩ |
      ⟨_, _, hstart⟩
    · rw [hstart]
      exact (hc t th ht).grows hgrows
    · rw [hstart]
      exact (hc t th ht).grows hgrows
    · exact WatchStart.kind hstart

theorem WatchKind.of_listener {p : WatchThread} (h : WatchKind s (serveThread 0) p) :
    ∃ bound, p = unwatched (ListensOnSockets.serve bound) := by
  generalize ht : serveThread 0 = t at h
  unfold serveThread at ht
  cases h with
  | listener bound => exact ⟨bound, rfl⟩
  | handler handler socket hh => unfold serveThread at ht; omega
  | watcher u hu => unfold watcherThread at ht; omega
  | client handler hh => unfold clientThread at ht; omega

theorem WatchKind.of_handler {handler : Nat} {p : WatchThread}
    (h : WatchKind s (serveThread (handler + 1)) p) : handler < s.serve.spawned.length ∧
      ∃ socket : Socket, p = watchedHandler socket socket.handler := by
  generalize ht : serveThread (handler + 1) = t at h
  unfold serveThread at ht
  cases h with
  | listener bound => unfold serveThread at ht; omega
  | handler other socket hh =>
      unfold serveThread at ht
      obtain rfl : other = handler := by omega
      exact ⟨hh, socket, rfl⟩
  | watcher u hu => unfold watcherThread at ht; omega
  | client handler hh => unfold clientThread at ht; omega

theorem WatchKind.of_watcher {p : WatchThread} (h : WatchKind s (watcherThread u) p) :
    s.watched u = true ∧ p = watcherRound := by
  generalize ht : watcherThread u = t at h
  unfold watcherThread at ht
  cases h with
  | listener bound => unfold serveThread at ht; omega
  | handler handler socket hh => unfold serveThread at ht; omega
  | watcher v hv =>
      unfold watcherThread at ht
      obtain rfl : v = u := by omega
      exact ⟨hv, rfl⟩
  | client handler hh => unfold clientThread at ht; omega

theorem WatchKind.of_client {p : WatchThread} (h : WatchKind s (clientThread u) p) :
    p = clientProgram := by
  generalize ht : clientThread u = t at h
  unfold clientThread at ht
  cases h with
  | listener bound => unfold serveThread at ht; omega
  | handler handler socket hh => unfold serveThread at ht; omega
  | watcher u hu => unfold watcherThread at ht; omega
  | client handler hh => rfl

omit [FlowDebug] in
/-- A program of `Serve.lean` keeps the conditions that it keeps there. -/
theorem unwatched_holds {G : List ServeEvent → ServeOp → Prop}
    {Q : ServeLoop ⊕ Except IoError Unit → List ServeEvent → Prop} {p : ServeThread}
    {h : List WatchEvent} (hp : Holds anyAnswer G Q p (h.filterMap visible)) :
    Holds anyAnswer (fun h o => ∃ o', o = .inl o' ∧ G (h.filterMap visible) o')
      (fun r h => ∃ r', r = unwatchedEnd r' ∧ Q r' (h.filterMap visible)) (unwatched p) h := by
  induction p generalizing h with
  | ret r => exact ⟨r, rfl, hp⟩
  | ask o k ih =>
      refine ⟨⟨o, rfl, hp.1⟩, fun a _ => ih a ?_⟩
      have hnext := hp.2 a trivial
      simpa [visible] using hnext

/-- Where the listener goes round. -/
def ListenerHead : ServeLoop ⊕ Unit → List WatchEvent → Prop
  | .inl loop, h => ListenerLoop loop (h.filterMap visible)
  | .inr (), _ => False

abbrev ListenerWatched (p : WatchThread) (h : List WatchEvent) : Prop :=
  Holds anyAnswer (fun h o => ∃ o', o = .inl o' ∧ ListenerPlace (h.filterMap visible) o')
    (Sum.elim ListenerHead fun _ h => Keeping [] 0 (h.filterMap visible)) p h

omit [FlowDebug] in
theorem unwatched_listener {p : ServeThread} {h : List WatchEvent}
    (hp : ListenerKept p (h.filterMap visible)) : ListenerWatched (unwatched p) h := by
  refine (unwatched_holds hp).mono (fun _ _ hG => hG) ?_
  rintro _ h ⟨r, rfl, hr⟩
  cases r with
  | inl loop => exact hr
  | inr result => exact hr

/-- The listener keeps the account of `Joined.lean`, and has no watcher; -/
theorem listener_watched (hr : Reach watchSystem (WatchPool.initial nexus) c) {th : WatchThreadState}
    (ht : c.threads (serveThread 0) = some th) :
    Issued (fun h o => ∃ o', o = .inl o' ∧ ListenerPlace (h.filterMap visible) o') th.hist ∧
      ListenerWatched th.rest th.hist := by
  obtain ⟨bound, hstart⟩ := (watch_kind hr _ th ht).of_listener
  have hp : ListenerWatched th.start [] := hstart ▸ unwatched_listener (serve_listener bound)
  have hrounds : ∀ l h, ListenerHead l h → ListenerWatched (watchRound l) h := by
    intro l h hl
    match l with
    | .inl (.poll handlers) => exact unwatched_listener (serveRound_listener _ _ hl)
    | .inl (.reap handlers index failure) => exact unwatched_listener (serveRound_listener _ _ hl)
    | .inl (.close handlers result) => exact unwatched_listener (serveRound_listener _ _ hl)
    | .inl (.joins handlers result) => exact unwatched_listener (serveRound_listener _ _ hl)
    | .inl (.forward _ _) => exact hl.elim
    | .inr () => exact hl.elim
  exact ⟨hr.issued hrounds ht hp, hr.holds hrounds ht hp⟩

/-- a handler keeps to its stages, -/
theorem handler_stages (hr : Reach watchSystem (WatchPool.initial nexus) c) {handler : Nat}
    {th : WatchThreadState} (ht : c.threads (serveThread (handler + 1)) = some th) :
    Issued handlerMonitor.Place th.hist ∧
      Holds anyAnswer handlerMonitor.Place (fun r h => HandlerEnds (handlerMonitor.state h) r)
        th.rest th.hist := by
  obtain ⟨_, socket, hstart⟩ := (watch_kind hr _ th ht).of_handler
  refine Reach.walks watchRound_walks hr ht ?_
  rw [hstart]
  exact watchedHandler_walks socket (handler_walks socket)

/-- a watcher to its own, -/
theorem watcher_stages (hr : Reach watchSystem (WatchPool.initial nexus) c)
    {th : WatchThreadState} (ht : c.threads (watcherThread u) = some th) :
    Issued watcherMonitor.Place th.hist ∧
      Holds anyAnswer watcherMonitor.Place (fun r h => WatcherEnds (watcherMonitor.state h) r)
        th.rest th.hist := by
  obtain ⟨_, hstart⟩ := (watch_kind hr _ th ht).of_watcher
  refine Reach.walks (fun l stage hl => ?_) hr ht (hstart ▸ watcherRound_walks)
  obtain ⟨rfl, rfl⟩ := hl
  exact watcherRound_walks

theorem handler_issued (hr : Reach watchSystem (WatchPool.initial nexus) c) (handler : Nat) :
    Issued handlerMonitor.Place (c.hist (serveThread (handler + 1))) := by
  cases ht : c.threads (serveThread (handler + 1)) with
  | none =>
      rw [Pool.hist, ht]
      trivial
  | some th =>
      rw [Pool.hist_of ht]
      exact (handler_stages hr ht).1

theorem watcher_issued (hr : Reach watchSystem (WatchPool.initial nexus) c) (u : Nat) :
    Issued watcherMonitor.Place (c.hist (watcherThread u)) := by
  cases ht : c.threads (watcherThread u) with
  | none =>
      rw [Pool.hist, ht]
      trivial
  | some th =>
      rw [Pool.hist_of ht]
      exact (watcher_stages hr ht).1

/-- and a client does what clients do. -/
theorem client_ops (hr : Reach watchSystem (WatchPool.initial nexus) c) {e : WatchEvent}
    (he : e ∈ c.hist (clientThread u)) : clientOp e.op := by
  cases ht : c.threads (clientThread u) with
  | none =>
      rw [Pool.hist, ht] at he
      cases he
  | some th =>
      have hstart := (watch_kind hr _ th ht).of_client
      have hissued := hr.issued (fun _ _ hl => False.elim hl) ht (hstart ▸ clientProgram_kept)
      rw [Pool.hist_of ht] at he
      obtain ⟨before, after, hsplit⟩ := List.append_of_mem he
      rw [hsplit] at hissued
      exact hissued.at

end Kinds

end MessageNexus
