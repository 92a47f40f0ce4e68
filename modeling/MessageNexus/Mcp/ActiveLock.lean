/-
  File:      MessageNexus/Mcp/ActiveLock.lean
  Subject:   THE ACTIVE MAP'S MUTEX AND THE DISCIPLINE OF A WORKER: it uses the map only in a
             section, touches only its own call, and reads only after it has registered its
             observer and checked its flag.

  * `activeMutex` -- the mutex of the active map as a mutex of the system (`Lib/Lock.lean`);
  * `CallPhase` -- how far a worker has come with its registration and its check;
  * `WorkerPlace`, `runCall_kept`, `readRound_kept` -- the discipline, kept by the worker;
  * `worker_started`, `worker_places` -- which threads are workers, and their discipline in every
    reachable pool.
-/
import MessageNexus.Mcp.System

namespace MessageNexus

open Interact SignalFlow SignalMessage Json

/-! ## 1. The mutex -/

def McpOp.acquiresActive : McpOp → Bool
  | .lockActive => true
  | _ => false

def McpOp.releasesActive : McpOp → Bool
  | .unlockActive => true
  | _ => false

/-- The operations on the active map. -/
def McpOp.usesActive : McpOp → Bool
  | .lenActive => true
  | .getActive _ => true
  | .activeCalls => true
  | .insertActive _ _ => true
  | .setObserver _ _ => true
  | .removeActive _ => true
  | _ => false

/-- The operations that do not use the active map or its mutex. -/
def McpOp.offActive : McpOp → Bool
  | .lockActive => false
  | .unlockActive => false
  | .lenActive => false
  | .getActive _ => false
  | .activeCalls => false
  | .insertActive _ _ => false
  | .setObserver _ _ => false
  | .removeActive _ => false
  | _ => true

/-- The mutex of the active map guards every use of it. -/
def activeMutex [McpCodec] : Mutex mcpSystem where
  acquires := McpOp.acquiresActive
  releases := McpOp.releasesActive
  guarded o := o.usesActive = true
  holder s := s.holder
  apart o ha := by
    cases o with
    | lockActive => rfl
    | _ => cases ha
  sem_acquire s t e s' ha hs := by
    obtain ⟨o, a⟩ := e
    obtain ⟨hfree, rfl⟩ := hs
    cases o with
    | lockActive => exact ⟨hfree, rfl⟩
    | _ => cases ha
  sem_release s t e s' hr hs := by
    obtain ⟨o, a⟩ := e
    obtain ⟨_, rfl⟩ := hs
    cases o with
    | unlockActive => rfl
    | _ => cases hr
  sem_other s t e s' ha hr hs := by
    obtain ⟨o, a⟩ := e
    obtain ⟨_, rfl⟩ := hs
    cases o with
    | lockActive => cases ha
    | unlockActive => cases hr
    | _ => rfl
  start_keeps s t p s' hs := by rw [hs.1]
  halt_frees s s' hs := hs.elim

section Discipline

variable [McpCodec] {request : CallRequest} {call : Nat}

/-- Outside its section of the active map. -/
def Unlocked (h : List McpEvent) : Prop := activeMutex.held h = false

theorem held_offActive (h : List McpEvent) (e : McpEvent) (ho : e.op.offActive = true) :
    activeMutex.held (h ++ [e]) = activeMutex.held h := by
  rw [activeMutex.held_snoc]
  obtain ⟨o, a⟩ := e
  cases o with
  | lockActive => cases ho
  | unlockActive => cases ho
  | _ => rfl

theorem unlocked_off {h : List McpEvent} (hh : Unlocked h) (e : McpEvent)
    (ho : e.op.offActive = true) : Unlocked (h ++ [e]) :=
  (held_offActive h e ho).trans hh

theorem mutexPlace_off {h : List McpEvent} {o : McpOp} (ho : o.offActive = true) :
    activeMutex.Place h o := by
  refine ⟨fun he => ?_, fun he => ?_, fun he => ?_⟩
  · cases o with
    | lockActive => cases ho
    | _ => cases he
  · cases o with
    | unlockActive => cases ho
    | _ => cases he
  · cases o with
    | lenActive => cases ho
    | getActive key => cases ho
    | activeCalls => cases ho
    | insertActive key call => cases ho
    | setObserver key call => cases ho
    | removeActive key => cases ho
    | _ => cases he

theorem place_lock {h : List McpEvent} (hh : Unlocked h) : activeMutex.Place h .lockActive :=
  ⟨fun _ => hh, fun he => (by cases he), fun he => (by cases he)⟩

theorem held_lock (h : List McpEvent) : activeMutex.held (h ++ [⟨.lockActive, ()⟩]) = true := by
  rw [activeMutex.held_snoc]
  exact activeMutex.after_acquire _ rfl

theorem place_unlock {h : List McpEvent} (hh : activeMutex.held h = true) :
    activeMutex.Place h .unlockActive :=
  ⟨fun he => (by cases he), fun _ => hh, fun he => (by cases he)⟩

theorem unlocked_unlock (h : List McpEvent) : Unlocked (h ++ [⟨.unlockActive, ()⟩]) := by
  rw [Unlocked, activeMutex.held_snoc]
  exact activeMutex.after_release _ rfl

/-- Within the section, an operation on the map is in its place, and the section goes on. -/
theorem place_within {h : List McpEvent} (hh : activeMutex.held h = true) {o : McpOp}
    (ha : o.acquiresActive = false) (hr : o.releasesActive = false) : activeMutex.Place h o :=
  ⟨fun he => absurd (ha.symm.trans he) Bool.false_ne_true,
    fun he => absurd (hr.symm.trans he) Bool.false_ne_true, fun _ => hh⟩

theorem held_within {h : List McpEvent} (hh : activeMutex.held h = true) (e : McpEvent)
    (ha : e.op.acquiresActive = false) (hr : e.op.releasesActive = false) :
    activeMutex.held (h ++ [e]) = true := by
  rw [activeMutex.held_snoc, activeMutex.after_other _ ha hr]
  exact hh

/-! ## 2. The discipline of a worker -/

/-- How far a worker has come: its observer is not registered; registered; its flag was then
    found set, or was clear; and where it was set, the socket is shut down. -/
inductive CallPhase where
  | unregistered
  | registered
  | found
  | closed
  | clear
  deriving DecidableEq, Repr

/-- The registration and the check of the flag, with the shutdown it leads to, are over. -/
def CallPhase.checked : CallPhase → Bool
  | .closed => true
  | .clear => true
  | _ => false

def phaseAfter (phase : CallPhase) : McpEvent → CallPhase
  | ⟨.setObserver _ _, _⟩ => .registered
  | ⟨.loadCancelled _, flag⟩ =>
      match phase with
      | .registered => if flag then .found else .clear
      | _ => phase
  | ⟨.shutdown _, _⟩ =>
      match phase with
      | .found => .closed
      | _ => phase
  | _ => phase

def phaseNow (h : List McpEvent) : CallPhase := h.foldl phaseAfter .unregistered

omit [McpCodec] in
theorem phaseNow_snoc (h : List McpEvent) (e : McpEvent) :
    phaseNow (h ++ [e]) = phaseAfter (phaseNow h) e := by
  simp [phaseNow]

omit [McpCodec] in
/-- Only an operation of the registration or the check moves the phase, and nothing leaves a
    checked phase but a registration. -/
theorem checked_snoc {h : List McpEvent} (hc : (phaseNow h).checked = true) (e : McpEvent)
    (ho : e.op.offActive = true) : (phaseNow (h ++ [e])).checked = true := by
  rw [phaseNow_snoc]
  obtain ⟨o, a⟩ := e
  cases o with
  | setObserver key call => cases ho
  | loadCancelled n =>
      cases hp : phaseNow h with
      | closed => rfl
      | clear => rfl
      | _ => rw [hp] at hc; cases hc
  | shutdown n =>
      cases hp : phaseNow h with
      | closed => rfl
      | clear => rfl
      | _ => rw [hp] at hc; cases hc
  | _ => exact hc

/-- The operations that the worker of a call may perform: all name its own call. -/
def McpOp.belongs (request : CallRequest) (call : Nat) : McpOp → Prop
  | .lockActive => True
  | .unlockActive => True
  | .storeCancelled n => n = call
  | .storeAlive => True
  | .shutdown n => n = call
  | .writeJson _ => True
  | .loadCancelled n => n = call
  | .loadAlive => True
  | .connect n => n = call
  | .clone n => n = call
  | .setObserver key n => key = request.key ∧ n = call
  | .removeActive key => key = request.key
  | .send n query => n = call ∧ query = request.query
  | .readResponse n => n = call
  | .finish n => n = call
  | _ => False

/-- Where an operation of a worker may stand. -/
def WorkerPlace (request : CallRequest) (call : Nat) (h : List McpEvent) (o : McpOp) : Prop :=
  activeMutex.Place h o ∧ o.belongs request call ∧
    match o with
    | .setObserver _ _ => phaseNow h = .unregistered
    | .send _ _ => phaseNow h = .clear
    | .readResponse _ => (phaseNow h).checked = true
    | _ => True

/-- The operations off the map that a worker may perform in every phase. -/
def McpOp.anyPhase : McpOp → Bool
  | .send _ _ => false
  | .readResponse _ => false
  | o => o.offActive

omit [McpCodec] in
theorem McpOp.anyPhase_off {o : McpOp} (ho : o.anyPhase = true) : o.offActive = true := by
  cases o with
  | send n query => cases ho
  | readResponse n => cases ho
  | _ => exact ho

theorem workerPlace_any (h : List McpEvent) {o : McpOp} (hb : o.belongs request call)
    (ho : o.anyPhase = true) : WorkerPlace request call h o := by
  refine ⟨mutexPlace_off (McpOp.anyPhase_off ho), hb, ?_⟩
  cases o with
  | setObserver key n => cases ho
  | send n query => cases ho
  | readResponse n => cases ho
  | _ => trivial

/-- Where a worker's loop goes round. -/
def WorkerLoop (request : CallRequest) (call : Nat) : McpLoop → List McpEvent → Prop
  | .read request' call' _, h =>
      request' = request ∧ call' = call ∧ Unlocked h ∧ (phaseNow h).checked = true
  | _, _ => False

/-- From `h` on, the program keeps the discipline of the worker. -/
abbrev WorkerKept (request : CallRequest) (call : Nat) (p : McpThread) (h : List McpEvent) : Prop :=
  Holds anyAnswer (WorkerPlace request call)
    (Sum.elim (WorkerLoop request call) fun _ h => Unlocked h) p h

/-! ## 3. The worker keeps the discipline -/

/-- An operation of its own off the map, and the rest from there. -/
theorem WorkerKept.ask {o : McpOp} {k : McpAns o → McpThread} {h : List McpEvent}
    (hb : o.belongs request call) (ho : o.anyPhase = true) (hh : Unlocked h)
    (hk : ∀ a, Unlocked (h ++ [⟨o, a⟩]) → WorkerKept request call (k a) (h ++ [⟨o, a⟩])) :
    WorkerKept request call (.ask o k) h :=
  ⟨workerPlace_any h hb ho, fun a _ => hk a (unlocked_off hh _ (McpOp.anyPhase_off ho))⟩

/-- The removal of the call's entry is a section. -/
theorem removeCall_kept {f : Unit → McpThread} {h : List McpEvent} (hh : Unlocked h)
    (hf : ∀ h', Unlocked h' → WorkerKept request call (f ()) h') :
    WorkerKept request call (removeCall request >>= f) h := by
  refine ⟨⟨place_lock hh, trivial, trivial⟩, fun _ _ => ?_⟩
  have hin := held_lock h
  refine ⟨⟨place_within hin rfl rfl, rfl, trivial⟩, fun _ _ => ?_⟩
  have hstill := held_within hin ⟨.removeActive request.key, ()⟩ rfl rfl
  refine ⟨⟨place_unlock hstill, trivial, trivial⟩, fun _ _ => ?_⟩
  exact hf _ (unlocked_unlock _)

theorem finishCall_kept {h : List McpEvent} (hh : Unlocked h) :
    WorkerKept request call (finishCall call) h :=
  .ask rfl rfl hh fun _ hh => hh

theorem leave_kept {h : List McpEvent} (hh : Unlocked h) :
    WorkerKept request call (removeCall request >>= fun _ => finishCall call) h :=
  removeCall_kept hh fun _ hh => finishCall_kept hh

theorem giveUp_kept (code : Int) (message : String) {h : List McpEvent} (hh : Unlocked h) :
    WorkerKept request call (giveUp request call code message) h := by
  refine .ask trivial rfl hh fun alive hh => ?_
  cases alive with
  | false => exact leave_kept hh
  | true => exact .ask trivial rfl hh fun _ hh => leave_kept hh

theorem giveUpFailed_kept (error : String) {h : List McpEvent} (hh : Unlocked h) :
    WorkerKept request call (giveUpFailed request call error) h := by
  refine .ask trivial rfl hh fun alive hh => ?_
  cases alive with
  | false => exact leave_kept hh
  | true =>
      refine .ask rfl rfl hh fun told hh => ?_
      refine .ask rfl rfl hh fun coded hh => ?_
      exact .ask trivial rfl hh fun _ hh => leave_kept hh

theorem endCall_kept (state : ReadState) (final : Option Value) {h : List McpEvent}
    (hh : Unlocked h) : WorkerKept request call (endCall request call state final) h := by
  refine removeCall_kept hh fun h' hh => ?_
  cases final with
  | some response => exact .ask trivial rfl hh fun _ hh => finishCall_kept hh
  | none =>
      refine .ask rfl rfl hh fun cancelled hh => ?_
      cases cancelled with
      | false => exact finishCall_kept hh
      | true =>
          refine .ask trivial rfl hh fun alive hh => ?_
          cases alive with
          | false => exact finishCall_kept hh
          | true => exact .ask trivial rfl hh fun _ hh => finishCall_kept hh

theorem tellResponse_kept (state : ReadState) (response : SignalMessage.Response)
    {h : List McpEvent} (hh : Unlocked h) (hc : (phaseNow h).checked = true) :
    WorkerKept request call (tellResponse request call state response) h := by
  refine .ask trivial rfl hh fun written hh => ?_
  have hc := checked_snoc hc ⟨.writeJson _, written⟩ rfl
  cases written with
  | error error =>
      refine .ask rfl rfl hh fun _ hh => ?_
      refine .ask trivial rfl hh fun _ hh => ?_
      exact .ask rfl rfl hh fun _ hh => endCall_kept state none hh
  | ok _ =>
      change WorkerKept request call (if terminalFor state.acceptedId response then _ else _) _
      by_cases hlast : terminalFor state.acceptedId response = true
      · rw [if_pos hlast]
        exact endCall_kept _ _ hh
      · rw [if_neg hlast]
        exact ⟨rfl, rfl, hh, hc⟩

theorem readRound_kept (state : ReadState) {h : List McpEvent} (hh : Unlocked h)
    (hc : (phaseNow h).checked = true) :
    WorkerKept request call (readRound request call state) h := by
  refine .ask rfl rfl hh fun cancelled hh => ?_
  have hc := checked_snoc hc ⟨.loadCancelled call, cancelled⟩ rfl
  cases cancelled with
  | true => exact endCall_kept state none hh
  | false =>
      refine ⟨⟨mutexPlace_off rfl, rfl, hc⟩, fun answers _ => ?_⟩
      have hh := unlocked_off hh ⟨.readResponse call, answers⟩ rfl
      have hc := checked_snoc hc ⟨.readResponse call, answers⟩ rfl
      dsimp only [Prog.bind]
      cases readResponseResult answers with
      | ok response => exact tellResponse_kept _ _ hh hc
      | error error =>
          refine WorkerKept.ask rfl rfl hh fun cancelled hh => ?_
          cases cancelled with
          | true => exact endCall_kept state none hh
          | false => exact endCall_kept state (some (brokenResponse request state error)) hh

/-- The check follows the registration, and only a clear one lets the query out. -/
theorem runRegistered_kept {h : List McpEvent} (hh : Unlocked h)
    (hp : phaseNow h = .registered) :
    WorkerKept request call (runRegistered request call) h := by
  refine .ask rfl rfl hh fun cancelled hh => ?_
  have hp' := phaseNow_snoc h ⟨.loadCancelled call, cancelled⟩
  rw [hp] at hp'
  cases cancelled with
  | true =>
      refine .ask rfl rfl hh fun _ hh => ?_
      refine ⟨rfl, rfl, hh, ?_⟩
      rw [phaseNow_snoc, hp']
      rfl
  | false =>
      refine ⟨⟨mutexPlace_off rfl, ⟨rfl, rfl⟩, hp'⟩, fun answers _ => ?_⟩
      have hh := unlocked_off hh ⟨.send call request.query, answers⟩ rfl
      have hc := checked_snoc (e := ⟨.send call request.query, answers⟩) (by rw [hp']; rfl) rfl
      dsimp only [Prog.bind]
      cases sendResult answers with
      | error error => exact giveUpFailed_kept error hh
      | ok _ => exact ⟨rfl, rfl, hh, hc⟩

theorem runCall_kept : WorkerKept request call (runCall request call) [] := by
  refine .ask rfl rfl rfl fun cancelled hh => ?_
  cases cancelled with
  | true => exact giveUp_kept _ _ hh
  | false =>
      refine .ask rfl rfl hh fun answers hh => ?_
      dsimp only [Prog.bind]
      cases connectResult answers with
      | error error => exact giveUpFailed_kept error hh
      | ok _ =>
          refine WorkerKept.ask rfl rfl hh fun clone hh => ?_
          cases clone with
          | error error => exact giveUp_kept _ _ hh
          | ok _ =>
              refine ⟨⟨place_lock hh, trivial, trivial⟩, fun _ _ => ?_⟩
              have hin := held_lock ([⟨.loadCancelled call, false⟩] ++ [⟨.connect call, answers⟩] ++
                [⟨.clone call, .ok ()⟩])
              refine ⟨⟨place_within hin rfl rfl, ⟨rfl, rfl⟩, rfl⟩, fun _ _ => ?_⟩
              have hstill := held_within hin ⟨.setObserver request.key call, ()⟩ rfl rfl
              refine ⟨⟨place_unlock hstill, trivial, trivial⟩, fun _ _ => ?_⟩
              exact runRegistered_kept (unlocked_unlock _) rfl

theorem mcpRound_worker (l : McpLoop) (h : List McpEvent) (hl : WorkerLoop request call l h) :
    WorkerKept request call (mcpRound l) h := by
  cases l with
  | read request' call' state =>
      obtain ⟨rfl, rfl, hh, hc⟩ := hl
      exact readRound_kept state hh hc
  | _ => exact hl.elim

/-! ## 4. The workers of a running adapter -/

variable {c : McpPool}

omit [McpCodec] in
/-- A spawned worker stays spawned. -/
theorem mcpSem_spawned {s s' : McpShared} {t : Nat} {e : McpEvent} (hs : mcpSem s t e s') :
    s.spawned ⊆ s'.spawned := by
  rw [hs.2]
  cases e.op with
  | spawn request call => exact List.subset_append_left _ _
  | _ => exact List.Subset.refl _

/-- What a thread of the adapter is: the stdio loop, or the worker of a spawned call. -/
def ThreadKind (s : McpShared) (t : Nat) (start : McpThread) : Prop :=
  (t = 0 ∧ start = runStdio) ∨
    ∃ call request, t = call + 1 ∧ (call, request) ∈ s.spawned ∧ start = runCall request call

omit [McpCodec] in
theorem ThreadKind.grows {s s' : McpShared} {t : Nat} {start : McpThread}
    (h : ThreadKind s t start) (hs : s.spawned ⊆ s'.spawned) : ThreadKind s' t start := by
  rcases h with hstdio | ⟨call, request, ht, hin, hstart⟩
  · exact Or.inl hstdio
  · exact Or.inr ⟨call, request, ht, hs hin, hstart⟩

theorem step_spawned {c c' : McpPool} (hs : Step mcpSystem c c') :
    c.shared.spawned ⊆ c'.shared.spawned := by
  cases hs with
  | act t th o k a s' ht hl hrest hs => exact mcpSem_spawned hs
  | again t th l ht hl hrest => exact List.Subset.refl _
  | start t p s' ht hs => rw [Pool.put_shared, hs.1]; exact List.Subset.refl _
  | halt s' hs => exact hs.elim

theorem thread_kind (hr : Reach mcpSystem McpPool.initial c) :
    ∀ t th, c.threads t = some th → ThreadKind c.shared t th.start := by
  refine Reach.invariant (P := fun c : McpPool => ∀ t th, c.threads t = some th →
    ThreadKind c.shared t th.start) ?_ ?_ hr
  · intro t th ht
    cases ht
  · intro c c' _ _ hc hs t th' ht'
    have hgrow := step_spawned hs
    rcases hs.thread_cases ht' with ⟨th, ht, hstart, _⟩ | ⟨th, e, ht, _, hstart, _, _⟩ |
      ⟨_, _, hstart⟩
    · rw [hstart]
      exact (hc t th ht).grows hgrow
    · rw [hstart]
      exact (hc t th ht).grows hgrow
    · obtain ⟨hsame, hkind⟩ := hstart
      rw [hsame]
      exact hkind

/-- The worker of a call runs the request that was spawned for it. -/
theorem worker_started (hr : Reach mcpSystem McpPool.initial c) {call : Nat}
    {th : McpThreadState} (ht : c.threads (call + 1) = some th) :
    ∃ request, (call, request) ∈ c.shared.spawned ∧ th.start = runCall request call := by
  rcases thread_kind hr _ _ ht with ⟨h0, _⟩ | ⟨call', request, he, hin, hstart⟩
  · cases h0
  · cases he
    exact ⟨request, hin, hstart⟩

theorem stdio_started (hr : Reach mcpSystem McpPool.initial c) {th : McpThreadState}
    (ht : c.threads 0 = some th) : th.start = runStdio := by
  rcases thread_kind hr _ _ ht with ⟨_, hstart⟩ | ⟨call, request, he, _⟩
  · exact hstart
  · cases he

/-- Every operation of a worker stands where its discipline allows it. -/
theorem worker_places (hr : Reach mcpSystem McpPool.initial c) {call : Nat} {request : CallRequest}
    {th : McpThreadState} (ht : c.threads (call + 1) = some th)
    (hstart : th.start = runCall request call) :
    Issued (WorkerPlace request call) th.hist ∧ WorkerKept request call th.rest th.hist := by
  have hp : WorkerKept request call th.start [] := hstart ▸ runCall_kept
  exact ⟨hr.issued mcpRound_worker ht hp, hr.holds mcpRound_worker ht hp⟩

end Discipline

end MessageNexus
