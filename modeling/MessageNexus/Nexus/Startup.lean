/-
  File:      MessageNexus/Nexus/Startup.lean
  Subject:   THE START OF A NEXUS (`main.rs`, `nexus.rs`, `listener.rs` up to the accept loop), and
             whether a stored configuration can be repaired over the meta socket.

  * `main` -- the start, as a program over what it asks of the system, the store and Flow;
  * `main_serving_iff` -- where everything but Flow works, the start comes to its accept loop
    exactly when Flow accepts the Bind at the stored path;
  * `ServesOwner` -- once there, a Configure of the owner never waits on Flow;
  * `start_repairable_iff` -- both together, for every configuration that a run can leave stored.
-/
import MessageNexus.Nexus.Configure

namespace MessageNexus

open Interact SignalFlow

/-! ## 1. The defaults -/

/-- `DefaultConfiguration`: the two anchors. -/
structure DefaultConfiguration where
  home : String
  runtimeDirectory : String
  deriving DecidableEq, Repr

/-- `Path::join` of a relative path. -/
def joinPath (base part : String) : String :=
  if base.isEmpty || base.endsWith "/" then base ++ part else base ++ "/" ++ part

namespace DefaultConfiguration

variable (defaults : DefaultConfiguration)

def stateDirectory : String := joinPath defaults.home ".local/state/message"
def storePath : String := joinPath defaults.stateDirectory "message.sema"
def socketDirectory : String := joinPath defaults.runtimeDirectory "message"
def ordinarySocketPath : String := joinPath defaults.socketDirectory "message.sock"
def metaSocketPath : String := joinPath defaults.socketDirectory "message-owner.sock"
def flowSocketPath : String := joinPath (joinPath defaults.runtimeDirectory "flow") "flow.sock"

/-- `SeedsConfiguration::message_configuration`. -/
def messageConfiguration : Configuration :=
  ⟨defaults.ordinarySocketPath, defaults.metaSocketPath, defaults.flowSocketPath⟩

end DefaultConfiguration

/-! ## 2. The start -/

/-- What the start asks for. `openStore` is the whole of `MessageStore::open`; `nexus` are the
    operations that the connections use as well; `createParent` makes the directory that a socket
    path lies in. -/
inductive StartOp where
  | arguments
  | blockSignals
  | fromEnvironment
  | createDirectory (path : String)
  | openStore (path : String) (seed : Standard)
  | nexus (o : NexusOp)
  | thisProcess
  | createParent (path : String)
  | pathExists (path : String)
  | connect (path : String)
  | removeFile (path : String)
  | bindListener (path : String)
  | setPermissions (path : String)
  | signalFd
  | setNonblocking (socket : Socket)

@[reducible] def StartAns : StartOp → Type
  | .arguments => List String
  | .blockSignals => Except IoError Unit
  | .fromEnvironment => DefaultConfiguration
  | .createDirectory _ => Except IoError Unit
  | .openStore _ _ => Except StoreError Unit
  | .nexus o => NexusAns o
  | .thisProcess => Except IoError Process
  | .createParent _ => Except IoError Unit
  | .pathExists _ => Bool
  | .connect _ => Except IoError Unit
  | .removeFile _ => Except IoError Unit
  | .bindListener _ => Except IoError Unit
  | .setPermissions _ => Except IoError Unit
  | .signalFd => Except IoError Unit
  | .setNonblocking _ => Except IoError Unit

abbrev StartProg := Prog StartOp StartAns

/-- One operation of the start. -/
abbrev start (o : StartOp) : StartProg (StartAns o) := Prog.perform o

/-- A program of the connections, run by the start. -/
def ofNexus {α : Type} (p : NexusProg α) : StartProg α := p.lift .nexus fun _ a => a

inductive NexusError where
  | store (error : StoreError)
  | process (error : IoError)
  | flow (failure : EdgeFailure)
  deriving DecidableEq, Repr

/-- The `Display` text of a `NexusError`. -/
def NexusError.text [FlowDebug] : NexusError → String
  | .store error => "message store: " ++ error.text
  | .process error => "cannot read this process identity: " ++ error
  | .flow failure => "Flow bind failed: " ++ failure.debug

/-- The address under which the Nexus binds to Flow. -/
def messageAddress : Address := ⟨.field, "message", .primary⟩

/-- `OpensNexus::open`: the configuration that the listener will bind. -/
def openNexus (defaults : DefaultConfiguration) : StartProg (Except NexusError Configuration) := do
  match ← start (.openStore defaults.storePath ⟨defaults.messageConfiguration, false⟩) with
  | .error error => return .error (.store error)
  | .ok () =>
  match ← ofNexus standard with
  | .error error => return .error (.store error)
  | .ok current =>
    let edge : FlowEdge := ⟨current.configuration.flow⟩
    match ← start .thisProcess with
    | .error error => return .error (.process error)
    | .ok process =>
    match ← ofNexus (edge.bind messageAddress process) with
    | .error failure => return .error (.flow failure)
    | .ok _ => return .ok current.configuration

/-- A socket file that nobody listens on any more is removed. -/
def removeStale (path : String) : Bool → StartProg (Except IoError Unit)
  | false => return .ok ()
  | true => do
      match ← start (.connect path) with
      | .error _ => start (.removeFile path)
      | .ok () => return .ok ()

/-- `ServesSocket::bind`. -/
def bindSocket (path : String) : StartProg (Except IoError Unit) := do
  match ← start (.createParent path) with
  | .error error => return .error error
  | .ok () =>
  match ← removeStale path (← start (.pathExists path)) with
  | .error error => return .error error
  | .ok () =>
  match ← start (.bindListener path) with
  | .error error => return .error error
  | .ok () => start (.setPermissions path)

/-- `ListensOnSockets::serve` up to its accept loop. -/
def listen (bound : Configuration) : StartProg (Except IoError Unit) := do
  match ← bindSocket bound.ordinary with
  | .error error => return .error error
  | .ok () =>
  match ← bindSocket bound.metaSocket with
  | .error error => return .error error
  | .ok () =>
  match ← start .signalFd with
  | .error error => return .error error
  | .ok () =>
  match ← start (.setNonblocking .ordinary) with
  | .error error => return .error error
  | .ok () => start (.setNonblocking .owner)

/-- How a start ends: with an exit code, and the line on stderr where it fails, or in the accept
    loop on the sockets of a configuration. -/
inductive Started where
  | success
  | failure (message : String)
  | serving (bound : Configuration)
  deriving DecidableEq, Repr

/-- `main` from the signal mask on, up to the accept loop. -/
def startNexus [FlowDebug] : StartProg Started := do
  match ← start .blockSignals with
  | .error error => return .failure ("message-nexus: block shutdown signals: " ++ error)
  | .ok () =>
    let defaults ← start .fromEnvironment
    match ← start (.createDirectory defaults.stateDirectory) with
    | .error error => return .failure ("message-nexus: state directory: " ++ error)
    | .ok () =>
    match ← openNexus defaults with
    | .error error =>
      return .failure ("message-nexus: store " ++ defaults.storePath ++ ": " ++ error.text)
    | .ok bound =>
    match ← listen bound with
    | .error error => return .failure ("message-nexus: " ++ error)
    | .ok () => return .serving bound

/-- `main`, up to the accept loop. -/
def main [FlowDebug] : StartProg Started := do
  let arguments ← start .arguments
  if arguments.head? == some "--version" then return .success
  else if arguments.length > 0 then
    return .failure "message-nexus: a Nexus starts with no arguments"
  else startNexus

/-! ## 3. Where everything but Flow works -/

/-- What the system, the store and Flow answer to a start. -/
abbrev StartEnv := (o : StartOp) → StartAns o

/-- A socket path that can be bound. -/
structure Bindable (env : StartEnv) (path : String) : Prop where
  createParent : env (.createParent path) = .ok ()
  removeFile : env (.removeFile path) = .ok ()
  bindListener : env (.bindListener path) = .ok ()
  setPermissions : env (.setPermissions path) = .ok ()

/-- The shared state of the connections when the start has opened the store. -/
def StartEnv.opened (env : StartEnv) (opening : OpenAnswers) (s : NexusShared) : NexusShared :=
  s.opened opening (env .fromEnvironment).storePath (env .fromEnvironment).messageConfiguration

/-- Everything but Flow works: the start without arguments may read its own process, open the
    store it finds and read the record there, and bind the record's sockets. -/
structure SystemWorks (env : StartEnv) (opening : OpenAnswers) (s : NexusShared)
    (current : Standard) (process : Process) : Prop where
  arguments : env .arguments = []
  blockSignals : env .blockSignals = .ok ()
  createDirectory : ∀ path, env (.createDirectory path) = .ok ()
  opens : ∀ path seed, env (.openStore path seed) = .ok ()
  runs : (env.opened opening s).running = true
  reads : env (.nexus .matchRecords) = .ok (env.opened opening s).rows
  record : (env.opened opening s).rows = [current]
  thisProcess : env .thisProcess = .ok process
  ordinary : Bindable env current.configuration.ordinary
  metaSocket : Bindable env current.configuration.metaSocket
  signalFd : env .signalFd = .ok ()
  setNonblocking : ∀ socket, env (.setNonblocking socket) = .ok ()

/-- Flow takes the Bind of a start and answers it with a flow. -/
structure BindAccepted (t : ExchangeAnswers) : Prop where
  connect : t.connect = .ok ()
  setReadTimeout : t.setReadTimeout = .ok ()
  setWriteTimeout : t.setWriteTimeout = .ok ()
  write : writeFrame t.write = .ok ()
  read : ∃ flowId, t.read = .ok (.bound flowId)

/-- What the Bind of a start meets, which waits two seconds for Flow's answer. -/
def StartEnv.bindAnswers (env : StartEnv) (flow : String) (process : Process) : ExchangeAnswers :=
  env (.nexus (.exchange flow (.bind messageAddress process) (some 2) (some 2)))

section Start

variable {env : StartEnv}

theorem eval_removeStale {path : String} (hb : Bindable env path) (present : Bool) :
    (removeStale path present).eval env = .ok () := by
  cases present with
  | false => rfl
  | true =>
      unfold removeStale
      simp only [Prog.eval_bind, Prog.eval_perform]
      cases (env (.connect path) : Except IoError Unit) with
      | error error => exact hb.removeFile
      | ok _ => rfl

theorem eval_bindSocket {path : String} (hb : Bindable env path) :
    (bindSocket path).eval env = .ok () := by
  unfold bindSocket
  simp only [Prog.eval_bind, Prog.eval_perform, hb.createParent, eval_removeStale hb,
    hb.bindListener, hb.setPermissions]

variable {opening : OpenAnswers} {s : NexusShared} {current : Standard} {process : Process}

theorem eval_listen (hw : SystemWorks env opening s current process) :
    (listen current.configuration).eval env = .ok () := by
  unfold listen
  simp only [Prog.eval_bind, Prog.eval_perform, eval_bindSocket hw.ordinary,
    eval_bindSocket hw.metaSocket, hw.signalFd, hw.setNonblocking]

/-- The call of a Bind succeeds exactly where Flow accepts it. -/
theorem bindAccepted_iff (t : ExchangeAnswers) :
    BindAccepted t ↔ ∃ flowId, answered FlowEdge.bound t = .ok flowId := by
  constructor
  · intro h
    obtain ⟨flowId, hread⟩ := h.read
    refine ⟨flowId, ?_⟩
    unfold answered exchangeResult
    rw [h.connect, h.setReadTimeout, h.setWriteTimeout, h.write, hread]
    rfl
  · intro h
    obtain ⟨flowId, hcall⟩ := h
    obtain ⟨response, hex, hbound⟩ := answered_ok hcall
    unfold exchangeResult at hex
    cases hc : t.connect with
    | error error => simp [hc] at hex
    | ok _ =>
        cases hr : t.setReadTimeout with
        | error error => simp [hc, hr] at hex
        | ok _ =>
            cases hs : t.setWriteTimeout with
            | error error => simp [hc, hr, hs] at hex
            | ok _ =>
                cases hw : writeFrame t.write with
                | error error => simp [hc, hr, hs, hw] at hex
                | ok _ =>
                    cases hread : t.read with
                    | error error => simp [hc, hr, hs, hw, hread] at hex
                    | ok answer =>
                        simp only [hc, hr, hs, hw, hread] at hex
                        cases hex
                        cases response with
                        | bound answered => exact ⟨hc, hr, hs, hw, answered, hread⟩
                        | _ => cases hbound

/-- The opening of a Nexus comes down to the Bind. -/
theorem eval_openNexus (hw : SystemWorks env opening s current process) :
    (openNexus (env .fromEnvironment)).eval env =
      match answered FlowEdge.bound (env.bindAnswers current.configuration.flow process) with
      | .error failure => .error (.flow failure)
      | .ok _ => .ok current.configuration := by
  have hread : (ofNexus standard).eval env = .ok current := by
    change ((env (.nexus .matchRecords) : Except String (List Standard)).mapError
      StoreError.engine).bind theStandard = .ok current
    rw [hw.reads, hw.record]
    rfl
  have hbind : (ofNexus (FlowEdge.bind ⟨current.configuration.flow⟩ messageAddress process)).eval env
      = answered FlowEdge.bound (env.bindAnswers current.configuration.flow process) := rfl
  unfold openNexus
  simp only [Prog.eval_bind, Prog.eval_perform, hw.opens, hread, hw.thisProcess, hbind]
  cases answered FlowEdge.bound (env.bindAnswers current.configuration.flow process) <;> rfl

/-- Where everything but Flow works, the start comes to its accept loop exactly when Flow accepts
    the Bind; the sockets it then listens on are the stored ones. -/
theorem main_serving_iff [FlowDebug] (hw : SystemWorks env opening s current process)
    (bound : Configuration) : main.eval env = .serving bound ↔
      bound = current.configuration ∧
        BindAccepted (env.bindAnswers current.configuration.flow process) := by
  have hmain : main.eval env = startNexus.eval env := by
    unfold main
    simp [hw.arguments]
  have hopen := eval_openNexus hw
  rw [bindAccepted_iff, hmain, startNexus]
  simp only [Prog.eval_bind, Prog.eval_perform, hw.blockSignals, hw.createDirectory, hopen]
  cases answered FlowEdge.bound (env.bindAnswers current.configuration.flow process) with
  | error failure => simp
  | ok flowId =>
      simp only [Prog.eval_bind, eval_listen hw, Prog.eval_pure, Started.serving.injEq]
      exact ⟨fun he => ⟨he.symm, flowId, rfl⟩, fun he => he.1.symm⟩

end Start

/-! ## 4. A Configure of the owner -/

/-- The operations that wait on Flow. -/
def NexusOp.asksFlow : NexusOp → Bool
  | .exchange _ _ _ _ => true
  | .observe _ _ _ => true
  | .next => true
  | .interruptHandle => true
  | _ => false

/-- Nothing that Flow does keeps a Configure of the owner from its answer: its connection never
    asks Flow, at its end it has been told once, and whoever holds the store's mutex is about to
    use the store. -/
structure ServesOwner (c : NexusPool) : Prop where
  offFlow : ∀ t th configuration, c.threads t = some th →
    asksConfigure th.hist = some (.owner, configuration) →
    (∀ e ∈ th.hist, e.op.asksFlow = false) ∧ ∀ o k, th.rest = .ask o k → o.asksFlow = false
  told : ∀ t th configuration, c.threads t = some th →
    asksConfigure th.hist = some (.owner, configuration) →
    ∀ result, th.rest = .ret (.inr result) → (told th.hist).length = 1
  holder : ∀ t, c.shared.holder = some t → ∃ th o k, c.threads t = some th ∧ th.live = true ∧
    th.rest = .ask o k ∧ o.offStore = false

theorem configureStore_offFlow (configuration : Configuration) (isMeta : Bool) :
    Uses (fun o => o.asksFlow = false) (configureStore configuration isMeta) := by
  have hread : Uses (fun o => o.asksFlow = false) standard := ⟨rfl, fun _ => trivial⟩
  unfold configureStore
  refine hread.bind fun current => ?_
  cases current with
  | error error => trivial
  | ok current =>
      dsimp only
      split
      · trivial
      · refine ⟨rfl, fun outcome => ?_⟩
        cases outcome <;> trivial

theorem configure_offFlow (configuration : Configuration) (isMeta : Bool) :
    Uses (fun o => o.asksFlow = false) (configure configuration isMeta) :=
  ⟨rfl, fun _ => (configureStore_offFlow configuration isMeta).bind fun _ =>
    ⟨rfl, fun _ => trivial⟩⟩

/-- The handler of the meta socket never asks Flow, and forwards no subscription. -/
theorem answerMeta_offFlow :
    Holds anyAnswer (fun _ o => o.asksFlow = false)
      (Sum.elim (fun _ _ => False) fun _ _ => True) answerMeta [] := by
  refine ⟨rfl, fun query _ => ?_⟩
  cases query with
  | error error => trivial
  | ok query =>
      cases query with
      | configure configuration =>
          change Holds _ _ _ (configure configuration true >>= _) _
          rw [holds_bind]
          refine (configure_offFlow configuration true).performs fun outcome h' => ?_
          exact ⟨rfl, fun _ _ => trivial⟩

section Owner

variable [FlowDebug] {c : NexusPool} {t : Nat}
  {th : Thread NexusOp NexusAns ForwardLoop (Except FrameError Unit)}

/-- A connection that was asked a Configure of the owner runs the handler of the meta socket. -/
theorem owner_start {s₀ : NexusShared} (hr : Reach nexusSystem (.idle s₀) c)
    (ht : c.threads t = some th) {configuration : Configuration}
    (ha : asksConfigure th.hist = some (.owner, configuration)) : th.start = answerMeta := by
  have hp := hr.started (P := fun p => p = answerOrdinary ∨ p = answerMeta)
    (fun _ _ _ _ => nexusStart_program) t th ht
  have htr := hr.trace t th ht
  unfold asksConfigure at ha
  split at ha
  · cases ha
  · rename_i configuration rest hh
    rcases hp with hp | hp
    · rw [hh] at htr
      have h1 : Trace forwardRound (.ask .readQuery _) _ _ := hp ▸ htr
      obtain ⟨_, he, _⟩ := h1.ask_inv
      cases he
    · exact hp
  · cases ha

theorem reach_servesOwner (hr : Reach nexusSystem (.idle .absent) c) : ServesOwner c := by
  constructor
  · intro t th configuration ht ha
    have hp : Holds anyAnswer (fun _ o => o.asksFlow = false)
        (Sum.elim (fun _ _ => False) fun _ _ => True) th.start [] :=
      owner_start hr ht ha ▸ answerMeta_offFlow
    have hloop : ∀ (l : ForwardLoop) (h : List NexusEvent), False →
        Holds anyAnswer (fun _ o => o.asksFlow = false)
          (Sum.elim (fun _ _ => False) fun _ _ => True) (forwardRound l) h :=
      fun _ _ hf => hf.elim
    refine ⟨fun e he => ?_, fun o k hrest => ?_⟩
    · obtain ⟨before, after, hsplit⟩ := List.append_of_mem he
      have hi := hr.issued hloop ht hp
      rw [hsplit] at hi
      exact hi.at
    · have hend := hr.holds hloop ht hp
      rw [hrest] at hend
      exact hend.1
  · exact fun t th configuration ht ha => (configure_told hr ht ha).2
  · exact fun t hheld => holder_uses_store rfl hr hheld

/-- The script of an owner's connection. -/
def configureScript (configuration : Configuration) : NexusScript :=
  { deliveredScript with metaQuery := some (.configure configuration) }

/-- While a Nexus runs and its store is free, an owner that connects can configure it. -/
theorem owner_configures (hr : Reach nexusSystem (.idle .absent) c)
    (hrun : c.shared.running = true) (hfree : c.shared.holder = none)
    (ht : c.threads t = none) (configuration : Configuration) :
    ∃ c' th, Reach nexusSystem c c' ∧ c'.threads t = some th ∧
      asksConfigure th.hist = some (.owner, configuration) ∧ told th.hist = [true] ∧
      c'.shared.rows = [⟨configuration, true⟩] := by
  have hreach := (configureScript configuration).join_reach 20 .refl hrun ht
  have hthread := (configureScript configuration).join_thread 20 c t
  have hk := reach_keeps hr
  obtain ⟨seed, hseed⟩ := Option.isSome_iff_exists.mp (hk.running hrun)
  obtain ⟨opening, hfile⟩ := hk.seeded seed hseed
  generalize intended seed c.shared.configured = current at hfile
  -- the run of the script, from a state with the mutex free and one record
  have hrun : ∀ s : NexusShared, s.holder = none →
      s.file = some ⟨opening, (StoreFile.keeping current).content⟩ →
      asksConfigure ((configureScript configuration).thread 20 s t).hist =
        some (.owner, configuration) ∧
      committed ((configureScript configuration).thread 20 s t).hist = [configuration] ∧
      (∃ result, ((configureScript configuration).thread 20 s t).rest = .ret (.inr result)) ∧
      ((configureScript configuration).drive 20 s t).1.rows =
        [current.changedConfiguration configuration true] := by
    intro s hfree hfile
    obtain ⟨file, holder, running, bound, socketOf, seeded, configured⟩ := s
    cases hfree
    cases hfile
    exact ⟨rfl, rfl, ⟨_, rfl⟩, rfl⟩
  obtain ⟨hask, hcommit, ⟨result, hend⟩, hrows⟩ := hrun _ hfree hfile
  obtain ⟨htrue, honce⟩ := configure_told (hr.trans hreach) hthread hask
  refine ⟨_, _, hreach, hthread, hask, ?_, ?_⟩
  · obtain ⟨success, htold⟩ := List.length_eq_one_iff.mp (honce result hend)
    have hsuccess := htrue success (by rw [htold]; exact List.mem_singleton_self _)
    rw [hcommit] at hsuccess
    cases success with
    | true => exact htold
    | false => cases hsuccess
  · exact hrows.trans (by simp [Standard.changedConfiguration])

end Owner

/-! ## 5. A stored configuration can be repaired -/

/-- The pool after a start has opened the store: the connections of earlier runs are gone. -/
def restarted (env : StartEnv) (opening : OpenAnswers) (c : NexusPool) : NexusPool :=
  ⟨env.opened opening c.shared, fun t => (c.threads t).map fun th => { th with live := false }⟩

/-- The start comes to its accept loop, and from then on a Configure of the owner is answered
    whatever happens, and can be had whenever the store is free. -/
structure Repairable [FlowDebug] (env : StartEnv) (c₁ : NexusPool) : Prop where
  serving : ∃ bound, main.eval env = .serving bound
  owner : ∀ c₂, Reach nexusSystem c₁ c₂ → ServesOwner c₂
  configures : ∀ c₂ t configuration, Reach nexusSystem c₁ c₂ → c₂.shared.running = true →
    c₂.shared.holder = none → c₂.threads t = none →
    ∃ c₃ th, Reach nexusSystem c₂ c₃ ∧ c₃.threads t = some th ∧
      asksConfigure th.hist = some (.owner, configuration) ∧ told th.hist = [true] ∧
      c₃.shared.rows = [⟨configuration, true⟩]

/-- The configuration that is stored when a Nexus starts can be repaired exactly when Flow, at the
    stored path, accepts the Bind. -/
theorem start_repairable_iff [FlowDebug] {c : NexusPool} {env : StartEnv} {opening : OpenAnswers}
    {current : Standard} {process : Process} (hr : Reach nexusSystem (.idle .absent) c)
    (hstop : c.shared.running = false)
    (hw : SystemWorks env opening c.shared current process) :
    Repairable env (restarted env opening c) ↔
      BindAccepted (env.bindAnswers current.configuration.flow process) := by
  have hstart : Reach nexusSystem (.idle .absent) (restarted env opening c) :=
    hr.tail (.halt c _ (NexusHalt.open c.shared opening _ _ hstop))
  constructor
  · intro h
    obtain ⟨bound, hserving⟩ := h.serving
    exact ((main_serving_iff hw bound).mp hserving).2
  · intro h
    constructor
    · exact ⟨_, (main_serving_iff hw _).mpr ⟨rfl, h⟩⟩
    · exact fun c₂ h₂ => reach_servesOwner (hstart.trans h₂)
    · exact fun c₂ t configuration h₂ hrun hfree ht =>
        owner_configures (hstart.trans h₂) hrun hfree ht configuration

/-! ## 6. A start after the owner has moved the Flow socket -/

/-- The Nexus of `ownedPool`, stopped. -/
def stoppedPool : NexusPool :=
  ⟨{ ownedPool.shared with
      file := ownedPool.shared.file.map fun file => { file with opening := .repairAborted }
      holder := none
      running := false
      bound := none },
    fun t => (ownedPool.threads t).map fun th => { th with live := false }⟩

theorem stoppedPool_reach : Reach (@nexusSystem unitDebug) (.idle .absent) stoppedPool :=
  ownedPool_reach.tail (.halt ownedPool _ (.kill ownedPool.shared .repairAborted))

/-- A system in which everything works, and a Flow that meets the Bind with this. -/
def sampleStart (bind : ExchangeAnswers) : StartEnv
  | .arguments => []
  | .blockSignals => .ok ()
  | .fromEnvironment => ⟨"/home/someone", "/run/user/4242"⟩
  | .createDirectory _ => .ok ()
  | .openStore _ _ => .ok ()
  | .nexus .matchRecords => .ok [⟨ownerConfiguration, true⟩]
  | .nexus (.exchange _ _ _ _) => bind
  | .nexus .lockStore => ()
  | .nexus .unlockStore => ()
  | .nexus (.mutateKeyed _) => .ok ()
  | .nexus .now => ⟨0⟩
  | .nexus (.observe _ _ _) => ⟨.ok (), .ok (), ⟨.ok 64, .ok (), .ok (), .ok ()⟩⟩
  | .nexus .next => .error .closed
  | .nexus .interruptHandle => .ok ()
  | .nexus .readQuery => .error .closed
  | .nexus .readMetaQuery => .error .closed
  | .nexus .peerProcess => none
  | .nexus .cloneStream => .ok ()
  | .nexus (.writeResponse _) => .ok ()
  | .nexus (.writeMetaResponse _) => .ok ()
  | .thisProcess => .ok ⟨7, 1⟩
  | .createParent _ => .ok ()
  | .pathExists _ => false
  | .connect _ => .ok ()
  | .removeFile _ => .ok ()
  | .bindListener _ => .ok ()
  | .setPermissions _ => .ok ()
  | .signalFd => .ok ()
  | .setNonblocking _ => .ok ()

theorem sampleStart_works (bind : ExchangeAnswers) :
    SystemWorks (sampleStart bind) smoothOpen stoppedPool.shared ⟨ownerConfiguration, true⟩
      ⟨7, 1⟩ where
  arguments := rfl
  blockSignals := rfl
  createDirectory _ := rfl
  opens _ _ := rfl
  runs := rfl
  reads := rfl
  record := rfl
  thisProcess := rfl
  ordinary := ⟨rfl, rfl, rfl, rfl⟩
  metaSocket := ⟨rfl, rfl, rfl, rfl⟩
  signalFd := rfl
  setNonblocking _ := rfl

/-- A Flow socket that nobody listens on. -/
def unreachableFlow : ExchangeAnswers :=
  { transported (.error .closed) with connect := .error "Connection refused" }

/-- After the owner has configured a Flow path and the Nexus was stopped, a start that finds nobody
    at that path ends instead of listening. -/
theorem start_unreachable :
    Reach (@nexusSystem unitDebug) (.idle .absent) stoppedPool ∧
    stoppedPool.shared.running = false ∧
    SystemWorks (sampleStart unreachableFlow) smoothOpen stoppedPool.shared
      ⟨ownerConfiguration, true⟩ ⟨7, 1⟩ ∧
    ¬ @Repairable unitDebug (sampleStart unreachableFlow)
      (restarted (sampleStart unreachableFlow) smoothOpen stoppedPool) := by
  have hw := sampleStart_works unreachableFlow
  refine ⟨stoppedPool_reach, rfl, hw, fun h => ?_⟩
  obtain ⟨bound, hserving⟩ := @Repairable.serving unitDebug _ _ h
  have haccepted := ((@main_serving_iff _ _ _ _ _ unitDebug hw bound).mp hserving).2
  cases haccepted.connect

theorem start_repairable_bound :
    @Repairable unitDebug (sampleStart (transported (.ok (.bound "flow-1"))))
      (restarted (sampleStart (transported (.ok (.bound "flow-1")))) smoothOpen stoppedPool) :=
  (@start_repairable_iff unitDebug _ _ _ _ _ stoppedPool_reach rfl (sampleStart_works _)).mpr
    ⟨rfl, rfl, rfl, rfl, "flow-1", rfl⟩

end MessageNexus
