/-
  File:      MessageNexus/Nexus/System.lean
  Subject:   THE RUNNING NEXUS: any number of connections on both sockets over one store, with
             store failures, kills and restarts.

  * `NexusShared` -- the store file, the holder of the store's mutex, whether a Nexus runs, the
    configuration it bound and which socket accepted each connection; beside them two records that no program reads: the
    configuration the first completed open was seeded with, and the Configure requests that have
    succeeded, in the order of their commits;
  * `nexusSem` -- what each operation may answer and do: the mutex excludes, the engine reads and
    replaces the row in one commit or fails and leaves it, everything else is up to the
    environment and touches nothing shared;
  * `nexusSystem` -- connections start while the Nexus runs; it may be killed at any time, and
    opened again with any seed (`openStore`), which may fail at any step.
-/
import MessageNexus.Lib.Pool
import MessageNexus.Nexus.Listener

namespace MessageNexus

open Interact SignalFlow

/-! ## 1. The system -/

/-- `Socket`: the listener that accepted a connection; `owner` is the `Meta` of the source. -/
inductive Socket where
  | ordinary
  | owner
  deriving DecidableEq, Repr

structure NexusShared where
  file : Option StoreFile
  holder : Option Nat
  running : Bool
  bound : Option Configuration
  socketOf : Nat → Option Socket
  seeded : Option Configuration
  configured : List (Socket × Configuration)

/-- The rows at the Standard key. -/
def NexusShared.rows (s : NexusShared) : List Standard :=
  match s.file with
  | none => []
  | some file => file.rows

/-- The state before the first start: no file, no Nexus. -/
def NexusShared.absent : NexusShared := ⟨none, none, false, none, fun _ => none, none, []⟩

/-- A successful Configure of connection `t`: the row is replaced, and the request noted. -/
def NexusShared.commit (s : NexusShared) (t : Nat) (standard : Standard) : NexusShared :=
  { s with
    file := s.file.map fun file => mutateKeyed file standard
    configured := s.configured ++
      (s.socketOf t).toList.map fun socket => (socket, standard.configuration) }

/-- What the operations of connection `t` may answer and do to the shared state. -/
def nexusSem (s : NexusShared) (t : Nat) : NexusEvent → NexusShared → Prop
  | ⟨.lockStore, _⟩, s' => s.holder = none ∧ s' = { s with holder := some t }
  | ⟨.unlockStore, _⟩, s' => s' = { s with holder := none }
  | ⟨.matchRecords, answer⟩, s' =>
      s' = s ∧ (answer = .ok s.rows ∨ ∃ error, answer = .error error)
  | ⟨.mutateKeyed standard, answer⟩, s' =>
      (answer = .ok () ∧ s' = s.commit t standard) ∨ ((∃ error, answer = .error error) ∧ s' = s)
  | _, s' => s' = s

/-- A connection is accepted while the Nexus runs. -/
def nexusStart [FlowDebug] (s : NexusShared) (t : Nat) (p : Handler) (s' : NexusShared) : Prop :=
  s.running = true ∧
    ((p = answerOrdinary ∧
        s' = { s with socketOf := Function.update s.socketOf t (some .ordinary) }) ∨
      (p = answerMeta ∧ s' = { s with socketOf := Function.update s.socketOf t (some .owner) }))

/-- The state after an open: a completed one runs, and the first completed one has seeded. -/
def NexusShared.opened (s : NexusShared) (answers : OpenAnswers) (path : String)
    (seed : Configuration) : NexusShared :=
  let result := openStore answers path ⟨seed, false⟩ s.file
  let s' := { s with file := result.1, holder := none }
  match result.2 with
  | .error _ => { s' with running := false, bound := none }
  | .ok () =>
      { s' with
        running := true
        bound := s'.rows.head?.map (·.configuration)
        seeded := some (s.seeded.getD seed) }

/-- The Nexus is killed (redb may find the file in need of repair afterwards), or a Nexus that
    does not run is started with the seed of its defaults, whose latch is open. -/
inductive NexusHalt : NexusShared → NexusShared → Prop where
  | kill (s : NexusShared) (opening : Opening) :
      NexusHalt s { s with
        file := s.file.map fun file => { file with opening := opening }
        holder := none
        running := false
        bound := none }
  | open (s : NexusShared) (answers : OpenAnswers) (path : String) (seed : Configuration)
      (hs : s.running = false) : NexusHalt s (s.opened answers path seed)

/-- The Nexus as a system of connections. -/
def nexusSystem [FlowDebug] :
    System NexusOp NexusAns ForwardLoop (Except FrameError Unit) NexusShared where
  body := forwardRound
  sem := nexusSem
  start := nexusStart
  halt := NexusHalt

abbrev NexusPool := Pool NexusOp NexusAns ForwardLoop (Except FrameError Unit) NexusShared

/-- A connection that starts runs one of the two handlers. -/
theorem nexusStart_program [FlowDebug] {s s' : NexusShared} {t : Nat} {p : Handler}
    (h : nexusStart s t p s') : p = answerOrdinary ∨ p = answerMeta := by
  rcases h.2 with ⟨hp, _⟩ | ⟨hp, _⟩
  · exact Or.inl hp
  · exact Or.inr hp

/-- The program of a connection that was asked a query is its answer to that query. -/
theorem connection_trace [FlowDebug] {s₀ : NexusShared} {c : NexusPool}
    (hr : Reach nexusSystem (.idle s₀) c) {t : Nat}
    {th : Thread NexusOp NexusAns ForwardLoop (Except FrameError Unit)}
    (ht : c.threads t = some th) {process : Process} {query : SignalMessage.Query}
    (ha : asked th.hist = some (process, query)) :
    ∃ rest, th.hist = askedBy process query ++ rest ∧
      Trace forwardRound (answerQuery process query) rest th.rest := by
  obtain ⟨rest, he⟩ := asked_eq ha
  have hp := hr.started (P := fun p => p = answerOrdinary ∨ p = answerMeta)
    (fun _ _ _ _ => nexusStart_program) t th ht
  have htr := hr.trace t th ht
  rw [he] at htr
  exact ⟨rest, he, asked_trace htr hp⟩

/-! ## 2. Scripted connections -/

/-- An environment of one connection: what it is asked on its socket, what Flow answers to each
    request and on the subscription, the time, why the store cannot be read, if it cannot, whether
    the connection's descriptor can be duplicated, and whether its peer is known. The client reads
    every frame. -/
structure NexusScript where
  process : Process
  query : SignalMessage.Query
  metaQuery : Option MetaSignalMessage.Query
  time : SystemTime
  flow : Query → ExchangeAnswers
  observe : ObserveAnswers
  frames : List (Except FrameError Response)
  storeError : Option String
  clone : Except IoError Unit := .ok ()
  peerKnown : Bool := true

/-- What the script answers to an operation of connection `t`, and the shared state after it. -/
def NexusScript.answer (script : NexusScript) (t : Nat) (s : NexusShared) (h : List NexusEvent) :
    (o : NexusOp) → Option (NexusAns o × NexusShared)
  | .lockStore => if s.holder = none then some ((), { s with holder := some t }) else none
  | .unlockStore => some ((), { s with holder := none })
  | .matchRecords =>
      match script.storeError with
      | none => some (.ok s.rows, s)
      | some error => some (.error error, s)
  | .mutateKeyed standard => some (.ok (), s.commit t standard)
  | .now => some (script.time, s)
  | .exchange _ query _ _ => some (script.flow query, s)
  | .observe _ _ _ => some (script.observe, s)
  | .next => some (script.frames.getD (h.countP (·.op == .next)) (.error .closed), s)
  | .interruptHandle => some (.ok (), s)
  | .readQuery => some (.ok script.query, s)
  | .readMetaQuery =>
      match script.metaQuery with
      | none => some (.error .closed, s)
      | some query => some (.ok query, s)
  | .peerProcess => some (if script.peerKnown then some script.process else none, s)
  | .cloneStream => some (script.clone, s)
  | .writeResponse _ => some (.ok (), s)
  | .writeMetaResponse _ => some (.ok (), s)

/-- The script keeps to what the operations may do. -/
theorem NexusScript.answer_sem (script : NexusScript) (t : Nat) (s : NexusShared)
    (h : List NexusEvent) (o : NexusOp) (a : NexusAns o) (s' : NexusShared)
    (ha : script.answer t s h o = some (a, s')) : nexusSem s t ⟨o, a⟩ s' := by
  cases o with
  | lockStore =>
      simp only [NexusScript.answer] at ha
      split at ha
      · rename_i hf
        cases ha
        exact ⟨hf, rfl⟩
      · cases ha
  | matchRecords =>
      simp only [NexusScript.answer] at ha
      split at ha
      · cases ha
        exact ⟨rfl, Or.inl rfl⟩
      · cases ha
        exact ⟨rfl, Or.inr ⟨_, rfl⟩⟩
  | mutateKeyed standard => cases ha; exact Or.inl ⟨rfl, rfl⟩
  | readMetaQuery =>
      simp only [NexusScript.answer] at ha
      split at ha <;> cases ha <;> rfl
  | _ => cases ha; rfl

/-- The handler of a socket. -/
def Socket.handler [FlowDebug] : Socket → Handler
  | .ordinary => answerOrdinary
  | .owner => answerMeta

/-- The socket of a script: the owner's where it has a query for it. -/
def NexusScript.socket (script : NexusScript) : Socket :=
  match script.metaQuery with
  | none => .ordinary
  | some _ => .owner

/-- The state in which connection `t` has been accepted. -/
def NexusShared.accepted (s : NexusShared) (t : Nat) (socket : Socket) : NexusShared :=
  { s with socketOf := Function.update s.socketOf t (some socket) }

/-- Connection `t` after at most `n` steps of the script, with the shared state. -/
def NexusScript.drive [FlowDebug] (script : NexusScript) (n : Nat) (s : NexusShared) (t : Nat) :
    NexusShared × List NexusEvent × Handler :=
  Interact.drive forwardRound (script.answer t) n (s.accepted t script.socket) []
    script.socket.handler

def NexusScript.thread [FlowDebug] (script : NexusScript) (n : Nat) (s : NexusShared) (t : Nat) :
    Thread NexusOp NexusAns ForwardLoop (Except FrameError Unit) :=
  ⟨script.socket.handler, (script.drive n s t).2.1, (script.drive n s t).2.2, true⟩

/-- The pool with one scripted connection more. -/
def NexusScript.join [FlowDebug] (script : NexusScript) (n : Nat) (c : NexusPool) (t : Nat) :
    NexusPool :=
  c.put (script.drive n c.shared t).1 t (script.thread n c.shared t)

theorem NexusScript.join_thread [FlowDebug] (script : NexusScript) (n : Nat) (c : NexusPool)
    (t : Nat) : (script.join n c t).threads t = some (script.thread n c.shared t) :=
  Pool.put_self _ _ _ _

theorem NexusScript.join_reach [FlowDebug] (script : NexusScript) (n : Nat) {c₀ c : NexusPool}
    {t : Nat} (hr : Reach nexusSystem c₀ c) (hs : c.shared.running = true)
    (ht : c.threads t = none) : Reach nexusSystem c₀ (script.join n c t) := by
  have hstart : Step nexusSystem c
      (c.put (c.shared.accepted t script.socket) t (.fresh script.socket.handler)) := by
    refine .start c t _ _ ht ⟨hs, ?_⟩
    cases script.socket with
    | ordinary => exact Or.inl ⟨rfl, rfl⟩
    | owner => exact Or.inr ⟨rfl, rfl⟩
  exact Reach.drive (S := nexusSystem) (script.answer_sem t) n (hr.tail hstart)

/-- The pool of one scripted connection, number 0. -/
def NexusScript.pool [FlowDebug] (script : NexusScript) (n : Nat) (s : NexusShared) : NexusPool :=
  script.join n (.idle s) 0

theorem NexusScript.pool_thread [FlowDebug] (script : NexusScript) (n : Nat) (s : NexusShared) :
    (script.pool n s).threads 0 = some (script.thread n s 0) :=
  script.join_thread n (.idle s) 0

theorem NexusScript.pool_reach [FlowDebug] (script : NexusScript) (n : Nat) {s : NexusShared}
    (hs : s.running = true) : Reach nexusSystem (.idle s) (script.pool n s) :=
  script.join_reach n .refl hs rfl

/-- The `Debug` texts of the values without payload; the scripts use no others. -/
@[reducible] def unitDebug : FlowDebug where
  refusal
    | .locked => "Locked"
    | .asleep => "Asleep"
    | .lapsed => "Lapsed"
    | .noLayer => "NoLayer"
    | .noneAbove => "NoneAbove"
    | .notMessage => "NotMessage"
    | .notConfigured => "NotConfigured"
    | .offRoute => "OffRoute"
    | _ => ""
  response
    | .released => "Released"
    | _ => ""

/-- What the one scripted connection did in at most `n` steps. -/
def NexusScript.history (script : NexusScript) (n : Nat) (s : NexusShared) : List NexusEvent :=
  (@NexusScript.thread unitDebug script n s 0).hist

/-- An exchange whose transport works up to the answer. -/
def transported (answer : Except FrameError Response) : ExchangeAnswers :=
  ⟨.ok (), .ok (), .ok (), ⟨.ok 64, .ok (), .ok (), .ok ()⟩, answer⟩

/-- A store file with this record. -/
def StoreFile.keeping (standard : Standard) : StoreFile :=
  ⟨.readable,
    { metadata := .ok [("schema_version", schemaVersion)]
      counters := .ok [("engine_storage_layout", .ok storageLayout)]
      catalog := .ok [(standardTable, .ok ⟨standardTable, standardFamily, standardSchemaHash⟩)]
      standards := .ok [(standardKey, .ok standard)] }⟩

/-- A Nexus that runs with this configuration, seeded with it. -/
def NexusShared.serving (configuration : Configuration) : NexusShared :=
  { file := some (.keeping ⟨configuration, false⟩)
    holder := none
    running := true
    bound := some configuration
    socketOf := fun _ => none
    seeded := some configuration
    configured := [] }

end MessageNexus
