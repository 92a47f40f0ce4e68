/-
  File:      MessageNexus/Nexus/StoreLock.lean
  Subject:   THE STORE'S MUTEX IN THE HANDLERS: every use of the store is a section, and a
             Configure replaces the record it has just read.

  * `storeMutex` -- the mutex of the store as a mutex of the system (`Lib/Lock.lean`);
  * `StorePlace` -- the discipline of a handler: the sections, and where the record is replaced;
  * `answerOrdinary_store`, `answerMeta_store` -- both handlers keep it;
  * `read_current` -- what a connection has read in its section is what the store holds.
-/
import MessageNexus.Lib.Lock
import MessageNexus.Nexus.System

namespace MessageNexus

open Interact SignalFlow

/-! ## 1. The mutex and the discipline -/

def NexusOp.acquiresStore : NexusOp → Bool
  | .lockStore => true
  | _ => false

def NexusOp.releasesStore : NexusOp → Bool
  | .unlockStore => true
  | _ => false

/-- The mutex of the store guards the replacing of the record. -/
def storeMutex [FlowDebug] : Mutex nexusSystem where
  acquires := NexusOp.acquiresStore
  releases := NexusOp.releasesStore
  guarded o := ∃ standard, o = .mutateKeyed standard
  holder s := s.holder
  apart o ha := by
    cases o with
    | lockStore => rfl
    | _ => cases ha
  sem_acquire s t e s' ha hs := by
    obtain ⟨o, a⟩ := e
    cases o with
    | lockStore =>
        obtain ⟨hfree, rfl⟩ := hs
        exact ⟨hfree, rfl⟩
    | _ => cases ha
  sem_release s t e s' hr hs := by
    obtain ⟨o, a⟩ := e
    cases o with
    | unlockStore => cases hs; rfl
    | _ => cases hr
  sem_other s t e s' ha hr hs := by
    obtain ⟨o, a⟩ := e
    cases o with
    | lockStore => cases ha
    | unlockStore => cases hr
    | matchRecords => rw [hs.1]
    | mutateKeyed standard =>
        rcases hs with ⟨_, rfl⟩ | ⟨_, rfl⟩ <;> rfl
    | _ => cases hs; rfl
  start_keeps s t p s' hs := by
    rcases hs.2 with ⟨_, rfl⟩ | ⟨_, rfl⟩ <;> rfl
  halt_frees s s' hs := by
    cases hs with
    | kill opening => rfl
    | «open» answers path seed hstop =>
        unfold NexusShared.opened
        dsimp only
        split <;> rfl

/-- What the connection has read since it took the mutex, and not replaced. -/
def readAfter (read : Option (List Standard)) : NexusEvent → Option (List Standard)
  | ⟨.matchRecords, .ok records⟩ => some records
  | ⟨.matchRecords, .error _⟩ => none
  | ⟨.mutateKeyed _, _⟩ => none
  | ⟨.lockStore, _⟩ => none
  | _ => read

def readNow (h : List NexusEvent) : Option (List Standard) := h.foldl readAfter none

theorem readNow_snoc (h : List NexusEvent) (e : NexusEvent) :
    readNow (h ++ [e]) = readAfter (readNow h) e := by
  simp [readNow]

/-- The operations that do not use the store. -/
def NexusOp.offStore : NexusOp → Bool
  | .lockStore => false
  | .unlockStore => false
  | .matchRecords => false
  | .mutateKeyed _ => false
  | _ => true

/-- Where an operation of a handler of the ordinary or the meta socket may stand: within a section
    only the store is used. -/
def StorePlace [FlowDebug] (isMeta : Bool) (h : List NexusEvent) (o : NexusOp) : Prop :=
  storeMutex.Place h o ∧ (storeMutex.held h = true → o.offStore = false) ∧
    match o with
    | .mutateKeyed standard => ∃ current configuration, readNow h = some [current] ∧
        standard = current.changedConfiguration configuration isMeta ∧
        (isMeta = false → current.metaConfigured = false)
    | _ => True

/-- Outside its section. -/
def Outside [FlowDebug] (h : List NexusEvent) : Prop := storeMutex.held h = false

/-- From `h` on, the program keeps the discipline and ends outside its section. -/
abbrev KeepsStore [FlowDebug] {α : Type} (isMeta : Bool) (p : NexusProg α)
    (h : List NexusEvent) : Prop :=
  Holds anyAnswer (StorePlace isMeta) (fun _ h' => Outside h') p h

section Off

variable [FlowDebug] {isMeta : Bool}

theorem held_off (h : List NexusEvent) (e : NexusEvent) (ho : e.op.offStore = true) :
    storeMutex.held (h ++ [e]) = storeMutex.held h := by
  rw [storeMutex.held_snoc]
  obtain ⟨o, a⟩ := e
  cases o with
  | lockStore => cases ho
  | unlockStore => cases ho
  | _ => rfl

theorem place_off {h : List NexusEvent} (hh : Outside h) (o : NexusOp) (ho : o.offStore = true) :
    StorePlace isMeta h o := by
  refine ⟨⟨fun _ => hh, fun he => ?_, fun he => ?_⟩, fun hheld => ?_, ?_⟩
  · cases o with
    | unlockStore => cases ho
    | _ => cases he
  · obtain ⟨standard, rfl⟩ := he
    cases ho
  · exact absurd (hh.symm.trans hheld) (by decide)
  · cases o with
    | mutateKeyed standard => cases ho
    | _ => trivial

/-- A program that does not use the store keeps the discipline outside the section. -/
theorem off_store {α : Type} {p : NexusProg α} (hp : Uses (fun o => o.offStore = true) p)
    {h : List NexusEvent} (hh : Outside h) : KeepsStore isMeta p h :=
  hp.holds (fun h e hI ho => (held_off h e ho).trans hI) (fun _ o hI ho => place_off hI o ho) hh

/-- Sequencing outside the section. -/
theorem KeepsStore.bind {α β : Type} {p : NexusProg α} {f : α → NexusProg β} {h : List NexusEvent}
    (hp : KeepsStore isMeta p h) (hf : ∀ a h', Outside h' → KeepsStore isMeta (f a) h') :
    KeepsStore isMeta (p >>= f) h := by
  rw [KeepsStore, holds_bind]
  exact hp.mono (fun _ _ hG => hG) fun a h' ho => hf a h' ho

/-- The guard makes a section of its use, which begins with nothing read. -/
theorem withStore_store {α : Type} {use : NexusProg α} {h : List NexusEvent}
    (hu : ∀ h', storeMutex.held h' = true →
      Holds anyAnswer (StorePlace isMeta) (fun _ h' => storeMutex.held h' = true) use h')
    (hh : Outside h) : KeepsStore isMeta (withStore use) h := by
  rw [KeepsStore, holds_withStore]
  refine ⟨⟨⟨fun _ => hh, fun he => (by cases he), fun ⟨_, he⟩ => (by cases he)⟩, fun _ => rfl,
    trivial⟩, fun _ => ?_⟩
  have hopen : storeMutex.held (h ++ [⟨.lockStore, ()⟩]) = true := by
    rw [storeMutex.held_snoc]
    exact storeMutex.after_acquire _ rfl
  refine (hu _ hopen).mono (fun _ _ hG => hG) fun a h' hheld => ?_
  refine ⟨⟨⟨fun he => (by cases he), fun _ => hheld, fun ⟨_, he⟩ => (by cases he)⟩, fun _ => rfl,
    trivial⟩, fun _ => ?_⟩
  show storeMutex.held (h' ++ [⟨.unlockStore, ()⟩]) = false
  rw [storeMutex.held_snoc]
  exact storeMutex.after_release _ rfl

/-- Reading the record needs no more than the section. -/
theorem place_matchRecords (h : List NexusEvent) : StorePlace isMeta h .matchRecords :=
  ⟨⟨fun he => (by cases he), fun he => (by cases he), fun ⟨_, he⟩ => (by cases he)⟩, fun _ => rfl,
    trivial⟩

theorem held_matchRecords {h : List NexusEvent} (hh : storeMutex.held h = true)
    (records : Except String (List Standard)) :
    storeMutex.held (h ++ [⟨.matchRecords, records⟩]) = true := by
  rw [storeMutex.held_snoc]
  exact hh

end Off

/-! ## 2. The parts of the handlers off the store -/

section Parts

variable {edge : FlowEdge}

theorem call_off {α : Type} (query : Query) (accept : Response → Option α) :
    Uses (fun o => o.offStore = true) (edge.call query accept) :=
  ⟨rfl, fun _ => trivial⟩

theorem answerWith_off (response : SignalMessage.Response) :
    Uses (fun o => o.offStore = true) (answerWith response) :=
  ⟨rfl, fun _ => trivial⟩

theorem forwardRound_off [FlowDebug] (l : ForwardLoop) :
    Uses (fun o => o.offStore = true) (forwardRound l) := by
  refine ⟨rfl, fun frame => ?_⟩
  cases frame with
  | error error => exact answerWith_off _
  | ok response =>
      dsimp only [Prog.bind, pure, Except.mapError]
      cases forwarded l.terminalId response with
      | none => exact answerWith_off _
      | some frame =>
          refine ⟨rfl, fun outcome => ?_⟩
          cases outcome with
          | error error => trivial
          | ok _ => cases frame.finished <;> trivial

theorem forwardSubscription_off (terminalId : Option LogicalDeliveryId) :
    Uses (fun o => o.offStore = true) (forwardSubscription terminalId) := by
  refine ⟨rfl, fun handle => ?_⟩
  cases handle with
  | error error => trivial
  | ok _ =>
      refine ⟨rfl, fun clone => ?_⟩
      cases clone <;> trivial

theorem answerReply_off (reply : Except SignalMessage.Response SendReply) :
    Uses (fun o => o.offStore = true) (answerReply reply) := by
  cases reply with
  | error response => exact answerWith_off response
  | ok reply =>
      cases reply with
      | sent receipt => exact answerWith_off _
      | failed failure => exact answerWith_off _
      | queued accepted subscription =>
          refine ⟨rfl, fun outcome => ?_⟩
          cases outcome with
          | error error => trivial
          | ok _ =>
              cases subscription with
              | ok _ => exact forwardSubscription_off _
              | error response => exact answerWith_off response

theorem identifySender_off (process : Process) (thread : Option String) :
    Uses (fun o => o.offStore = true) (identifySender edge process thread) := by
  cases thread with
  | none => exact call_off _ _
  | some thread => exact call_off _ _

variable [FlowDebug] {process : Process} {request : SendRequest} {thread : Option String}

theorem settleDelivery_off (abrupt : Bool) (lock : Lock)
    (outcome : Except EdgeFailure FlowSendReply) :
    Uses (fun o => o.offStore = true)
      (settleDelivery edge process thread abrupt lock outcome) := by
  cases outcome with
  | error failure =>
      cases failure with
      | refused refusal => trivial
      | _ => exact (call_off _ _).bind fun _ => trivial
  | ok reply =>
      cases reply with
      | sent receipt => exact (call_off _ _).bind fun _ => trivial
      | failed failure => exact (call_off _ _).bind fun _ => trivial
      | queued acceptance => exact ⟨rfl, fun _ => trivial⟩

theorem sendLocked_off (lock : Lock) :
    Uses (fun o => o.offStore = true) (sendLocked edge process request thread lock) := by
  refine ⟨rfl, fun now => ?_⟩
  change Uses _ (if SystemTime.unixSeconds now ≥ lock.lockedUntil then _ else _)
  by_cases hlapsed : SystemTime.unixSeconds now ≥ lock.lockedUntil
  · rw [if_pos hlapsed]
    trivial
  · rw [if_neg hlapsed]
    exact (call_off _ _).bind fun outcome => settleDelivery_off _ _ outcome

theorem sendIdentified_off (sender : Sender) :
    Uses (fun o => o.offStore = true) (sendIdentified edge process request thread sender) := by
  unfold sendIdentified
  dsimp only
  split
  · trivial
  · refine (call_off _ _).bind fun locked => ?_
    cases locked with
    | error failure => trivial
    | ok lock => exact sendLocked_off lock

end Parts

/-! ## 3. The handlers -/

section Handlers

variable [FlowDebug] {isMeta : Bool} {process : Process}

/-- Reading the edge is a section. -/
theorem flowEdge_store {h : List NexusEvent} (hh : Outside h) : KeepsStore isMeta flowEdge h := by
  refine KeepsStore.bind (withStore_store (fun h' hheld => ?_) hh) fun a h' ho => ho
  rw [holds_standard]
  exact ⟨place_matchRecords h', fun records _ => held_matchRecords hheld records⟩

theorem acceptSend_store (request : SendRequest) (thread : Option String) {h : List NexusEvent}
    (hh : Outside h) : KeepsStore isMeta (acceptSend process request thread) h := by
  refine KeepsStore.bind (flowEdge_store hh) fun edge h' ho => ?_
  cases edge with
  | error error => exact ho
  | ok edge =>
      refine KeepsStore.bind (off_store (identifySender_off process thread) ho) fun sender h' ho => ?_
      cases sender with
      | error failure => exact ho
      | ok sender => exact off_store (sendIdentified_off sender) ho

theorem observeSends_store (thread : Option String) (cursor : Option DeliveryCursor)
    {h : List NexusEvent} (hh : Outside h) :
    KeepsStore isMeta (observeSends process thread cursor) h := by
  refine KeepsStore.bind (flowEdge_store hh) fun edge h' ho => ?_
  cases edge with
  | error error => exact ho
  | ok edge =>
      have hopen : Uses (fun o => o.offStore = true) (edge.observeSender process thread cursor) :=
        ⟨rfl, fun _ => trivial⟩
      refine KeepsStore.bind (off_store hopen ho) fun opened h' ho => ?_
      cases opened with
      | ok subscription => exact ho
      | error failure => cases failure <;> exact ho

/-- A Configure replaces the record it has read in the same section, and an ordinary one only
    while that record says that the latch is open. -/
theorem configureStore_store (configuration : Configuration) {h : List NexusEvent}
    (hh : storeMutex.held h = true) :
    Holds anyAnswer (StorePlace isMeta) (fun _ h' => storeMutex.held h' = true)
      (configureStore configuration isMeta) h := by
  unfold configureStore
  rw [holds_bind, holds_standard]
  refine ⟨place_matchRecords h, fun records _ => ?_⟩
  have hheld := held_matchRecords hh records
  cases hr : (records.mapError StoreError.engine).bind theStandard with
  | error error => exact hheld
  | ok current =>
      -- the key held exactly this record
      have hread : readNow (h ++ [⟨.matchRecords, records⟩]) = some [current] := by
        rw [readNow_snoc]
        cases records with
        | error error => cases hr
        | ok records =>
            cases records with
            | nil => cases hr
            | cons first others =>
                cases others with
                | nil => cases hr; rfl
                | cons second others => cases hr
      change Holds _ _ _ (if !isMeta && current.metaConfigured then _ else _) _
      by_cases hlatch : (!isMeta && current.metaConfigured) = true
      · rw [if_pos hlatch]
        exact hheld
      · rw [if_neg hlatch]
        have hopen : isMeta = false → current.metaConfigured = false := by
          intro hm
          simpa [hm] using hlatch
        rw [holds_bind, holds_replaceStandard]
        refine ⟨⟨⟨fun he => (by cases he), fun he => (by cases he), fun _ => hheld⟩, fun _ => rfl,
          current, configuration, hread, rfl, hopen⟩, fun outcome _ => ?_⟩
        have hend : storeMutex.held (h ++ [⟨.matchRecords, records⟩] ++
            [⟨.mutateKeyed (current.changedConfiguration configuration isMeta), outcome⟩])
            = true := by
          rw [storeMutex.held_snoc]
          exact hheld
        cases outcome with
        | error error => exact hend
        | ok _ => exact hend

theorem configure_store (configuration : Configuration) {h : List NexusEvent} (hh : Outside h) :
    KeepsStore isMeta (configure configuration isMeta) h :=
  withStore_store (fun _ hheld => configureStore_store configuration hheld) hh

theorem answerObservation_store (thread : Option String) (cursor : Option DeliveryCursor)
    {h : List NexusEvent} (hh : Outside h) :
    KeepsStore isMeta (answerObservation process thread cursor) h := by
  refine KeepsStore.bind (observeSends_store thread cursor hh) fun opened h' ho => ?_
  cases opened with
  | error response => exact off_store (answerWith_off response) ho
  | ok _ => exact off_store (forwardSubscription_off none) ho

theorem answerSend_store (request : SendRequest) (thread : Option String) {h : List NexusEvent}
    (hh : Outside h) : KeepsStore isMeta (answerSend process request thread) h :=
  KeepsStore.bind (acceptSend_store request thread hh) fun reply _ ho =>
    off_store (answerReply_off reply) ho

theorem answerQuery_store (query : SignalMessage.Query) {h : List NexusEvent} (hh : Outside h) :
    KeepsStore false (answerQuery process query) h := by
  cases query with
  | send request => exact answerSend_store request none hh
  | sendThread request thread => exact answerSend_store request (some thread) hh
  | observeSends cursor => exact answerObservation_store none cursor hh
  | observeThread cursor thread => exact answerObservation_store (some thread) cursor hh
  | configure configuration =>
      refine KeepsStore.bind (KeepsStore.bind (configure_store configuration hh)
        fun _ _ ho => ho) fun response h' ho => ?_
      exact off_store (answerWith_off response) ho

/-- The ordinary handler keeps the discipline of an ordinary Configure. -/
theorem answerOrdinary_store : KeepsStore false answerOrdinary [] := by
  have hnil : Outside [] := rfl
  refine ⟨place_off hnil _ rfl, fun query _ => ?_⟩
  have ho : Outside [⟨.readQuery, query⟩] := rfl
  cases query with
  | error error => exact ho
  | ok query =>
      refine ⟨place_off ho _ rfl, fun process _ => ?_⟩
      cases process with
      | none => exact ho
      | some process => exact answerQuery_store query ho

/-- The meta handler keeps the discipline of a meta Configure. -/
theorem answerMeta_store : KeepsStore true answerMeta [] := by
  have hnil : Outside [] := rfl
  refine ⟨place_off hnil _ rfl, fun query _ => ?_⟩
  have ho : Outside [⟨.readMetaQuery, query⟩] := rfl
  cases query with
  | error error => exact ho
  | ok query =>
      cases query with
      | configure configuration =>
          change KeepsStore true (configure configuration true >>= _) _
          refine KeepsStore.bind (configure_store configuration ho) fun outcome h' ho => ?_
          exact ⟨place_off ho _ rfl, fun written _ => (held_off _ _ rfl).trans ho⟩

end Handlers

/-! ## 4. The connections of a running Nexus -/

section Run

variable {s₀ : NexusShared} {c : NexusPool}

/-- An operation off the store changes nothing that is shared. -/
theorem nexusSem_off {s s' : NexusShared} {t : Nat} {e : NexusEvent} (hs : nexusSem s t e s')
    (ho : e.op.offStore = true) : s' = s := by
  obtain ⟨o, a⟩ := e
  cases o with
  | lockStore => cases ho
  | unlockStore => cases ho
  | matchRecords => cases ho
  | mutateKeyed standard => cases ho
  | _ => exact hs

theorem readAfter_off (read : Option (List Standard)) {e : NexusEvent}
    (ho : e.op.offStore = true) : readAfter read e = read := by
  obtain ⟨o, a⟩ := e
  cases o with
  | lockStore => cases ho
  | unlockStore => cases ho
  | matchRecords => cases ho
  | mutateKeyed standard => cases ho
  | _ => rfl

theorem nexusSem_socketOf {s s' : NexusShared} {t : Nat} {e : NexusEvent}
    (hs : nexusSem s t e s') : s'.socketOf = s.socketOf := by
  obtain ⟨o, a⟩ := e
  cases o with
  | lockStore => rw [hs.2]
  | matchRecords => rw [hs.1]
  | mutateKeyed standard => rcases hs with ⟨_, rfl⟩ | ⟨_, rfl⟩ <;> rfl
  | _ => cases hs; rfl

theorem NexusHalt.socketOf {s s' : NexusShared} (hs : NexusHalt s s') :
    s'.socketOf = s.socketOf := by
  cases hs with
  | kill opening => rfl
  | «open» answers path seed hstop =>
      unfold NexusShared.opened
      dsimp only
      split <;> rfl

variable [FlowDebug]

/-- A connection stays on the socket that accepted it. -/
theorem step_socketOf {c' : NexusPool} (hs : Step nexusSystem c c') {t : Nat}
    {th : Thread NexusOp NexusAns ForwardLoop (Except FrameError Unit)}
    (ht : c.threads t = some th) : c'.shared.socketOf t = c.shared.socketOf t := by
  cases hs with
  | act u thu o k a s' hu hl hrest hs => rw [Pool.put_shared, nexusSem_socketOf hs]
  | again u thu l hu hl hrest => rfl
  | start u p s' hu hs =>
      have hne : t ≠ u := by
        intro he
        rw [he, hu] at ht
        cases ht
      rcases hs.2 with ⟨_, rfl⟩ | ⟨_, rfl⟩
      · exact Function.update_of_ne hne _ _
      · exact Function.update_of_ne hne _ _
  | halt s' hs => exact congrFun (NexusHalt.socketOf hs) t

/-- The socket that accepted a connection decides its handler. -/
theorem socket_handler (hr : Reach nexusSystem (.idle s₀) c) : ∀ t th, c.threads t = some th →
    ∃ socket, c.shared.socketOf t = some socket ∧ th.start = socket.handler := by
  refine Reach.invariant (P := fun c : NexusPool => ∀ t th, c.threads t = some th →
    ∃ socket, c.shared.socketOf t = some socket ∧ th.start = socket.handler) ?_ ?_ hr
  · intro t th ht
    cases ht
  · intro c c' _ _ hc hs t th' ht'
    have hkeep : ∀ th, c.threads t = some th → th'.start = th.start →
        ∃ socket, c'.shared.socketOf t = some socket ∧ th'.start = socket.handler := by
      intro th ht hstart
      obtain ⟨socket, hsock, hhandler⟩ := hc t th ht
      exact ⟨socket, (step_socketOf hs ht).trans hsock, hstart.trans hhandler⟩
    rcases hs.thread_cases ht' with ⟨th, ht, hstart, _⟩ | ⟨th, e, ht, _, hstart, _, _⟩ |
      ⟨_, _, hstart⟩
    · exact hkeep th ht hstart
    · exact hkeep th ht hstart
    · rcases hstart.2 with ⟨hp, hs'⟩ | ⟨hp, hs'⟩
      · exact ⟨.ordinary, by rw [hs']; exact Function.update_self .., hp⟩
      · exact ⟨.owner, by rw [hs']; exact Function.update_self .., hp⟩

/-- The condition of both handlers along a run, for the socket of a connection. -/
abbrev StoreKept (socket : Socket) (p : Handler) (h : List NexusEvent) : Prop :=
  Holds anyAnswer (StorePlace (socket == .owner))
    (Sum.elim (fun _ h => Outside h) fun _ h => Outside h) p h

theorem KeepsStore.kept {socket : Socket} {p : Handler} {h : List NexusEvent}
    (hp : KeepsStore (socket == .owner) p h) : StoreKept socket p h := by
  refine hp.mono (fun _ _ hG => hG) fun a h' ho => ?_
  cases a <;> exact ho

theorem handler_kept (socket : Socket) : StoreKept socket socket.handler [] := by
  cases socket with
  | ordinary => exact @KeepsStore.kept _ .ordinary _ _ answerOrdinary_store
  | owner => exact @KeepsStore.kept _ .owner _ _ answerMeta_store

theorem forwardRound_kept (socket : Socket) (l : ForwardLoop) (h : List NexusEvent)
    (ho : Outside h) : StoreKept socket (forwardRound l) h :=
  KeepsStore.kept (off_store (forwardRound_off l) ho)

/-- Every operation of a connection stands where the discipline of its socket allows it. -/
theorem store_places (hr : Reach nexusSystem (.idle s₀) c) {t : Nat}
    {th : Thread NexusOp NexusAns ForwardLoop (Except FrameError Unit)}
    (ht : c.threads t = some th) : ∃ socket, c.shared.socketOf t = some socket ∧
      Issued (StorePlace (socket == .owner)) th.hist ∧ StoreKept socket th.rest th.hist := by
  obtain ⟨socket, hsock, hstart⟩ := socket_handler hr t th ht
  have hp : StoreKept socket th.start [] := hstart ▸ handler_kept socket
  exact ⟨socket, hsock, hr.issued (forwardRound_kept socket) ht hp,
    hr.holds (forwardRound_kept socket) ht hp⟩

theorem store_issued (hr : Reach nexusSystem (.idle s₀) c) {t : Nat}
    {th : Thread NexusOp NexusAns ForwardLoop (Except FrameError Unit)}
    (ht : c.threads t = some th) : Issued storeMutex.Place th.hist := by
  obtain ⟨_, _, hi, _⟩ := store_places hr ht
  exact hi.mono fun h e hG => hG.1

/-- Whoever holds the store's mutex is about to use the store, and waits for nobody else. -/
theorem holder_uses_store (h0 : s₀.holder = none) (hr : Reach nexusSystem (.idle s₀) c) {t : Nat}
    (hheld : c.shared.holder = some t) : ∃ th o k, c.threads t = some th ∧ th.live = true ∧
      th.rest = .ask o k ∧ o.offStore = false := by
  have hex := storeMutex.exclusive h0 (fun c hr t th ht => store_issued hr ht) hr
  obtain ⟨th, ht, hl⟩ := hex.2 t hheld
  have hin := (hex.1 t th ht hl).mpr hheld
  obtain ⟨socket, _, _, hkept⟩ := store_places hr ht
  cases hrest : th.rest with
  | ret result =>
      rw [hrest] at hkept
      have ho : Outside th.hist := by cases result <;> exact hkept
      exact absurd (ho.symm.trans hin) (by decide)
  | ask o k =>
      rw [hrest] at hkept
      exact ⟨th, o, k, ht, hl, hrest, hkept.1.2.1 hin⟩

/-- What a connection has read in its section is what the store holds. -/
theorem read_current (h0 : s₀.holder = none) (hr : Reach nexusSystem (.idle s₀) c) {t : Nat}
    {th : Thread NexusOp NexusAns ForwardLoop (Except FrameError Unit)}
    (ht : c.threads t = some th) (hl : th.live = true)
    (hheld : storeMutex.held th.hist = true) {records : List Standard}
    (hread : readNow th.hist = some records) : c.shared.rows = records := by
  refine storeMutex.owned (P := fun h s => ∀ records, readNow h = some records →
    s.rows = records) h0 ?_ ?_ ?_ ?_ hr t th ht hl hheld records hread
  · exact fun c hr t th ht => store_issued hr ht
  · intro s t h e s' hs hh hkeep records hread
    rw [readNow_snoc] at hread
    by_cases hoff : e.op.offStore = true
    · rw [nexusSem_off hs hoff]
      rw [held_off h e hoff] at hh
      rw [readAfter_off _ hoff] at hread
      exact hkeep hh records hread
    · obtain ⟨o, a⟩ := e
      cases o with
      | lockStore => cases hread
      | unlockStore =>
          rw [storeMutex.held_snoc] at hh
          exact absurd ((storeMutex.after_release _ rfl).symm.trans hh) (by decide)
      | matchRecords =>
          obtain ⟨rfl, hans⟩ := hs
          rcases hans with rfl | ⟨error, rfl⟩
          · cases hread
            rfl
          · cases hread
      | mutateKeyed standard => cases hread
      | _ => exact absurd rfl hoff
  · intro s u e s' hs hlock hunlock hg h hP records hread
    obtain ⟨o, a⟩ := e
    have hrows : s' = s := by
      cases o with
      | lockStore => cases hlock
      | unlockStore => cases hunlock
      | matchRecords => exact hs.1
      | mutateKeyed standard => exact absurd ⟨standard, rfl⟩ hg
      | _ => exact hs
    rw [hrows]
    exact hP records hread
  · intro s t p s' hs h hP records hread
    rcases hs.2 with ⟨_, rfl⟩ | ⟨_, rfl⟩
    · exact hP records hread
    · exact hP records hread

end Run

end MessageNexus
