/-
  File:      MessageNexus/Nexus/SendPath.lean
  Subject:   THE FLOW EXCHANGES OF A SEND: which one is issued where, on which socket and with
             what, in every interleaving of connections, Configure requests and restarts.

  * `flowCalls`, `flowPath` -- the exchanges of a history and the Flow socket it read;
  * `SendPlace` -- where an operation of a Send may stand: the exchanges before it and what they
    answered determine it and its payload;
  * `acceptSend_places`, `answerSend_places` -- the handler issues every operation in its place,
    whatever Flow, the clock, the store and the client answer;
  * `send_exchanges` -- so it is in every reachable pool.
-/
import MessageNexus.Nexus.System

namespace MessageNexus

open Interact SignalFlow

/-! ## 1. The exchanges of a history -/

/-- An exchange with Flow (or the opening of a subscription), and what its steps met. -/
inductive FlowCall where
  | exchange (socketPath : String) (query : Query) (answers : ExchangeAnswers)
  | observe (socketPath : String) (query : Query) (answers : ObserveAnswers)

def flowCall? : NexusEvent → Option FlowCall
  | ⟨.exchange socketPath query _ _, answers⟩ => some (.exchange socketPath query answers)
  | ⟨.observe socketPath query _, answers⟩ => some (.observe socketPath query answers)
  | _ => none

/-- The exchanges of a history, in order. -/
def flowCalls (h : List NexusEvent) : List FlowCall := h.filterMap flowCall?

def recordsRead? : NexusEvent → Option (Except String (List Standard))
  | ⟨.matchRecords, records⟩ => some records
  | _ => none

/-- What the reads of the store answered. -/
def recordsRead (h : List NexusEvent) : List (Except String (List Standard)) :=
  h.filterMap recordsRead?

/-- The Flow socket that the one read of the store found. -/
def flowPath (h : List NexusEvent) : Option String :=
  match recordsRead h with
  | [.ok [current]] => some current.configuration.flow
  | _ => none

/-- The kind of an exchange. -/
inductive Stage where
  | identify
  | lock
  | deliver
  | release
  | observe
  | bind
  deriving DecidableEq, Repr

def FlowCall.stage : FlowCall → Stage
  | .exchange _ (.identify _) _ => .identify
  | .exchange _ (.identifyThread _ _) _ => .identify
  | .exchange _ (.lock _ _) _ => .lock
  | .exchange _ (.deliver _ _ _) _ => .deliver
  | .exchange _ (.release _) _ => .release
  | .exchange _ (.bind _ _) _ => .bind
  | .exchange _ (.observeSender _ _ _) _ => .observe
  | .observe _ _ _ => .observe

/-- The socket path of an exchange. -/
def FlowCall.path : FlowCall → String
  | .exchange socketPath _ _ => socketPath
  | .observe socketPath _ _ => socketPath

/-! ## 2. The places of a send -/

/-- The request that identifies the sender: by its thread where there is one. -/
def identifyQuery (process : Process) : Option String → Query
  | some thread => .identifyThread process thread
  | none => .identify process

/-- An abrupt message that asks to be queued is not sent. -/
def queueNotPermitted (request : SendRequest) : Bool :=
  !request.message.isSoft && request.delivery == .queue

/-- What the Deliver of a request came to. -/
def deliverOutcome (request : SendRequest) (t : ExchangeAnswers) :
    Except EdgeFailure FlowSendReply :=
  answered (FlowEdge.delivered (!request.message.isSoft)) t

/-- The outcomes after which the lock is released. -/
def releases : Except EdgeFailure FlowSendReply → Bool
  | .error .unreachable => true
  | .error .broken => true
  | .error .unexpected => true
  | .error (.refused _) => false
  | .ok (.sent _) => true
  | .ok (.failed _) => true
  | .ok (.queued _) => false

/-- The exchanges up to the Lock: the sender was identified by the first, and the Lock asks for
    that sender and the request's recipient. -/
def LockedCalls (path : String) (process : Process) (request : SendRequest)
    (thread : Option String) (lock : Lock) (calls : List FlowCall) : Prop :=
  ∃ t0 sender t1,
    calls = [.exchange path (identifyQuery process thread) t0,
      .exchange path (.lock sender request.recipient) t1] ∧
    answered FlowEdge.identified t0 = .ok sender ∧ answered FlowEdge.locked t1 = .ok lock

/-- The exchanges up to the Deliver, with what it came to. -/
def DeliveredCalls (path : String) (process : Process) (request : SendRequest)
    (thread : Option String) (lock : Lock) (outcome : Except EdgeFailure FlowSendReply)
    (calls : List FlowCall) : Prop :=
  ∃ before t2, LockedCalls path process request thread lock before ∧
    calls = before ++ [.exchange path (.deliver lock request.delivery request.message) t2] ∧
    deliverOutcome request t2 = outcome

/-- The Deliver has come to an outcome after which the lock is released, and it is not yet. -/
def ReleaseDue (path : String) (process : Process) (request : SendRequest)
    (thread : Option String) (lock : Lock) (calls : List FlowCall) : Prop :=
  ∃ outcome, releases outcome = true ∧
    DeliveredCalls path process request thread lock outcome calls

/-- What an exchange of a send needs of the exchanges before it. -/
def ExchangePlace (path : String) (process : Process) (request : SendRequest)
    (thread : Option String) (h : List NexusEvent) : Query → Prop
  | .lock sender recipient =>
      recipient = request.recipient ∧ queueNotPermitted request = false ∧
      ∃ t0, flowCalls h = [.exchange path (identifyQuery process thread) t0] ∧
        answered FlowEdge.identified t0 = .ok sender
  | .deliver lock delivery message =>
      delivery = request.delivery ∧ message = request.message ∧
      queueNotPermitted request = false ∧
      LockedCalls path process request thread lock (flowCalls h) ∧
      ∃ now : SystemTime, h.getLast? = some ⟨.now, now⟩ ∧ now.unixSeconds < lock.lockedUntil
  | .release lock => ReleaseDue path process request thread lock (flowCalls h)
  | .bind _ _ => False
  | .observeSender _ _ _ => False
  | query => query = identifyQuery process thread ∧ flowCalls h = []

/-- The subscription of a send: its Deliver was queued, and the cursor is the acceptance's. -/
def ObservePlace (path : String) (process : Process) (request : SendRequest)
    (thread : Option String) (h : List NexusEvent) (query : Query) : Prop :=
  ∃ lock acceptance, query = .observeSender process thread (some acceptance.deliveryCursor) ∧
    DeliveredCalls path process request thread lock (.ok (.queued acceptance)) (flowCalls h)

/-- Where an operation of a send may stand: after the history `h`. While a Release is due,
    nothing else may follow. -/
def SendPlace (process : Process) (request : SendRequest) (thread : Option String)
    (h : List NexusEvent) (o : NexusOp) : Prop :=
  (∀ path lock, ReleaseDue path process request thread lock (flowCalls h) →
    o = .exchange path (.release lock) (some 2) (some 2)) ∧
  match o with
  | .exchange path query _ _ =>
      flowPath h = some path ∧ ExchangePlace path process request thread h query
  | .observe path query _ =>
      flowPath h = some path ∧ ObservePlace path process request thread h query
  | .matchRecords => recordsRead h = []
  | _ => True

@[simp] theorem flowCalls_append (h es : List NexusEvent) :
    flowCalls (h ++ es) = flowCalls h ++ flowCalls es :=
  List.filterMap_append

@[simp] theorem flowCalls_cons (e : NexusEvent) (es : List NexusEvent) :
    flowCalls (e :: es) = (flowCall? e).toList ++ flowCalls es := by
  cases he : flowCall? e <;> simp [flowCalls, he]

@[simp] theorem flowCalls_nil : flowCalls [] = [] := rfl

@[simp] theorem recordsRead_append (h es : List NexusEvent) :
    recordsRead (h ++ es) = recordsRead h ++ recordsRead es :=
  List.filterMap_append

@[simp] theorem recordsRead_cons (e : NexusEvent) (es : List NexusEvent) :
    recordsRead (e :: es) = (recordsRead? e).toList ++ recordsRead es := by
  cases he : recordsRead? e <;> simp [recordsRead, he]

@[simp] theorem recordsRead_nil : recordsRead [] = [] := rfl

/-- The Flow path of a history changes with reads of the store only. -/
theorem flowPath_snoc (h : List NexusEvent) (e : NexusEvent) (he : recordsRead? e = none) :
    flowPath (h ++ [e]) = flowPath h := by
  simp [flowPath, he]

section Calls

variable {path path' : String} {process : Process} {request : SendRequest}
  {thread : Option String} {lock lock' : Lock} {outcome : Except EdgeFailure FlowSendReply}
  {calls : List FlowCall}

theorem DeliveredCalls.length_eq (h : DeliveredCalls path process request thread lock outcome calls) :
    calls.length = 3 := by
  obtain ⟨before, t2, ⟨t0, sender, t1, rfl, _⟩, rfl, _⟩ := h
  rfl

/-- Before the Deliver and after the Release nothing is due. -/
theorem not_releaseDue_of_length (h : calls.length ≠ 3) :
    ¬ ReleaseDue path process request thread lock calls :=
  fun ⟨_, _, hd⟩ => h hd.length_eq

/-- The exchanges up to a Deliver determine its lock and what it came to. -/
theorem DeliveredCalls.unique (h : DeliveredCalls path process request thread lock outcome calls)
    {outcome' : Except EdgeFailure FlowSendReply}
    (h' : DeliveredCalls path' process request thread lock' outcome' calls) :
    path' = path ∧ lock' = lock ∧ outcome' = outcome := by
  obtain ⟨before, t2, ⟨t0, sender, t1, rfl, _, hl⟩, rfl, ho⟩ := h
  obtain ⟨before', t2', ⟨t0', sender', t1', rfl, _, hl'⟩, hcalls, ho'⟩ := h'
  cases hcalls
  exact ⟨rfl, rfl, ho'.symm.trans ho⟩

end Calls

/-! ## 3. The steps of `accept_send` in their places -/

section Places

variable {process : Process} {request : SendRequest} {thread : Option String}

/-- No Release is due: the condition on the history in which a send replies and forwards. -/
def Settled (process : Process) (request : SendRequest) (thread : Option String)
    (h : List NexusEvent) : Prop :=
  ∀ path lock, ¬ ReleaseDue path process request thread lock (flowCalls h)

theorem settled_of_length {h : List NexusEvent} (hl : (flowCalls h).length ≠ 3) :
    Settled process request thread h :=
  fun _ _ => not_releaseDue_of_length hl

/-- After a Deliver whose outcome keeps the lock, no Release is due. -/
theorem settled_of_delivered {path : String} {lock : Lock}
    {outcome : Except EdgeFailure FlowSendReply} {h : List NexusEvent}
    (hd : DeliveredCalls path process request thread lock outcome (flowCalls h))
    (ho : releases outcome = false) : Settled process request thread h := by
  rintro path' lock' ⟨outcome', ho', hd'⟩
  obtain ⟨_, _, rfl⟩ := hd.unique hd'
  rw [ho] at ho'
  cases ho'

/-- Where nothing is due, an operation that does not call Flow is in its place. -/
theorem Settled.place {h : List NexusEvent} (hs : Settled process request thread h)
    {o : NexusOp} (ho : match o with
      | .exchange path query _ _ =>
          flowPath h = some path ∧ ExchangePlace path process request thread h query
      | .observe path query _ =>
          flowPath h = some path ∧ ObservePlace path process request thread h query
      | .matchRecords => recordsRead h = []
      | _ => True) : SendPlace process request thread h o :=
  ⟨fun path lock hd => absurd hd (hs path lock), ho⟩

/-- The Release of the lock under which the Deliver went out. -/
theorem release_places {α : Type} {edge : FlowEdge} {lock : Lock}
    {outcome : Except EdgeFailure FlowSendReply} (h : List NexusEvent) (a : α)
    (hp : flowPath h = some edge.socketPath)
    (hd : DeliveredCalls edge.socketPath process request thread lock outcome (flowCalls h))
    (ho : releases outcome = true) :
    Holds anyAnswer (SendPlace process request thread)
      (fun _ h' => Settled process request thread h')
      (edge.release lock >>= fun _ => pure a) h := by
  rw [holds_bind, FlowEdge.release, holds_call]
  refine ⟨⟨?_, hp, ⟨outcome, ho, hd⟩⟩, fun t _ => settled_of_length ?_⟩
  · rintro path' lock' ⟨outcome', _, hd'⟩
    obtain ⟨rfl, rfl, _⟩ := hd.unique hd'
    rfl
  · have hl := hd.length_eq
    simp [flowCall?, hl]

theorem settleDelivery_places [FlowDebug] {edge : FlowEdge} {lock : Lock}
    {outcome : Except EdgeFailure FlowSendReply} (h : List NexusEvent)
    (hp : flowPath h = some edge.socketPath)
    (hd : DeliveredCalls edge.socketPath process request thread lock outcome (flowCalls h)) :
    Holds anyAnswer (SendPlace process request thread)
      (fun _ h' => Settled process request thread h')
      (settleDelivery edge process thread (!request.message.isSoft) lock outcome) h := by
  match outcome with
  | .error .unreachable => exact release_places h _ hp hd rfl
  | .error .broken => exact release_places h _ hp hd rfl
  | .error .unexpected => exact release_places h _ hp hd rfl
  | .error (.refused refusal) => exact settled_of_delivered hd rfl
  | .ok (.sent receipt) => exact release_places h _ hp hd rfl
  | .ok (.failed failure) => exact release_places h _ hp hd rfl
  | .ok (.queued acceptance) =>
      rw [settleDelivery, holds_bind, holds_observeSender]
      have hs := settled_of_delivered hd rfl
      refine ⟨hs.place ⟨hp, lock, acceptance, rfl, hd⟩, fun t _ => settled_of_length ?_⟩
      have hl := hd.length_eq
      simp [flowCall?, hl]

theorem sendLocked_places [FlowDebug] {edge : FlowEdge} {lock : Lock} (h : List NexusEvent)
    (hp : flowPath h = some edge.socketPath)
    (hl : LockedCalls edge.socketPath process request thread lock (flowCalls h))
    (hq : queueNotPermitted request = false) :
    Holds anyAnswer (SendPlace process request thread)
      (fun _ h' => Settled process request thread h')
      (sendLocked edge process request thread lock) h := by
  have hlen : (flowCalls h).length = 2 := by
    obtain ⟨t0, sender, t1, hc, _⟩ := hl
    rw [hc]
    rfl
  rw [sendLocked, holds_bind, holds_now]
  refine ⟨(settled_of_length (by omega)).place trivial, fun now _ => ?_⟩
  have hp' := flowPath_snoc h ⟨.now, now⟩ rfl
  have hc' : flowCalls (h ++ [⟨.now, now⟩]) = flowCalls h := by simp [flowCall?]
  split
  · exact settled_of_length (by rw [hc']; omega)
  · rename_i hnow
    rw [holds_bind, FlowEdge.deliver, holds_call]
    refine ⟨(settled_of_length (by rw [hc']; omega)).place ⟨hp'.trans hp, rfl, rfl, hq, ?_, now, ?_, ?_⟩, fun t _ => ?_⟩
    · rwa [hc']
    · exact List.getLast?_concat
    · omega
    · refine settleDelivery_places _ ?_ ⟨flowCalls h, t, hl, ?_, rfl⟩
      · rw [flowPath_snoc _ _ rfl, hp', hp]
      · rw [flowCalls_append, hc']
        rfl

theorem sendIdentified_places [FlowDebug] {edge : FlowEdge} {sender : Sender} {t0 : ExchangeAnswers}
    (h : List NexusEvent) (hp : flowPath h = some edge.socketPath)
    (hc : flowCalls h = [.exchange edge.socketPath (identifyQuery process thread) t0])
    (hi : answered FlowEdge.identified t0 = .ok sender) :
    Holds anyAnswer (SendPlace process request thread)
      (fun _ h' => Settled process request thread h')
      (sendIdentified edge process request thread sender) h := by
  have hs : Settled process request thread h := settled_of_length (by simp [hc])
  unfold sendIdentified
  dsimp only
  split
  · exact hs
  · rename_i hq
    have hq' : queueNotPermitted request = false := Bool.eq_false_iff.mpr hq
    rw [holds_bind, FlowEdge.lock, holds_call]
    refine ⟨hs.place ⟨hp, rfl, hq', t0, hc, hi⟩, fun t1 _ => ?_⟩
    have hp1 := (flowPath_snoc h ⟨.exchange edge.socketPath (.lock sender request.recipient)
      (readTimeout (.lock sender request.recipient)) (some 2), t1⟩ rfl).trans hp
    cases hlock : answered FlowEdge.locked t1 with
    | error failure => exact settled_of_length (by simp [hc, flowCall?])
    | ok lock =>
        refine sendLocked_places _ hp1 ⟨t0, sender, t1, ?_, hi, hlock⟩ hq'
        simp [hc, flowCall?]

/-- Identifying the sender is the one exchange `identifyQuery`. -/
theorem holds_identifySender {Adm : List NexusEvent → NexusEvent → Prop}
    {G : List NexusEvent → NexusOp → Prop} {Q : Except EdgeFailure Address → List NexusEvent → Prop}
    (edge : FlowEdge) (process : Process) (thread : Option String) (h : List NexusEvent) :
    Holds Adm G Q (identifySender edge process thread) h ↔
      Holds Adm G Q (edge.call (identifyQuery process thread) FlowEdge.identified) h := by
  cases thread <;> exact Iff.rfl

theorem acceptSend_places [FlowDebug] (h : List NexusEvent) (hc : flowCalls h = []) (hr : recordsRead h = []) :
    Holds anyAnswer (SendPlace process request thread)
      (fun _ h' => Settled process request thread h')
      (acceptSend process request thread) h := by
  have hs : ∀ h', flowCalls h' = [] → Settled process request thread h' :=
    fun h' hc' => settled_of_length (by simp [hc'])
  rw [acceptSend, holds_bind, holds_flowEdge, holds_withStore]
  simp only [holds_standard]
  refine ⟨(hs h hc).place trivial, fun _ => ⟨(hs _ ?_).place ?_, fun records _ =>
    ⟨(hs _ ?_).place trivial, fun _ => ?_⟩⟩⟩
  · simp [hc, flowCall?]
  · simp [hr, recordsRead?]
  · simp [hc, flowCall?]
  generalize hh : h ++ [⟨.lockStore, ()⟩] ++ [⟨.matchRecords, records⟩] ++ [⟨.unlockStore, ()⟩] = h1
  have hc1 : flowCalls h1 = [] := by simp [← hh, hc, flowCall?]
  have hr1 : recordsRead h1 = [records] := by simp [← hh, hr, recordsRead?]
  rcases records with error | _ | ⟨current, _ | ⟨second, rest⟩⟩
  · exact hs _ hc1
  · exact hs _ hc1
  · have hp : flowPath h1 = some current.configuration.flow := by rw [flowPath, hr1]
    change Holds _ _ _ (identifySender ⟨current.configuration.flow⟩ process thread >>= _) h1
    rw [holds_bind, holds_identifySender, holds_call]
    refine ⟨(hs _ hc1).place ⟨hp, ?_⟩, fun t0 _ => ?_⟩
    · cases thread <;> exact ⟨rfl, hc1⟩
    · cases hi : answered FlowEdge.identified t0 with
      | error failure => exact settled_of_length (by simp [hc1, flowCall?])
      | ok sender =>
          refine sendIdentified_places _ ?_ ?_ hi
          · rw [flowPath_snoc _ _ rfl, hp]
          · simp [hc1, flowCall?]
  · exact hs _ hc1

/-! ## 4. The handler of a send -/

/-- An event that is no exchange leaves the settled state. -/
theorem Settled.snoc {h : List NexusEvent} (hs : Settled process request thread h)
    (e : NexusEvent) (he : flowCall? e = none) : Settled process request thread (h ++ [e]) := by
  intro path lock
  have hc : flowCalls (h ++ [e]) = flowCalls h := by simp [he]
  rw [hc]
  exact hs path lock

/-- The settled state at the end of a program, or before the next round of its loop. -/
abbrev EndsSettled (process : Process) (request : SendRequest) (thread : Option String) :
    ForwardLoop ⊕ Except FrameError Unit → List NexusEvent → Prop :=
  Sum.elim (fun _ => Settled process request thread) (fun _ => Settled process request thread)

theorem answerWith_places (response : SignalMessage.Response) {h : List NexusEvent}
    (hs : Settled process request thread h) :
    Holds anyAnswer (SendPlace process request thread) (EndsSettled process request thread)
      (answerWith response) h := by
  rw [holds_answerWith]
  exact ⟨hs.place trivial, fun _ _ => hs.snoc _ rfl⟩

theorem forwardFrame_places (l : ForwardLoop) (frame : Forwarded) {h : List NexusEvent}
    (hs : Settled process request thread h) :
    Holds anyAnswer (SendPlace process request thread) (EndsSettled process request thread)
      (forwardFrame l frame) h := by
  rw [forwardFrame, holds_bind, holds_writeResponse]
  refine ⟨hs.place trivial, fun outcome _ => ?_⟩
  cases outcome with
  | error error => exact hs.snoc _ rfl
  | ok _ => cases hf : frame.finished <;> exact hs.snoc _ rfl

theorem forwardRound_places [FlowDebug] (l : ForwardLoop) {h : List NexusEvent}
    (hs : Settled process request thread h) :
    Holds anyAnswer (SendPlace process request thread) (EndsSettled process request thread)
      (forwardRound l) h := by
  rw [forwardRound, holds_bind, holds_next]
  refine ⟨hs.place trivial, fun frame _ => ?_⟩
  have hs' := hs.snoc ⟨.next, frame⟩ rfl
  cases frame with
  | error error => exact answerWith_places _ hs'
  | ok response =>
      cases hf : forwarded l.terminalId response with
      | none =>
          simp only [Except.mapError, hf]
          exact answerWith_places _ hs'
      | some frame =>
          simp only [Except.mapError, hf]
          exact forwardFrame_places l frame hs'

theorem forwardSubscription_places (terminalId : Option LogicalDeliveryId) {h : List NexusEvent}
    (hs : Settled process request thread h) :
    Holds anyAnswer (SendPlace process request thread) (EndsSettled process request thread)
      (forwardSubscription terminalId) h := by
  refine ⟨hs.place trivial, fun outcome _ => ?_⟩
  have hs' := hs.snoc ⟨.interruptHandle, outcome⟩ rfl
  match outcome with
  | .error error => exact hs'
  | .ok () =>
      refine ⟨hs'.place trivial, fun clone _ => ?_⟩
      match clone with
      | .error error => exact hs'.snoc _ rfl
      | .ok () => exact hs'.snoc _ rfl

theorem answerReply_places (reply : Except SignalMessage.Response SendReply) {h : List NexusEvent}
    (hs : Settled process request thread h) :
    Holds anyAnswer (SendPlace process request thread) (EndsSettled process request thread)
      (answerReply reply) h := by
  match reply with
  | .error response => exact answerWith_places _ hs
  | .ok (.sent receipt) => exact answerWith_places _ hs
  | .ok (.failed failure) => exact answerWith_places _ hs
  | .ok (.queued accepted subscription) =>
      refine ⟨hs.place trivial, fun outcome _ => ?_⟩
      have hs' := hs.snoc ⟨.writeResponse (.sendAccepted accepted), outcome⟩ rfl
      match outcome, subscription with
      | .error error, _ => exact hs'
      | .ok (), .ok _ => exact forwardSubscription_places _ hs'
      | .ok (), .error response => exact answerWith_places _ hs'

theorem answerSend_places [FlowDebug] {h : List NexusEvent} (hc : flowCalls h = [])
    (hr : recordsRead h = []) :
    Holds anyAnswer (SendPlace process request thread) (EndsSettled process request thread)
      (answerSend process request thread) h := by
  rw [answerSend, holds_bind]
  exact (acceptSend_places h hc hr).mono (fun _ _ hG => hG)
    fun reply h' hs => answerReply_places reply hs

end Places

/-! ## 5. The exchanges of a send as a whole -/

/-- What a history of a send has exchanged with Flow. `stages` is the path of the exchanges,
    `places` what each of them needed and carried, `onePath` the one socket of all of them. -/
structure SendExchanges (process : Process) (request : SendRequest) (thread : Option String)
    (h : List NexusEvent) : Prop where
  stages : (flowCalls h).map FlowCall.stage <+: [.identify, .lock, .deliver, .release] ∨
    (flowCalls h).map FlowCall.stage <+: [.identify, .lock, .deliver, .observe]
  places : ∀ before e after, h = before ++ e :: after →
    SendPlace process request thread before e.op
  onePath : ∀ call ∈ flowCalls h, flowPath h = some call.path

section Whole

variable {process : Process} {request : SendRequest} {thread : Option String}

theorem identifyQuery_stage (path : String) (t : ExchangeAnswers) :
    (FlowCall.exchange path (identifyQuery process thread) t).stage = .identify := by
  cases thread <;> rfl

theorem LockedCalls.stages {path : String} {lock : Lock} {calls : List FlowCall}
    (h : LockedCalls path process request thread lock calls) :
    calls.map FlowCall.stage = [.identify, .lock] := by
  obtain ⟨t0, sender, t1, rfl, _⟩ := h
  rw [List.map_cons, identifyQuery_stage]
  rfl

theorem DeliveredCalls.stages {path : String} {lock : Lock}
    {outcome : Except EdgeFailure FlowSendReply} {calls : List FlowCall}
    (h : DeliveredCalls path process request thread lock outcome calls) :
    calls.map FlowCall.stage = [.identify, .lock, .deliver] := by
  obtain ⟨before, t2, hb, rfl, _⟩ := h
  rw [List.map_append, hb.stages]
  rfl

/-- An exchange in its place continues the path. -/
theorem ExchangePlace.stages {path : String} {h : List NexusEvent} {query : Query}
    (hq : ExchangePlace path process request thread h query) (t : ExchangeAnswers) :
    (flowCalls h).map FlowCall.stage ++ [(FlowCall.exchange path query t).stage] <+:
      [.identify, .lock, .deliver, .release] := by
  cases query with
  | bind address process' => exact hq.elim
  | observeSender process' thread' cursor => exact hq.elim
  | identify process' =>
      rw [hq.2]
      exact ⟨_, rfl⟩
  | identifyThread process' thread' =>
      rw [hq.2]
      exact ⟨_, rfl⟩
  | lock sender recipient =>
      obtain ⟨_, _, t0, hc, _⟩ := hq
      rw [hc, List.map_singleton, identifyQuery_stage]
      exact ⟨_, rfl⟩
  | deliver lock delivery message =>
      rw [hq.2.2.2.1.stages]
      exact ⟨_, rfl⟩
  | release lock =>
      obtain ⟨outcome, _, hd⟩ := hq
      rw [hd.stages]
      exact ⟨_, rfl⟩

/-- Before anything was read from the store there was no exchange. -/
theorem flowPath_none {h : List NexusEvent} (hr : recordsRead h = []) : flowPath h = none := by
  rw [flowPath, hr]

/-- Exchanges in their places follow the path. -/
theorem stages_of_issued {h : List NexusEvent} (hi : Issued (SendPlace process request thread) h) :
    (flowCalls h).map FlowCall.stage <+: [.identify, .lock, .deliver, .release] ∨
      (flowCalls h).map FlowCall.stage <+: [.identify, .lock, .deliver, .observe] := by
  refine issued_induction (P := fun h =>
    (flowCalls h).map FlowCall.stage <+: [.identify, .lock, .deliver, .release] ∨
      (flowCalls h).map FlowCall.stage <+: [.identify, .lock, .deliver, .observe])
    (Or.inl List.nil_prefix) ?_ h hi
  rintro h ⟨o, a⟩ _ hplace ih
  cases o with
  | exchange path query readTimeout writeTimeout =>
      refine Or.inl ?_
      rw [flowCalls_append, List.map_append]
      exact hplace.2.2.stages a
  | observe path query writeTimeout =>
      obtain ⟨_, _, lock, acceptance, _, hd⟩ := hplace
      refine Or.inr ?_
      rw [flowCalls_append, List.map_append, hd.stages]
      exact ⟨[], rfl⟩
  | _ => simpa [flowCall?] using ih

/-- Exchanges in their places are all on the socket that the one read of the store found. -/
theorem onePath_of_issued {h : List NexusEvent} (hi : Issued (SendPlace process request thread) h) :
    ∀ call ∈ flowCalls h, flowPath h = some call.path := by
  refine issued_induction (P := fun h => ∀ call ∈ flowCalls h, flowPath h = some call.path)
    (fun call hcall => by cases hcall) ?_ h hi
  rintro h ⟨o, a⟩ _ hplace ih call hcall
  rw [flowCalls_append, List.mem_append] at hcall
  cases o with
  | matchRecords =>
      rcases hcall with hcall | hcall
      · have hsome := ih call hcall
        rw [flowPath_none hplace.2] at hsome
        cases hsome
      · cases hcall
  | exchange path query readTimeout writeTimeout =>
      rw [flowPath_snoc _ _ rfl]
      rcases hcall with hcall | hcall
      · exact ih call hcall
      · cases List.mem_singleton.mp hcall
        exact hplace.2.1
  | observe path query writeTimeout =>
      rw [flowPath_snoc _ _ rfl]
      rcases hcall with hcall | hcall
      · exact ih call hcall
      · cases List.mem_singleton.mp hcall
        exact hplace.2.1
  | _ =>
      rw [flowPath_snoc _ _ rfl]
      rcases hcall with hcall | hcall
      · exact ih call hcall
      · cases hcall

end Whole

/-- In every interleaving, the exchanges of a connection that was asked a send are the path of
    that send, and no connection ends while a Release is due. -/
theorem send_exchanges [FlowDebug] {s₀ : NexusShared} {c : NexusPool}
    (hr : Reach nexusSystem (.idle s₀) c) {t : Nat}
    {th : Thread NexusOp NexusAns ForwardLoop (Except FrameError Unit)}
    (ht : c.threads t = some th) {process : Process} {query : SignalMessage.Query}
    (ha : asked th.hist = some (process, query)) {request : SendRequest}
    {thread : Option String} (hs : query.sends = some (request, thread)) :
    SendExchanges process request thread th.hist ∧
      ∀ result, th.rest = .ret result → Settled process request thread th.hist := by
  obtain ⟨rest, hh, htr⟩ := connection_trace hr ht ha
  rw [answerQuery_sends hs] at htr
  have hbody : ∀ l h, Settled process request thread h →
      Holds anyAnswer (SendPlace process request thread) (EndsSettled process request thread)
        (forwardRound l) h := fun l h hsl => forwardRound_places l hsl
  have hp : Holds anyAnswer (SendPlace process request thread)
      (EndsSettled process request thread) (answerSend process request thread)
      (askedBy process query) := answerSend_places rfl rfl
  have hempty : ∀ h, flowCalls h = [] → Settled process request thread h :=
    fun h hc => settled_of_length (by simp [hc])
  have hi : Issued (SendPlace process request thread) th.hist := by
    rw [hh, Issued, along_append]
    refine ⟨⟨(hempty [] rfl).place trivial, (hempty _ rfl).place trivial, trivial⟩, ?_⟩
    exact htr.issued hbody hp (along_any _ _)
  refine ⟨⟨stages_of_issued hi, fun before e after he => ?_, onePath_of_issued hi⟩, ?_⟩
  · rw [he] at hi
    exact hi.at
  · intro result hres
    have hend := htr.holds hbody hp (along_any _ _)
    rw [hres, ← hh] at hend
    cases result with
    | inl l => exact hend
    | inr r => exact hend

/-- A send that Flow delivers: its sender is `Mind flow Secondary`, and the lock holds for a
    minute. -/
def deliveredScript : NexusScript where
  process := ⟨7, 1⟩
  query := .send ⟨.up, .wake, .middleAbrupt (.question "What is current?")⟩
  metaQuery := none
  time := ⟨0⟩
  flow
    | .identify _ => transported (.ok (.identified ⟨.mind, "flow", .secondary⟩))
    | .lock sender _ =>
        transported (.ok (.locked ⟨sender, ⟨.mind, "flow", .primary⟩, 60⟩))
    | .deliver _ _ _ =>
        transported (.ok (.sent ⟨"delivery-1", ⟨.codex, "session", "prompt"⟩⟩))
    | .release _ => transported (.ok .released)
    | _ => transported (.error .closed)
  observe := ⟨.ok (), .ok (), ⟨.ok 64, .ok (), .ok (), .ok ()⟩⟩
  frames := []
  storeError := none

def sampleConfiguration : Configuration :=
  ⟨"/run/message.sock", "/run/message-meta.sock", "/run/flow.sock"⟩

theorem send_exchanges_delivered :
    SendExchanges ⟨7, 1⟩ ⟨.up, .wake, .middleAbrupt (.question "What is current?")⟩ none
      (deliveredScript.history 20 (.serving sampleConfiguration)) ∧
    (flowCalls (deliveredScript.history 20 (.serving sampleConfiguration))).map FlowCall.stage =
      [.identify, .lock, .deliver, .release] := by
  refine ⟨(@send_exchanges unitDebug _ _ (@NexusScript.pool_reach unitDebug deliveredScript 20 _ rfl)
    0 _ (@NexusScript.pool_thread unitDebug _ _ _) _ _ rfl _ _ rfl).1, rfl⟩

end MessageNexus
