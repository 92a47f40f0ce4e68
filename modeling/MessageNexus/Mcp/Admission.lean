/-
  File:      MessageNexus/Mcp/Admission.lean
  Subject:   THE ADMISSION GATE OF A RUNNING ADAPTER: in every interleaving of the stdio loop with
             its workers, a worker is spawned only for a call that passed every check, and neither
             the active map nor the set of seen ids outgrows its limit.

  * `Disciplined`, `disciplined` -- the discipline of every thread in every reachable pool;
  * `Roomy`, `roomy` -- the active map is within its limit, also while a call is on its way in;
  * `AdmissionGate`, `admission_gate` -- the gate.
-/
import MessageNexus.Mcp.Dispatch

namespace MessageNexus

open Interact SignalFlow SignalMessage Json

section Run

variable [McpCodec] {c : McpPool}

/-! ## 1. The discipline of every thread -/

/-- What a worker's history shows, in a pool with this shared state. -/
def WorkerHist (s : McpShared) : Nat → List McpEvent → Prop
  | 0, _ => True
  | call + 1, h => h = [] ∨
      ∃ request, (call, request) ∈ s.spawned ∧ Issued (WorkerPlace request call) h

theorem worker_hist (hr : Reach mcpSystem McpPool.initial c) :
    ∀ t, WorkerHist c.shared t (c.hist t) := by
  intro t
  cases t with
  | zero => trivial
  | succ call =>
      cases ht : c.threads (call + 1) with
      | none =>
          left
          rw [Pool.hist, ht]
      | some th =>
          right
          obtain ⟨request, hin, hstart⟩ := worker_started hr ht
          rw [Pool.hist_of ht]
          exact ⟨request, hin, (worker_places hr ht hstart).1⟩

/-- The last operation of a worker's history is in its place. -/
theorem WorkerHist.last {s : McpShared} {call : Nat} {h : List McpEvent} {e : McpEvent}
    (hw : WorkerHist s (call + 1) (h ++ [e])) :
    ∃ request, (call, request) ∈ s.spawned ∧ Issued (WorkerPlace request call) (h ++ [e]) ∧
      WorkerPlace request call h e.op := by
  rcases hw with hnil | ⟨request, hin, hi⟩
  · simp at hnil
  · exact ⟨request, hin, hi, hi.at⟩

omit [McpCodec] in
/-- A worker makes no flag and spawns nothing. -/
theorem belongs_keeps {request : CallRequest} {call t : Nat} {o : McpOp} (s : McpShared)
    (hb : o.belongs request call) :
    (s.after t o).flags = s.flags ∧ (s.after t o).spawned = s.spawned := by
  cases o with
  | newFlag => exact hb.elim
  | spawn request call => exact hb.elim
  | _ => exact ⟨rfl, rfl⟩

omit [McpCodec] in
/-- The log of the stdio loop counts its flags and its workers. -/
theorem log_counts {s : McpShared} {log : StdioLog} (t : Nat) (e : McpEvent)
    (hf : s.flags = log.flags) (hw : s.spawned = log.spawned) :
    (s.after t e.op).flags = (log.after e).flags ∧
      (s.after t e.op).spawned = (log.after e).spawned := by
  obtain ⟨o, a⟩ := e
  cases o with
  | readLine =>
      cases a with
      | error error => exact ⟨hf, hw⟩
      | ok line =>
          show s.flags = (if line = "" ∨ maxLine < line.utf8ByteSize then log
            else { log with lines := log.lines ++ [line] }).flags ∧
            s.spawned = (if line = "" ∨ maxLine < line.utf8ByteSize then log
            else { log with lines := log.lines ++ [line] }).spawned
          split
          · exact ⟨hf, hw⟩
          · exact ⟨hf, hw⟩
  | newFlag => exact ⟨congrArg (· + 1) hf, hw⟩
  | spawn request call => exact ⟨hf, congrArg (· ++ [(call, request)]) hw⟩
  | _ => exact ⟨hf, hw⟩

/-- The flags and the workers are those of the stdio loop, and its flags are fresh. -/
def Counted (s : McpShared) (H : Nat → List McpEvent) : Prop :=
  s.flags = (stdioLog (H 0)).flags ∧ s.spawned = (stdioLog (H 0)).spawned ∧
    Along flagAnswers [] (H 0)

theorem counted (hr : Reach mcpSystem McpPool.initial c) : Counted c.shared c.hist := by
  refine Reach.logged (D := WorkerHist) (fun c hr => worker_hist hr) ⟨rfl, rfl, trivial⟩ ?_ ?_ ?_ hr
  · intro s H t e s' _ hnow hs hc
    obtain ⟨hanswer, rfl⟩ := hs
    obtain ⟨hf, hw, ha⟩ := hc
    cases t with
    | zero =>
        obtain ⟨hf', hw'⟩ := log_counts 0 e hf hw
        unfold Counted
        rw [Function.update_self, stdioLog_snoc]
        refine ⟨hf', hw', (along_append [] (H 0) [e]).mpr ⟨ha, ?_, trivial⟩⟩
        obtain ⟨o, a⟩ := e
        cases o with
        | newFlag => exact (hanswer : a = s.flags).trans hf
        | _ => trivial
    | succ call =>
        obtain ⟨request, _, _, _, hb, _⟩ := hnow.last
        obtain ⟨hf', hw'⟩ := belongs_keeps (t := call + 1) s hb
        have hne : (0 : Nat) ≠ call + 1 := by omega
        unfold Counted
        rw [Function.update_of_ne hne, hf', hw']
        exact ⟨hf, hw, ha⟩
  · intro s t p s' H hs hc
    rw [hs.1]
    exact hc
  · intro s s' H hs _
    exact hs.elim

/-- Every operation of the stdio loop stands where its discipline allows it. -/
theorem stdio_places (hr : Reach mcpSystem McpPool.initial c) {th : McpThreadState}
    (ht : c.threads 0 = some th) : Issued StdioPlace th.hist ∧ StdioKept th.rest th.hist := by
  have htrace := hr.trace 0 th ht
  have hfresh : Along flagAnswers [] th.hist := by
    have h := (counted hr).2.2
    rwa [Pool.hist_of ht] at h
  have hp : StdioKept th.start [] := (stdio_started hr ht) ▸ runStdio_kept
  refine ⟨htrace.issued mcpRound_stdio hp hfresh, ?_⟩
  simpa using htrace.holds mcpRound_stdio hp hfresh

/-- What every thread's history shows, in a pool with this shared state. -/
def Disciplined (s : McpShared) : Nat → List McpEvent → Prop
  | 0, h => Issued StdioPlace h ∧ s.spawned = (stdioLog h).spawned
  | call + 1, h => WorkerHist s (call + 1) h

theorem disciplined (hr : Reach mcpSystem McpPool.initial c) :
    ∀ t, Disciplined c.shared t (c.hist t) := by
  intro t
  cases t with
  | zero =>
      refine ⟨?_, (counted hr).2.1⟩
      cases ht : c.threads 0 with
      | none =>
          rw [Pool.hist, ht]
          trivial
      | some th =>
          rw [Pool.hist_of ht]
          exact (stdio_places hr ht).1
  | succ call => exact worker_hist hr (call + 1)

/-! ## 2. The size of the active map -/

omit [McpCodec] in
theorem length_observe (active : ActiveMap) (key : String) (call : Nat) :
    (active.observe key call).length = active.length := by
  simp [ActiveMap.observe]

omit [McpCodec] in
theorem length_remove (active : ActiveMap) (key : String) :
    (active.remove key).length ≤ active.length := List.length_filter_le _ _

omit [McpCodec] in
theorem length_insert (active : ActiveMap) (key : String) (call : ActiveCall) :
    (active.insert key call).length ≤ active.length + 1 := by
  have h := length_remove active key
  show (active.remove key).length + 1 ≤ active.length + 1
  omega

omit [McpCodec] in
/-- A worker never makes the map longer. -/
theorem belongs_length {request : CallRequest} {call t : Nat} {o : McpOp} (s : McpShared)
    (hb : o.belongs request call) : (s.after t o).active.length ≤ s.active.length := by
  cases o with
  | insertActive key call => exact hb.elim
  | setObserver key call => exact Nat.le_of_eq (length_observe _ _ _)
  | removeActive key => exact length_remove _ _
  | _ => exact Nat.le_refl _

/-- The map is within its limit, and has room while the loop counts on it. -/
def Roomy (s : McpShared) (H : Nat → List McpEvent) : Prop :=
  s.active.length ≤ maxActiveCalls ∧
    ((stdioLog (H 0)).room = true → s.active.length < maxActiveCalls)

theorem roomy_stdio {s : McpShared} {H : Nat → List McpEvent} {e : McpEvent} (hanswer : s.answers e)
    (hp : StdioPlace (H 0) e.op) (hc : Roomy s H) :
    Roomy (s.after 0 e.op) (Function.update H 0 (H 0 ++ [e])) := by
  obtain ⟨hlen, hroom⟩ := hc
  unfold Roomy
  rw [Function.update_self, stdioLog_snoc]
  obtain ⟨o, a⟩ := e
  cases o with
  | readLine =>
      cases a with
      | error error => exact ⟨hlen, hroom⟩
      | ok line =>
          refine ⟨hlen, fun h => hroom ?_⟩
          rw [← h]
          show _ = (if line = "" ∨ maxLine < line.utf8ByteSize then stdioLog (H 0)
            else { stdioLog (H 0) with lines := (stdioLog (H 0)).lines ++ [line] }).room
          split <;> rfl
  | lenActive =>
      refine ⟨hlen, fun h => ?_⟩
      have hcount : a = s.active.length := hanswer
      have hlt := of_decide_eq_true h
      rwa [hcount] at hlt
  | insertActive key call =>
      have hlt := hroom hp.2.2.2.1
      have hle := length_insert s.active key ⟨none, call⟩
      refine ⟨?_, fun h => ?_⟩
      · show (s.active.insert key ⟨none, call⟩).length ≤ maxActiveCalls
        omega
      · cases h
  | setObserver key call => cases hp.2.1
  | removeActive key => cases hp.2.1
  | _ => exact ⟨hlen, hroom⟩

theorem roomy (hr : Reach mcpSystem McpPool.initial c) : Roomy c.shared c.hist := by
  refine Reach.logged (D := Disciplined) (fun c hr => disciplined hr) ⟨Nat.zero_le _, ?_⟩
    ?_ ?_ ?_ hr
  · intro h
    cases h
  · intro s H t e s' _ hnow hs hc
    obtain ⟨hanswer, rfl⟩ := hs
    cases t with
    | zero => exact roomy_stdio hanswer hnow.1.at hc
    | succ call =>
        obtain ⟨request, _, _, _, hb, _⟩ := WorkerHist.last hnow
        have hlen := belongs_length (t := call + 1) s hb
        have hne : (0 : Nat) ≠ call + 1 := by omega
        unfold Roomy
        rw [Function.update_of_ne hne]
        refine ⟨Nat.le_trans hlen hc.1, fun h => ?_⟩
        exact Nat.lt_of_le_of_lt hlen (hc.2 h)
  · intro s t p s' H hs hc
    rw [hs.1]
    exact hc
  · intro s s' H hs _
    exact hs.elim

/-! ## 3. The gate -/

/-- What the loop has checked when it spawns the worker of this request, after this history. -/
structure SpawnAdmitted (before : List McpEvent) (request : CallRequest) : Prop where
  call : ∃ earlier line input, (stdioLog before).lines = earlier ++ [line] ∧
    McpCodec.fromStr line = some input ∧ methodOf input = some "tools/call" ∧
    Handshaken earlier ∧
    input.get "id" = some request.id ∧
    (paramsOf input).pointer ["_meta", "progressToken"] = some request.progressToken ∧
    ThreadQuery (paramsOf input) request.query ∧
    ∃ thread, (paramsOf input).pointer ["_meta", "threadId"] = some (.string thread) ∧
      validThread thread = true ∧ nativeSession request.query = some thread
  id : isScalar request.id = true
  fresh : ∀ other ∈ (stdioLog before).spawned, other.2.id ≠ request.id
  token : isScalar request.progressToken = true

/-- The gate: every spawn of the stdio loop is admitted, and no other thread spawns; every worker
    was spawned; and the map and the set of seen ids are within their limits. -/
structure AdmissionGate (c : McpPool) : Prop where
  spawns : ∀ t th, c.threads t = some th → ∀ before request call after,
    th.hist = before ++ ⟨.spawn request call, ()⟩ :: after → t = 0 ∧ SpawnAdmitted before request
  workers : ∀ call th, c.threads (call + 1) = some th → ∃ request stdio,
    c.threads 0 = some stdio ∧ ⟨.spawn request call, ()⟩ ∈ stdio.hist ∧
    th.start = runCall request call
  threads : ∀ input₁ input₂ query₁ query₂,
    (paramsOf input₁).pointer ["_meta", "threadId"] =
      (paramsOf input₂).pointer ["_meta", "threadId"] →
    ThreadQuery (paramsOf input₁) query₁ → ThreadQuery (paramsOf input₂) query₂ →
    nativeSession query₁ = nativeSession query₂
  active : c.shared.active.length ≤ maxActiveCalls
  seen : ∀ stdio, c.threads 0 = some stdio →
    (adapterAfter (stdioLog stdio.hist).lines).seenIds.length ≤ maxSeenCalls ∧
    ∀ adapter workers, stdio.rest = .ret (.inl (.lines adapter workers)) →
      adapter = adapterAfter (stdioLog stdio.hist).lines

omit [McpCodec] in
/-- A spawned call is one of the log. -/
theorem mem_spawned {h : List McpEvent} {call : Nat} {request : CallRequest} :
    (call, request) ∈ (stdioLog h).spawned ↔ (⟨.spawn request call, ()⟩ : McpEvent) ∈ h := by
  induction h using List.reverseRecOn with
  | nil => simp [stdioLog]
  | append_singleton h e ih =>
      rw [stdioLog_snoc, List.mem_append, ← ih]
      obtain ⟨o, a⟩ := e
      cases o with
      | readLine =>
          cases a with
          | error error => simp [StdioLog.after]
          | ok line =>
              unfold StdioLog.after
              dsimp only
              split <;> simp
      | spawn request' call' => simp [StdioLog.after, and_comm]
      | _ => simp [StdioLog.after]

/-- The key of a spawned call is the text of its id, which is a string or a number. -/
theorem spawned_key {h : List McpEvent} (hi : Issued StdioPlace h) {spawned : Nat × CallRequest}
    (hin : spawned ∈ (stdioLog h).spawned) :
    spawned.2.key = spawned.2.id.text ∧ isScalar spawned.2.id = true := by
  obtain ⟨call, request⟩ := spawned
  obtain ⟨before, after, rfl⟩ := List.append_of_mem (mem_spawned.mp hin)
  obtain ⟨_, _, ⟨_, _, _, _, _, _, haccepts⟩, _⟩ := Along.at hi
  exact ⟨haccepts.key, haccepts.scalar⟩

/-- A worker is spawned only for a call that passed every check. -/
theorem StdioPlace.admitted {before : List McpEvent} {request : CallRequest} {call : Nat}
    (hi : Issued StdioPlace before) (hp : StdioPlace before (.spawn request call)) :
    SpawnAdmitted before request := by
  obtain ⟨_, _, ⟨earlier, line, hlines, input, hparse, hmethod, haccepts⟩, _, hfresh⟩ := hp
  obtain ⟨thread, hthread, hsession, hvalid⟩ := haccepts.query.valid
  refine ⟨⟨earlier, line, input, hlines, hparse, hmethod, ready_handshaken earlier haccepts.ready,
    haccepts.id, haccepts.token, haccepts.query, thread, hthread, hvalid, hsession⟩,
    haccepts.scalar, ?_, haccepts.tokenScalar⟩
  intro other hother hsame
  have hkey := (spawned_key hi hother).1
  have hne := (hfresh other hother).1
  rw [hsame, ← haccepts.key] at hkey
  exact hne hkey

theorem admission_gate (hr : Reach mcpSystem McpPool.initial c) : AdmissionGate c := by
  constructor
  · intro t th ht before request call after hhist
    cases t with
    | zero =>
        have hi := (stdio_places hr ht).1
        rw [hhist] at hi
        have hbefore := ((along_append [] before _).mp hi).1
        exact ⟨rfl, StdioPlace.admitted hbefore (Along.at hi)⟩
    | succ n =>
        obtain ⟨own, _, hstart⟩ := worker_started hr ht
        have hi := (worker_places hr ht hstart).1
        rw [hhist] at hi
        have hb := (Along.at hi).2.1
        exact hb.elim
  · intro call th ht
    obtain ⟨request, hin, hstart⟩ := worker_started hr ht
    rw [(counted hr).2.1] at hin
    cases hstdio : c.threads 0 with
    | none =>
        rw [Pool.hist, hstdio] at hin
        cases hin
    | some stdio =>
        rw [Pool.hist_of hstdio] at hin
        exact ⟨request, stdio, rfl, mem_spawned.mp hin, hstart⟩
  · intro input₁ input₂ query₁ query₂ hsame h₁ h₂
    obtain ⟨thread₁, hthread₁, hsession₁, _⟩ := h₁.valid
    obtain ⟨thread₂, hthread₂, hsession₂, _⟩ := h₂.valid
    rw [hthread₁, hthread₂] at hsame
    cases hsame
    exact hsession₁.trans hsession₂.symm
  · exact (roomy hr).1
  · intro stdio hstdio
    refine ⟨seen_bounded _, fun adapter workers hrest => ?_⟩
    have hkept := (stdio_places hr hstdio).2
    rw [hrest] at hkept
    exact Tidy.current hkept

end Run

/-! ## 4. A run with one call -/

def sampleSend : SendRequest := ⟨.up, .wake, .soft (.question "Ready?")⟩

/-- The handshake and a `send`. -/
def callMessages : List Value :=
  [requestMessage 1 "initialize" (.object []),
    notificationMessage "notifications/initialized" (.object []),
    requestMessage 2 "tools/call"
      (toolParams "send" [("query", .string "Send.«Ready?»")])]

@[reducible] def callCodec : McpCodec := sampleCodec callMessages [("Send.«Ready?»", sampleSend)]

/-- A world in which these messages come in and these responses are read. -/
def messagesScript (messages : List Value) (responses : List SignalMessage.Response) : McpScript where
  lines := messages.map fun message => message.text ++ "\n"
  connect := ⟨.ok (), .ok ()⟩
  clone := .ok ()
  send := ⟨.ok 64, .ok (), .ok ()⟩
  reads := responses.map fun response => ⟨.ok 64, .ok (), .ok response⟩
  written := .ok ()

/-- The stdio loop after these messages. -/
def stdioPool (codec : McpCodec) (messages : List Value) : McpPool :=
  @McpScript.turn codec (messagesScript messages []) 60 0 McpPool.initial.stdio

theorem stdioPool_reach (codec : McpCodec) (messages : List Value) :
    Reach (@mcpSystem codec) McpPool.initial (stdioPool codec messages) := by
  refine @McpScript.turn_reach codec _ 60 0 _ _ (@McpPool.stdio_reach codec) ?_
  intro th ht
  cases ht
  rfl

/-- The same pool with the worker of its first call started. -/
def McpPool.firstWorker (c : McpPool) : McpPool :=
  match c.shared.spawned with
  | [] => c
  | (call, request) :: _ => c.worker call request

theorem McpPool.firstWorker_reach [McpCodec] {c₀ c : McpPool} (hr : Reach mcpSystem c₀ c)
    (hc : ∀ n, c.threads (n + 1) = none) : Reach mcpSystem c₀ c.firstWorker := by
  unfold McpPool.firstWorker
  cases hs : c.shared.spawned with
  | nil => exact hr
  | cons first rest =>
      obtain ⟨call, request⟩ := first
      refine McpPool.worker_reach hr ?_ (hc call)
      rw [hs]
      exact List.mem_cons_self

theorem stdioPool_idle (codec : McpCodec) (messages : List Value) (n : Nat) :
    (stdioPool codec messages).threads (n + 1) = none :=
  Pool.put_other _ _ _ (Nat.succ_ne_zero n)

theorem admission_gate_call : @AdmissionGate callCodec (stdioPool callCodec callMessages) ∧
    (stdioPool callCodec callMessages).shared.spawned.map (fun call => (call.1, call.2.key)) =
      [(0, "2")] :=
  ⟨@admission_gate callCodec _ (stdioPool_reach callCodec callMessages), by decide +kernel⟩

end MessageNexus
