/-
  File:      MessageNexus/Mcp/Told.lean
  Subject:   THE MESSAGES OF A CALL IN A RUNNING ADAPTER: in every interleaving with the stdio loop
             and the other workers, and with every answer of the environment, a call is told its
             responses in order and then one final message, and its key leaves the active map.

  * `FlagsKept`, `flags_kept` -- what a thread has seen of the flags stays so;
  * `worker_told` -- hence a worker writes where `CallPlace` allows it;
  * `Removed`, `removed` -- a key that was removed does not come back;
  * `CallTold`, `call_told` -- the messages of a call.
-/
import MessageNexus.Mcp.Calls

namespace MessageNexus

open Interact SignalFlow SignalMessage Json

section Run

variable [McpCodec] {c : McpPool}

/-! ## 1. The flags -/

/-- What the threads have seen of the flags, and what that says of the flags now. -/
structure FlagsKept (s : McpShared) (H : Nat → List McpEvent) : Prop where
  stay : ∀ t, Along flagsStay [] (H t)
  seen : ∀ t n, FlagSeen n (H t) → s.cancelled n = true
  lost : ∀ t, LossSeen (H t) → s.alive = false

omit [McpCodec] in
theorem alive_after {s : McpShared} (t : Nat) (o : McpOp) (h : s.alive = false) :
    (s.after t o).alive = false := by
  cases o with
  | storeAlive => rfl
  | _ => exact h

omit [McpCodec] in
/-- What a thread sees or does last. -/
theorem FlagSeen.last {s : McpShared} {t n : Nat} {h : List McpEvent} {e : McpEvent}
    (hanswer : s.answers e) (hold : FlagSeen n h → s.cancelled n = true)
    (hs : FlagSeen n (h ++ [e])) : (s.after t e.op).cancelled n = true := by
  have hcases : FlagSeen n h ∨ e = ⟨.loadCancelled n, true⟩ ∨ e = ⟨.storeCancelled n, ()⟩ := by
    rcases hs with hs | hs <;> rcases List.mem_append.mp hs with hin | hlast
    · exact Or.inl (Or.inl hin)
    · exact Or.inr (Or.inl (List.mem_singleton.mp hlast).symm)
    · exact Or.inl (Or.inr hin)
    · exact Or.inr (Or.inr (List.mem_singleton.mp hlast).symm)
  rcases hcases with hbefore | rfl | rfl
  · exact cancelled_after t e.op (hold hbefore)
  · exact (show true = s.cancelled n from hanswer).symm
  · exact Function.update_self n true s.cancelled

omit [McpCodec] in
theorem LossSeen.last {s : McpShared} {t : Nat} {h : List McpEvent} {e : McpEvent}
    (hanswer : s.answers e) (hold : LossSeen h → s.alive = false)
    (hs : LossSeen (h ++ [e])) : (s.after t e.op).alive = false := by
  have hcases : LossSeen h ∨ e = ⟨.loadAlive, false⟩ ∨ e = ⟨.storeAlive, ()⟩ := by
    rcases hs with hs | hs <;> rcases List.mem_append.mp hs with hin | hlast
    · exact Or.inl (Or.inl hin)
    · exact Or.inr (Or.inl (List.mem_singleton.mp hlast).symm)
    · exact Or.inl (Or.inr hin)
    · exact Or.inr (Or.inr (List.mem_singleton.mp hlast).symm)
  rcases hcases with hbefore | rfl | rfl
  · exact alive_after t e.op (hold hbefore)
  · exact (show false = s.alive from hanswer).symm
  · rfl

/-- A flag is never unset, so no thread ever sees one go back. -/
theorem flags_kept (hr : Reach mcpSystem McpPool.initial c) : FlagsKept c.shared c.hist := by
  refine Reach.logged (D := fun _ _ _ => True) (fun _ _ _ => trivial) ?_ ?_ ?_ ?_ hr
  · have hnil : ∀ t, McpPool.initial.hist t = [] := fun _ => rfl
    constructor
    · intro t
      rw [hnil]
      trivial
    · intro t n hs
      rw [hnil] at hs
      rcases hs with hs | hs <;> cases hs
    · intro t hs
      rw [hnil] at hs
      rcases hs with hs | hs <;> cases hs
  · intro s H t e s' _ _ hs hc
    obtain ⟨hanswer, rfl⟩ := hs
    constructor
    · intro u
      by_cases hu : u = t
      · subst hu
        rw [Function.update_self]
        refine (along_append [] (H u) [e]).mpr ⟨hc.stay u, ?_, trivial⟩
        obtain ⟨o, a⟩ := e
        cases o with
        | loadCancelled n =>
            have ha : a = s.cancelled n := hanswer
            exact fun hseen => ha.trans (hc.seen u n hseen)
        | loadAlive =>
            have ha : a = s.alive := hanswer
            exact fun hseen => ha.trans (hc.lost u hseen)
        | _ => trivial
      · rw [Function.update_of_ne hu]
        exact hc.stay u
    · intro u n hseen
      by_cases hu : u = t
      · subst hu
        rw [Function.update_self] at hseen
        exact hseen.last hanswer (hc.seen u n)
      · rw [Function.update_of_ne hu] at hseen
        exact cancelled_after t e.op (hc.seen u n hseen)
    · intro u hseen
      by_cases hu : u = t
      · subst hu
        rw [Function.update_self] at hseen
        exact hseen.last hanswer (hc.lost u)
      · rw [Function.update_of_ne hu] at hseen
        exact alive_after t e.op (hc.lost u hseen)
  · intro s t p s' H hs hc
    rw [hs.1]
    exact hc
  · intro s s' H hs _
    exact hs.elim

/-- Every operation of a worker stands where it tells what it should. -/
theorem worker_told (hr : Reach mcpSystem McpPool.initial c) {call : Nat} {request : CallRequest}
    {worker : McpThreadState} (ht : c.threads (call + 1) = some worker)
    (hstart : worker.start = runCall request call) :
    Issued (CallPlace request call) worker.hist ∧
      CallKept request call worker.rest worker.hist := by
  have htrace := hr.trace (call + 1) worker ht
  have hp : CallKept request call worker.start [] := hstart ▸ runCall_told
  have hflags : Along flagsStay [] worker.hist := by
    have h := (flags_kept hr).stay (call + 1)
    rwa [Pool.hist_of ht] at h
  refine ⟨htrace.issued mcpRound_told hp hflags, ?_⟩
  simpa using htrace.holds mcpRound_told hp hflags

/-! ## 2. The key of a call -/

/-- The map has no entry with this key. -/
def Absent (key : String) (s : McpShared) : Prop := ∀ p ∈ s.active, p.1 ≠ key

omit [McpCodec] in
/-- Only an insertion brings a key into the map. -/
theorem Absent.after {key : String} {s : McpShared} (ha : Absent key s) (t : Nat) {o : McpOp}
    (ho : ∀ key' call, o = .insertActive key' call → key' ≠ key) : Absent key (s.after t o) := by
  intro p hin
  cases o with
  | insertActive key' call =>
      rcases List.mem_cons.mp hin with rfl | hold
      · exact ho key' call rfl
      · exact ha p (List.mem_of_mem_filter hold)
  | setObserver key' call =>
      obtain ⟨p₀, hp₀, he⟩ := List.mem_map.mp hin
      have hkey : p.1 = p₀.1 := by
        rw [← he]
        split <;> rfl
      rw [hkey]
      exact ha p₀ hp₀
  | removeActive key' => exact ha p (List.mem_of_mem_filter hin)
  | _ => exact ha p hin

omit [McpCodec] in
theorem absent_removed (key : String) (s : McpShared) (t : Nat) :
    Absent key (s.after t (.removeActive key)) := by
  intro p hin
  have hne : (p.1 != key) = true := (List.mem_filter.mp hin).2
  exact bne_iff_ne.mp hne

/-- A worker that has removed its key leaves no entry behind. -/
def Removed (s : McpShared) (H : Nat → List McpEvent) : Prop :=
  ∀ call request, (call, request) ∈ s.spawned →
    (⟨.removeActive request.key, ()⟩ : McpEvent) ∈ H (call + 1) → Absent request.key s

theorem removed (hr : Reach mcpSystem McpPool.initial c) : Removed c.shared c.hist := by
  refine Reach.logged (D := Disciplined) (fun c hr => disciplined hr) ?_ ?_ ?_ ?_ hr
  · intro call request hin
    cases hin
  · intro s H t e s' hd hnow hs hc
    obtain ⟨_, rfl⟩ := hs
    intro call request hin hremoved
    cases t with
    | zero =>
        have hp := hnow.1.at
        rw [Function.update_of_ne (by omega)] at hremoved
        -- a call that is only now spawned has no history
        have hold : (call, request) ∈ s.spawned := by
          obtain ⟨o, a⟩ := e
          cases o with
          | spawn request' call' =>
              rcases List.mem_append.mp hin with hold | hnew
              · exact hold
              · obtain ⟨rfl, rfl⟩ := Prod.mk.inj (List.mem_singleton.mp hnew)
                rcases hd (call + 1) with hnil | ⟨other, hother, _⟩
                · rw [hnil] at hremoved
                  cases hremoved
                · rw [(hd 0).2] at hother
                  exact absurd (hp.2.2.2.2 _ hother).2 (Nat.lt_irrefl call)
          | _ => exact hin
        refine (hc call request hold hremoved).after 0 fun key' call' ho hsame => ?_
        rw [ho] at hp
        rw [(hd 0).2] at hold
        exact (hp.2.2.2.2.2 _ hold).1 hsame.symm
    | succ n =>
        obtain ⟨own, _, _, hp⟩ := WorkerHist.last hnow
        rw [(belongs_keeps s hp.2.1).2] at hin
        have hno : ∀ key' call', e.op = .insertActive key' call' → key' ≠ request.key := by
          intro key' call' ho
          rw [ho] at hp
          exact hp.2.1.elim
        by_cases hn : call = n
        · subst hn
          rw [Function.update_self] at hremoved
          rcases List.mem_append.mp hremoved with hold | hlast
          · exact (hc call request hin hold).after (call + 1) hno
          · cases List.mem_singleton.mp hlast
            exact absent_removed request.key s (call + 1)
        · rw [Function.update_of_ne (by omega)] at hremoved
          exact (hc call request hin hremoved).after (n + 1) hno
  · intro s t p s' H hs hc
    rw [hs.1]
    exact hc
  · intro s s' H hs _
    exact hs.elim

/-! ## 3. The request of a worker -/

theorem spawned_numbers {h : List McpEvent} (hi : Issued StdioPlace h) :
    ∀ p ∈ (stdioLog h).spawned, ∀ q ∈ (stdioLog h).spawned, p.1 = q.1 → p = q := by
  refine issued_induction (P := fun h => ∀ p ∈ (stdioLog h).spawned, ∀ q ∈ (stdioLog h).spawned,
    p.1 = q.1 → p = q) (fun p hp => by cases hp) ?_ h hi
  intro h e _ hplace ih
  rw [stdioLog_snoc]
  obtain ⟨o, a⟩ := e
  cases o with
  | spawn request call =>
      have hfresh : FreshCall (stdioLog h) request.key call := hplace.2.2.2.2
      intro p hp q hq he
      rcases List.mem_append.mp hp with hp | hp
      · rcases List.mem_append.mp hq with hq | hq
        · exact ih p hp q hq he
        · cases List.mem_singleton.mp hq
          have hlt : p.1 < call := (hfresh p hp).2
          exact absurd he (Nat.ne_of_lt hlt)
      · cases List.mem_singleton.mp hp
        rcases List.mem_append.mp hq with hq | hq
        · have hlt : q.1 < call := (hfresh q hq).2
          exact absurd he.symm (Nat.ne_of_lt hlt)
        · exact (List.mem_singleton.mp hq).symm
  | readLine =>
      cases a with
      | error error => exact ih
      | ok line =>
          unfold StdioLog.after
          dsimp only
          split
          · exact ih
          · exact ih
  | _ => exact ih

/-- The worker of a call runs the one request that was spawned under its number. -/
theorem worker_runs (hr : Reach mcpSystem McpPool.initial c) {call : Nat} {request : CallRequest}
    {worker : McpThreadState} (ht : c.threads (call + 1) = some worker)
    (hs : (call, request) ∈ c.shared.spawned) : worker.start = runCall request call := by
  obtain ⟨other, hother, hstart⟩ := worker_started hr ht
  obtain ⟨hi, hspawned⟩ := disciplined hr 0
  rw [hspawned] at hs hother
  have hsame := spawned_numbers hi _ hs _ hother rfl
  rw [hstart, (Prod.mk.inj hsame).2]

/-- A spawned call carries a query of its thread. -/
theorem spawned_query (hr : Reach mcpSystem McpPool.initial c) {call : Nat} {request : CallRequest}
    (hs : (call, request) ∈ c.shared.spawned) :
    ∃ params, ThreadQuery params request.query := by
  obtain ⟨hi, hspawned⟩ := disciplined hr 0
  rw [hspawned] at hs
  obtain ⟨before, after, hhist⟩ := List.append_of_mem (mem_spawned.mp hs)
  rw [hhist] at hi
  obtain ⟨_, _, ⟨_, _, _, input, _, _, haccepts⟩, _⟩ := Along.at hi
  exact ⟨paramsOf input, haccepts.query⟩

/-! ## 4. What a call is told -/

/-- The responses of a call are over: a read failed, or a last response was read. -/
def Over (h : List McpEvent) : Prop :=
  (callLog h).failed = true ∨ ¬ StillOpen (callLog h).read

/-- What the worker of a call tells. -/
structure CallTold (c : McpPool) (request : CallRequest) (call : Nat) (worker : McpThreadState) :
    Prop where
  /-- At every moment the worker has told its responses in order, numbered from one and under its
      token, the last one perhaps not yet; or all of them and then one final message. -/
  soFar : ToldSoFar request call worker.hist
  /-- The `i`-th of them that bears no id is the `i`-th progress notification, and carries the text
      of the `i`-th response. -/
  progress : ∀ i value, (callLog worker.hist).told[i]? = some value → bearsId value = false →
    ∃ response, (callLog worker.hist).read[i]? = some response ∧
      IsProgress request (i + 1) response value
  /-- At most one message bears an id, and that is the call's. -/
  once : (callLog worker.hist).told.filter bearsId = [] ∨
    ∃ final, (callLog worker.hist).told.filter bearsId = [final] ∧
      final.get "id" = some request.id
  /-- After the last response or a failed read the worker waits for no response any more. -/
  waitless : Over worker.hist → (∀ n k, worker.rest ≠ .ask (.readResponse n) k) ∧
    ∀ l, worker.rest ≠ .ret (.inl l)
  /-- A worker that has ended has answered, if the connection lived and its writes went out. -/
  answered : worker.rest = .ret (.inr ()) → Steady worker.hist →
    CallAnswered request call worker.hist
  /-- The key of a worker that has ended is not in the active map. -/
  removed : worker.rest = .ret (.inr ()) → Absent request.key c.shared

theorem progress_unidentified (request : CallRequest) (read : List SignalMessage.Response) :
    (progressOf request read).filter bearsId = [] := by
  refine List.filter_eq_nil_iff.mpr fun value hin => ?_
  rw [progress_anonymous read value hin]
  exact Bool.false_ne_true

/-- A worker that has written its final message has written one that bears an id. -/
theorem Concluded.identified {request : CallRequest} {call : Nat} {outcome : Except IoError Unit}
    {h : List McpEvent} (hc : Concluded request call outcome h) :
    ∃ final, (callLog h).told.filter bearsId = [final] ∧ final.get "id" = some request.id := by
  obtain ⟨before, exit, _, _, hl, _, _, htold⟩ := hc
  refine ⟨exit.value request (callLog before).read, ?_, exit_identified exit _⟩
  rw [htold, List.filter_append, hl, progress_unidentified, List.filter_singleton, exit_bears]
  rfl

/-- The messages that bear an id, among what a worker has told. -/
theorem ToldSoFar.once {request : CallRequest} {call : Nat} {h : List McpEvent}
    (ht : ToldSoFar request call h) : (callLog h).told.filter bearsId = [] ∨
      ∃ final, (callLog h).told.filter bearsId = [final] ∧ final.get "id" = some request.id := by
  rcases ht with hl | ⟨before, _, _, htold⟩ | ⟨outcome, hc⟩
  · left
    rw [hl]
    exact progress_unidentified request _
  · left
    rw [htold]
    exact progress_unidentified request _
  · exact Or.inr hc.identified

/-- A message that bears no id is a progress notification, and tells the response it stands for. -/
theorem ToldSoFar.progress {request : CallRequest} {call : Nat} {h : List McpEvent}
    (ht : ToldSoFar request call h) {i : Nat} {value : Value}
    (hget : (callLog h).told[i]? = some value) (hid : bearsId value = false) :
    ∃ response, (callLog h).read[i]? = some response ∧
      IsProgress request (i + 1) response value := by
  rcases ht with hl | ⟨before, response, hread, htold⟩ | ⟨outcome, before, exit, _, _, hl, _, hread,
    htold⟩
  · rw [hl] at hget
    exact progressOf_get hget
  · rw [htold] at hget
    obtain ⟨told, hbefore, hprogress⟩ := progressOf_get hget
    obtain ⟨hi, _⟩ := List.getElem?_eq_some_iff.mp hbefore
    rw [hread, List.getElem?_append_left hi]
    exact ⟨told, hbefore, hprogress⟩
  · rw [htold, hl] at hget
    by_cases hi : i < (progressOf request (callLog before).read).length
    · rw [List.getElem?_append_left hi] at hget
      rw [hread]
      exact progressOf_get hget
    · -- only the final message stands behind them, and that bears an id
      rw [List.getElem?_append_right (Nat.le_of_not_lt hi)] at hget
      rw [List.mem_singleton.mp (List.mem_of_getElem? hget), exit_bears] at hid
      cases hid

theorem call_told (hr : Reach mcpSystem McpPool.initial c) {call : Nat} {worker : McpThreadState}
    (ht : c.threads (call + 1) = some worker) :
    ∃ request, (call, request) ∈ c.shared.spawned ∧ CallTold c request call worker := by
  obtain ⟨request, hspawned, hstart⟩ := worker_started hr ht
  obtain ⟨hissued, hkept⟩ := worker_told hr ht hstart
  have hsofar := toldSoFar hissued
  refine ⟨request, hspawned, hsofar, fun i value hget hid => hsofar.progress hget hid, hsofar.once,
    fun hover => ⟨fun n k hrest => ?_,
    fun l hrest => ?_⟩, fun hrest => ?_, fun hrest => ?_⟩
  · rw [hrest] at hkept
    obtain ⟨_, hopen, hgoing⟩ := hkept.1
    rcases hover with hfailed | hlast
    · exact absurd (hfailed.symm.trans hgoing) (by decide)
    · exact hlast hopen
  · rw [hrest] at hkept
    cases l with
    | read request' call' state =>
        obtain ⟨_, _, _, _, hopen, hgoing, _⟩ := hkept
        rcases hover with hfailed | hlast
        · exact absurd (hfailed.symm.trans hgoing) (by decide)
        · exact hlast hopen
    | _ => exact hkept.elim
  · rw [hrest] at hkept
    exact hkept.2
  · rw [hrest] at hkept
    refine removed hr call request hspawned ?_
    rw [Pool.hist_of ht]
    exact hkept.1

end Run

/-! ## 5. A run in which a call is answered -/

def sampleReceipt : NativeReceipt := ⟨.codex, "session-1", "prompt-1"⟩

/-- A send is queued, and then its delivery is told. -/
def deliveredResponses : List SignalMessage.Response :=
  [.sendAccepted ⟨"delivery-1", 3, .queued⟩,
    .sendChanged ⟨4, "delivery-1", .other "sample", ⟨.mind, "sample", .primary⟩,
      .delivered sampleReceipt⟩]

/-- The send of the sample messages is dispatched, and its worker runs to its end. -/
def answeredPool (responses : List SignalMessage.Response) : McpPool :=
  @McpScript.turn callCodec (messagesScript [] responses) 60 1
    (stdioPool callCodec callMessages).firstWorker

theorem answeredPool_reach (responses : List SignalMessage.Response) :
    Reach (@mcpSystem callCodec) McpPool.initial (answeredPool responses) := by
  have hworker := @McpPool.firstWorker_reach callCodec _ _
    (stdioPool_reach callCodec callMessages) (stdioPool_idle callCodec callMessages)
  exact @McpScript.turn_reach callCodec _ 60 1 _ _ hworker (@thread_live callCodec _ hworker 1)

/-- The first worker of a pool, with its request and a message that it wrote, known by what can be
    computed. -/
theorem computed_told {pool : McpPool} {query : SignalMessage.Query}
    {read : List SignalMessage.Response} {test : Value → Bool}
    (hcomputed : (pool.threads 1).isSome = true ∧
      pool.shared.spawned.map (fun call => (call.1, call.2.query)) = [(0, query)] ∧
      (callLog (pool.hist 1)).read = read ∧ (callLog (pool.hist 1)).told.any test = true) :
    ∃ worker request value, pool.threads 1 = some worker ∧ (0, request) ∈ pool.shared.spawned ∧
      request.query = query ∧ (callLog worker.hist).read = read ∧
      value ∈ (callLog worker.hist).told ∧ test value = true := by
  obtain ⟨hsome, hspawned, hread, htold⟩ := hcomputed
  obtain ⟨worker, ht⟩ := Option.isSome_iff_exists.mp hsome
  rw [Pool.hist_of ht] at hread htold
  obtain ⟨⟨call, request⟩, hin, hcall⟩ : ∃ call ∈ pool.shared.spawned,
      (call.1, call.2.query) = (0, query) := by
    refine List.mem_map.mp ?_
    rw [hspawned]
    exact List.mem_singleton_self _
  obtain ⟨rfl, hquery⟩ := Prod.mk.inj hcall
  obtain ⟨value, hmem, htest⟩ := List.any_eq_true.mp htold
  exact ⟨worker, request, value, ht, hin, hquery, hread, hmem, htest⟩

/-- Two progress notifications, and then one answer. -/
theorem call_told_delivered : ∃ request worker,
    (answeredPool deliveredResponses).threads 1 = some worker ∧
    @CallTold callCodec (answeredPool deliveredResponses) request 0 worker ∧
    (callLog worker.hist).told.length = 3 ∧
    ((callLog worker.hist).told.filter bearsId).length = 1 := by
  have hcomputed : ((answeredPool deliveredResponses).threads 1).isSome = true ∧
      (callLog ((answeredPool deliveredResponses).hist 1)).told.length = 3 ∧
      ((callLog ((answeredPool deliveredResponses).hist 1)).told.filter bearsId).length = 1 := by
    decide +kernel
  have hreach := answeredPool_reach deliveredResponses
  obtain ⟨pool, hpool⟩ : ∃ pool, answeredPool deliveredResponses = pool := ⟨_, rfl⟩
  rw [hpool] at hcomputed hreach ⊢
  obtain ⟨hsome, hlog⟩ := hcomputed
  obtain ⟨worker, ht⟩ := Option.isSome_iff_exists.mp hsome
  rw [Pool.hist_of ht] at hlog
  obtain ⟨request, _, htold⟩ := @call_told callCodec pool hreach 0 worker ht
  exact ⟨request, worker, ht, htold, hlog⟩

end MessageNexus
