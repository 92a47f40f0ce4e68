/-
  File:      MessageNexus/Mcp/Joined.lean
  Subject:   THE WORKERS OF THE STDIO LOOP: at every head of its loops the workers it has joined and
             those it keeps are those it has spawned, and when it returns all of them are joined.

  * `mcpCrew` -- the events that spawn a worker and that join one;
  * `CrewLoop`, `mcpRound_crew` -- the account that every round keeps;
  * `stdioReaper` -- the reaping pass of the loop;
  * `found_ended` -- a worker that was found finished, or joined, has ended;
  * `StdioAccount`, `stdio_account` -- what follows in every reachable pool.
-/
import MessageNexus.Mcp.Cancel

namespace MessageNexus

open Interact SignalFlow SignalMessage Json Reap

/-! ## 1. The account of the loop -/

/-- The stdio loop spawns and joins workers by the numbers of their calls. -/
def mcpCrew : Crew McpOp McpAns Nat where
  spawns
    | ⟨.spawn _ call, _⟩ => some call
    | _ => none
  joins
    | ⟨.join call, _⟩ => some call
    | _ => none

/-- The operations that neither spawn nor join. -/
def McpOp.crewless : McpOp → Bool
  | .spawn _ _ => false
  | .join _ => false
  | _ => true

/-- The workers that the head of a loop keeps. -/
def McpLoop.workers : McpLoop → List Nat
  | .lines _ workers => workers
  | .reap _ workers _ => workers
  | .joins workers => workers
  | .read _ _ _ => []

theorem crewless_event {e : McpEvent} (ho : e.op.crewless = true) :
    mcpCrew.spawns e = none ∧ mcpCrew.joins e = none := by
  obtain ⟨o, a⟩ := e
  cases o with
  | spawn request call => cases ho
  | join call => cases ho
  | _ => exact ⟨rfl, rfl⟩

theorem crewless_place {h : List McpEvent} {o : McpOp} (ho : o.crewless = true) :
    mcpCrew.Place h o := by
  intro a worker hj
  rw [(@crewless_event ⟨o, a⟩ ho).2] at hj
  cases hj

theorem joined_mem {h : List McpEvent} {worker : Nat} (hin : worker ∈ mcpCrew.joined h) :
    (⟨.join worker, ()⟩ : McpEvent) ∈ h := by
  obtain ⟨⟨o, a⟩, he, hj⟩ := List.mem_filterMap.mp hin
  cases o with
  | join call =>
      cases hj
      exact he
  | _ => cases hj

/-- Where the loop goes round: it keeps what it has spawned and not joined. -/
def CrewLoop : McpLoop → List McpEvent → Prop
  | .read _ _ _, _ => False
  | l, h => mcpCrew.Balanced h l.workers

abbrev CrewKept (p : McpThread) (h : List McpEvent) : Prop :=
  Holds anyAnswer mcpCrew.Place (Sum.elim CrewLoop fun _ h => mcpCrew.Balanced h []) p h

variable {adapter : Adapter} {workers : List Nat} {h : List McpEvent}

/-- The account over an operation that neither spawns nor joins, -/
theorem CrewKept.ask {o : McpOp} {k : McpAns o → McpThread} (ho : o.crewless = true)
    (hb : mcpCrew.Balanced h workers)
    (hk : ∀ a, mcpCrew.Balanced (h ++ [⟨o, a⟩]) workers → CrewKept (k a) (h ++ [⟨o, a⟩])) :
    CrewKept (.ask o k) h := by
  refine ⟨crewless_place ho, fun a _ => hk a ?_⟩
  obtain ⟨hs, hj⟩ := @crewless_event ⟨o, a⟩ ho
  exact hb.quiet hs hj

/-- and over a program of such operations. -/
theorem balanced_uses {α : Type} {p : McpProg α} (hp : Uses (fun o => o.crewless = true) p)
    (hb : mcpCrew.Balanced h workers) :
    Holds anyAnswer mcpCrew.Place (fun _ h' => mcpCrew.Balanced h' workers) p h := by
  refine hp.holds (I := fun h' => mcpCrew.Balanced h' workers) ?_
    (fun _ o _ (ho : o.crewless = true) => crewless_place ho) hb
  intro h' e hb ho
  obtain ⟨hs, hj⟩ := crewless_event ho
  exact hb.quiet hs hj

/-! ## 2. The rounds -/

theorem endLines_crew (hb : mcpCrew.Balanced h workers) : CrewKept (endLines workers) h := by
  refine .ask rfl hb fun _ hb => .ask rfl hb fun _ hb => .ask rfl hb fun calls hb => ?_
  have hcalls := balanced_uses (cancelCalls_uses (fun _ => rfl) (fun _ => rfl) calls) hb
  show CrewKept (cancelCalls calls >>= fun _ => act .unlockActive >>= fun _ =>
    pure (.inl (.joins workers))) _
  rw [CrewKept, holds_bind]
  refine hcalls.mono (fun _ _ hG => hG) fun _ h' hb => ?_
  exact CrewKept.ask rfl hb fun _ hb => hb

theorem loseConnection_crew (hb : mcpCrew.Balanced h workers) :
    CrewKept (loseConnection workers) h :=
  .ask rfl hb fun _ hb => endLines_crew hb

theorem answerLine_crew (response : Value) {next : McpLoop} (hb : mcpCrew.Balanced h workers)
    (hnext : ∀ h', mcpCrew.Balanced h' workers → CrewLoop next h') :
    CrewKept (answerLine workers response next) h := by
  refine .ask rfl hb fun written hb => ?_
  cases written with
  | error error => exact loseConnection_crew hb
  | ok _ => exact hnext _ hb

/-- An accepted call comes to the kept workers as it is spawned. -/
theorem dispatchCall_crew (request : CallRequest) (hb : mcpCrew.Balanced h workers) :
    CrewKept (dispatchCall adapter workers request) h := by
  refine .ask rfl hb fun _ hb => .ask rfl hb fun length hb => .ask rfl hb fun _ hb => ?_
  show CrewKept (if length ≥ maxActiveCalls then _ else _) _
  by_cases hfull : length ≥ maxActiveCalls
  · rw [if_pos hfull]
    exact answerLine_crew _ hb fun _ hb => hb
  · rw [if_neg hfull]
    refine .ask rfl hb fun call hb => .ask rfl hb fun _ hb => .ask rfl hb fun _ hb =>
      CrewKept.ask rfl hb fun _ hb => ?_
    exact ⟨fun _ _ hj => (by cases hj), fun _ _ => hb.spawn rfl rfl⟩

section Loop

variable [McpCodec]

theorem dispatchInput_crew (input : Value) (hb : mcpCrew.Balanced h workers) :
    CrewKept (dispatchInput adapter workers input) h := by
  unfold dispatchInput
  by_cases hcancel : methodOf input = some "notifications/cancelled"
  · have huses : Uses (fun o => o.crewless = true) (cancelNamed input) :=
      cancelNamed_uses (P := fun o => o.crewless = true) rfl (fun _ => rfl) (fun _ => rfl)
        (fun _ => rfl) rfl input
    rw [if_pos hcancel, CrewKept, holds_bind]
    exact (balanced_uses huses hb).mono (fun _ _ hG => hG) fun _ _ hb => hb
  rw [if_neg hcancel]
  by_cases hcall : methodOf input = some "tools/call"
  · rw [if_pos hcall]
    cases adapter.callRequest input with
    | error response => exact answerLine_crew response hb fun _ hb => hb
    | ok accepted => exact dispatchCall_crew accepted.1 hb
  · rw [if_neg hcall]
    cases adapter.synchronous input with
    | mk answer adapter' =>
        cases answer with
        | none => exact hb
        | some response => exact answerLine_crew response hb fun _ hb => hb

theorem linesRound_crew (hb : mcpCrew.Balanced h workers) :
    CrewKept (linesRound adapter workers) h := by
  refine .ask rfl hb fun read hb => ?_
  cases read with
  | error error => exact loseConnection_crew hb
  | ok line =>
      show CrewKept (if line = "" then _ else if maxLine < line.utf8ByteSize then _ else _) _
      by_cases hempty : line = ""
      · rw [if_pos hempty]
        exact loseConnection_crew hb
      rw [if_neg hempty]
      by_cases hlong : maxLine < line.utf8ByteSize
      · rw [if_pos hlong]
        exact endLines_crew hb
      rw [if_neg hlong]
      unfold dispatchLine
      cases McpCodec.fromStr line with
      | none => exact answerLine_crew _ hb fun _ hb => hb
      | some input => exact dispatchInput_crew input hb

omit [McpCodec] in
/-- A finished worker leaves the kept ones as it is joined. -/
theorem reapRound_crew (index : Nat) (hb : mcpCrew.Balanced h workers) :
    CrewKept (reapRound adapter workers index) h := by
  unfold reapRound
  cases hworker : workers[index]? with
  | none => exact hb
  | some worker =>
      have hperm := swapRemove_perm hworker
      refine .ask rfl hb fun finished hb => ?_
      cases finished with
      | false => exact hb
      | true =>
          refine ⟨fun _ _ hj => ?_, fun _ _ => hb.join rfl rfl hperm⟩
          cases hj
          exact ⟨_, hb.perm hperm.symm⟩

omit [McpCodec] in
theorem joinsRound_crew (hb : mcpCrew.Balanced h workers) : CrewKept (joinsRound workers) h := by
  cases workers with
  | nil => exact hb
  | cons worker workers =>
      refine ⟨fun _ _ hj => ?_, fun _ _ => hb.join rfl rfl (List.Perm.refl _)⟩
      cases hj
      exact ⟨workers, hb⟩

theorem mcpRound_crew (l : McpLoop) (h : List McpEvent) (hl : CrewLoop l h) :
    CrewKept (mcpRound l) h := by
  cases l with
  | lines adapter workers => exact linesRound_crew hl
  | reap adapter workers index => exact reapRound_crew index hl
  | joins workers => exact joinsRound_crew hl
  | read request call state => exact hl.elim

/-! ## 3. The reaping pass -/

/-- The pass between two lines. -/
def stdioReaper (adapter : Adapter) : Reaper (R := Unit) mcpRound Nat where
  head workers index := .reap adapter workers index
  after workers := .lines adapter workers
  found worker finished := ⟨.isFinished worker, finished⟩
  joined worker := ⟨.join worker, ()⟩
  behind := by
    intro workers index hindex
    show reapRound adapter workers index = _
    rw [reapRound, List.getElem?_eq_none hindex]
    rfl
  round := by
    intro workers index worker e es q hworker ht
    have hround : mcpRound (.reap adapter workers index) = .ask (.isFinished worker) fun finished =>
        if finished = true then
          .ask (.join worker) fun _ => .ret (.inl (.reap adapter (swapRemove workers index) index))
        else .ret (.inl (.reap adapter workers (index + 1))) := by
      show reapRound adapter workers index = _
      rw [reapRound, hworker]
      refine congrArg (Prog.ask _) (funext fun finished => ?_)
      cases finished <;> rfl
    rw [hround] at ht
    obtain ⟨finished, rfl, hnext⟩ := ht.ask_inv
    cases finished with
    | false => exact Or.inl ⟨rfl, hnext⟩
    | true =>
        refine Or.inr ⟨rfl, fun e' es' he => ?_⟩
        subst he
        obtain ⟨_, rfl, hjoined⟩ := Trace.ask_inv hnext
        exact ⟨rfl, hjoined⟩

/-! ## 4. What a run keeps -/

omit [McpCodec] in
/-- The workers of the account are those of the log. -/
theorem crew_spawned (h : List McpEvent) :
    mcpCrew.spawned h = (stdioLog h).spawned.map (·.1) := by
  induction h using List.reverseRecOn with
  | nil => rfl
  | append_singleton h e ih =>
      have hlog : (stdioLog (h ++ [e])).spawned.map (·.1) =
          (stdioLog h).spawned.map (·.1) ++ mcpCrew.spawned [e] := by
        rw [stdioLog_snoc]
        obtain ⟨o, a⟩ := e
        cases o with
        | spawn request call => exact List.map_append
        | readLine =>
            cases a with
            | error error => exact (List.append_nil _).symm
            | ok line =>
                unfold StdioLog.after
                dsimp only
                split <;> exact (List.append_nil _).symm
        | _ => exact (List.append_nil _).symm
      rw [hlog, ← ih]
      exact List.filterMap_append

/-- Every worker has a number of its own. -/
theorem spawned_distinct (hi : Issued StdioPlace h) : (mcpCrew.spawned h).Nodup := by
  refine issued_induction (P := fun h => (mcpCrew.spawned h).Nodup) List.nodup_nil ?_ h hi
  intro h e _ hp ih
  rw [Crew.spawned_snoc]
  cases hs : mcpCrew.spawns e with
  | none => simpa using ih
  | some call =>
      obtain ⟨o, a⟩ := e
      cases o with
      | spawn request number =>
          cases hs
          obtain ⟨_, _, _, _, hfresh⟩ := hp
          refine List.nodup_append.mpr ⟨ih, by simp, ?_⟩
          intro other hother new hnew
          rw [crew_spawned] at hother
          obtain ⟨spawned, hin, rfl⟩ := List.mem_map.mp hother
          have hlt := (hfresh spawned hin).2
          have hnumber : new = call := List.mem_singleton.mp hnew
          omega
      | _ => cases hs

variable {c : McpPool}

/-- A worker that was found finished, or joined, has ended. -/
theorem found_ended (hr : Reach mcpSystem McpPool.initial c) {t worker : Nat} {e : McpEvent}
    (hin : e ∈ c.hist t) (he : e = ⟨.isFinished worker, true⟩ ∨ e = ⟨.join worker, ()⟩) :
    c.shared.ended worker = true := by
  refine Reach.told (F := fun s : McpShared => s.ended worker = true)
    (T := fun e => e = ⟨.isFinished worker, true⟩ ∨ e = ⟨.join worker, ()⟩) ?_ ?_ ?_ ?_ hr hin he
  · intro s t e s' hs htells
    rcases htells with rfl | rfl
    · exact hs.1 rfl
    · exact hs.1
  · intro s t e s' hs hended
    rw [hs.2]
    cases e.op with
    | finish call =>
        by_cases hcall : worker = call
        · simp [McpShared.after, hcall]
        · simpa [McpShared.after, hcall] using hended
    | _ => exact hended
  · intro s t p s' hs hended
    rw [hs.1]
    exact hended
  · intro s s' hs _
    exact hs.elim

/-! ## 5. The account of a run -/

/-- The workers of the stdio loop, in any reachable pool. -/
structure StdioAccount (c : McpPool) (th : McpThreadState) : Prop where
  /-- The workers are those that the loop has spawned, each with a number of its own; -/
  spawned : c.shared.spawned.map (·.1) = mcpCrew.spawned th.hist
  distinct : (mcpCrew.spawned th.hist).Nodup
  /-- none is joined twice, and none that was not spawned; -/
  once : (mcpCrew.joined th.hist).Nodup ∧ mcpCrew.joined th.hist ⊆ mcpCrew.spawned th.hist
  /-- wherever a loop goes round, what is joined and what is kept is what was spawned; -/
  kept : ∀ l, th.rest = .ret (.inl l) → mcpCrew.Balanced th.hist l.workers
  /-- and once `run` returns, every worker that was spawned is joined, and has ended. -/
  returned : th.rest = .ret (.inr ()) →
    (mcpCrew.joined th.hist).Perm (mcpCrew.spawned th.hist) ∧
      ∀ worker ∈ mcpCrew.spawned th.hist, c.shared.ended worker = true
  /-- What happens from the head of a reaping pass on is a pass over the workers kept there; -/
  passes : ∀ adapter workers c' th', th.rest = .ret (.inl (.reap adapter workers 0)) →
    Reach mcpSystem c c' → c'.threads 0 = some th' →
    ∃ es seen kept, th'.hist = th.hist ++ es ∧ (stdioReaper adapter).Whole workers seen kept ∧
      (stdioReaper adapter).Follows seen kept es th'.rest
  /-- a worker is removed only once it has ended, and its join does not wait. -/
  ready : ∀ worker k before, th.rest = .ask (.join worker) k →
    th.hist = before ++ [⟨.isFinished worker, true⟩] →
    c.shared.ended worker = true ∧ c.shared.answers ⟨.join worker, ()⟩

theorem stdio_account (hr : Reach mcpSystem McpPool.initial c) {th : McpThreadState}
    (ht : c.threads 0 = some th) : StdioAccount c th := by
  obtain ⟨hplaces, _⟩ := stdio_places hr ht
  have hspawned := (counted hr).2.1
  have hended := @found_ended _ c hr 0
  rw [Pool.hist_of ht] at hspawned hended
  have hstart : CrewKept th.start [] := (stdio_started hr ht) ▸ Crew.balanced_nil
  have hissued := hr.issued mcpRound_crew ht hstart
  have hrest := hr.holds mcpRound_crew ht hstart
  have hdistinct := spawned_distinct hplaces
  constructor
  · rw [crew_spawned, hspawned]
  · exact hdistinct
  · exact Crew.joined_once hissued hdistinct
  · intro l hl
    rw [hl] at hrest
    cases l with
    | read request call state => exact hrest.elim
    | _ => exact hrest
  · intro hl
    rw [hl] at hrest
    have hall : (mcpCrew.joined th.hist).Perm (mcpCrew.spawned th.hist) :=
      Crew.Balanced.joined_all hrest
    refine ⟨hall, fun worker hin => ?_⟩
    exact hended (joined_mem (hall.mem_iff.mpr hin)) (Or.inr rfl)
  · intro adapter workers c' th' hl hr' ht'
    exact (stdioReaper adapter).run hr' ht hl ht'
  · intro worker k before _ hhist
    have hend := @hended worker ⟨.isFinished worker, true⟩ (by simp [hhist]) (Or.inl rfl)
    exact ⟨hend, hend⟩

end Loop

/-! ## 6. A run to the end of the input -/

/-- The handshake and two calls. -/
def joinMessages : List Value :=
  callMessages ++ [requestMessage 3 "tools/call"
    (toolParams "send" [("query", .string "Send.«Ready?»")])]

@[reducible] def joinCodec : McpCodec :=
  sampleCodec joinMessages [("Send.«Ready?»", sampleSend)]

/-- Stdin has these lines, and nobody listens on the socket of Message. -/
def deafScript (lines : List String) : McpScript :=
  { messagesScript [] [] with lines := lines, connect := ⟨.error "Connection refused", .ok ()⟩ }

def joinLines : List String := joinMessages.map (fun message => message.text ++ "\n") ++ [""]

/-- The pool with the worker of its last call started. -/
def McpPool.lastWorker [McpCodec] (c : McpPool) : McpPool :=
  match c.shared.spawned.getLast? with
  | none => c
  | some (call, request) => c.worker call request

theorem McpPool.lastWorker_reach [McpCodec] {c₀ c : McpPool} (hr : Reach mcpSystem c₀ c)
    (hc : ∀ last ∈ c.shared.spawned.getLast?, c.threads (last.1 + 1) = none) :
    Reach mcpSystem c₀ c.lastWorker := by
  unfold McpPool.lastWorker
  cases hlast : c.shared.spawned.getLast? with
  | none => exact hr
  | some last => exact McpPool.worker_reach hr (List.mem_of_getLast? hlast) (hc last hlast)

/-- The first call's worker has ended and is reaped after the second call, whose worker is awaited
    at the end of the input. -/
def reapedPool : McpPool :=
  @McpScript.turn joinCodec (deafScript joinLines) 80 0
    (@McpScript.turn joinCodec (deafScript []) 40 1
      (@McpPool.lastWorker joinCodec (stdioPool joinCodec callMessages)))

/-- It has ended as well, and the loop returns. -/
def joinedPool : McpPool :=
  @McpScript.turn joinCodec (deafScript joinLines) 40 0
    (@McpScript.turn joinCodec (deafScript []) 40 2 (@McpPool.lastWorker joinCodec reapedPool))

theorem joinedPool_reach : Reach (@mcpSystem joinCodec) McpPool.initial joinedPool := by
  have hfirst := @McpPool.lastWorker_reach joinCodec _ _ (stdioPool_reach joinCodec callMessages)
    fun last _ => stdioPool_idle joinCodec callMessages last.1
  have hended := @McpScript.turn_reach joinCodec (deafScript []) 40 1 _ _ hfirst
    (@thread_live joinCodec _ hfirst 1)
  have hreaped : Reach (@mcpSystem joinCodec) McpPool.initial reapedPool :=
    @McpScript.turn_reach joinCodec _ 80 0 _ _ hended (@thread_live joinCodec _ hended 0)
  have hidle : reapedPool.shared.spawned.getLast?.all (fun last => last.1 == 1) = true ∧
      (reapedPool.threads 2).isNone = true := by
    decide +kernel
  have hsecond := @McpPool.lastWorker_reach joinCodec _ _ hreaped fun last hlast => by
    have hthread : last.1 + 1 = 2 := by
      have hall := hidle.1
      rw [hlast] at hall
      simpa using hall
    rw [hthread]
    exact Option.isNone_iff_eq_none.mp hidle.2
  have hdone := @McpScript.turn_reach joinCodec (deafScript []) 40 2 _ _ hsecond
    (@thread_live joinCodec _ hsecond 2)
  exact @McpScript.turn_reach joinCodec _ 40 0 _ _ hdone (@thread_live joinCodec _ hdone 0)

end MessageNexus
