/-
  File:      MessageNexus/Mcp/Dispatch.lean
  Subject:   THE DISCIPLINE OF THE STDIO LOOP: a call is inserted and spawned only for a line that
             passed every check and while there is room, and flags are set only for the calls that
             a section of the active map has found.

  * `StdioLog`, `Sweep` -- what the history of the loop tells of its lines and calls, and of the
    calls that its section has still to cancel;
  * `StdioPlace` -- where each operation of the loop may stand;
  * `Tidy`, `Taken` -- what holds where the loop goes round, and where it has taken a line;
  * `linesRound_kept`, `mcpRound_stdio` -- the loop keeps its discipline, with fresh flags.
-/
import MessageNexus.Mcp.ActiveLock
import MessageNexus.Mcp.Gate

namespace MessageNexus

open Interact SignalFlow SignalMessage Json

/-! ## 1. What the history of the stdio loop tells -/

/-- The lines taken, the flags made, the entries inserted and the workers spawned; whether the
    last count of the map was below the limit and nothing was inserted since; and whether the
    connection was given up. -/
structure StdioLog where
  lines : List String
  flags : Nat
  inserted : List (String × Nat)
  spawned : List (Nat × CallRequest)
  room : Bool
  givenUp : Bool

def StdioLog.after (log : StdioLog) : McpEvent → StdioLog
  | ⟨.readLine, .ok line⟩ =>
      if line = "" ∨ maxLine < line.utf8ByteSize then log
      else { log with lines := log.lines ++ [line] }
  | ⟨.newFlag, _⟩ => { log with flags := log.flags + 1 }
  | ⟨.lenActive, length⟩ => { log with room := decide (length < maxActiveCalls) }
  | ⟨.insertActive key call, _⟩ =>
      { log with inserted := log.inserted ++ [(key, call)], room := false }
  | ⟨.spawn request call, _⟩ => { log with spawned := log.spawned ++ [(call, request)] }
  | ⟨.storeAlive, _⟩ => { log with givenUp := true }
  | _ => log

def stdioLog (h : List McpEvent) : StdioLog := h.foldl .after ⟨[], 0, [], [], false, false⟩

theorem stdioLog_snoc (h : List McpEvent) (e : McpEvent) :
    stdioLog (h ++ [e]) = (stdioLog h).after e := by
  simp [stdioLog]

/-- What a section has still to cancel: the key it was named, if any, the calls it found, and
    whether the flag of the first one is already set, so that its socket is due. -/
structure Sweep where
  key : Option String
  calls : List ActiveCall
  flagged : Bool

def Sweep.idle : Sweep := ⟨none, [], false⟩

/-- The flag of the first call is set. -/
def Sweep.stored (sweep : Sweep) : Sweep :=
  match sweep.calls with
  | [] => sweep
  | call :: rest =>
      if call.observer.isSome then { sweep with flagged := true } else ⟨sweep.key, rest, false⟩

/-- The socket of the first call is shut down. -/
def Sweep.closed (sweep : Sweep) : Sweep := ⟨sweep.key, sweep.calls.tail, false⟩

def sweepAfter (sweep : Sweep) : McpEvent → Sweep
  | ⟨.getActive key, call⟩ => ⟨some key, call.toList, false⟩
  | ⟨.activeCalls, calls⟩ => ⟨none, calls, false⟩
  | ⟨.storeCancelled _, _⟩ => sweep.stored
  | ⟨.shutdown _, _⟩ => sweep.closed
  | ⟨.lockActive, _⟩ => .idle
  | ⟨.insertActive _ _, _⟩ => .idle
  | ⟨.setObserver _ _, _⟩ => .idle
  | ⟨.removeActive _, _⟩ => .idle
  | _ => sweep

def sweepNow (h : List McpEvent) : Sweep := h.foldl sweepAfter .idle

theorem sweepNow_snoc (h : List McpEvent) (e : McpEvent) :
    sweepNow (h ++ [e]) = sweepAfter (sweepNow h) e := by
  simp [sweepNow]

/-! ## 2. The discipline -/

/-- The operations of the stdio loop. -/
def McpOp.isStdio : McpOp → Bool
  | .readLine => true
  | .newFlag => true
  | .lenActive => true
  | .insertActive _ _ => true
  | .getActive _ => true
  | .activeCalls => true
  | .spawn _ _ => true
  | .isFinished _ => true
  | .join _ => true
  | .lockActive => true
  | .unlockActive => true
  | .storeCancelled _ => true
  | .storeAlive => true
  | .shutdown _ => true
  | .writeJson _ => true
  | _ => false

/-- The entry of a spawned call. -/
def entryOf (spawned : Nat × CallRequest) : String × Nat := (spawned.2.key, spawned.1)

section Discipline

variable [McpCodec]

/-- The line is a cancellation that names this request id. -/
def CancelsRequest (line : String) (requestId : Value) : Prop :=
  ∃ input, McpCodec.fromStr line = some input ∧
    methodOf input = some "notifications/cancelled" ∧
    input.pointer ["params", "requestId"] = some requestId

/-- The last line taken is a call that the adapter accepts, after the lines before it. -/
def Admitted (log : StdioLog) (request : CallRequest) : Prop :=
  ∃ before line, log.lines = before ++ [line] ∧ AcceptsCall (adapterAfter before) line request

/-- Why the section cancels: the last line taken names the key, while every inserted call is
    spawned, or the connection is given up. -/
def SweepCause (log : StdioLog) : Option String → Prop
  | some key => log.inserted = log.spawned.map entryOf ∧
      ∃ before line requestId, log.lines = before ++ [line] ∧
        CancelsRequest line requestId ∧ key = requestId.text
  | none => log.givenUp = true

/-- The spawned calls have other keys and earlier numbers. -/
def FreshCall (log : StdioLog) (key : String) (call : Nat) : Prop :=
  ∀ spawned ∈ log.spawned, spawned.2.key ≠ key ∧ spawned.1 < call

/-- Where an operation of the stdio loop may stand. -/
def StdioPlace (h : List McpEvent) (o : McpOp) : Prop :=
  activeMutex.Place h o ∧ o.isStdio = true ∧
    match o with
    | .readLine => (stdioLog h).givenUp = false
    | .getActive _ => (sweepNow h).calls = []
    | .activeCalls => (sweepNow h).calls = []
    | .insertActive key call =>
        (sweepNow h).calls = [] ∧ (stdioLog h).room = true ∧ (stdioLog h).inserted = (stdioLog h).spawned.map entryOf ∧
          FreshCall (stdioLog h) key call
    | .spawn request call =>
        Admitted (stdioLog h) request ∧
          (stdioLog h).inserted = (stdioLog h).spawned.map entryOf ++ [(request.key, call)] ∧
          FreshCall (stdioLog h) request.key call
    | .storeCancelled n =>
        activeMutex.held h = true ∧ SweepCause (stdioLog h) (sweepNow h).key ∧
          (sweepNow h).flagged = false ∧
          ∃ call rest, (sweepNow h).calls = call :: rest ∧ call.cancelled = n
    | .shutdown n =>
        activeMutex.held h = true ∧ SweepCause (stdioLog h) (sweepNow h).key ∧
          (sweepNow h).flagged = true ∧
          ∃ call rest, (sweepNow h).calls = call :: rest ∧ call.observer = some n
    | .unlockActive => (sweepNow h).calls = []
    | _ => True

/-- A new flag gets the next number. -/
def flagAnswers (h : List McpEvent) : McpEvent → Prop
  | ⟨.newFlag, call⟩ => call = (stdioLog h).flags
  | _ => True

/-- What holds where the loop goes round: its adapter is the one after the lines taken, every
    inserted call is spawned, and the keys of the spawned calls are seen. -/
structure Tidy (adapter : Adapter) (h : List McpEvent) : Prop where
  unlocked : Unlocked h
  going : (stdioLog h).givenUp = false
  current : adapter = adapterAfter (stdioLog h).lines
  paired : (stdioLog h).inserted = (stdioLog h).spawned.map entryOf
  known : ∀ spawned ∈ (stdioLog h).spawned,
    spawned.2.key ∈ adapter.seenIds ∧ spawned.1 < (stdioLog h).flags

/-- What holds where the loop has taken a line, with the adapter before it. -/
structure Taken (adapter : Adapter) (line : String) (h : List McpEvent) : Prop where
  unlocked : Unlocked h
  going : (stdioLog h).givenUp = false
  lines : ∃ before, (stdioLog h).lines = before ++ [line] ∧ adapter = adapterAfter before
  paired : (stdioLog h).inserted = (stdioLog h).spawned.map entryOf
  known : ∀ spawned ∈ (stdioLog h).spawned,
    spawned.2.key ∈ adapter.seenIds ∧ spawned.1 < (stdioLog h).flags

/-- Where the stdio loop goes round. -/
def StdioLoop : McpLoop → List McpEvent → Prop
  | .lines adapter _, h => Tidy adapter h
  | .reap adapter _ _, h => Tidy adapter h
  | .joins _, h => Unlocked h
  | .read _ _ _, _ => False

/-- From `h` on, the program keeps the discipline of the stdio loop. -/
abbrev StdioKept (p : McpThread) (h : List McpEvent) : Prop :=
  Holds flagAnswers StdioPlace (Sum.elim StdioLoop fun _ h => Unlocked h) p h

/-! ## 3. Operations that move nothing -/

/-- The operations that neither use the map nor belong to the log or to a sweep. -/
def McpOp.quiet : McpOp → Bool
  | .writeJson _ => true
  | .isFinished _ => true
  | .join _ => true
  | _ => false

variable {adapter : Adapter} {h : List McpEvent}

theorem place_quiet {o : McpOp} (ho : o.quiet = true) : StdioPlace h o := by
  cases o with
  | writeJson value => exact ⟨mutexPlace_off rfl, rfl, trivial⟩
  | isFinished call => exact ⟨mutexPlace_off rfl, rfl, trivial⟩
  | join call => exact ⟨mutexPlace_off rfl, rfl, trivial⟩
  | _ => cases ho

theorem quiet_snoc (e : McpEvent) (ho : e.op.quiet = true) :
    stdioLog (h ++ [e]) = stdioLog h ∧ activeMutex.held (h ++ [e]) = activeMutex.held h := by
  rw [stdioLog_snoc]
  obtain ⟨o, a⟩ := e
  cases o with
  | writeJson value => exact ⟨rfl, held_offActive h _ rfl⟩
  | isFinished call => exact ⟨rfl, held_offActive h _ rfl⟩
  | join call => exact ⟨rfl, held_offActive h _ rfl⟩
  | _ => cases ho

/-- Outside a section, only the log counts. -/
theorem Tidy.of_log (ht : Tidy adapter h) {h' : List McpEvent} (hh : Unlocked h')
    (hlog : stdioLog h' = stdioLog h) : Tidy adapter h' := by
  refine ⟨hh, ?_, ?_, ?_, ?_⟩
  · rw [hlog]
    exact ht.going
  · rw [hlog]
    exact ht.current
  · rw [hlog]
    exact ht.paired
  · rw [hlog]
    exact ht.known

theorem Tidy.quiet (ht : Tidy adapter h) (e : McpEvent) (ho : e.op.quiet = true) :
    Tidy adapter (h ++ [e]) := by
  obtain ⟨hlog, hheld⟩ := quiet_snoc (h := h) e ho
  exact ht.of_log (hheld.trans ht.unlocked) hlog

/-- After its effect on the adapter, a taken line leaves the loop tidy. -/
theorem Taken.tidy {line : String} (ht : Taken adapter line h) :
    Tidy (adapter.after line) h := by
  obtain ⟨before, hlines, rfl⟩ := ht.lines
  have hafter : adapterAfter (stdioLog h).lines = (adapterAfter before).after line := by
    rw [hlines, adapterAfter_snoc]
  refine ⟨ht.unlocked, ht.going, hafter.symm, ht.paired, fun spawned hin => ?_⟩
  obtain ⟨hkey, hnumber⟩ := ht.known spawned hin
  have hseen := seen_snoc line hkey
  rw [adapterAfter_snoc] at hseen
  exact ⟨hseen, hnumber⟩

/-! ## 4. The loop keeps its discipline -/

theorem joinsRound_kept (workers : List Nat) (hh : Unlocked h) :
    StdioKept (joinsRound workers) h := by
  cases workers with
  | nil => exact hh
  | cons worker workers => exact ⟨place_quiet rfl, fun _ _ => unlocked_off hh _ rfl⟩

theorem reapRound_kept (workers : List Nat) (index : Nat) (ht : Tidy adapter h) :
    StdioKept (reapRound adapter workers index) h := by
  unfold reapRound
  cases workers[index]? with
  | none => exact ht
  | some worker =>
      refine ⟨place_quiet rfl, fun finished _ => ?_⟩
      have ht := ht.quiet ⟨.isFinished worker, finished⟩ rfl
      cases finished with
      | false => exact ht
      | true => exact ⟨place_quiet rfl, fun _ _ => ht.quiet _ rfl⟩

/-- The calls of a section are cancelled one by one, and nothing of the log moves. -/
theorem cancelCalls_kept (log : StdioLog) (key : Option String) (hcause : SweepCause log key)
    (calls : List ActiveCall) (h : List McpEvent) (hheld : activeMutex.held h = true)
    (hlog : stdioLog h = log) (hsweep : sweepNow h = ⟨key, calls, false⟩) :
    Holds flagAnswers StdioPlace
      (fun _ h' => activeMutex.held h' = true ∧ stdioLog h' = log ∧ (sweepNow h').calls = [])
      (cancelCalls calls) h := by
  induction calls generalizing h with
  | nil => exact ⟨hheld, hlog, by rw [hsweep]⟩
  | cons call rest ih =>
      refine ⟨⟨mutexPlace_off rfl, rfl, hheld, ?_, ?_, call, rest, ?_, rfl⟩, fun _ _ => ?_⟩
      · rw [hsweep, hlog]
        exact hcause
      · rw [hsweep]
      · rw [hsweep]
      have hheld' := (held_offActive h ⟨.storeCancelled call.cancelled, ()⟩ rfl).trans hheld
      have hlog' : stdioLog (h ++ [⟨.storeCancelled call.cancelled, ()⟩]) = log := by
        rw [stdioLog_snoc]
        exact hlog
      have hsweep' := sweepNow_snoc h ⟨.storeCancelled call.cancelled, ()⟩
      rw [hsweep] at hsweep'
      cases hobserver : call.observer with
      | none =>
          refine ih _ hheld' hlog' (hsweep'.trans ?_)
          simp [sweepAfter, Sweep.stored, hobserver]
      | some observer =>
          have hdue : sweepNow (h ++ [⟨.storeCancelled call.cancelled, ()⟩]) =
              ⟨key, call :: rest, true⟩ := by
            rw [hsweep']
            simp [sweepAfter, Sweep.stored, hobserver]
          refine ⟨⟨mutexPlace_off rfl, rfl, hheld', ?_, ?_, call, rest, ?_, hobserver⟩,
            fun _ _ => ?_⟩
          · rw [hdue, hlog']
            exact hcause
          · rw [hdue]
          · rw [hdue]
          refine ih _ ?_ ?_ ?_
          · exact (held_offActive _ ⟨.shutdown observer, ()⟩ rfl).trans hheld'
          · rw [stdioLog_snoc]
            exact hlog'
          · rw [sweepNow_snoc, hdue]
            rfl

/-- A section that cancels calls: it is taken, the calls are found, cancelled, and it ends. -/
theorem section_kept {h : List McpEvent} (hheld : activeMutex.held h = true)
    (key : Option String) (calls : List ActiveCall) (hcause : SweepCause (stdioLog h) key)
    (hsweep : sweepNow h = ⟨key, calls, false⟩) {α : Type} {Q : α → List McpEvent → Prop}
    {f : Unit → McpProg α} (hf : ∀ h', Unlocked h' → stdioLog h' = stdioLog h →
      Holds flagAnswers StdioPlace Q (f ()) h') :
    Holds flagAnswers StdioPlace Q (cancelCalls calls >>= fun _ => act .unlockActive >>= f) h := by
  rw [holds_bind]
  refine (cancelCalls_kept _ key hcause calls h hheld rfl hsweep).mono (fun _ _ hG => hG) ?_
  intro _ h' ⟨hheld', hlog', hdone⟩
  refine ⟨⟨place_unlock hheld', rfl, hdone⟩, fun _ _ => ?_⟩
  refine hf _ (unlocked_unlock h') ?_
  rw [stdioLog_snoc]
  exact hlog'

/-- The final sweep. -/
theorem endLines_kept (workers : List Nat) (hh : Unlocked h) :
    StdioKept (endLines workers) h := by
  refine ⟨⟨mutexPlace_off rfl, rfl, trivial⟩, fun _ _ => ?_⟩
  have hh := unlocked_off hh ⟨.storeAlive, ()⟩ rfl
  refine ⟨⟨place_lock hh, rfl, trivial⟩, fun _ _ => ?_⟩
  have hin := held_lock (h ++ [⟨.storeAlive, ()⟩])
  have hidle : (sweepNow (h ++ [⟨.storeAlive, ()⟩] ++ [⟨.lockActive, ()⟩])).calls = [] := by
    rw [sweepNow_snoc]
    rfl
  refine ⟨⟨place_within hin rfl rfl, rfl, hidle⟩, fun calls _ => ?_⟩
  refine section_kept (held_within hin ⟨.activeCalls, calls⟩ rfl rfl) none calls ?_ ?_ ?_
  · rw [stdioLog_snoc, stdioLog_snoc, stdioLog_snoc]
    rfl
  · rw [sweepNow_snoc]
    rfl
  · exact fun h' hh' _ => hh'

theorem loseConnection_kept (workers : List Nat) (hh : Unlocked h) :
    StdioKept (loseConnection workers) h :=
  ⟨⟨mutexPlace_off rfl, rfl, trivial⟩, fun _ _ => endLines_kept workers (unlocked_off hh _ rfl)⟩

theorem answerLine_kept (workers : List Nat) (response : Value) {next : McpLoop}
    (ht : Tidy adapter h) (hnext : ∀ h', Tidy adapter h' → StdioLoop next h') :
    StdioKept (answerLine workers response next) h := by
  refine ⟨place_quiet rfl, fun written _ => ?_⟩
  have ht := ht.quiet ⟨.writeJson response, written⟩ rfl
  cases written with
  | error error => exact loseConnection_kept workers ht.unlocked
  | ok _ => exact hnext _ ht

theorem cancelNamed_kept {line : String} {input : Value}
    (ht : Taken adapter line h) (hparse : McpCodec.fromStr line = some input)
    (hmethod : methodOf input = some "notifications/cancelled") :
    Holds flagAnswers StdioPlace (fun _ h' => Tidy (adapter.after line) h') (cancelNamed input) h := by
  have htidy := ht.tidy
  unfold cancelNamed
  cases hid : input.pointer ["params", "requestId"] with
  | none => exact htidy
  | some requestId =>
      refine ⟨⟨place_lock ht.unlocked, rfl, trivial⟩, fun _ _ => ?_⟩
      have hin := held_lock h
      have hidle : (sweepNow (h ++ [⟨.lockActive, ()⟩])).calls = [] := by
        rw [sweepNow_snoc]
        rfl
      refine ⟨⟨place_within hin rfl rfl, rfl, hidle⟩, fun call _ => ?_⟩
      have hlog : stdioLog (h ++ [⟨.lockActive, ()⟩] ++ [⟨.getActive requestId.text, call⟩]) =
          stdioLog h := by
        rw [stdioLog_snoc, stdioLog_snoc]
        rfl
      refine section_kept (held_within hin ⟨.getActive requestId.text, call⟩ rfl rfl)
        (some requestId.text) call.toList ?_ ?_ (f := fun _ => pure ()) ?_
      · obtain ⟨before, hlines, _⟩ := ht.lines
        rw [hlog]
        exact ⟨ht.paired, before, line, requestId, hlines, ⟨input, hparse, hmethod, hid⟩, rfl⟩
      · rw [sweepNow_snoc]
        rfl
      · intro h' hh' hlog'
        exact htidy.of_log hh' (hlog'.trans hlog)

/-- A count of the map leaves all but the room. -/
theorem Tidy.counted {h' : List McpEvent} {room : Bool} (ht : Tidy adapter h) (hh : Unlocked h')
    (hlog : stdioLog h' = { stdioLog h with room := room }) : Tidy adapter h' := by
  refine ⟨hh, ?_, ?_, ?_, ?_⟩
  · rw [hlog]
    exact ht.going
  · rw [hlog]
    exact ht.current
  · rw [hlog]
    exact ht.paired
  · rw [hlog]
    exact ht.known

/-- The flag, the entry and the worker of a call for which there is room. -/
theorem spawnCall_kept {request : CallRequest} (workers : List Nat) (ht : Tidy adapter h)
    (hroom : (stdioLog h).room = true) (hadmitted : Admitted (stdioLog h) request)
    (hfresh : FreshCall (stdioLog h) request.key (stdioLog h).flags)
    (hseen : request.key ∈ adapter.seenIds) :
    StdioKept (do
      let call ← act .newFlag
      let _ ← act .lockActive
      let _ ← act (.insertActive request.key call)
      let _ ← act .unlockActive
      let _ ← act (.spawn request call)
      return .inl (.reap adapter (workers ++ [call]) 0)) h := by
  refine ⟨⟨mutexPlace_off rfl, rfl, trivial⟩, fun call hcall => ?_⟩
  have hnumber : call = (stdioLog h).flags := hcall
  subst hnumber
  have hh := unlocked_off ht.unlocked ⟨.newFlag, (stdioLog h).flags⟩ rfl
  refine ⟨⟨place_lock hh, rfl, trivial⟩, fun _ _ => ?_⟩
  -- the entry
  have hin := held_lock (h ++ [⟨.newFlag, (stdioLog h).flags⟩])
  have hlog₁ : stdioLog (h ++ [⟨.newFlag, (stdioLog h).flags⟩] ++ [⟨.lockActive, ()⟩]) =
      { stdioLog h with flags := (stdioLog h).flags + 1 } := by
    rw [stdioLog_snoc, stdioLog_snoc]
    rfl
  have hidle : (sweepNow (h ++ [⟨.newFlag, (stdioLog h).flags⟩] ++
      [⟨.lockActive, ()⟩])).calls = [] := by
    rw [sweepNow_snoc]
    rfl
  generalize h ++ [⟨.newFlag, (stdioLog h).flags⟩] ++ [⟨.lockActive, ()⟩] = h₁
    at hin hlog₁ hidle ⊢
  refine ⟨⟨place_within hin rfl rfl, rfl, hidle, ?_, ?_, ?_⟩, fun _ _ => ?_⟩
  · rw [hlog₁]
    exact hroom
  · rw [hlog₁]
    exact ht.paired
  · rw [hlog₁]
    exact hfresh
  have hin := held_within hin ⟨.insertActive request.key (stdioLog h).flags, ()⟩ rfl rfl
  have hsweep : (sweepNow (h₁ ++
      [⟨.insertActive request.key (stdioLog h).flags, ()⟩])).calls = [] := by
    rw [sweepNow_snoc]
    rfl
  refine ⟨⟨place_unlock hin, rfl, hsweep⟩, fun _ _ => ?_⟩
  -- the worker
  have hlog₂ : stdioLog (h₁ ++ [⟨.insertActive request.key (stdioLog h).flags, ()⟩] ++
      [⟨.unlockActive, ()⟩]) =
      { stdioLog h with
        flags := (stdioLog h).flags + 1
        inserted := (stdioLog h).inserted ++ [(request.key, (stdioLog h).flags)]
        room := false } := by
    rw [stdioLog_snoc, stdioLog_snoc, hlog₁]
    rfl
  have hh := unlocked_unlock (h₁ ++ [⟨.insertActive request.key (stdioLog h).flags, ()⟩])
  generalize h₁ ++ [⟨.insertActive request.key (stdioLog h).flags, ()⟩] ++
    [⟨.unlockActive, ()⟩] = h₂ at hlog₂ hh ⊢
  refine ⟨⟨mutexPlace_off rfl, rfl, ?_, ?_, ?_⟩, fun _ _ => ?_⟩
  · rw [hlog₂]
    exact hadmitted
  · rw [hlog₂, ← ht.paired]
  · rw [hlog₂]
    exact hfresh
  have hlog₃ : stdioLog (h₂ ++ [⟨.spawn request (stdioLog h).flags, ()⟩]) =
      { stdioLog h with
        flags := (stdioLog h).flags + 1
        inserted := (stdioLog h).inserted ++ [(request.key, (stdioLog h).flags)]
        spawned := (stdioLog h).spawned ++ [((stdioLog h).flags, request)]
        room := false } := by
    rw [stdioLog_snoc, hlog₂]
    rfl
  refine ⟨unlocked_off hh _ rfl, ?_, ?_, ?_, ?_⟩
  · rw [hlog₃]
    exact ht.going
  · rw [hlog₃]
    exact ht.current
  · rw [hlog₃, List.map_append, ← ht.paired]
    rfl
  · rw [hlog₃]
    intro spawned hspawned
    rcases List.mem_append.mp hspawned with hold | hnew
    · obtain ⟨hkey, hnumber⟩ := ht.known spawned hold
      exact ⟨hkey, Nat.lt_succ_of_lt hnumber⟩
    · cases List.mem_singleton.mp hnew
      exact ⟨hseen, Nat.lt_succ_self _⟩

/-- A call that passed the checks: its key is new, and it is spawned for the line just taken. -/
theorem dispatchCall_kept {line : String} {input : Value} {request : CallRequest} (workers : List Nat)
    (ht : Taken adapter line h) (hparse : McpCodec.fromStr line = some input)
    (hmethod : methodOf input = some "tools/call") (haccepts : Accepts adapter input request)
    (hafter : adapter.after line = { adapter with seenIds := request.key :: adapter.seenIds }) :
    StdioKept (dispatchCall (adapter.after line) workers request) h := by
  have hadmitted : Admitted (stdioLog h) request := by
    obtain ⟨before, hlines, rfl⟩ := ht.lines
    exact ⟨before, line, hlines, input, hparse, hmethod, haccepts⟩
  have hfresh : FreshCall (stdioLog h) request.key (stdioLog h).flags := by
    intro spawned hin
    obtain ⟨hkey, hnumber⟩ := ht.known spawned hin
    exact ⟨fun he => haccepts.fresh (he ▸ hkey), hnumber⟩
  have hseen : request.key ∈ (adapter.after line).seenIds := by
    rw [hafter]
    exact List.mem_cons_self
  -- the count of the map
  refine ⟨⟨place_lock ht.unlocked, rfl, trivial⟩, fun _ _ => ?_⟩
  have hin := held_lock h
  refine ⟨⟨place_within hin rfl rfl, rfl, trivial⟩, fun length _ => ?_⟩
  have hin := held_within hin ⟨.lenActive, length⟩ rfl rfl
  have hsweep : (sweepNow (h ++ [⟨.lockActive, ()⟩] ++ [⟨.lenActive, length⟩])).calls = [] := by
    rw [sweepNow_snoc, sweepNow_snoc]
    rfl
  refine ⟨⟨place_unlock hin, rfl, hsweep⟩, fun _ _ => ?_⟩
  have hlog : stdioLog (h ++ [⟨.lockActive, ()⟩] ++ [⟨.lenActive, length⟩] ++
      [⟨.unlockActive, ()⟩]) =
      { stdioLog h with room := decide (length < maxActiveCalls) } := by
    rw [stdioLog_snoc, stdioLog_snoc, stdioLog_snoc]
    rfl
  have hh := unlocked_unlock (h ++ [⟨.lockActive, ()⟩] ++ [⟨.lenActive, length⟩])
  generalize h ++ [⟨.lockActive, ()⟩] ++ [⟨.lenActive, length⟩] ++ [⟨.unlockActive, ()⟩] = h₁
    at hlog hh ⊢
  have htidy := ht.tidy.counted hh hlog
  change StdioKept (if length ≥ maxActiveCalls then _ else _) h₁
  by_cases hfull : length ≥ maxActiveCalls
  · rw [if_pos hfull]
    exact answerLine_kept workers _ htidy fun h' ht => ht
  · rw [if_neg hfull]
    refine spawnCall_kept workers htidy ?_ ?_ ?_ hseen
    · rw [hlog]
      exact decide_eq_true (Nat.lt_of_not_le hfull)
    · rw [hlog]
      exact hadmitted
    · rw [hlog]
      exact hfresh

theorem dispatchInput_kept {line : String} {input : Value} (workers : List Nat)
    (ht : Taken adapter line h) (hparse : McpCodec.fromStr line = some input) :
    StdioKept (dispatchInput adapter workers input) h := by
  have htidy := ht.tidy
  unfold dispatchInput
  by_cases hcancel : methodOf input = some "notifications/cancelled"
  · rw [if_pos hcancel]
    have hkept := cancelNamed_kept ht hparse hcancel
    rw [after_cancelled hparse hcancel] at hkept
    rw [StdioKept, holds_bind]
    exact hkept.mono (fun _ _ hG => hG) fun _ _ ht => ht
  rw [if_neg hcancel]
  by_cases hcall : methodOf input = some "tools/call"
  · rw [if_pos hcall]
    cases hrequest : adapter.callRequest input with
    | error response =>
        rw [after_refused hparse hcall hrequest] at htidy
        exact answerLine_kept workers response htidy fun h' ht => ht
    | ok accepted =>
        obtain ⟨request, adapter'⟩ := accepted
        obtain ⟨haccepts, hadapter⟩ := callRequest_ok hrequest
        have hafter := after_accepted hparse hcall hrequest
        have hkept := dispatchCall_kept workers ht hparse hcall haccepts (hafter.trans hadapter)
        rw [hafter] at hkept
        exact hkept
  · rw [if_neg hcall]
    rw [after_synchronous hparse hcancel hcall] at htidy
    cases hanswer : adapter.synchronous input with
    | mk answer adapter' =>
        rw [hanswer] at htidy
        cases answer with
        | none => exact htidy
        | some response => exact answerLine_kept workers response htidy fun h' ht => ht

theorem dispatchLine_kept {line : String} (workers : List Nat) (ht : Taken adapter line h) :
    StdioKept (dispatchLine adapter workers line) h := by
  unfold dispatchLine
  cases hparse : McpCodec.fromStr line with
  | none =>
      have htidy := ht.tidy
      rw [after_unparsed hparse] at htidy
      exact answerLine_kept workers _ htidy fun h' ht => ht
  | some input => exact dispatchInput_kept workers ht hparse

theorem linesRound_kept (workers : List Nat) (ht : Tidy adapter h) :
    StdioKept (linesRound adapter workers) h := by
  refine ⟨⟨mutexPlace_off rfl, rfl, ht.going⟩, fun read _ => ?_⟩
  have hh := unlocked_off ht.unlocked ⟨.readLine, read⟩ rfl
  cases read with
  | error error => exact loseConnection_kept workers hh
  | ok line =>
      have hlog := stdioLog_snoc h ⟨.readLine, .ok line⟩
      change StdioKept (if line = "" then loseConnection workers
        else if maxLine < line.utf8ByteSize then endLines workers
        else dispatchLine adapter workers line) _
      by_cases hempty : line = ""
      · rw [if_pos hempty]
        exact loseConnection_kept workers hh
      rw [if_neg hempty]
      by_cases hlong : maxLine < line.utf8ByteSize
      · rw [if_pos hlong]
        exact endLines_kept workers hh
      rw [if_neg hlong]
      have hnew : stdioLog (h ++ [⟨.readLine, .ok line⟩]) =
          { stdioLog h with lines := (stdioLog h).lines ++ [line] } := by
        rw [hlog, StdioLog.after, if_neg (not_or.mpr ⟨hempty, hlong⟩)]
      refine dispatchLine_kept workers ⟨hh, ?_, ⟨(stdioLog h).lines, ?_, ht.current⟩, ?_, ?_⟩
      · rw [hnew]
        exact ht.going
      · rw [hnew]
      · rw [hnew]
        exact ht.paired
      · rw [hnew]
        exact ht.known

/-- Every round of the stdio loop keeps the discipline. -/
theorem mcpRound_stdio (l : McpLoop) (h : List McpEvent) (hl : StdioLoop l h) :
    StdioKept (mcpRound l) h := by
  cases l with
  | lines adapter workers => exact linesRound_kept workers hl
  | reap adapter workers index => exact reapRound_kept workers index hl
  | joins workers => exact joinsRound_kept workers hl
  | read request call state => exact hl.elim

theorem runStdio_kept : StdioKept runStdio [] := by
  refine ⟨rfl, rfl, rfl, rfl, fun spawned hin => ?_⟩
  cases hin

end Discipline

end MessageNexus
