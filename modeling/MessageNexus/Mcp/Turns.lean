/-
  File:      MessageNexus/Mcp/Turns.lean
  Subject:   THE TURNS OF THE STDIO LOOP: in a section of the active map it waits for nothing; once
             it has a cause to end it neither reads nor writes nor spawns, and joins only after its
             final sweep; before that it joins what it has found finished; and it takes the mutex
             twice for a line at most.

  * `TurnPlace`, `Paced` -- the discipline, and the counts;
  * `Going`, `GoingInside` -- what holds outside and inside a section while there is no cause to end;
  * `mcpRound_turns`, `stdio_turns` -- every round keeps it, and so does every reachable pool.
-/
import MessageNexus.Mcp.Stages
import MessageNexus.Mcp.Joined
import MessageNexus.Mcp.Input

namespace MessageNexus

open Interact SignalFlow SignalMessage Json

/-! ## 1. The discipline -/

/-- The operations of the loop within its sections. -/
def McpOp.within : McpOp → Bool
  | .lenActive => true
  | .insertActive _ _ => true
  | .getActive _ => true
  | .activeCalls => true
  | .storeCancelled _ => true
  | .shutdown _ => true
  | .unlockActive => true
  | _ => false

/-- The operations of a loop that goes on. -/
def McpOp.goesOn : McpOp → Bool
  | .readLine => true
  | .writeJson _ => true
  | .spawn _ _ => true
  | _ => false

section Turns

variable [McpCodec]

/-- The loop has taken the mutex at most twice and spawned at most once for each line, and may
    still take it so often and spawn so much for the last one. -/
def Paced (takings spawns : Nat) (h : List McpEvent) : Prop :=
  h.countP takesActive + takings ≤ 2 * (reads h).length ∧
    (mcpCrew.spawned h).length + spawns ≤ (reads h).length

/-- Where an operation of the loop may stand. -/
structure TurnPlace (h : List McpEvent) (o : McpOp) : Prop where
  own : o.isStdio = true
  inside : activeMutex.held h = true → o.within = true
  going : o.goesOn = true → ¬ EndCause h
  joins : ∀ worker, o = .join worker →
    ((⟨.isFinished worker, true⟩ : McpEvent) ∈ h ∧ ¬ EndCause h) ∨ SweepOver h
  paced : Paced 0 0 h

/-- Where the loop goes round. -/
def TurnLoop : McpLoop → List McpEvent → Prop
  | .lines _ _, h => Unlocked h ∧ ¬ EndCause h ∧ Paced 0 0 h
  | .reap _ _ _, h => Unlocked h ∧ ¬ EndCause h ∧ Paced 0 0 h
  | .joins _, h => SweepOver h ∧ Paced 0 0 h
  | .read _ _ _, _ => False

abbrev TurnKept (p : McpThread) (h : List McpEvent) : Prop :=
  Holds anyAnswer TurnPlace (Sum.elim TurnLoop fun _ h => SweepOver h ∧ Paced 0 0 h) p h

/-- The operations that change nothing of this. -/
def McpOp.plain : McpOp → Bool
  | .readLine => false
  | .lockActive => false
  | .unlockActive => false
  | .writeJson _ => false
  | .spawn _ _ => false
  | .join _ => false
  | _ => true

variable {h : List McpEvent} {takings spawns : Nat}

omit [McpCodec] in
theorem Paced.less (hp : Paced takings spawns h) {takings' spawns' : Nat} (ht : takings' ≤ takings)
    (hs : spawns' ≤ spawns) : Paced takings' spawns' h :=
  ⟨(Nat.add_le_add_left ht _).trans hp.1, (Nat.add_le_add_left hs _).trans hp.2⟩

omit [McpCodec] in
/-- What an event adds to the counts. -/
theorem Paced.snoc (hp : Paced takings spawns h) (e : McpEvent) {takings' spawns' : Nat}
    (ht : takings' + (if takesActive e then 1 else 0) ≤ takings + 2 * (reads [e]).length)
    (hs : spawns' + (mcpCrew.spawned [e]).length ≤ spawns + (reads [e]).length) :
    Paced takings' spawns' (h ++ [e]) := by
  obtain ⟨hlocks, hspawned⟩ := hp
  have hcount : mcpCrew.spawned (h ++ [e]) = mcpCrew.spawned h ++ mcpCrew.spawned [e] :=
    List.filterMap_append
  unfold Paced
  rw [List.countP_append, List.countP_singleton, reads_snoc, hcount]
  simp only [List.length_append]
  omega

omit [McpCodec] in
/-- Only a read that is not parsed and a failed write bring a cause to end. -/
theorem EndCause.of_snoc {e : McpEvent} (hc : EndCause (h ++ [e]))
    (hread : ∀ read, e = ⟨.readLine, read⟩ → taken read ≠ none)
    (hwrite : ∀ value error, e ≠ ⟨.writeJson value, .error error⟩) : EndCause h := by
  rcases hc with ⟨read, hin, hnone⟩ | ⟨value, error, hin⟩
  · rw [reads_snoc] at hin
    rcases List.mem_append.mp hin with hold | hnew
    · exact Or.inl ⟨read, hold, hnone⟩
    · obtain ⟨o, a⟩ := e
      cases o with
      | readLine => exact absurd hnone (hread read (by rw [List.mem_singleton.mp hnew]))
      | _ => cases hnew
  · rcases List.mem_append.mp hin with hold | hnew
    · exact Or.inr ⟨value, error, hold⟩
    · exact absurd (List.mem_singleton.mp hnew).symm (hwrite value error)

omit [McpCodec] in
theorem EndCause.of_plain {e : McpEvent} (ho : e.op.goesOn = false) (hc : EndCause (h ++ [e])) :
    EndCause h := by
  refine hc.of_snoc (fun read he => ?_) fun value error he => ?_
  · rw [he] at ho
    cases ho
  · rw [he] at ho
    cases ho

omit [McpCodec] in
theorem McpOp.plain_goes {o : McpOp} (ho : o.plain = true) : o.goesOn = false := by
  cases o with
  | readLine => cases ho
  | writeJson value => cases ho
  | spawn request call => cases ho
  | _ => rfl

omit [McpCodec] in
theorem Paced.plain (hp : Paced takings spawns h) (e : McpEvent) (ho : e.op.plain = true) :
    Paced takings spawns (h ++ [e]) := by
  obtain ⟨o, a⟩ := e
  cases o with
  | readLine => cases ho
  | lockActive => cases ho
  | unlockActive => cases ho
  | writeJson value => cases ho
  | spawn request call => cases ho
  | join worker => cases ho
  | _ => exact hp.snoc _ (Nat.le_refl _) (Nat.le_refl _)

theorem turnPlace_free {o : McpOp} (hh : Unlocked h) (hp : Paced takings spawns h)
    (hs : o.isStdio = true) (hw : o.goesOn = false) (hj : ∀ worker, o ≠ .join worker) :
    TurnPlace h o where
  own := hs
  inside hin := absurd (hh.symm.trans hin) Bool.false_ne_true
  going hgoes := absurd (hw.symm.trans hgoes) Bool.false_ne_true
  joins worker he := absurd he (hj worker)
  paced := hp.less (Nat.zero_le _) (Nat.zero_le _)

theorem turnPlace_going {o : McpOp} (hh : Unlocked h) (hg : ¬ EndCause h)
    (hp : Paced takings spawns h) (hs : o.isStdio = true) (hj : ∀ worker, o ≠ .join worker) :
    TurnPlace h o where
  own := hs
  inside hin := absurd (hh.symm.trans hin) Bool.false_ne_true
  going _ := hg
  joins worker he := absurd he (hj worker)
  paced := hp.less (Nat.zero_le _) (Nat.zero_le _)

theorem turnPlace_within {o : McpOp} (ho : o.within = true) (hp : Paced takings spawns h) :
    TurnPlace h o where
  own := by
    cases o with
    | lenActive => rfl
    | insertActive key call => rfl
    | getActive key => rfl
    | activeCalls => rfl
    | storeCancelled call => rfl
    | shutdown call => rfl
    | unlockActive => rfl
    | _ => cases ho
  inside _ := ho
  going hgoes := by
    cases o with
    | readLine => cases ho
    | writeJson value => cases ho
    | spawn request call => cases ho
    | _ => cases hgoes
  joins worker he := by
    rw [he] at ho
    cases ho
  paced := hp.less (Nat.zero_le _) (Nat.zero_le _)

/-- Outside its sections, with no cause to end. -/
def Going (takings spawns : Nat) (h : List McpEvent) : Prop :=
  Unlocked h ∧ ¬ EndCause h ∧ Paced takings spawns h

/-- In a section, with no cause to end. -/
def GoingInside (takings spawns : Nat) (h : List McpEvent) : Prop :=
  activeMutex.held h = true ∧ ¬ EndCause h ∧ Paced takings spawns h

/-- The loop takes the mutex, -/
theorem Going.lock (hg : Going (takings + 1) spawns h) :
    GoingInside takings spawns (h ++ [⟨.lockActive, ()⟩]) :=
  ⟨held_lock h, fun hc => hg.2.1 (hc.of_plain rfl),
    hg.2.2.snoc _ (Nat.le_refl _) (Nat.le_refl _)⟩

/-- uses the map, -/
theorem GoingInside.step (hg : GoingInside takings spawns h) (e : McpEvent)
    (ho : e.op.plain = true) : GoingInside takings spawns (h ++ [e]) := by
  refine ⟨?_, fun hc => hg.2.1 (hc.of_plain (McpOp.plain_goes ho)), hg.2.2.plain e ho⟩
  refine held_within hg.1 e ?_ ?_
  · cases he : e.op with
    | lockActive => rw [he] at ho; cases ho
    | _ => rfl
  · cases he : e.op with
    | unlockActive => rw [he] at ho; cases ho
    | _ => rfl

/-- and gives it back. -/
theorem GoingInside.unlock (hg : GoingInside takings spawns h) :
    Going takings spawns (h ++ [⟨.unlockActive, ()⟩]) :=
  ⟨unlocked_unlock h, fun hc => hg.2.1 (hc.of_plain rfl),
    hg.2.2.snoc _ (Nat.le_refl _) (Nat.le_refl _)⟩

theorem Going.step (hg : Going takings spawns h) (e : McpEvent) (ho : e.op.plain = true)
    (hoff : e.op.offActive = true) : Going takings spawns (h ++ [e]) :=
  ⟨unlocked_off hg.1 e hoff, fun hc => hg.2.1 (hc.of_plain (McpOp.plain_goes ho)),
    hg.2.2.plain e ho⟩

theorem Going.less (hg : Going takings spawns h) : Going 0 0 h :=
  ⟨hg.1, hg.2.1, hg.2.2.less (Nat.zero_le _) (Nat.zero_le _)⟩

/-! ## 2. The loop keeps to it -/

/-- What cancels calls stays in the section. -/
theorem cancelCalls_turns {K : List McpEvent → Prop}
    (hK : ∀ h e, K h → e.op.plain = true → K (h ++ [e])) (calls : List ActiveCall)
    (hh : activeMutex.held h = true) (hp : Paced takings spawns h) (hk : K h) :
    Holds anyAnswer TurnPlace
      (fun _ h' => activeMutex.held h' = true ∧ Paced takings spawns h' ∧ K h')
      (cancelCalls calls) h := by
  have huses : Uses (fun o : McpOp => o.within = true ∧ o.plain = true ∧ o.offActive = true)
      (cancelCalls calls) :=
    cancelCalls_uses (fun _ => ⟨rfl, rfl, rfl⟩) (fun _ => ⟨rfl, rfl, rfl⟩) calls
  refine huses.holds (I := fun h' => activeMutex.held h' = true ∧ Paced takings spawns h' ∧ K h')
    ?_ (fun _ _ hI ho => turnPlace_within ho.1 hI.2.1) ⟨hh, hp, hk⟩
  rintro h' e ⟨hh, hp, hk⟩ ⟨_, hplain, hoff⟩
  exact ⟨(held_offActive h' e hoff).trans hh, hp.plain e hplain, hK h' e hk hplain⟩

/-- The end of the lines takes the mutex once more. -/
theorem endLines_turns (workers : List Nat) (hh : Unlocked h) (hp : Paced 1 0 h) :
    TurnKept (endLines workers) h := by
  refine ⟨turnPlace_free hh hp rfl rfl nofun, fun _ _ => ?_⟩
  have hh₁ := unlocked_off hh ⟨.storeAlive, ()⟩ rfl
  have hp₁ := hp.plain ⟨.storeAlive, ()⟩ rfl
  refine ⟨turnPlace_free hh₁ hp₁ rfl rfl nofun, fun _ _ => ?_⟩
  have hin := held_lock (h ++ [⟨.storeAlive, ()⟩])
  have hp₂ : Paced 0 0 (h ++ [⟨.storeAlive, ()⟩] ++ [⟨.lockActive, ()⟩]) :=
    hp₁.snoc _ (Nat.le_refl _) (Nat.le_refl _)
  refine ⟨turnPlace_within rfl hp₂, fun calls _ => ?_⟩
  have hin₃ := held_within hin ⟨.activeCalls, calls⟩ rfl rfl
  have hp₃ := hp₂.plain ⟨.activeCalls, calls⟩ rfl
  have hcalls := cancelCalls_turns (K := SweepBegun)
    (fun _ _ hk _ => hk.imp fun _ hin => List.mem_append_left _ hin) calls hin₃ hp₃
    ⟨calls, List.mem_append_right _ (List.mem_singleton_self _)⟩
  show TurnKept (cancelCalls calls >>= fun _ => act .unlockActive >>= fun _ =>
    pure (.inl (.joins workers))) _
  rw [TurnKept, holds_bind]
  refine hcalls.mono (fun _ _ hG => hG) fun _ h' hend => ?_
  obtain ⟨hheld, hpaced, calls', hbegun⟩ := hend
  refine ⟨turnPlace_within rfl hpaced, fun _ _ => ⟨⟨⟨calls', List.mem_append_left _ hbegun⟩, ?_⟩, ?_⟩⟩
  · exact unlocked_unlock h'
  · exact hpaced.snoc _ (Nat.le_refl _) (Nat.le_refl _)

theorem loseConnection_turns (workers : List Nat) (hh : Unlocked h) (hp : Paced 1 0 h) :
    TurnKept (loseConnection workers) h :=
  ⟨turnPlace_free hh hp rfl rfl nofun, fun _ _ =>
    endLines_turns workers (unlocked_off hh _ rfl) (hp.plain _ rfl)⟩

theorem answerLine_turns (workers : List Nat) (response : Value) {next : McpLoop}
    (hg : Going (takings + 1) spawns h) (hnext : ∀ h', Going 0 0 h' → TurnLoop next h') :
    TurnKept (answerLine workers response next) h := by
  obtain ⟨hh, hgoing, hp⟩ := hg
  refine ⟨turnPlace_going hh hgoing hp rfl nofun, fun written _ => ?_⟩
  have hh' := unlocked_off hh ⟨.writeJson response, written⟩ rfl
  have hp' : Paced (takings + 1) spawns (h ++ [⟨.writeJson response, written⟩]) :=
    hp.snoc _ (Nat.le_refl _) (Nat.le_refl _)
  cases written with
  | error error =>
      exact loseConnection_turns workers hh' (hp'.less (Nat.le_add_left _ _) (Nat.zero_le _))
  | ok _ =>
      refine hnext _ ⟨hh', fun hc => hgoing (hc.of_snoc nofun nofun), ?_⟩
      exact hp'.less (Nat.zero_le _) (Nat.zero_le _)

/-- A call takes the mutex twice, and spawns once. -/
theorem dispatchCall_turns (adapter : Adapter) (workers : List Nat) (request : CallRequest)
    (hg : Going 2 1 h) : TurnKept (dispatchCall adapter workers request) h := by
  refine ⟨turnPlace_free hg.1 hg.2.2 rfl rfl nofun, fun _ _ => ?_⟩
  have hg := hg.lock
  refine ⟨turnPlace_within rfl hg.2.2, fun length _ => ?_⟩
  have hg := hg.step ⟨.lenActive, length⟩ rfl
  refine ⟨turnPlace_within rfl hg.2.2, fun _ _ => ?_⟩
  have hg := hg.unlock
  show TurnKept (if length ≥ maxActiveCalls then _ else _) _
  by_cases hfull : length ≥ maxActiveCalls
  · rw [if_pos hfull]
    exact answerLine_turns workers _ hg fun _ hg => hg
  · rw [if_neg hfull]
    refine ⟨turnPlace_free hg.1 hg.2.2 rfl rfl nofun, fun call _ => ?_⟩
    have hg := hg.step ⟨.newFlag, call⟩ rfl rfl
    refine ⟨turnPlace_free hg.1 hg.2.2 rfl rfl nofun, fun _ _ => ?_⟩
    have hg := hg.lock
    refine ⟨turnPlace_within rfl hg.2.2, fun _ _ => ?_⟩
    have hg := hg.step ⟨.insertActive request.key call, ()⟩ rfl
    refine ⟨turnPlace_within rfl hg.2.2, fun _ _ => ?_⟩
    have hg := hg.unlock
    refine ⟨turnPlace_going hg.1 hg.2.1 hg.2.2 rfl nofun, fun _ _ => ⟨unlocked_off hg.1 _ rfl, ?_, ?_⟩⟩
    · exact fun hc => hg.2.1 (hc.of_snoc nofun nofun)
    · exact hg.2.2.snoc _ (Nat.le_refl _) (Nat.le_refl _)

/-- A cancellation takes it once. -/
theorem cancelNamed_turns (input : Value) (hg : Going (takings + 1) spawns h) :
    Holds anyAnswer TurnPlace (fun _ h' => Going 0 0 h') (cancelNamed input) h := by
  unfold cancelNamed
  cases input.pointer ["params", "requestId"] with
  | none => exact hg.less
  | some requestId =>
      refine ⟨turnPlace_free hg.1 hg.2.2 rfl rfl nofun, fun _ _ => ?_⟩
      have hg := hg.lock
      refine ⟨turnPlace_within rfl hg.2.2, fun call _ => ?_⟩
      have hg := hg.step ⟨.getActive requestId.text, call⟩ rfl
      have hcalls := cancelCalls_turns (K := fun h => ¬ EndCause h)
        (fun _ _ hk ho hc => hk (hc.of_plain (McpOp.plain_goes ho))) call.toList hg.1 hg.2.2 hg.2.1
      show Holds anyAnswer TurnPlace _ (cancelCalls call.toList >>= fun _ => act .unlockActive) _
      rw [holds_bind]
      refine hcalls.mono (fun _ _ hG => hG) fun _ h' hend =>
        ⟨turnPlace_within rfl hend.2.1, fun _ _ => ?_⟩
      have hinside : GoingInside takings spawns h' := ⟨hend.1, hend.2.2, hend.2.1⟩
      exact hinside.unlock.less

theorem dispatchLine_turns (adapter : Adapter) (workers : List Nat) (line : String)
    (hg : Going 2 1 h) : TurnKept (dispatchLine adapter workers line) h := by
  unfold dispatchLine
  cases McpCodec.fromStr line with
  | none => exact answerLine_turns workers _ hg fun _ hg => hg
  | some input =>
      show TurnKept (dispatchInput adapter workers input) h
      unfold dispatchInput
      by_cases hcancel : methodOf input = some "notifications/cancelled"
      · rw [if_pos hcancel, TurnKept, holds_bind]
        exact (cancelNamed_turns input hg).mono (fun _ _ hG => hG) fun _ _ hg => hg
      rw [if_neg hcancel]
      by_cases hcall : methodOf input = some "tools/call"
      · rw [if_pos hcall]
        cases adapter.callRequest input with
        | error response => exact answerLine_turns workers response hg fun _ hg => hg
        | ok accepted => exact dispatchCall_turns accepted.2 workers accepted.1 hg
      · rw [if_neg hcall]
        cases adapter.synchronous input with
        | mk answer adapter' =>
            cases answer with
            | none => exact hg.less
            | some response => exact answerLine_turns workers response hg fun _ hg => hg

theorem linesRound_turns (adapter : Adapter) (workers : List Nat) (hg : Going 0 0 h) :
    TurnKept (linesRound adapter workers) h := by
  obtain ⟨hh, hgoing, hp⟩ := hg
  rw [linesRound_eq]
  refine ⟨turnPlace_going hh hgoing hp rfl nofun, fun read _ => ?_⟩
  have hh' := unlocked_off hh ⟨.readLine, read⟩ rfl
  have hp' : Paced 2 1 (h ++ [⟨.readLine, read⟩]) := hp.snoc _ (Nat.le_refl _) (Nat.le_refl _)
  unfold afterRead
  cases htaken : taken read with
  | some line =>
      refine dispatchLine_turns adapter workers line ⟨hh', fun hc => hgoing (hc.of_snoc ?_ nofun), hp'⟩
      intro read' he
      cases he
      rw [htaken]
      exact Option.some_ne_none line
  | none =>
      have hless : Paced 1 0 (h ++ [⟨.readLine, read⟩]) := hp'.less (Nat.le_succ _) (Nat.zero_le _)
      cases read with
      | error error => exact loseConnection_turns workers hh' hless
      | ok line =>
          show TurnKept (if line = "" then _ else _) _
          by_cases hempty : line = ""
          · rw [if_pos hempty]
            exact loseConnection_turns workers hh' hless
          · rw [if_neg hempty]
            exact endLines_turns workers hh' hless

theorem reapRound_turns (adapter : Adapter) (workers : List Nat) (index : Nat) (hg : Going 0 0 h) :
    TurnKept (reapRound adapter workers index) h := by
  unfold reapRound
  cases workers[index]? with
  | none => exact hg
  | some worker =>
      refine ⟨turnPlace_free hg.1 hg.2.2 rfl rfl nofun, fun finished _ => ?_⟩
      have hg := hg.step ⟨.isFinished worker, finished⟩ rfl rfl
      cases finished with
      | false => exact hg
      | true =>
          refine ⟨⟨rfl, fun hin => absurd (hg.1.symm.trans hin) Bool.false_ne_true, nofun, ?_, hg.2.2⟩,
            fun _ _ => ⟨unlocked_off hg.1 _ rfl, ?_, ?_⟩⟩
          · intro worker' he
            cases he
            exact Or.inl ⟨List.mem_append_right _ (List.mem_singleton_self _), hg.2.1⟩
          · exact fun hc => hg.2.1 (hc.of_plain rfl)
          · exact hg.2.2.snoc _ (Nat.le_refl _) (Nat.le_refl _)

theorem joinsRound_turns (workers : List Nat) (hs : SweepOver h) (hp : Paced 0 0 h) :
    TurnKept (joinsRound workers) h := by
  cases workers with
  | nil => exact ⟨hs, hp⟩
  | cons worker workers =>
      refine ⟨⟨rfl, fun hin => absurd (hs.2.symm.trans hin) Bool.false_ne_true, nofun,
        fun _ _ => Or.inr hs, hp⟩, fun _ _ => ⟨⟨?_, unlocked_off hs.2 _ rfl⟩, ?_⟩⟩
      · exact hs.1.imp fun _ hin => List.mem_append_left _ hin
      · exact hp.snoc _ (Nat.le_refl _) (Nat.le_refl _)

theorem mcpRound_turns (l : McpLoop) (h : List McpEvent) (hl : TurnLoop l h) :
    TurnKept (mcpRound l) h := by
  cases l with
  | lines adapter workers => exact linesRound_turns adapter workers hl
  | reap adapter workers index => exact reapRound_turns adapter workers index hl
  | joins workers => exact joinsRound_turns workers hl.1 hl.2
  | read request call state => exact hl.elim

/-- The turns of the stdio loop. -/
theorem stdio_turns {c : McpPool} (hr : Reach mcpSystem McpPool.initial c) {th : McpThreadState}
    (ht : c.threads 0 = some th) : Issued TurnPlace th.hist ∧ TurnKept th.rest th.hist := by
  have hbegin : Going 0 0 [] := by
    refine ⟨rfl, ?_, Nat.le_refl _, Nat.le_refl _⟩
    rintro (⟨read, hin, _⟩ | ⟨value, error, hin⟩)
    · cases hin
    · cases hin
  have hp : TurnKept th.start [] := (stdio_started hr ht) ▸ hbegin
  exact ⟨hr.issued mcpRound_turns ht hp, hr.holds mcpRound_turns ht hp⟩

/-- The counts, wherever the loop stands. -/
theorem TurnKept.paced {p : McpThread} (hk : TurnKept p h) : Paced 0 0 h := by
  match p with
  | .ask o k => exact hk.1.paced
  | .ret (.inl (.lines adapter workers)) => exact hk.2.2
  | .ret (.inl (.reap adapter workers index)) => exact hk.2.2
  | .ret (.inl (.joins workers)) => exact hk.2
  | .ret (.inl (.read request call state)) => exact False.elim hk
  | .ret (.inr ()) => exact hk.2

end Turns

end MessageNexus
