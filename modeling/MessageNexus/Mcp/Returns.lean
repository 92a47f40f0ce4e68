/-
  File:      MessageNexus/Mcp/Returns.lean
  Subject:   THE ADAPTER GOES ON, AND RETURNS. In every fair run the stdio loop comes back to its
             next line whatever Message does; a cancelled call ends although Message stays silent;
             and once the loop has a cause to end, `run` returns if and only if no worker is left
             waiting for ever in a connect or a write.

  * `McpShared.ready`, `mcpReadiness` -- what completes by itself; `WaitsOutside` -- what may not;
  * `active_lock_passed` -- the mutex of the active map reaches everybody, where stdin yields finitely many
    lines (it is not fair); `stdio_lock_passed` -- the loop gets it in any case;
  * `worker_ends`, `cancelled_ends`, `stdio_listens`, `run_stops` -- the results.
-/
import MessageNexus.Mcp.Ending

namespace MessageNexus

open Interact SignalFlow SignalMessage Json

/-! ## 1. What completes by itself -/

/-- The operations that complete by themselves. A read waits for stdin, a write for the reader of
    stdout and a connect for Message, which may leave them waiting; a response may not come until
    the socket is shut down. A send has a write timeout. -/
def McpShared.ready (s : McpShared) : McpOp → Bool
  | .readLine => false
  | .writeJson _ => false
  | .connect _ => false
  | .readResponse call => s.shut call
  | .join call => s.ended call
  | .lockActive => s.holder.isNone
  | _ => true

def mcpReadiness [McpCodec] : Readiness mcpSystem where
  ready s _ o := s.ready o = true
  answered s t o h := by
    cases o with
    | readLine => cases h
    | writeJson value => cases h
    | connect call => cases h
    | newFlag => exact ⟨s.flags, _, rfl, rfl⟩
    | lenActive => exact ⟨s.active.length, _, rfl, rfl⟩
    | getActive key => exact ⟨s.active.get key, _, rfl, rfl⟩
    | activeCalls => exact ⟨s.active.map Prod.snd, _, List.Perm.refl (s.active.map Prod.snd), rfl⟩
    | isFinished call => exact ⟨s.ended call, _, fun hended => hended, rfl⟩
    | join call => exact ⟨(), _, h, rfl⟩
    | lockActive => exact ⟨(), _, Option.isNone_iff_eq_none.mp h, rfl⟩
    | loadCancelled call => exact ⟨s.cancelled call, _, rfl, rfl⟩
    | loadAlive => exact ⟨s.alive, _, rfl, rfl⟩
    | clone call => exact ⟨.ok (), _, trivial, rfl⟩
    | send call query => exact ⟨⟨.error "", .ok (), .ok ()⟩, _, trivial, rfl⟩
    | readResponse call => exact ⟨⟨.error "", .ok (), .error ""⟩, _, trivial, rfl⟩
    | _ => exact ⟨(), _, trivial, rfl⟩

/-- The operations that Message or the reader of stdout may leave waiting for ever. -/
def McpOp.outside : McpOp → Bool
  | .connect _ => true
  | .writeJson _ => true
  | _ => false

section Runs

variable [McpCodec]

/-- From some time on the thread stands before a connect or a write, for ever. -/
def WaitsOutside (ρ : Run mcpSystem .initial) (t : Nat) : Prop :=
  ∃ n o, o.outside = true ∧ ∀ m, n ≤ m → ∃ th k, (ρ.pool m).threads t = some th ∧ th.rest = .ask o k

/-- Stdin yields finitely many lines. -/
def FewLines (ρ : Run mcpSystem .initial) : Prop :=
  ∃ most, ∀ n, (reads ((ρ.pool n).hist 0)).length ≤ most

variable {ρ : Run mcpSystem .initial}

/-- A connect or a write is passed, unless the thread waits in it for ever. -/
theorem outside_passed {t : Nat} (hnever : ¬ WaitsOutside ρ t) {o : McpOp} (ho : o.outside = true)
    (n : Nat) : Passes ρ t n o := by
  intro m th k _ ht hr
  refine (ρ.performs_or_stays mcp_unhalted ht hr).resolve_right fun hstays => ?_
  exact hnever ⟨m, o, ho, fun m' hm' => ⟨th, k, hstays m' hm', hr⟩⟩

/-- The history of a thread at a later time. -/
theorem Run.hist_later (ρ : Run mcpSystem .initial) {n m : Nat} (h : n ≤ m) (t : Nat) :
    (ρ.pool n).hist t <+: (ρ.pool m).hist t := by
  induction m, h using Nat.le_induction with
  | base => exact List.prefix_rfl
  | succ m _ ih => exact ih.trans (ρ.hist_grows m t)

omit [McpCodec] in
theorem reads_mono {h h' : List McpEvent} (hpre : h <+: h') : (reads h).length ≤ (reads h').length :=
  (hpre.sublist.filterMap _).length_le

/-! ## 2. The mutex of the active map -/

section Counts

variable {c : McpPool}

theorem stdio_paced (hr : Reach mcpSystem McpPool.initial c) : Paced 0 0 (c.hist 0) := by
  cases ht : c.threads 0 with
  | none =>
      rw [Pool.hist, ht]
      exact ⟨Nat.le_refl _, Nat.le_refl _⟩
  | some th =>
      rw [Pool.hist_of ht]
      exact (stdio_turns hr ht).2.paced

theorem spawned_bounded (hr : Reach mcpSystem McpPool.initial c) :
    c.shared.spawned.length ≤ (reads (c.hist 0)).length := by
  have hcount := (stdio_paced hr).2
  rw [crew_spawned, List.length_map, ← (counted hr).2.1] at hcount
  exact hcount

theorem active_takes_bounded (hr : Reach mcpSystem McpPool.initial c) (t : Nat) :
    (c.hist t).countP takesActive ≤ 2 * (reads (c.hist 0)).length + 2 := by
  cases t with
  | zero => exact (stdio_paced hr).1.trans (Nat.le_add_right _ _)
  | succ call =>
      cases ht : c.threads (call + 1) with
      | none =>
          rw [Pool.hist, ht]
          exact Nat.zero_le _
      | some th =>
          rw [Pool.hist_of ht]
          have htwice := (takes_twice (worker_stages hr ht).1).trans (WorkerStage.takings_le _)
          omega

/-- Who holds the mutex after a step and not before has taken it by this step. -/
theorem active_taken {c' : McpPool} (hs : Step mcpSystem c c') {u : Nat}
    (hne : c.shared.holder ≠ some u) (hheld : c'.shared.holder = some u) :
    (∃ th, c'.threads u = some th) ∧ ∃ e, takesActive e = true ∧ c'.hist u = c.hist u ++ [e] := by
  cases hs with
  | act t th o k a s' ht hl hrest hs =>
      have hafter := hs.2
      rw [Pool.put_shared, hafter] at hheld
      cases o with
      | lockActive =>
          cases Option.some.inj (show some t = some u from hheld)
          refine ⟨⟨_, Pool.put_self _ _ _ _⟩, ⟨.lockActive, a⟩, rfl, ?_⟩
          rw [Pool.hist_put, Function.update_self, Pool.hist_of ht]
      | unlockActive => cases hheld
      | _ => exact absurd hheld hne
  | again t th l ht hl hrest => exact absurd hheld hne
  | start t p s' ht hs =>
      rw [Pool.put_shared, hs.1] at hheld
      exact absurd hheld hne
  | halt s' hs => exact hs.elim

end Counts

section Fairness

variable (hf : Fair mcpReadiness ρ)

include hf

/-- An operation that never waits is passed. -/
theorem passes_always {t n : Nat} {o : McpOp} (h : ∀ s : McpShared, s.ready o = true) :
    Passes ρ t n o :=
  hf.passes_ready mcp_unhalted fun _ _ => h _

/-- Whoever holds the mutex gives it back. -/
theorem active_given_back {n u : Nat} (hheld : (ρ.pool n).shared.holder = some u) :
    ∃ m, n ≤ m ∧ (ρ.pool m).shared.holder ≠ some u := by
  have hexclusive : ∀ m, activeMutex.Exclusive (ρ.pool m) := fun m =>
    activeMutex.exclusive rfl (fun _ hr _ _ ht => active_issued hr ht) (ρ.reach m)
  obtain ⟨th, ht, hlive⟩ := (hexclusive n).2 u hheld
  have hinside : ∀ {m th'}, (ρ.pool m).threads u = some th' →
      (ρ.pool m).shared.holder = some u → activeMutex.held th'.hist = true :=
    fun ht' hstill => ((hexclusive _).1 u _ ht' (thread_live (ρ.reach _) u _ ht')).mpr hstill
  cases u with
  | zero =>
      have hpass : ∀ h o, activeMutex.held h = true → TurnPlace h o → Passes ρ 0 n o := by
        intro h o hh ho
        have hwithin := ho.inside hh
        cases o with
        | lenActive => exact passes_always hf fun _ => rfl
        | insertActive key call => exact passes_always hf fun _ => rfl
        | getActive key => exact passes_always hf fun _ => rfl
        | activeCalls => exact passes_always hf fun _ => rfl
        | storeCancelled call => exact passes_always hf fun _ => rfl
        | shutdown call => exact passes_always hf fun _ => rfl
        | unlockActive => exact passes_always hf fun _ => rfl
        | _ => cases hwithin
      obtain ⟨m, th', hm, ht', _, hstop⟩ :=
        ρ.comes_to hpass le_rfl ht (stdio_turns (ρ.reach n) ht).2
      refine ⟨m, hm, fun hstill => ?_⟩
      have hopen := hinside ht' hstill
      obtain ⟨r, _, hends⟩ := hstop hopen
      have hclosed : Unlocked th'.hist := by
        match r with
        | .inl (.lines adapter workers) => exact hends.1
        | .inl (.reap adapter workers index) => exact hends.1
        | .inl (.joins workers) => exact hends.1.2
        | .inl (.read request call state) => exact hends.elim
        | .inr () => exact hends.1.2
      exact absurd (hclosed.symm.trans hopen) Bool.false_ne_true
  | succ call =>
      have hpass : ∀ h o, (workerMonitor.state h).inside = true → workerMonitor.Place h o →
          Passes ρ (call + 1) n o := by
        intro h o hin ho
        have hmoves := WorkerStage.inside_moves ho hin
        generalize workerMonitor.state h = stage at hin hmoves
        generalize stage.after o = stage' at hmoves
        cases hmoves with
        | observe key call => exact passes_always hf fun _ => rfl
        | serve => exact passes_always hf fun _ => rfl
        | giveUp key => exact passes_always hf fun _ => rfl
        | remove key => exact passes_always hf fun _ => rfl
        | leave => exact passes_always hf fun _ => rfl
        | _ => cases hin
      obtain ⟨m, th', hm, ht', _, hstop⟩ :=
        ρ.comes_to hpass le_rfl ht (worker_stages (ρ.reach n) ht).2
      refine ⟨m, hm, fun hstill => ?_⟩
      have hopen := hinside ht' hstill
      rw [held_inside (worker_stages (ρ.reach m) ht').1] at hopen
      obtain ⟨r, _, hends⟩ := hstop hopen
      have hclosed : workerMonitor.state th'.hist = .serving ∨
          workerMonitor.state th'.hist = .returned := by
        match r with
        | .inl (.read request call state) => exact Or.inl hends
        | .inl (.lines adapter workers) => exact hends.elim
        | .inl (.reap adapter workers index) => exact hends.elim
        | .inl (.joins workers) => exact hends.elim
        | .inr () => exact Or.inr hends
      rcases hclosed with hserving | hreturned
      · rw [hserving] at hopen
        cases hopen
      · rw [hreturned] at hopen
        cases hopen

/-- Where stdin yields finitely many lines, everybody gets the mutex, from some time on. -/
theorem active_lock_passed (hfew : FewLines ρ) : ∃ n₁, ∀ t, Passes ρ t n₁ .lockActive := by
  obtain ⟨most, hmost⟩ := hfew
  -- From some time on no worker is spawned any more.
  obtain ⟨n₁, _, hsettled⟩ := settles (f := fun m => most - (ρ.pool m).shared.spawned.length) (n := 0)
    fun m _ => Nat.sub_le_sub_left (mcp_grows ρ m.le_succ).spawned.length_le _
  have hspawned : ∀ m, n₁ ≤ m → (ρ.pool m).shared.spawned = (ρ.pool n₁).shared.spawned := by
    intro m hm
    have hle := (spawned_bounded (ρ.reach m)).trans (hmost m)
    have hle₁ := (spawned_bounded (ρ.reach n₁)).trans (hmost n₁)
    have hsame := hsettled m hm
    exact ((mcp_grows ρ hm).spawned.eq_of_length (by omega)).symm
  refine ⟨n₁, fun t => ?_⟩
  refine hf.acquires_bounded mcp_unhalted (fun s => s.holder) takesActive (K := 2 * most + 2)
    (N := ((ρ.pool n₁).shared.spawned.map (·.1)).sum + 2) ?_ ?_ ?_ ?_
  · exact fun s hnone => Option.isNone_iff_eq_none.mpr hnone
  · exact fun n u _ hheld => active_given_back hf hheld
  · intro n u
    have hle := hmost n
    exact (active_takes_bounded (ρ.reach n) u).trans (by omega)
  · intro n u hn hne hheld
    rcases ρ.goes n with hs | hsame
    · obtain ⟨⟨th, ht⟩, e, htakes, hhist⟩ := active_taken hs hne hheld
      refine ⟨u, e, ?_, htakes, hhist⟩
      cases u with
      | zero => omega
      | succ call =>
          obtain ⟨request, hin, _⟩ := worker_started (ρ.reach (n + 1)) ht
          rw [hspawned (n + 1) (hn.trans n.le_succ)] at hin
          have hle := List.le_sum_of_mem (List.mem_map_of_mem (f := (·.1)) hin)
          omega
    · rw [hsame] at hheld
      exact absurd hheld hne

/-- The loop gets the mutex in any case: as long as it waits, it takes no line and spawns nothing. -/
theorem stdio_lock_passed (n : Nat) : Passes ρ 0 n .lockActive := by
  intro m th k _ ht hr
  refine (ρ.performs_or_stays mcp_unhalted ht hr).elim id fun hstays => ?_
  have hfew : FewLines ρ := by
    refine ⟨(reads th.hist).length, fun m' => ?_⟩
    have hlater := Run.hist_later ρ (le_max_left m' m) 0
    rw [Pool.hist_of (hstays _ (le_max_right m' m))] at hlater
    exact reads_mono hlater
  obtain ⟨n₁, hpass⟩ := active_lock_passed hf hfew
  obtain ⟨j, a, hj, hrest⟩ := hpass 0 (max m n₁) th k (le_max_right _ _) (hstays _ (le_max_left _ _)) hr
  exact ⟨j, a, (le_max_left _ _).trans hj, hrest⟩

/-! ## 3. A worker that has nothing more to wait for ends -/

/-- What reaches every worker of a run in which these hold from the time `n` on. -/
theorem worker_passes {call n : Nat} (hlock : Passes ρ (call + 1) n .lockActive)
    (hnever : ¬ WaitsOutside ρ (call + 1)) (hread : Passes ρ (call + 1) n (.readResponse call))
    (h : List McpEvent) (o : McpOp) (ho : workerMonitor.Place h o) : Passes ρ (call + 1) n o := by
  have hother : ∀ {o : McpOp}, (∀ stage : WorkerStage, stage.allows o = false) →
      workerMonitor.Place h o → Passes ρ (call + 1) n o := fun hno hplace =>
    absurd ((hno (workerMonitor.state h)).symm.trans hplace) Bool.false_ne_true
  cases o with
  | lockActive => exact hlock
  | writeJson value => exact outside_passed hnever rfl n
  | connect other => exact outside_passed hnever rfl n
  | readResponse other =>
      intro m th k hm ht hr
      obtain ⟨request, _, hstart⟩ := worker_started (ρ.reach m) ht
      have hkept := (worker_places (ρ.reach m) ht hstart).2
      rw [hr] at hkept
      cases (show other = call from hkept.1.2.1)
      exact hread m th k hm ht hr
  | readLine => exact hother (fun stage => by cases stage <;> rfl) ho
  | join other => exact hother (fun stage => by cases stage <;> rfl) ho
  | _ => exact passes_always hf fun _ => rfl

/-- A worker that is swept, or past its read loop, does not wait for a response. -/
theorem swept_reads {call n : Nat} (hswept : Swept call ((ρ.pool n).hist 0) ∨
    (workerMonitor.state ((ρ.pool n).hist (call + 1))).past = true) :
    Passes ρ (call + 1) n (.readResponse call) := by
  refine hf.passes mcp_unhalted fun m th k hm ht hr => ⟨m, fun m' hm' => ?_⟩
  have hserving := (worker_stages (ρ.reach m) ht).2
  rw [hr] at hserving
  have hallows : (workerMonitor.state th.hist).allows (.readResponse call) = true := hserving.1
  refine (mcp_grows ρ hm').shut call ?_
  rcases hswept with hswept | hpast
  · have hlater : Swept call ((ρ.pool m).hist 0) := hswept.later (Run.hist_later ρ hm 0)
    obtain ⟨request, _, hstart⟩ := worker_started (ρ.reach m) ht
    have hkept := (worker_places (ρ.reach m) ht hstart).2
    rw [hr] at hkept
    rcases (cancels (ρ.reach m)).2.swept call hlater with hshut | hunchecked
    · exact hshut
    · rw [Pool.hist_of ht, hkept.1.2.2] at hunchecked
      cases hunchecked
  · have hstill := workerMonitor.lasts (P := fun stage => stage.past = true)
      (fun stage e hp => WorkerStage.past_after hp e.op) (Run.hist_later ρ hm (call + 1)) hpast
    rw [Pool.hist_of ht] at hstill
    generalize workerMonitor.state th.hist = stage at hstill hallows
    cases stage <;> first | exact absurd hstill Bool.false_ne_true | exact absurd hallows Bool.false_ne_true

/-- A worker that is swept, or past its read loop, ends, unless it waits outside for ever. -/
theorem worker_ends {call n : Nat} {request : CallRequest}
    (hspawned : (call, request) ∈ (ρ.pool n).shared.spawned)
    (hswept : Swept call ((ρ.pool n).hist 0) ∨
      (workerMonitor.state ((ρ.pool n).hist (call + 1))).past = true)
    (hlock : Passes ρ (call + 1) n .lockActive) (hnever : ¬ WaitsOutside ρ (call + 1)) :
    ∃ m th, n ≤ m ∧ (ρ.pool m).threads (call + 1) = some th ∧ th.rest = .ret (.inr ()) ∧
      (ρ.pool m).shared.ended call = true := by
  have hpass : ∀ h o, True → workerMonitor.Place h o → Passes ρ (call + 1) n o :=
    fun h o _ ho => worker_passes hf hlock hnever (swept_reads hf hswept) h o ho
  obtain ⟨n₁, th₁, hn₁, ht₁⟩ := hf.thread_starts (t := call + 1) (n := n) fun m hm =>
    ⟨_, _, rfl, Or.inr ⟨call, request, rfl, (mcp_grows ρ hm).spawned.subset hspawned, rfl⟩⟩
  obtain ⟨n₂, th₂, hn₂, ht₂, _, hstop⟩ := ρ.comes_to hpass hn₁ ht₁
    (worker_stages (ρ.reach n₁) ht₁).2
  obtain ⟨r, hr₂, hends⟩ := hstop trivial
  match r with
  | .inr () => exact ⟨n₂, th₂, hn₁.trans hn₂, ht₂, hr₂, returned_ended (ρ.reach n₂) ht₂ hends⟩
  | .inl (.lines adapter workers) => exact hends.elim
  | .inl (.reap adapter workers index) => exact hends.elim
  | .inl (.joins workers) => exact hends.elim
  | .inl (.read request' call' state) =>
      -- It is in its read loop: its flag is set, and the next round finds it so.
      have hserving : workerMonitor.state th₂.hist = .serving := hends
      have hlate := hn₁.trans hn₂
      have hcancelled : (ρ.pool n₂).shared.cancelled call = true := by
        rcases hswept with hswept | hpast
        · have hlater : Swept call ((ρ.pool n₂).hist 0) :=
            hswept.later (Run.hist_later ρ hlate 0)
          exact (cancels (ρ.reach n₂)).2.flagged call hlater.stored
        · have hstill := workerMonitor.lasts (P := fun stage => stage.past = true)
            (fun stage e hp => WorkerStage.past_after hp e.op) (Run.hist_later ρ hlate (call + 1)) hpast
          rw [Pool.hist_of ht₂, hserving] at hstill
          cases hstill
      obtain ⟨original, _, hstart⟩ := worker_started (ρ.reach n₂) ht₂
      have hloop := (worker_places (ρ.reach n₂) ht₂ hstart).2
      rw [hr₂] at hloop
      cases (show call' = call from hloop.2.1)
      obtain ⟨n₃, hn₃, ht₃⟩ := hf.enters mcp_unhalted ht₂ hr₂
      have hload : Passes ρ (call + 1) n₃ (.loadCancelled call) := passes_always hf fun _ => rfl
      obtain ⟨n₄, flag, hn₄, hsem, ht₄⟩ := hload n₃ _ _ le_rfl ht₃ rfl
      have hflag : flag = true := by
        have hnow := (mcp_grows ρ (hn₃.trans hn₄)).cancelled call hcancelled
        exact (hsem.1 : flag = _).trans hnow
      subst hflag
      have hstate : workerMonitor.state (th₂.hist ++ [⟨.loadCancelled call, true⟩]) = .serving := by
        rw [workerMonitor.state_snoc, hserving]
        rfl
      have hwalks := endCall_walks request' call state none (Or.inr (Or.inl rfl) : WorkerStage.serving.Leaves)
      rw [← hstate] at hwalks
      obtain ⟨n₅, th₅, hn₅, ht₅, _, hstop₅⟩ := ρ.comes_to hpass
        (hlate.trans (hn₃.trans (hn₄.trans n₄.le_succ))) ht₄ hwalks.holds
      obtain ⟨r, hr₅, rfl, hover⟩ := hstop₅ trivial
      exact ⟨n₅, th₅, hlate.trans (hn₃.trans (hn₄.trans (n₄.le_succ.trans hn₅))), ht₅, hr₅,
        returned_ended (ρ.reach n₅) ht₅ hover⟩

end Fairness

end Runs

/-! ## 4. Runs that come to rest -/

/-- This thread cannot go on. -/
def McpPool.resting (c : McpPool) (t : Nat) : Bool :=
  match c.threads t with
  | none => false
  | some th =>
      match th.rest with
      | .ask o _ => !c.shared.ready o
      | .ret (.inl _) => false
      | .ret (.inr _) => true

section Rest

variable [McpCodec] {c : McpPool}

theorem mcp_resting_stuck {t : Nat} (h : c.resting t = true) : ¬ mcpReadiness.Can c t := by
  rintro ⟨th, ht, _, ⟨o, k, hr, hready⟩ | ⟨l, hr⟩⟩
  · rw [McpPool.resting, ht] at h
    dsimp only at h
    rw [hr] at h
    change (!c.shared.ready o) = true at h
    rw [show c.shared.ready o = true from hready] at h
    cases h
  · rw [McpPool.resting, ht] at h
    dsimp only at h
    rw [hr] at h
    cases h

/-- A run that comes to a pool in which every thread that may be there rests is fair. -/
theorem mcp_resting_fair {ρ : Run mcpSystem .initial} {n most : Nat}
    (hr : Reach mcpSystem McpPool.initial c) (hrest : ∀ m, n ≤ m → ρ.pool m = c)
    (hmost : ∀ call ∈ c.shared.spawned, call.1 < most) (hall : ∀ t ≤ most, c.resting t = true) :
    Fair mcpReadiness ρ := by
  have hkind : ∀ {t start}, ThreadKind c.shared t start → t ≤ most := by
    rintro t start (⟨rfl, _⟩ | ⟨call, request, rfl, hin, _⟩)
    · exact Nat.zero_le _
    · exact hmost _ hin
  have hthere : ∀ {t}, t ≤ most → c.threads t ≠ none := by
    intro t ht hnone
    have hresting := hall t ht
    rw [McpPool.resting, hnone] at hresting
    cases hresting
  refine Fair.of_rest hrest (fun t => ?_) fun t => ?_
  · rintro ⟨th, ht, hcan⟩
    exact mcp_resting_stuck (hall t (hkind (thread_kind hr t th ht))) ⟨th, ht, hcan⟩
  · by_cases ht : t ≤ most
    · exact Or.inl (hthere ht)
    · exact Or.inr fun p s' hs => ht (hkind hs.2)

/-- In such a run stdin yields finitely many lines. -/
theorem resting_few {ρ : Run mcpSystem .initial} {n : Nat} (hrest : ∀ m, n ≤ m → ρ.pool m = c) :
    FewLines ρ := by
  refine ⟨(reads (c.hist 0)).length, fun m => ?_⟩
  have hlater := Run.hist_later ρ (le_max_left m n) 0
  rw [hrest _ (le_max_right m n)] at hlater
  exact reads_mono hlater

end Rest

/-- The cancelled call's worker finds its socket shut down, and ends; the loop waits for a line. -/
def endedCall : McpPool :=
  @McpScript.turn cancelCodec
    { messagesScript [] [] with reads := [⟨.error "end of stream", .ok (), .error ""⟩] } 60 1
    cancelledPool

theorem endedCall_reach : Reach (@mcpSystem cancelCodec) cancelledPool endedCall :=
  @McpScript.turn_reach cancelCodec _ 60 1 _ _ .refl (@thread_live cancelCodec _ cancelledPool_reach 1)

/-- The run in which the call is cancelled while Message is silent, and everything comes to rest. -/
theorem endedCall_run : ∃ (ρ : Run (@mcpSystem cancelCodec) .initial) (n : Nat),
    Fair (@mcpReadiness cancelCodec) ρ ∧ @FewLines cancelCodec ρ ∧
    (∃ request, (0, request) ∈ (ρ.pool n).shared.spawned) ∧ Swept 0 ((ρ.pool n).hist 0) ∧
    (ρ.pool n).shared.ended 0 = false := by
  obtain ⟨ρ, n, _, _, hn, hrest⟩ := Run.through cancelledPool_reach endedCall_reach
  have hends : (endedCall.shared.spawned.all fun call => call.1 < 1) = true ∧
      endedCall.resting 0 = true ∧ endedCall.resting 1 = true := by
    decide +kernel
  have hfair : Fair (@mcpReadiness cancelCodec) ρ := by
    refine @mcp_resting_fair cancelCodec _ _ _ 1 (cancelledPool_reach.trans endedCall_reach) hrest
      (fun call hin => of_decide_eq_true (List.all_eq_true.mp hends.1 call hin)) fun t ht => ?_
    match t, ht with
    | 0, _ => exact hends.2.1
    | 1, _ => exact hends.2.2
  have hrun : (cancelledPool.shared.spawned.any fun call => call.1 == 0) = true ∧
      cancelledPool.shared.cancelled 0 = true ∧
      (workerMonitor.state (cancelledPool.hist 1)).past = false ∧
      Mutex.held (@activeMutex cancelCodec) (cancelledPool.hist 0) = false ∧
      cancelledPool.shared.ended 0 = false := by
    decide +kernel
  refine ⟨ρ, n, hfair, @resting_few cancelCodec _ _ _ hrest, ?_⟩
  have hreach := cancelledPool_reach
  generalize cancelledPool = c at hrun hreach hn
  subst hn
  obtain ⟨hspawned, hflag, hserving, hout, hrunning⟩ := hrun
  obtain ⟨⟨call, request⟩, hin, hcall⟩ := List.any_eq_true.mp hspawned
  obtain rfl : call = 0 := beq_iff_eq.mp hcall
  have hstored : Stored 0 ((ρ.pool n).hist 0) := by
    refine (@flag_cause cancelCodec _ hreach 0 hflag).resolve_right fun hown => ?_
    rw [past_since (@worker_issued cancelCodec _ hreach 0) hown (Or.inr ⟨0, rfl⟩)] at hserving
    cases hserving
  refine ⟨⟨request, hin⟩, ?_, hrunning⟩
  exact (@stored_swept cancelCodec _ (@disciplined cancelCodec _ hreach 0).1 0 hstored).resolve_right
    (Bool.eq_false_iff.mp hout)

/-- The run to the end of the input, with both workers joined. -/
theorem joinedPool_run : ∃ (ρ : Run (@mcpSystem joinCodec) .initial) (n : Nat) (th : McpThreadState),
    Fair (@mcpReadiness joinCodec) ρ ∧ EndCause ((ρ.pool n).hist 0) ∧
    (ρ.pool n).threads 0 = some th ∧ th.rest = .ret (.inr ()) ∧
    (ρ.pool n).shared.spawned.length = 2 := by
  obtain ⟨ρ, n, _, _, hn, hrest⟩ := Run.through joinedPool_reach .refl
  have hrun : ((joinedPool.shared.spawned.all fun call => call.1 < 2) = true ∧
      joinedPool.resting 0 = true ∧ joinedPool.resting 1 = true ∧ joinedPool.resting 2 = true) ∧
      ((reads (joinedPool.hist 0)).any fun read => (taken read).isNone) = true ∧
      ((joinedPool.threads 0).bind fun th => th.rest.outcome) = some () ∧
      joinedPool.shared.spawned.length = 2 := by
    decide +kernel
  obtain ⟨⟨hspawned, hstdio, hfirst, hsecond⟩, hlast, hover, hlength⟩ := hrun
  obtain ⟨read, hin, hnone⟩ := List.any_eq_true.mp hlast
  obtain ⟨th, ht, hout⟩ := Option.bind_eq_some_iff.mp hover
  refine ⟨ρ, n, th, ?_, hn ▸ Or.inl ⟨read, hin, Option.isNone_iff_eq_none.mp hnone⟩, hn ▸ ht,
    Prog.outcome_some hout, hn ▸ hlength⟩
  refine @mcp_resting_fair joinCodec _ _ _ 2 joinedPool_reach hrest
    (fun call hin => of_decide_eq_true (List.all_eq_true.mp hspawned call hin)) fun t ht => ?_
  match t, ht with
  | 0, _ => exact hstdio
  | 1, _ => exact hfirst
  | 2, _ => exact hsecond

/-! ## 5. The results -/

section Results

variable [McpCodec] {ρ : Run mcpSystem .initial} (hf : Fair mcpReadiness ρ)

include hf

/-- A call that the loop has cancelled ends, although Message stays silent, unless its worker waits
    for ever in a connect or a write. -/
theorem cancelled_ends (hfew : FewLines ρ) {n call : Nat} {request : CallRequest}
    (hspawned : (call, request) ∈ (ρ.pool n).shared.spawned)
    (hswept : Swept call ((ρ.pool n).hist 0)) :
    (∃ m th, n ≤ m ∧ (ρ.pool m).threads (call + 1) = some th ∧ th.rest = .ret (.inr ()) ∧
      (ρ.pool m).shared.ended call = true) ∨ WaitsOutside ρ (call + 1) := by
  by_cases hwaits : WaitsOutside ρ (call + 1)
  · exact Or.inr hwaits
  left
  obtain ⟨n₁, hlock⟩ := active_lock_passed hf hfew
  have hlate : n ≤ max n n₁ := le_max_left _ _
  obtain ⟨m, th, hm, hrest⟩ := worker_ends hf
    ((mcp_grows ρ hlate).spawned.subset hspawned)
    (Or.inl (hswept.later (Run.hist_later ρ hlate 0))) ((hlock _).mono (le_max_right _ _)) hwaits
  exact ⟨m, th, hlate.trans hm, hrest⟩

omit [McpCodec] hf in
/-- The call of the sample run is cancelled while its worker waits for Message, and ends. -/
theorem cancelled_ends_silent : ∃ (ρ : Run (@mcpSystem cancelCodec) .initial) (n : Nat),
    ((∃ m th, n ≤ m ∧ (ρ.pool m).threads 1 = some th ∧ th.rest = .ret (.inr ()) ∧
      (ρ.pool m).shared.ended 0 = true) ∨ @WaitsOutside cancelCodec ρ 1) ∧
    (ρ.pool n).shared.ended 0 = false := by
  obtain ⟨ρ, n, hf, hfew, ⟨request, hin⟩, hswept, hrunning⟩ := endedCall_run
  exact ⟨ρ, n, @cancelled_ends cancelCodec ρ hf hfew n 0 request hin hswept, hrunning⟩

/-- The loop is there. -/
theorem stdio_starts (n : Nat) : ∃ m th, n ≤ m ∧ (ρ.pool m).threads 0 = some th :=
  hf.thread_starts fun _ _ => ⟨_, _, rfl, Or.inl ⟨rfl, rfl⟩⟩

omit hf in
/-- A worker that the loop joins was spawned. -/
theorem join_spawned {c : McpPool} (hr : Reach mcpSystem McpPool.initial c) {th : McpThreadState}
    (ht : c.threads 0 = some th) {worker : Nat} {k : Unit → McpThread}
    (hrest : th.rest = .ask (.join worker) k) : ∃ request, (worker, request) ∈ c.shared.spawned := by
  have hstart : CrewKept th.start [] := (stdio_started hr ht) ▸ Reap.Crew.balanced_nil
  have hkept := hr.holds mcpRound_crew ht hstart
  rw [hrest] at hkept
  obtain ⟨kept, hbalanced⟩ := hkept.1 () worker rfl
  have hin : worker ∈ mcpCrew.spawned th.hist :=
    hbalanced.mem_iff.mp (List.mem_append_right _ List.mem_cons_self)
  rw [← (stdio_account hr ht).spawned] at hin
  obtain ⟨⟨_, request⟩, hspawned, rfl⟩ := List.mem_map.mp hin
  exact ⟨request, hspawned⟩

/-- A join of a worker that ends is passed. -/
theorem join_passed {n worker : Nat} (hends : ∃ m, (ρ.pool m).shared.ended worker = true) :
    Passes ρ 0 n (.join worker) := by
  obtain ⟨m, hended⟩ := hends
  exact hf.passes mcp_unhalted fun _ _ _ _ _ _ => ⟨m, fun m' hm' =>
    (mcp_grows ρ hm').ended worker hended⟩

/-- The loop passes everything, if it passes its lines, its writes and its joins. -/
theorem stdio_passes {n : Nat} {o : McpOp} (hstdio : o.isStdio = true)
    (hread : o = .readLine → Passes ρ 0 n o) (hwrite : ∀ value, o = .writeJson value → Passes ρ 0 n o)
    (hjoin : ∀ worker, o = .join worker → Passes ρ 0 n o) : Passes ρ 0 n o := by
  cases o with
  | lockActive => exact stdio_lock_passed hf n
  | join worker => exact hjoin worker rfl
  | readLine => exact hread rfl
  | writeJson value => exact hwrite value rfl
  | connect call => cases hstdio
  | readResponse call => cases hstdio
  | _ => exact passes_always hf fun _ => rfl

/-- A reaping pass comes to its end, where the loop passes its joins. -/
theorem reap_lines {n : Nat} (hjoin : ∀ worker, Passes ρ 0 n (.join worker)) {adapter : Adapter}
    {workers : List Nat} {index m : Nat} {th : McpThreadState} (hm : n ≤ m)
    (ht : (ρ.pool m).threads 0 = some th) (hr : th.rest = .ret (.inl (.reap adapter workers index))) :
    ∃ m' th' workers', n ≤ m' ∧ (ρ.pool m').threads 0 = some th' ∧
      th'.rest = .ret (.inl (.lines adapter workers')) := by
  induction hleft : workers.length - index generalizing workers index m th with
  | zero =>
      obtain ⟨m₁, hm₁, ht₁⟩ := hf.enters mcp_unhalted ht hr
      refine ⟨m₁, _, workers, hm.trans hm₁, ht₁, ?_⟩
      show reapRound adapter workers index = _
      rw [reapRound, List.getElem?_eq_none (by omega)]
      rfl
  | succ left ih =>
      obtain ⟨m₁, hm₁, ht₁⟩ := hf.enters mcp_unhalted ht hr
      obtain ⟨worker, hworker⟩ : ∃ worker, workers[index]? = some worker :=
        ⟨_, List.getElem?_eq_getElem (by omega)⟩
      have hround : reapRound adapter workers index = .ask (.isFinished worker) fun finished =>
          if finished then .ask (.join worker) fun _ =>
            .ret (.inl (.reap adapter (Reap.swapRemove workers index) index))
          else .ret (.inl (.reap adapter workers (index + 1))) := by
        rw [reapRound, hworker]
        refine congrArg (Prog.ask _) (funext fun finished => ?_)
        cases finished <;> rfl
      have hlook : Passes ρ 0 m₁ (.isFinished worker) := passes_always hf fun _ => rfl
      obtain ⟨m₂, finished, hm₂, _, ht₂⟩ := hlook m₁ _ _ le_rfl ht₁ hround
      have hlate : n ≤ m₂ + 1 := hm.trans (hm₁.trans (hm₂.trans m₂.le_succ))
      cases finished with
      | false => exact ih hlate ht₂ rfl (by omega)
      | true =>
          obtain ⟨m₃, _, hm₃, _, ht₃⟩ := hjoin worker (m₂ + 1) _ _ hlate ht₂ rfl
          have hshorter := Reap.swapRemove_length hworker
          exact ih (hlate.trans (hm₃.trans m₃.le_succ)) ht₃ rfl (by omega)

/-- At any time the loop comes to wait for a line again, or has a cause to end, or waits for ever to
    write: Message and the workers never block it. -/
theorem stdio_listens (n : Nat) :
    (∃ m th k, n ≤ m ∧ (ρ.pool m).threads 0 = some th ∧ th.rest = .ask .readLine k) ∨
      (∃ m, n ≤ m ∧ EndCause ((ρ.pool m).hist 0)) ∨ WaitsOutside ρ 0 := by
  by_contra hno
  rw [not_or, not_or] at hno
  obtain ⟨hreads, hcause, hnever⟩ := hno
  have hgoes : ∀ {m th}, n ≤ m → (ρ.pool m).threads 0 = some th → ¬ EndCause th.hist := by
    intro m th hm ht hc
    exact hcause ⟨m, hm, (Pool.hist_of ht).symm ▸ hc⟩
  have hover : ∀ {m th}, n ≤ m → (ρ.pool m).threads 0 = some th → ¬ SweepOver th.hist := by
    intro m th hm ht hs
    have hissued := (stdio_awaits (ρ.reach m) ht).2
    exact hgoes hm ht (endCause_of_givenUp hissued (givenUp_of_begun hissued hs.1))
  -- Before its end the loop joins what it has found finished.
  have hjoin : ∀ worker, Passes ρ 0 n (.join worker) := by
    intro worker
    refine hf.passes mcp_unhalted fun m th k hm ht hr => ?_
    have hturn := (stdio_turns (ρ.reach m) ht).2
    rw [hr] at hturn
    rcases hturn.1.joins worker rfl with ⟨hfound, _⟩ | hs
    · have hended := found_ended (ρ.reach m) ((Pool.hist_of ht).symm ▸ hfound) (Or.inl rfl)
      exact ⟨m, fun m' hm' => (mcp_grows ρ hm').ended worker hended⟩
    · exact absurd hs (hover hm ht)
  have hpass : ∀ (h : List McpEvent) o, True → TurnPlace h o → Passes ρ 0 n o := by
    intro h o _ ho
    refine stdio_passes hf ho.own ?_ ?_ fun worker he => he ▸ hjoin worker
    · rintro rfl m th k hm ht hr
      exact absurd ⟨m, th, k, hm, ht, hr⟩ hreads
    · rintro value rfl
      exact outside_passed hnever rfl n
  have hlines : ∀ {m th adapter workers}, n ≤ m → (ρ.pool m).threads 0 = some th →
      th.rest ≠ .ret (.inl (.lines adapter workers)) := by
    intro m th adapter workers hm ht hr
    obtain ⟨m', hm', ht'⟩ := hf.enters mcp_unhalted ht hr
    exact hreads ⟨m', _, _, hm.trans hm', ht', linesRound_eq adapter workers⟩
  obtain ⟨m, th, hm, ht⟩ := stdio_starts hf n
  obtain ⟨m', th', hm', ht', _, hstop⟩ :=
    ρ.comes_to hpass hm ht (stdio_turns (ρ.reach m) ht).2
  obtain ⟨r, hr, hends⟩ := hstop trivial
  have hlate := hm.trans hm'
  match r with
  | .inl (.lines adapter workers) => exact hlines hlate ht' hr
  | .inl (.reap adapter workers index) =>
      obtain ⟨m₂, th₂, workers', hm₂, ht₂, hr₂⟩ := reap_lines hf hjoin hlate ht' hr
      exact hlines hm₂ ht₂ hr₂
  | .inl (.joins workers) => exact hover hlate ht' hends.1
  | .inl (.read request call state) => exact hends.elim
  | .inr () => exact hover hlate ht' hends.1

omit [McpCodec] hf in
/-- While the worker of the sample run has not ended, the loop waits for its next line. -/
theorem stdio_listens_silent : ∃ (ρ : Run (@mcpSystem cancelCodec) .initial) (n : Nat),
    ((∃ m th k, n ≤ m ∧ (ρ.pool m).threads 0 = some th ∧ th.rest = .ask .readLine k) ∨
      (∃ m, n ≤ m ∧ EndCause ((ρ.pool m).hist 0)) ∨ @WaitsOutside cancelCodec ρ 0) ∧
    (ρ.pool n).shared.ended 0 = false := by
  obtain ⟨ρ, n, hf, _, _, _, hrunning⟩ := endedCall_run
  exact ⟨ρ, n, @stdio_listens cancelCodec ρ hf n, hrunning⟩

/-! ## 6. The end of `run` -/

omit [McpCodec] hf in
theorem EndCause.later {h h' : List McpEvent} (hc : EndCause h) (hpre : h <+: h') : EndCause h' := by
  obtain ⟨es, rfl⟩ := hpre
  induction es using List.reverseRecOn with
  | nil => rwa [List.append_nil]
  | append_singleton es e ih =>
      rw [← List.append_assoc]
      exact ih.snoc e

omit hf in
/-- Once there is a cause to end, nothing is read and nothing spawned. -/
theorem turns_over {h h' : List McpEvent} (hi : Issued TurnPlace h') (hpre : h <+: h')
    (hc : EndCause h) : reads h' = reads h ∧ mcpCrew.spawned h' = mcpCrew.spawned h := by
  obtain ⟨es, rfl⟩ := hpre
  have halong := ((along_append [] h es).mp hi).2
  have hquiet : ∀ e ∈ es, e.op.goesOn = false := by
    intro e hin
    obtain ⟨before, after, rfl⟩ := List.append_of_mem hin
    rw [along_append] at halong
    have hplace : TurnPlace (h ++ before) e.op := halong.2.1
    exact Bool.eq_false_iff.mpr fun hgoes =>
      hplace.going hgoes (hc.later (List.prefix_append _ _))
  have hreads : reads es = [] := by
    refine List.filterMap_eq_nil_iff.mpr fun e hin => ?_
    obtain ⟨o, a⟩ := e
    cases o with
    | readLine => cases hquiet _ hin
    | _ => rfl
  have hspawned : mcpCrew.spawned es = [] := by
    refine List.filterMap_eq_nil_iff.mpr fun e hin => ?_
    obtain ⟨o, a⟩ := e
    cases o with
    | spawn request call => cases hquiet _ hin
    | _ => rfl
  have hsplit : reads (h ++ es) = reads h ++ reads es := List.filterMap_append
  have hcrew : mcpCrew.spawned (h ++ es) = mcpCrew.spawned h ++ mcpCrew.spawned es :=
    List.filterMap_append
  rw [hsplit, hcrew, hreads, hspawned, List.append_nil, List.append_nil]
  exact ⟨rfl, rfl⟩

omit hf in
theorem stdio_issued {c : McpPool} (hr : Reach mcpSystem McpPool.initial c) :
    Issued TurnPlace (c.hist 0) := by
  cases ht : c.threads 0 with
  | none =>
      rw [Pool.hist, ht]
      trivial
  | some th =>
      rw [Pool.hist_of ht]
      exact (stdio_turns hr ht).1

omit hf in
theorem few_lines {n : Nat} (hc : EndCause ((ρ.pool n).hist 0)) : FewLines ρ := by
  refine ⟨(reads ((ρ.pool n).hist 0)).length, fun m => ?_⟩
  have hlater := turns_over (stdio_issued (ρ.reach (max m n)))
    (Run.hist_later ρ (le_max_right m n) 0) hc
  rw [← hlater.1]
  exact reads_mono (Run.hist_later ρ (le_max_left m n) 0)

omit hf in
/-- and the workers are those spawned before. -/
theorem spawned_over {n m : Nat} (hnm : n ≤ m) (hc : EndCause ((ρ.pool n).hist 0)) :
    (ρ.pool m).shared.spawned = (ρ.pool n).shared.spawned := by
  have hsame := (turns_over (stdio_issued (ρ.reach m)) (Run.hist_later ρ hnm 0) hc).2
  rw [crew_spawned, crew_spawned, ← (counted (ρ.reach m)).2.1, ← (counted (ρ.reach n)).2.1] at hsame
  have hlength := congrArg List.length hsame
  simp only [List.length_map] at hlength
  exact ((mcp_grows ρ hnm).spawned.eq_of_length hlength.symm).symm

/-- A loop with a cause to end comes to the end of its final sweep. -/
theorem sweep_comes {n : Nat} (hc : EndCause ((ρ.pool n).hist 0)) :
    ∃ m th, n ≤ m ∧ (ρ.pool m).threads 0 = some th ∧ SweepOver th.hist := by
  obtain ⟨n₁, th₁, hn₁, ht₁⟩ := stdio_starts hf n
  have hpass : ∀ h o, (EndCause h ∧ ¬ SweepOver h) → TurnPlace h o → Passes ρ 0 n o := by
    rintro h o ⟨hc, hs⟩ ho
    refine stdio_passes hf ho.own ?_ ?_ ?_
    · rintro rfl
      exact absurd hc (ho.going rfl)
    · rintro value rfl
      exact absurd hc (ho.going rfl)
    · rintro worker rfl
      rcases ho.joins worker rfl with ⟨_, hno⟩ | hover
      · exact absurd hc hno
      · exact absurd hover hs
  obtain ⟨n₂, th₂, hn₂, ht₂, hpre, hstop⟩ :=
    ρ.comes_to hpass hn₁ ht₁ (stdio_turns (ρ.reach n₁) ht₁).2
  refine ⟨n₂, th₂, hn₁.trans hn₂, ht₂, ?_⟩
  have hc₂ : EndCause th₂.hist := by
    have hlater := hc.later (Run.hist_later ρ (hn₁.trans hn₂) 0)
    rwa [Pool.hist_of ht₂] at hlater
  by_contra hs
  obtain ⟨r, _, hends⟩ := hstop ⟨hc₂, hs⟩
  match r with
  | .inl (.lines adapter workers) => exact hends.2.1 hc₂
  | .inl (.reap adapter workers index) => exact hends.2.1 hc₂
  | .inl (.joins workers) => exact hs hends.1
  | .inl (.read request call state) => exact hends.elim
  | .inr () => exact hs hends.1

/-- Every worker of such a run ends, or waits outside for ever. -/
theorem worker_settles {n : Nat} (hc : EndCause ((ρ.pool n).hist 0)) {m call : Nat}
    {request : CallRequest} (hspawned : (call, request) ∈ (ρ.pool m).shared.spawned) :
    (∃ m, (ρ.pool m).shared.ended call = true) ∨ WaitsOutside ρ (call + 1) := by
  by_cases hwaits : WaitsOutside ρ (call + 1)
  · exact Or.inr hwaits
  left
  obtain ⟨n₁, hlock⟩ := active_lock_passed hf (few_lines hc)
  have hc₁ : EndCause ((ρ.pool (max n n₁)).hist 0) :=
    hc.later (Run.hist_later ρ (le_max_left n n₁) 0)
  obtain ⟨n₂, th₂, hn₂, ht₂, hover⟩ := sweep_comes hf hc₁
  have hc₂ : EndCause ((ρ.pool n₂).hist 0) := hc₁.later (Run.hist_later ρ hn₂ 0)
  have hin : (call, request) ∈ (ρ.pool n₂).shared.spawned := by
    rw [← spawned_over (le_max_right m n₂) hc₂]
    exact (mcp_grows ρ (le_max_left m n₂)).spawned.subset hspawned
  have hswept := all_swept (ρ.reach n₂) ((Pool.hist_of ht₂).symm ▸ hover) hin
  obtain ⟨m', _, _, _, _, hended⟩ := worker_ends hf hin hswept
    ((hlock _).mono ((le_max_right n n₁).trans hn₂)) hwaits
  exact ⟨m', hended⟩

/-- The final joins come to their end, where the loop passes them. -/
theorem joins_end {n : Nat} (hjoin : ∀ worker, Passes ρ 0 n (.join worker)) {workers : List Nat}
    {m : Nat} {th : McpThreadState} (hm : n ≤ m) (ht : (ρ.pool m).threads 0 = some th)
    (hr : th.rest = .ret (.inl (.joins workers))) :
    ∃ m' th', (ρ.pool m').threads 0 = some th' ∧ th'.rest = .ret (.inr ()) := by
  induction workers generalizing m th with
  | nil =>
      obtain ⟨m₁, _, ht₁⟩ := hf.enters mcp_unhalted ht hr
      exact ⟨m₁, _, ht₁, rfl⟩
  | cons worker workers ih =>
      obtain ⟨m₁, hm₁, ht₁⟩ := hf.enters mcp_unhalted ht hr
      obtain ⟨m₂, _, hm₂, _, ht₂⟩ := hjoin worker m₁ _ _ (hm.trans hm₁) ht₁ rfl
      exact ih (hm.trans (hm₁.trans (hm₂.trans m₂.le_succ))) ht₂ rfl

omit hf in
/-- A worker that waits outside for ever never ends. -/
theorem outside_stays {call : Nat} (hwaits : WaitsOutside ρ (call + 1)) (n : Nat) :
    (ρ.pool n).shared.ended call = false := by
  rw [Bool.eq_false_iff]
  intro hended
  obtain ⟨n₁, o, _, hstays⟩ := hwaits
  obtain ⟨th, k, ht, hr⟩ := hstays (max n n₁) (le_max_right _ _)
  have hlater := (mcp_grows ρ (le_max_left n n₁)).ended call hended
  have hfinished := ended_finished (ρ.reach (max n n₁)) hlater
  rw [Pool.hist_of ht] at hfinished
  obtain ⟨hissued, hrest⟩ := worker_stages (ρ.reach _) ht
  rw [hr] at hrest
  have hplace : (workerMonitor.state th.hist).allows o = true := hrest.1
  rw [returned_of_finished hissued hfinished] at hplace
  cases hplace

/-- The end of a run in which the loop has a cause to end. -/
structure AdapterStop (ρ : Run mcpSystem .initial) : Prop where
  /-- Every worker ever spawned ends, or waits for ever in a connect or a write. -/
  settled : ∀ n call request, (call, request) ∈ (ρ.pool n).shared.spawned →
    (∃ m, (ρ.pool m).shared.ended call = true) ∨ WaitsOutside ρ (call + 1)
  /-- If none waits so, `run` returns, and every worker has ended; -/
  returns : (∀ call, ¬ WaitsOutside ρ (call + 1)) → ∃ n th, (ρ.pool n).threads 0 = some th ∧
    th.rest = .ret (.inr ()) ∧ ∀ call request, (call, request) ∈ (ρ.pool n).shared.spawned →
      (ρ.pool n).shared.ended call = true
  /-- if one does, it never returns. -/
  blocked : ∀ call, WaitsOutside ρ (call + 1) → ∀ n th, (ρ.pool n).threads 0 = some th →
    th.rest ≠ .ret (.inr ())

/-- Once stdin has ended or failed, a line is too long or a write of the loop has failed, `run`
    returns if and only if no worker waits outside for ever. -/
theorem run_stops {n : Nat} (hc : EndCause ((ρ.pool n).hist 0)) : AdapterStop ρ := by
  have hsettled : ∀ n call request, (call, request) ∈ (ρ.pool n).shared.spawned →
      (∃ m, (ρ.pool m).shared.ended call = true) ∨ WaitsOutside ρ (call + 1) :=
    fun _ _ _ hin => worker_settles hf hc hin
  have hall : ∀ {n th}, (ρ.pool n).threads 0 = some th → th.rest = .ret (.inr ()) →
      ∀ call request, (call, request) ∈ (ρ.pool n).shared.spawned →
        (ρ.pool n).shared.ended call = true := by
    intro n th ht hr call request hin
    have haccount := stdio_account (ρ.reach n) ht
    refine (haccount.returned hr).2 call ?_
    rw [← haccount.spawned]
    exact List.mem_map_of_mem (f := (·.1)) hin
  refine ⟨hsettled, fun hnever => ?_, fun call hwaits n th ht hr => ?_⟩
  · have hjoin : ∀ worker, Passes ρ 0 n (.join worker) := by
      intro worker m th k hm ht hr
      obtain ⟨request, hin⟩ := join_spawned (ρ.reach m) ht hr
      have hends := (hsettled m worker request hin).resolve_right (hnever worker)
      exact join_passed hf hends m th k hm ht hr
    obtain ⟨n₁, th₁, hn₁, ht₁⟩ := stdio_starts hf n
    have hpass : ∀ h o, EndCause h → TurnPlace h o → Passes ρ 0 n o := by
      intro h o hc ho
      refine stdio_passes hf ho.own ?_ ?_ fun worker he => he ▸ hjoin worker
      · rintro rfl
        exact absurd hc (ho.going rfl)
      · rintro value rfl
        exact absurd hc (ho.going rfl)
    obtain ⟨n₂, th₂, hn₂, ht₂, _, hstop⟩ :=
      ρ.comes_to hpass hn₁ ht₁ (stdio_turns (ρ.reach n₁) ht₁).2
    have hc₂ : EndCause th₂.hist := by
      have hlater := hc.later (Run.hist_later ρ (hn₁.trans hn₂) 0)
      rwa [Pool.hist_of ht₂] at hlater
    obtain ⟨r, hr₂, hends⟩ := hstop hc₂
    match r with
    | .inl (.lines adapter workers) => exact absurd hc₂ hends.2.1
    | .inl (.reap adapter workers index) => exact absurd hc₂ hends.2.1
    | .inl (.joins workers) =>
        obtain ⟨m, th, ht, hr⟩ := joins_end hf hjoin (hn₁.trans hn₂) ht₂ hr₂
        exact ⟨m, th, ht, hr, hall ht hr⟩
    | .inl (.read request call state) => exact hends.elim
    | .inr () => exact ⟨n₂, th₂, ht₂, hr₂, hall ht₂ hr₂⟩
  · obtain ⟨n₁, o, _, hstays⟩ := id hwaits
    obtain ⟨thw, k, htw, _⟩ := hstays (max n n₁) (le_max_right _ _)
    obtain ⟨request, hin, _⟩ := worker_started (ρ.reach _) htw
    obtain ⟨th', ht', hr'⟩ := ρ.over_later (le_max_left n n₁) ht hr
    have hended := hall ht' hr' call request hin
    rw [outside_stays hwaits] at hended
    cases hended

omit [McpCodec] hf in
/-- Both workers of the sample run have ended at the end of the input, and the loop returns. -/
theorem run_stops_joined : ∃ (ρ : Run (@mcpSystem joinCodec) .initial) (n : Nat) (th : McpThreadState),
    @AdapterStop joinCodec ρ ∧ (ρ.pool n).threads 0 = some th ∧ th.rest = .ret (.inr ()) ∧
      (ρ.pool n).shared.spawned.length = 2 := by
  obtain ⟨ρ, n, th, hf, hcause, ht, hr, hlength⟩ := joinedPool_run
  exact ⟨ρ, n, th, @run_stops joinCodec ρ hf n hcause, ht, hr, hlength⟩

end Results

end MessageNexus
