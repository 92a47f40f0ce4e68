/-
  File:      MessageNexus/Mcp/Ending.lean
  Subject:   WHAT IS STILL TO END. Every call is in the active map until its worker removes it, and
             a flag is set by the loop in a section or by the worker itself; so once the final sweep
             is over, every worker is swept or past its read loop.

  * `McpShared.Grows`, `mcp_grows` -- what no step undoes;
  * `Present`, `present` -- an inserted call stays in the map until its worker removes it;
  * `FlagCause`, `flag_cause` -- who has set a flag; `stored_swept` -- the loop's sections come to
    their end;
  * `all_swept` -- behind the final sweep;
  * `ended_finished`, `returned_ended` -- a worker has ended once it has finished.
-/
import MessageNexus.Lib.Fair
import MessageNexus.Mcp.Turns

namespace MessageNexus

open Interact SignalFlow SignalMessage Json

/-! ## 1. What no step undoes -/

structure McpShared.Grows (s s' : McpShared) : Prop where
  spawned : s.spawned <+: s'.spawned
  cancelled : ∀ n, s.cancelled n = true → s'.cancelled n = true
  shut : ∀ n, s.shut n = true → s'.shut n = true
  ended : ∀ n, s.ended n = true → s'.ended n = true

theorem McpShared.Grows.refl (s : McpShared) : s.Grows s where
  spawned := List.prefix_rfl
  cancelled _ h := h
  shut _ h := h
  ended _ h := h

theorem McpShared.Grows.trans {s₁ s₂ s₃ : McpShared} (h : s₁.Grows s₂) (h' : s₂.Grows s₃) :
    s₁.Grows s₃ where
  spawned := h.spawned.trans h'.spawned
  cancelled n hn := h'.cancelled n (h.cancelled n hn)
  shut n hn := h'.shut n (h.shut n hn)
  ended n hn := h'.ended n (h.ended n hn)

/-- A worker that has ended stays so. -/
theorem ended_after {s : McpShared} {n : Nat} (t : Nat) (o : McpOp) (h : s.ended n = true) :
    (s.after t o).ended n = true := by
  cases o with
  | finish m =>
      show Function.update s.ended m true n = true
      by_cases hn : n = m
      · rw [hn, Function.update_self]
      · rw [Function.update_of_ne hn]
        exact h
  | _ => exact h

theorem mcpSem_grows {s s' : McpShared} {t : Nat} {e : McpEvent} (h : mcpSem s t e s') :
    s.Grows s' := by
  obtain ⟨_, rfl⟩ := h
  refine ⟨?_, fun n => cancelled_after t e.op, fun n => shut_after t e.op, fun n => ended_after t e.op⟩
  cases e.op with
  | spawn request call => exact List.prefix_append _ _
  | _ => exact List.prefix_rfl

section Runs

variable [McpCodec]

theorem mcp_unhalted (s s' : McpShared) : ¬ mcpSystem.halt s s' := fun h => h

theorem mcp_grows (ρ : Run mcpSystem .initial) {n m : Nat} (h : n ≤ m) :
    (ρ.pool n).shared.Grows (ρ.pool m).shared :=
  ρ.stays (F := fun s => (ρ.pool n).shared.Grows s) (fun _ _ _ _ hs hg => hg.trans (mcpSem_grows hs))
    (fun _ _ _ _ hs hg => by rw [hs.1]; exact hg) (fun _ _ hs _ => False.elim hs) h (.refl _)

end Runs

/-! ## 2. The calls in the map -/

section Run

variable [McpCodec] {c : McpPool}

/-- An inserted call is in the map, or its worker has removed it. -/
def Present (s : McpShared) (H : Nat → List McpEvent) : Prop :=
  ∀ p ∈ (stdioLog (H 0)).inserted, (∃ entry ∈ s.active, entry.1 = p.1 ∧ entry.2.cancelled = p.2) ∨
    (⟨.removeActive p.1, ()⟩ : McpEvent) ∈ H (p.2 + 1)

omit [McpCodec] in
/-- An entry survives what names another key. -/
theorem entry_kept {s : McpShared} {key : String} {n : Nat} (t : Nat) (o : McpOp)
    (hentry : ∃ entry ∈ s.active, entry.1 = key ∧ entry.2.cancelled = n)
    (hinsert : ∀ key' call, o = .insertActive key' call → key' ≠ key)
    (hremove : ∀ key', o = .removeActive key' → key' ≠ key) :
    ∃ entry ∈ (s.after t o).active, entry.1 = key ∧ entry.2.cancelled = n := by
  obtain ⟨entry, hin, rfl, rfl⟩ := hentry
  have hother : ∀ key', key' ≠ entry.1 → entry ∈ s.active.remove key' := fun key' hne =>
    List.mem_filter.mpr ⟨hin, bne_iff_ne.mpr hne.symm⟩
  cases o with
  | insertActive key' call =>
      exact ⟨entry, List.mem_cons_of_mem _ (hother key' (hinsert key' call rfl)), rfl, rfl⟩
  | removeActive key' => exact ⟨entry, hother key' (hremove key' rfl), rfl, rfl⟩
  | setObserver key' call =>
      refine ⟨_, List.mem_map_of_mem hin, ?_⟩
      by_cases hkey : (entry.1 == key') = true
      · rw [if_pos hkey]
        exact ⟨rfl, rfl⟩
      · rw [if_neg hkey]
        exact ⟨rfl, rfl⟩
  | _ => exact ⟨entry, hin, rfl, rfl⟩

omit [McpCodec] in
/-- Only an insertion brings a call into the log. -/
theorem inserted_snoc (h : List McpEvent) {e : McpEvent} (ho : ∀ key call, e.op ≠ .insertActive key call) :
    (stdioLog (h ++ [e])).inserted = (stdioLog h).inserted := by
  rw [stdioLog_snoc]
  obtain ⟨o, a⟩ := e
  cases o with
  | insertActive key call => exact absurd rfl (ho key call)
  | readLine =>
      cases a with
      | error error => rfl
      | ok line =>
          unfold StdioLog.after
          dsimp only
          split <;> rfl
  | _ => rfl

theorem present_stdio {s : McpShared} {H : Nat → List McpEvent} {e : McpEvent}
    (hp : StdioPlace (H 0) e.op) (hc : Present s H) :
    Present (s.after 0 e.op) (Function.update H 0 (H 0 ++ [e])) := by
  intro p hin
  rw [Function.update_self] at hin
  rw [Function.update_of_ne (Nat.succ_ne_zero _)]
  have hremove : ∀ key', e.op = .removeActive key' → key' ≠ p.1 := by
    intro key' ho
    rw [ho] at hp
    cases hp.2.1
  by_cases hinsert : ∃ key call, e.op = .insertActive key call
  · obtain ⟨key, call, ho⟩ := hinsert
    have hnew : (stdioLog (H 0 ++ [e])).inserted = (stdioLog (H 0)).inserted ++ [(key, call)] := by
      rw [stdioLog_snoc]
      obtain ⟨o, a⟩ := e
      cases ho
      rfl
    rw [hnew] at hin
    rw [ho] at hp ⊢
    rcases List.mem_append.mp hin with hold | hlast
    · -- the key of the new call is fresh
      obtain ⟨_, _, _, _, hpaired, hfresh⟩ := hp
      refine (hc p hold).imp_left fun hentry => entry_kept 0 _ hentry (fun key' call' he => ?_) nofun
      cases he
      rw [hpaired] at hold
      obtain ⟨spawned, hspawned, rfl⟩ := List.mem_map.mp hold
      exact (hfresh spawned hspawned).1.symm
    · cases List.mem_singleton.mp hlast
      exact Or.inl ⟨_, List.mem_cons_self, rfl, rfl⟩
  · rw [inserted_snoc _ fun key call he => hinsert ⟨key, call, he⟩] at hin
    refine (hc p hin).imp_left fun hentry => entry_kept 0 e.op hentry (fun key call he => ?_) hremove
    exact absurd ⟨key, call, he⟩ hinsert

omit [McpCodec] in
theorem present_worker {s : McpShared} {H : Nat → List McpEvent} {e : McpEvent} {n : Nat}
    {request : CallRequest} (hins : Insertions (stdioLog (H 0)).inserted (stdioLog (H 0)).spawned)
    (hin : (n, request) ∈ (stdioLog (H 0)).spawned) (hb : e.op.belongs request n) (hc : Present s H) :
    Present (s.after (n + 1) e.op) (Function.update H (n + 1) (H (n + 1) ++ [e])) := by
  intro p hp
  rw [Function.update_of_ne (Nat.succ_ne_zero n).symm] at hp
  have hgrows : ∀ {e' : McpEvent}, e' ∈ H (p.2 + 1) →
      e' ∈ Function.update H (n + 1) (H (n + 1) ++ [e]) (p.2 + 1) := by
    intro e' he'
    by_cases hn : p.2 + 1 = n + 1
    · rw [hn, Function.update_self]
      exact List.mem_append_left _ (hn ▸ he')
    · rwa [Function.update_of_ne hn]
  rcases hc p hp with hentry | hremoved
  · by_cases hkey : e.op = .removeActive p.1
    · -- the key of a worker belongs to its own call
      right
      rw [hkey] at hb
      have hown : p = (request.key, n) := hins.keys p hp _ (hins.spawned _ hin) hb
      rw [hown] at hkey ⊢
      rw [Function.update_self]
      refine List.mem_append_right _ (List.mem_singleton.mpr ?_)
      obtain ⟨o, a⟩ := e
      cases hkey
      rfl
    · left
      refine entry_kept (n + 1) e.op hentry (fun key call he => ?_) fun key he hsame => hkey (hsame ▸ he)
      rw [he] at hb
      exact hb.elim
  · exact Or.inr (hgrows hremoved)

theorem present (hr : Reach mcpSystem McpPool.initial c) : Present c.shared c.hist := by
  refine Reach.logged (D := Disciplined) (fun c hr => disciplined hr) ?_ ?_ ?_ ?_ hr
  · intro p hin
    cases hin
  · intro s H t e s' hd hnow hs hc
    obtain ⟨_, rfl⟩ := hs
    cases t with
    | zero => exact present_stdio hnow.1.at hc
    | succ n =>
        obtain ⟨request, hin, _, hp⟩ := WorkerHist.last hnow
        rw [(belongs_keeps (t := n + 1) s hp.2.1).2, (hd 0).2] at hin
        exact present_worker (insertions (hd 0).1) hin hp.2.1 hc
  · intro s t p s' H hs hc
    rw [hs.1]
    exact hc
  · intro s s' H hs _
    exact hs.elim

/-! ## 3. Who has set a flag -/

/-- A flag that is set was set by the loop, or by the worker of the call. -/
def FlagCause (s : McpShared) (H : Nat → List McpEvent) : Prop :=
  ∀ n, s.cancelled n = true → Stored n (H 0) ∨ Stored n (H (n + 1))

theorem flag_cause (hr : Reach mcpSystem McpPool.initial c) : FlagCause c.shared c.hist := by
  refine Reach.logged (D := WorkerHist) (fun c hr => worker_hist hr) ?_ ?_ ?_ ?_ hr
  · intro n hn
    cases hn
  · intro s H t e s' _ hnow hs hc
    obtain ⟨_, rfl⟩ := hs
    intro n hn
    have hgrows : ∀ u, Stored n (H u) → Stored n (Function.update H t (H t ++ [e]) u) := by
      intro u hin
      by_cases hu : u = t
      · rw [hu, Function.update_self]
        exact List.mem_append_left _ (hu ▸ hin)
      · rwa [Function.update_of_ne hu]
    by_cases hstore : e.op = .storeCancelled n
    · have hlast : Stored n (Function.update H t (H t ++ [e]) t) := by
        rw [Function.update_self]
        refine List.mem_append_right _ (List.mem_singleton.mpr ?_)
        obtain ⟨o, a⟩ := e
        cases hstore
        rfl
      cases t with
      | zero => exact Or.inl hlast
      | succ call =>
          obtain ⟨request, _, _, hp⟩ := WorkerHist.last hnow
          have hown := hp.2.1
          rw [hstore] at hown
          cases (show n = call from hown)
          exact Or.inr hlast
    · have hold : s.cancelled n = true := by
        cases ho : e.op with
        | storeCancelled m =>
            have hne : n ≠ m := fun he => hstore (he ▸ ho)
            rw [ho] at hn
            exact (Function.update_of_ne hne true s.cancelled) ▸ hn
        | _ =>
            rw [ho] at hn
            exact hn
      exact (hc n hold).imp (hgrows 0) (hgrows (n + 1))
  · intro s t p s' H hs hc
    rw [hs.1]
    exact hc
  · intro s s' H hs _
    exact hs.elim

/-- A section in which the loop has set a flag is over, or the loop is still in it. -/
theorem stored_swept {h : List McpEvent} (hi : Issued StdioPlace h) {n : Nat} (hn : Stored n h) :
    Swept n h ∨ activeMutex.held h = true := by
  refine issued_induction (P := fun h => Stored n h → Swept n h ∨ activeMutex.held h = true)
    (fun hn => by cases hn) ?_ h hi hn
  intro h e _ hp ih hn
  rcases hn.snoc with hold | rfl
  · rcases ih hold with ⟨before, within, after, rfl⟩ | hheld
    · exact Or.inl ⟨before, within, after ++ [e], by simp⟩
    · obtain ⟨before, within, rfl⟩ := List.append_of_mem hold
      obtain ⟨o, a⟩ := e
      cases o with
      | unlockActive => exact Or.inl ⟨before, within, [], by simp⟩
      | lockActive => exact absurd ((hp.1.1 rfl).symm.trans hheld) Bool.false_ne_true
      | _ => exact Or.inr (held_within hheld ⟨_, a⟩ rfl rfl)
  · exact Or.inr ((held_offActive h _ rfl).trans hp.2.2.1)

omit [McpCodec] in
theorem Swept.stored {n : Nat} {h : List McpEvent} (hs : Swept n h) : Stored n h := by
  obtain ⟨before, within, after, rfl⟩ := hs
  simp [Stored]

omit [McpCodec] in
theorem Swept.later {n : Nat} {h h' : List McpEvent} (hs : Swept n h) (hpre : h <+: h') :
    Swept n h' := by
  obtain ⟨before, within, after, rfl⟩ := hs
  obtain ⟨es, rfl⟩ := hpre
  exact ⟨before, within, after ++ es, by simp⟩

/-! ## 4. Behind the final sweep -/

/-- Once the final sweep is over, every call is swept, or its worker is past its read loop. -/
theorem all_swept (hr : Reach mcpSystem McpPool.initial c) (hover : SweepOver (c.hist 0)) {call : Nat}
    {request : CallRequest} (hs : (call, request) ∈ c.shared.spawned) :
    Swept call (c.hist 0) ∨ (workerMonitor.state (c.hist (call + 1))).past = true := by
  obtain ⟨hi, hspawned⟩ : Disciplined c.shared 0 (c.hist 0) := disciplined hr 0
  have hpast : ∀ {e : McpEvent}, e ∈ c.hist (call + 1) →
      ((∃ key, e.op = .removeActive key) ∨ ∃ n, e.op = .storeCancelled n) →
      (workerMonitor.state (c.hist (call + 1))).past = true :=
    fun hin he => past_since (worker_issued hr call) hin he
  have hinserted : (request.key, call) ∈ (stdioLog (c.hist 0)).inserted :=
    (insertions hi).spawned (call, request) (hspawned ▸ hs)
  rcases present hr _ hinserted with ⟨entry, hentry, _, hnumber⟩ | hremoved
  · have hcancelled := (sweeping hr).all hover.1 (unlocked_idle hi hover.2) entry hentry
    rw [hnumber] at hcancelled
    rcases flag_cause hr call hcancelled with hstored | hown
    · rcases stored_swept hi hstored with hswept | hheld
      · exact Or.inl hswept
      · exact absurd (hover.2.symm.trans hheld) Bool.false_ne_true
    · exact Or.inr (hpast hown (Or.inr ⟨call, rfl⟩))
  · exact Or.inr (hpast hremoved (Or.inl ⟨_, rfl⟩))

/-! ## 5. The end of a worker -/

/-- A worker that has ended has finished. -/
theorem ended_finished (hr : Reach mcpSystem McpPool.initial c) {call : Nat}
    (hended : c.shared.ended call = true) : (⟨.finish call, ()⟩ : McpEvent) ∈ c.hist (call + 1) := by
  refine Reach.logged (D := Disciplined)
    (P := fun s H => ∀ call, s.ended call = true → (⟨.finish call, ()⟩ : McpEvent) ∈ H (call + 1))
    (fun c hr => disciplined hr) ?_ ?_ ?_ ?_ hr call hended
  · intro call hended
    cases hended
  · intro s H t e s' _ hnow hs hc call hended
    obtain ⟨_, rfl⟩ := hs
    have hgrows : ∀ {e' : McpEvent}, e' ∈ H (call + 1) →
        e' ∈ Function.update H t (H t ++ [e]) (call + 1) := by
      intro e' he'
      by_cases hu : call + 1 = t
      · rw [hu, Function.update_self]
        exact List.mem_append_left _ (hu ▸ he')
      · rwa [Function.update_of_ne hu]
    by_cases hfinish : e.op = .finish call
    · cases t with
      | zero =>
          have hp : StdioPlace (H 0) e.op := hnow.1.at
          rw [hfinish] at hp
          cases hp.2.1
      | succ n =>
          obtain ⟨request, _, _, hp⟩ := WorkerHist.last hnow
          have hown := hp.2.1
          rw [hfinish] at hown
          cases (show call = n from hown)
          rw [Function.update_self]
          refine List.mem_append_right _ (List.mem_singleton.mpr ?_)
          obtain ⟨o, a⟩ := e
          cases hfinish
          rfl
    · refine hgrows (hc call ?_)
      cases ho : e.op with
      | finish m =>
          have hne : call ≠ m := fun he => hfinish (he ▸ ho)
          rw [ho] at hended
          exact (Function.update_of_ne hne true s.ended) ▸ hended
      | _ =>
          rw [ho] at hended
          exact hended
  · intro s t p s' H hs hc
    rw [hs.1]
    exact hc
  · intro s s' H hs _
    exact hs.elim

/-- A worker that is over has ended. -/
theorem returned_ended (hr : Reach mcpSystem McpPool.initial c) {call : Nat} {th : McpThreadState}
    (ht : c.threads (call + 1) = some th) (hover : workerMonitor.state th.hist = .returned) :
    c.shared.ended call = true := by
  obtain ⟨other, hin⟩ := finished_of_returned (worker_stages hr ht).1 hover
  obtain ⟨request, _, hstart⟩ := worker_started hr ht
  obtain ⟨before, after, hhist⟩ := List.append_of_mem hin
  have hplaces := (worker_places hr ht hstart).1
  rw [hhist] at hplaces
  have hown : other = call := (Along.at hplaces).2.1
  refine Reach.marks (F := fun _ e s => ∀ n, e.op = .finish n → s.ended n = true) ?_ ?_ ?_ ?_ hr
    ((Pool.hist_of ht).symm ▸ hin) call (congrArg McpOp.finish hown)
  · intro s t e s' hs n hfinish
    rw [hs.2, hfinish]
    exact Function.update_self ..
  · intro _ _ s t e s' hs hmarked n hfinish
    exact (mcpSem_grows hs).ended n (hmarked n hfinish)
  · intro _ _ s t p s' hs hmarked
    rw [hs.1]
    exact hmarked
  · intro _ _ s s' hs _
    exact hs.elim

end Run

end MessageNexus
