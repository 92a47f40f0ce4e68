/-
  File:      MessageNexus/Mcp/Cancel.lean
  Subject:   NO CANCELLATION IS LOST: the stdio loop sets a call's flag and shuts its observer down
             in one section of the active map; the worker registers its observer in another and
             only then looks at its flag. Whichever comes first, the other one sees it.

  * `Insertions`, `insertions` -- keys and numbers of the inserted calls are never used twice;
  * `sweep_current` -- the calls that a section has found are still in the map, as found;
  * `Entries`, `entries_stdio`, `entries_worker` -- an entry belongs to its call, and carries the
    observer of a worker that has registered;
  * `Cancels`, `cancels` -- a flag the loop has set finds its socket shut down, due, or its worker
    unchecked;
  * `cancel_kept` -- no cancellation is lost, and none reaches another call.
-/
import MessageNexus.Mcp.Admission

namespace MessageNexus

open Interact SignalFlow SignalMessage Json

/-! ## 1. What the history of the stdio loop shows -/

/-- The loop has set the flag of this call. -/
def Stored (n : Nat) (h : List McpEvent) : Prop := (⟨.storeCancelled n, ()⟩ : McpEvent) ∈ h

/-- A section in which the loop has set the flag of this call is over. -/
def Swept (n : Nat) (h : List McpEvent) : Prop :=
  ∃ before within after, h = before ++ ⟨.storeCancelled n, ()⟩ :: within ++
    ⟨.unlockActive, ()⟩ :: after

/-- The section has set the flag of this call, and is about to shut its socket down. -/
def Due (n : Nat) (h : List McpEvent) : Prop :=
  (sweepNow h).flagged = true ∧ ∃ call rest, (sweepNow h).calls = call :: rest ∧ call.cancelled = n

/-- The operation cancels this call. -/
def McpOp.cancels (n : Nat) : McpOp → Prop
  | .storeCancelled m => m = n
  | .shutdown m => m = n
  | _ => False

theorem Stored.snoc {n : Nat} {h : List McpEvent} {e : McpEvent} (hs : Stored n (h ++ [e])) :
    Stored n h ∨ e = ⟨.storeCancelled n, ()⟩ := by
  rcases List.mem_append.mp hs with hold | hnew
  · exact Or.inl hold
  · exact Or.inr (List.mem_singleton.mp hnew).symm

/-- A section that is over was over before the last event, or the last event ended it. -/
theorem Swept.snoc {n : Nat} {h : List McpEvent} {e : McpEvent} (hs : Swept n (h ++ [e])) :
    Swept n h ∨ (e.op = .unlockActive ∧ Stored n h) := by
  obtain ⟨before, within, after, he⟩ := hs
  rcases List.eq_nil_or_concat after with rfl | ⟨init, last, rfl⟩
  · right
    have hends : h ++ [e] = (before ++ ⟨.storeCancelled n, ()⟩ :: within) ++
        [⟨.unlockActive, ()⟩] := he
    obtain ⟨hh, hlast⟩ := List.append_inj' hends rfl
    cases hlast
    refine ⟨rfl, ?_⟩
    rw [Stored, hh]
    simp
  · left
    have hsplit : h ++ [e] = (before ++ ⟨.storeCancelled n, ()⟩ :: within ++
        ⟨.unlockActive, ()⟩ :: init) ++ [last] := by
      rw [he]
      simp
    obtain ⟨hh, _⟩ := List.append_inj' hsplit rfl
    exact ⟨before, within, init, hh⟩

theorem not_due {n : Nat} {h : List McpEvent} (hidle : (sweepNow h).calls = []) : ¬ Due n h := by
  intro ⟨_, call, rest, hcalls, _⟩
  rw [hidle] at hcalls
  cases hcalls

/-- The keys and the numbers of the inserted calls are distinct, and the spawned calls are among
    them. -/
structure Insertions (inserted : List (String × Nat)) (spawned : List (Nat × CallRequest)) : Prop where
  keys : ∀ p ∈ inserted, ∀ q ∈ inserted, p.1 = q.1 → p = q
  numbers : ∀ p ∈ inserted, ∀ q ∈ inserted, p.2 = q.2 → p = q
  spawned : ∀ p ∈ spawned, entryOf p ∈ inserted

theorem Insertions.snoc {inserted : List (String × Nat)} {spawned : List (Nat × CallRequest)}
    (hi : Insertions inserted spawned) {key : String} {call : Nat}
    (hfresh : ∀ p ∈ inserted, p.1 ≠ key ∧ p.2 ≠ call) :
    Insertions (inserted ++ [(key, call)]) spawned := by
  constructor
  · intro p hp q hq he
    rcases List.mem_append.mp hp with hp | hp
    · rcases List.mem_append.mp hq with hq | hq
      · exact hi.keys p hp q hq he
      · cases List.mem_singleton.mp hq
        exact absurd he (hfresh p hp).1
    · cases List.mem_singleton.mp hp
      rcases List.mem_append.mp hq with hq | hq
      · exact absurd he.symm (hfresh q hq).1
      · exact (List.mem_singleton.mp hq).symm
  · intro p hp q hq he
    rcases List.mem_append.mp hp with hp | hp
    · rcases List.mem_append.mp hq with hq | hq
      · exact hi.numbers p hp q hq he
      · cases List.mem_singleton.mp hq
        exact absurd he (hfresh p hp).2
    · cases List.mem_singleton.mp hp
      rcases List.mem_append.mp hq with hq | hq
      · exact absurd he.symm (hfresh q hq).2
      · exact (List.mem_singleton.mp hq).symm
  · exact fun p hp => List.mem_append_left _ (hi.spawned p hp)

section Run

variable [McpCodec] {c : McpPool}

/-- Where nothing but the cancelling of calls may follow, nothing else does. -/
theorem unlocked_idle {h : List McpEvent} (hi : Issued StdioPlace h) (hh : Unlocked h) :
    (sweepNow h).calls = [] := by
  refine issued_induction (P := fun h => Unlocked h → (sweepNow h).calls = []) ?_ ?_ h hi hh
  · exact fun _ => rfl
  intro h e _ hp ih hh
  have hout : activeMutex.held (h ++ [e]) ≠ true := by
    rw [show activeMutex.held (h ++ [e]) = false from hh]
    decide
  rw [sweepNow_snoc]
  obtain ⟨o, a⟩ := e
  cases o with
  | lockActive => rfl
  | unlockActive => exact hp.2.2
  | lenActive => exact absurd (held_within (hp.1.2.2 rfl) ⟨.lenActive, a⟩ rfl rfl) hout
  | getActive key => exact absurd (held_within (hp.1.2.2 rfl) ⟨.getActive key, a⟩ rfl rfl) hout
  | activeCalls => exact absurd (held_within (hp.1.2.2 rfl) ⟨.activeCalls, a⟩ rfl rfl) hout
  | insertActive key call => rfl
  | setObserver key call => rfl
  | removeActive key => rfl
  | storeCancelled n =>
      exact absurd ((held_offActive h ⟨.storeCancelled n, a⟩ rfl).trans hp.2.2.1) hout
  | shutdown n => exact absurd ((held_offActive h ⟨.shutdown n, a⟩ rfl).trans hp.2.2.1) hout
  | _ => exact ih ((held_offActive h ⟨_, a⟩ rfl).symm.trans hh)

theorem insertions {h : List McpEvent} (hi : Issued StdioPlace h) :
    Insertions (stdioLog h).inserted (stdioLog h).spawned := by
  refine issued_induction
    (P := fun h => Insertions (stdioLog h).inserted (stdioLog h).spawned) ?_ ?_ h hi
  · exact ⟨fun p hp => (by cases hp), fun p hp => (by cases hp), fun p hp => (by cases hp)⟩
  intro h e _ hp ih
  rw [stdioLog_snoc]
  obtain ⟨o, a⟩ := e
  cases o with
  | readLine =>
      cases a with
      | error error => exact ih
      | ok line =>
          unfold StdioLog.after
          dsimp only
          split
          · exact ih
          · exact ih
  | insertActive key call =>
      obtain ⟨_, _, _, _, hpaired, hfresh⟩ := hp
      refine ih.snoc fun p hin => ?_
      rw [hpaired] at hin
      obtain ⟨spawned, hspawned, rfl⟩ := List.mem_map.mp hin
      obtain ⟨hkey, hnumber⟩ := hfresh spawned hspawned
      exact ⟨hkey, Nat.ne_of_lt hnumber⟩
  | spawn request call =>
      obtain ⟨_, _, _, hpaired, _⟩ := hp
      refine ⟨ih.keys, ih.numbers, fun p hin => ?_⟩
      rcases List.mem_append.mp hin with hold | hnew
      · exact ih.spawned p hold
      · cases List.mem_singleton.mp hnew
        show (request.key, call) ∈ (stdioLog h).inserted
        rw [hpaired]
        exact List.mem_append_right _ (List.mem_singleton_self _)
  | _ => exact ih

/-! ## 2. The calls that a section has found -/

/-- Every thread of the adapter is live: nothing halts it. -/
theorem thread_live (hr : Reach mcpSystem McpPool.initial c) :
    ∀ t th, c.threads t = some th → th.live = true :=
  hr.live fun _ _ hs => hs

theorem active_issued (hr : Reach mcpSystem McpPool.initial c) {t : Nat} {th : McpThreadState}
    (ht : c.threads t = some th) : Issued activeMutex.Place th.hist := by
  cases t with
  | zero => exact (stdio_places hr ht).1.mono fun h e hG => hG.1
  | succ call =>
      obtain ⟨request, _, hstart⟩ := worker_started hr ht
      exact (worker_places hr ht hstart).1.mono fun h e hG => hG.1

omit [McpCodec] in
theorem ActiveMap.mem_of_get {active : ActiveMap} {key : String} {call : ActiveCall}
    (h : active.get key = some call) : (key, call) ∈ active := by
  obtain ⟨entry, hfind, rfl⟩ := Option.map_eq_some_iff.mp h
  have hin := List.mem_of_find?_eq_some hfind
  have hkey : entry.1 = key := by simpa using List.find?_some hfind
  rw [← hkey]
  exact hin

/-- The calls found are entries of the map, under the key that was named. -/
def Current (h : List McpEvent) (s : McpShared) : Prop :=
  ∀ call ∈ (sweepNow h).calls, ∃ key, (key, call) ∈ s.active ∧
    ∀ named, (sweepNow h).key = some named → named = key

omit [McpCodec] in
theorem Current.sub {h h' : List McpEvent} {s s' : McpShared} (hc : Current h s)
    (hcalls : ∀ call ∈ (sweepNow h').calls, call ∈ (sweepNow h).calls)
    (hkey : (sweepNow h').key = (sweepNow h).key) (hactive : s'.active = s.active) :
    Current h' s' := by
  intro call hin
  rw [hkey, hactive]
  exact hc call (hcalls call hin)

omit [McpCodec] in
theorem current_idle {h : List McpEvent} {s : McpShared} (hidle : (sweepNow h).calls = []) :
    Current h s := by
  intro call hin
  rw [hidle] at hin
  cases hin

omit [McpCodec] in
theorem stored_calls (sweep : Sweep) : ∀ call ∈ sweep.stored.calls, call ∈ sweep.calls := by
  intro call hin
  unfold Sweep.stored at hin
  cases hcalls : sweep.calls with
  | nil =>
      rw [hcalls] at hin
      dsimp only at hin
      rwa [hcalls] at hin
  | cons first rest =>
      rw [hcalls] at hin
      dsimp only at hin
      cases hsome : first.observer.isSome with
      | true =>
          rw [hsome, if_pos rfl] at hin
          exact hin
      | false =>
          rw [hsome, if_neg Bool.false_ne_true] at hin
          exact List.mem_cons_of_mem _ hin

omit [McpCodec] in
theorem stored_key (sweep : Sweep) : sweep.stored.key = sweep.key := by
  unfold Sweep.stored
  split
  · rfl
  · split <;> rfl

/-- What a section has found is still in the map, as found. -/
theorem sweep_current (hr : Reach mcpSystem McpPool.initial c) {t : Nat} {th : McpThreadState}
    (ht : c.threads t = some th) (hheld : activeMutex.held th.hist = true) :
    Current th.hist c.shared := by
  refine activeMutex.owned (P := Current) rfl ?_ ?_ ?_ ?_ hr t th ht (thread_live hr t th ht) hheld
  · exact fun c hr t th ht => active_issued hr ht
  · intro s t h e s' hs hh hkeep
    obtain ⟨hanswer, rfl⟩ := hs
    have hsweep := sweepNow_snoc h e
    obtain ⟨o, a⟩ := e
    cases o with
    | lockActive => exact current_idle (by rw [hsweep]; rfl)
    | insertActive key call => exact current_idle (by rw [hsweep]; rfl)
    | setObserver key call => exact current_idle (by rw [hsweep]; rfl)
    | removeActive key => exact current_idle (by rw [hsweep]; rfl)
    | unlockActive =>
        have hout := unlocked_unlock h
        rw [Unlocked] at hout
        exact absurd (hout.symm.trans hh) (by decide)
    | getActive key =>
        intro call hin
        rw [hsweep] at hin ⊢
        have hget : a = s.active.get key := hanswer
        have hsome : a = some call := Option.mem_toList.mp hin
        exact ⟨key, ActiveMap.mem_of_get (hget.symm.trans hsome), fun named he =>
          (Option.some.inj he).symm⟩
    | activeCalls =>
        intro call hin
        rw [hsweep] at hin ⊢
        have hperm : a.Perm (s.active.map (·.2)) := hanswer
        obtain ⟨entry, hentry, rfl⟩ := List.mem_map.mp (hperm.mem_iff.mp hin)
        exact ⟨entry.1, hentry, fun named he => (by cases he)⟩
    | storeCancelled n =>
        have hin := (held_offActive h ⟨.storeCancelled n, a⟩ rfl).symm.trans hh
        refine (hkeep hin).sub ?_ ?_ rfl
        · rw [hsweep]
          exact stored_calls _
        · rw [hsweep]
          exact stored_key _
    | shutdown n =>
        have hin := (held_offActive h ⟨.shutdown n, a⟩ rfl).symm.trans hh
        refine (hkeep hin).sub ?_ ?_ rfl
        · rw [hsweep]
          exact fun call hcall => List.mem_of_mem_tail hcall
        · rw [hsweep]
          rfl
    | lenActive =>
        have hin : activeMutex.held h = true := by
          rw [activeMutex.held_snoc, activeMutex.after_other _ rfl rfl] at hh
          exact hh
        refine (hkeep hin).sub ?_ ?_ rfl
        · rw [hsweep]
          exact fun call hcall => hcall
        · rw [hsweep]
          rfl
    | _ =>
        have hin := (held_offActive h ⟨_, a⟩ rfl).symm.trans hh
        refine (hkeep hin).sub ?_ ?_ rfl
        · rw [hsweep]
          exact fun call hcall => hcall
        · rw [hsweep]
          rfl
  · intro s u e s' hs _ _ hguard h hc
    obtain ⟨_, rfl⟩ := hs
    have hactive : (s.after u e.op).active = s.active := by
      cases ho : e.op with
      | insertActive key call => exact absurd (show e.op.usesActive = true by rw [ho]; rfl) hguard
      | setObserver key call => exact absurd (show e.op.usesActive = true by rw [ho]; rfl) hguard
      | removeActive key => exact absurd (show e.op.usesActive = true by rw [ho]; rfl) hguard
      | _ => rfl
    exact hc.sub (fun call hin => hin) rfl hactive
  · intro s t p s' hs h hc
    rw [hs.1]
    exact hc

/-! ## 3. The entries of the map -/

/-- What every thread's history shows, with the calls that a section of the loop has found. -/
def Watched (s : McpShared) (t : Nat) (h : List McpEvent) : Prop :=
  Disciplined s t h ∧ (activeMutex.held h = true → Current h s)

theorem watched (hr : Reach mcpSystem McpPool.initial c) :
    ∀ t, Watched c.shared t (c.hist t) := by
  intro t
  refine ⟨disciplined hr t, fun hheld => ?_⟩
  cases ht : c.threads t with
  | none =>
      rw [Pool.hist, ht] at hheld
      cases hheld
  | some th =>
      rw [Pool.hist_of ht] at hheld ⊢
      exact sweep_current hr ht hheld

/-- An entry was inserted; its observer is the socket of its call, and there once its worker has
    registered. -/
structure Entries (s : McpShared) (H : Nat → List McpEvent) : Prop where
  inserted : ∀ p ∈ s.active, (p.1, p.2.cancelled) ∈ (stdioLog (H 0)).inserted
  observer : ∀ p ∈ s.active, p.2.observer = none ∨ p.2.observer = some p.2.cancelled
  registered : ∀ p ∈ s.active, phaseNow (H (p.2.cancelled + 1)) ≠ .unregistered →
    p.2.observer = some p.2.cancelled

omit [McpCodec] in
/-- The call at the front of a section is in the map. -/
theorem Current.front {h : List McpEvent} {s : McpShared} {call : ActiveCall}
    {rest : List ActiveCall} (hc : Current h s) (hcalls : (sweepNow h).calls = call :: rest) :
    ∃ key, (key, call) ∈ s.active := by
  have hin : call ∈ (sweepNow h).calls := by
    rw [hcalls]
    exact List.mem_cons_self
  obtain ⟨key, hactive, _⟩ := hc call hin
  exact ⟨key, hactive⟩

omit [McpCodec] in
/-- An observer is the socket of its own call. -/
theorem Entries.own {s : McpShared} {H : Nat → List McpEvent} {key : String} {call : ActiveCall}
    {m : Nat} (hent : Entries s H) (hactive : (key, call) ∈ s.active)
    (hobserver : call.observer = some m) : call.cancelled = m := by
  rcases hent.observer _ hactive with hnone | hsome
  · rw [hnone] at hobserver
    cases hobserver
  · rw [hsome] at hobserver
    exact Option.some.inj hobserver

omit [McpCodec] in
theorem log_inserted (log : StdioLog) (e : McpEvent) : log.inserted ⊆ (log.after e).inserted := by
  obtain ⟨o, a⟩ := e
  cases o with
  | readLine =>
      cases a with
      | error error => exact List.Subset.refl _
      | ok line =>
          unfold StdioLog.after
          dsimp only
          split
          · exact List.Subset.refl _
          · exact List.Subset.refl _
  | insertActive key call => exact List.subset_append_left _ _
  | _ => exact List.Subset.refl _

omit [McpCodec] in
/-- Only a registration leaves the first phase. -/
theorem unregistered_snoc {h : List McpEvent} (hp : phaseNow h = .unregistered) {e : McpEvent}
    (ho : ∀ key n, e.op ≠ .setObserver key n) : phaseNow (h ++ [e]) = .unregistered := by
  rw [phaseNow_snoc, hp]
  obtain ⟨o, a⟩ := e
  cases o with
  | setObserver key n => exact absurd rfl (ho key n)
  | _ => rfl

/-- A worker that is not spawned has no history. -/
theorem unspawned_hist {s : McpShared} {H : Nat → List McpEvent} (hd : ∀ t, Watched s t (H t))
    {key : String} {call : Nat} (hfresh : FreshCall (stdioLog (H 0)) key call) :
    H (call + 1) = [] := by
  rcases (hd (call + 1)).1 with hnil | ⟨request, hin, _⟩
  · exact hnil
  · rw [(hd 0).1.2] at hin
    exact absurd (hfresh _ hin).2 (Nat.lt_irrefl call)

/-- An operation of the loop keeps the entries. -/
theorem entries_stdio {s : McpShared} {H : Nat → List McpEvent} {e : McpEvent}
    (hd : ∀ t, Watched s t (H t)) (hp : StdioPlace (H 0) e.op) (hc : Entries s H) :
    Entries (s.after 0 e.op) (Function.update H 0 (H 0 ++ [e])) := by
  have hother : ∀ n, Function.update H 0 (H 0 ++ [e]) (n + 1) = H (n + 1) := fun n =>
    Function.update_of_ne (by omega) _ _
  have hgrow : (stdioLog (H 0)).inserted ⊆ (stdioLog (H 0 ++ [e])).inserted := by
    rw [stdioLog_snoc]
    exact log_inserted _ e
  -- the entries that stay
  have hkeep : ∀ p ∈ s.active,
      (p.1, p.2.cancelled) ∈ (stdioLog (H 0 ++ [e])).inserted ∧
      (p.2.observer = none ∨ p.2.observer = some p.2.cancelled) ∧
      (phaseNow (H (p.2.cancelled + 1)) ≠ .unregistered →
        p.2.observer = some p.2.cancelled) :=
    fun p hin => ⟨hgrow (hc.inserted p hin), hc.observer p hin, hc.registered p hin⟩
  have hall : ∀ p ∈ (s.after 0 e.op).active,
      (p.1, p.2.cancelled) ∈ (stdioLog (H 0 ++ [e])).inserted ∧
      (p.2.observer = none ∨ p.2.observer = some p.2.cancelled) ∧
      (phaseNow (H (p.2.cancelled + 1)) ≠ .unregistered →
        p.2.observer = some p.2.cancelled) := by
    obtain ⟨o, a⟩ := e
    cases o with
    | insertActive key call =>
        intro p hin
        rcases List.mem_cons.mp hin with rfl | hold
        · refine ⟨?_, Or.inl rfl, fun hne => ?_⟩
          · rw [stdioLog_snoc]
            exact List.mem_append_right _ (List.mem_singleton_self _)
          · have hnil : H (call + 1) = [] := unspawned_hist hd hp.2.2.2.2.2
            have hphase : phaseNow (H (call + 1)) = .unregistered := by
              rw [hnil]
              rfl
            exact absurd hphase hne
        · exact hkeep p (List.mem_of_mem_filter hold)
    | setObserver key call => cases hp.2.1
    | removeActive key => cases hp.2.1
    | _ => exact hkeep
  constructor
  · intro p hin
    rw [Function.update_self]
    exact (hall p hin).1
  · exact fun p hin => (hall p hin).2.1
  · intro p hin hne
    rw [hother] at hne
    exact (hall p hin).2.2 hne

omit [McpCodec] in
/-- Only a worker that sets its observer leaves the first phase. -/
theorem registered_worker {H : Nat → List McpEvent} {e : McpEvent} {n m : Nat}
    (hne : phaseNow (Function.update H (n + 1) (H (n + 1) ++ [e]) (m + 1)) ≠ .unregistered) :
    phaseNow (H (m + 1)) ≠ .unregistered ∨ (m = n ∧ ∃ key k, e.op = .setObserver key k) := by
  by_cases hm : m = n
  · subst hm
    rw [Function.update_self] at hne
    by_cases hset : ∃ key k, e.op = .setObserver key k
    · exact Or.inr ⟨rfl, hset⟩
    · left
      intro hu
      exact hne (unregistered_snoc hu fun key k he => hset ⟨key, k, he⟩)
  · left
    rwa [Function.update_of_ne (by omega)] at hne

omit [McpCodec] in
/-- Every entry of a map in which an observer was set: the one of that call with its observer, or
    another one. -/
theorem observed_entries {s : McpShared} {inserted : List (String × Nat)}
    {spawned : List (Nat × CallRequest)} {key : String} {k t : Nat}
    (hins : Insertions inserted spawned) (hown : (key, k) ∈ inserted)
    (hall : ∀ p ∈ s.active, (p.1, p.2.cancelled) ∈ inserted) :
    ∀ p ∈ (s.after t (.setObserver key k)).active, (p.1, p.2.cancelled) ∈ inserted ∧
      (p.2.observer = some p.2.cancelled ∨ (p ∈ s.active ∧ p.2.cancelled ≠ k)) := by
  intro p hp
  obtain ⟨p₀, hp₀, he⟩ := List.mem_map.mp hp
  have hins₀ := hall p₀ hp₀
  by_cases hkey : p₀.1 = key
  · have hentry : (p₀.1, p₀.2.cancelled) = (key, k) := hins.keys _ hins₀ _ hown hkey
    have hcall : p₀.2.cancelled = k := (Prod.mk.inj hentry).2
    rw [if_pos (beq_iff_eq.mpr hkey)] at he
    rw [← he]
    exact ⟨hins₀, Or.inl (by rw [hcall])⟩
  · rw [if_neg (fun hb => hkey (beq_iff_eq.mp hb))] at he
    rw [← he]
    refine ⟨hins₀, Or.inr ⟨hp₀, fun hcall => hkey ?_⟩⟩
    have hentry : (p₀.1, p₀.2.cancelled) = (key, k) := hins.numbers _ hins₀ _ hown hcall
    exact (Prod.mk.inj hentry).1

/-- An operation of a worker keeps the entries: it registers only its own observer. -/
theorem entries_worker {s : McpShared} {H : Nat → List McpEvent} {e : McpEvent} {n : Nat}
    {request : CallRequest} (hd : ∀ t, Watched s t (H t)) (hin : (n, request) ∈ s.spawned)
    (hp : WorkerPlace request n (H (n + 1)) e.op) (hc : Entries s H) :
    Entries (s.after (n + 1) e.op) (Function.update H (n + 1) (H (n + 1) ++ [e])) := by
  have hins := insertions (hd 0).1.1
  have hown : (request.key, n) ∈ (stdioLog (H 0)).inserted := by
    rw [(hd 0).1.2] at hin
    exact hins.spawned _ hin
  have hlog : Function.update H (n + 1) (H (n + 1) ++ [e]) 0 = H 0 :=
    Function.update_of_ne (by omega) _ _
  -- the entries of the other operations, and of the map that lost one
  have hkeep : (∀ key k, e.op ≠ .setObserver key k) →
      (s.after (n + 1) e.op).active ⊆ s.active →
      Entries (s.after (n + 1) e.op) (Function.update H (n + 1) (H (n + 1) ++ [e])) := by
    intro hno hsub
    constructor
    · intro p hin
      rw [hlog]
      exact hc.inserted p (hsub hin)
    · exact fun p hin => hc.observer p (hsub hin)
    · intro p hin hne
      rcases registered_worker hne with hne | ⟨_, key, k, he⟩
      · exact hc.registered p (hsub hin) hne
      · exact absurd he (hno key k)
  obtain ⟨o, a⟩ := e
  cases o with
  | insertActive key call => exact hp.2.1.elim
  | removeActive key =>
      exact hkeep (fun key k he => by cases he) fun p hp => List.mem_of_mem_filter hp
  | setObserver key k =>
      obtain ⟨rfl, rfl⟩ := hp.2.1
      have hall := @observed_entries s _ _ request.key k (k + 1) hins hown hc.inserted
      constructor
      · intro p hin
        rw [hlog]
        exact (hall p hin).1
      · intro p hin
        rcases (hall p hin).2 with hobs | ⟨hold, _⟩
        · exact Or.inr hobs
        · exact hc.observer p hold
      · intro p hin hne
        rcases (hall p hin).2 with hobs | ⟨hold, hcall⟩
        · exact hobs
        · rcases registered_worker hne with hne | ⟨hsame, _⟩
          · exact hc.registered p hold hne
          · exact absurd hsame hcall
  | _ => exact hkeep (fun key k he => by cases he) (List.Subset.refl _)

/-! ## 4. What the loop has cancelled -/

/-- The operation after this history cancels the call for a reason: the connection is given up, or
    the line just taken names the id of the call, which is spawned. -/
def AimedAt (n : Nat) (h : List McpEvent) : Prop :=
  (stdioLog h).givenUp = true ∨ ∃ before line requestId, (stdioLog h).lines = before ++ [line] ∧
    CancelsRequest line requestId ∧ (∃ request, (n, request) ∈ (stdioLog h).spawned) ∧
    ∀ request, (n, request) ∈ (stdioLog h).spawned → request.id = requestId

/-- A call that a section has found is the one that its line names. -/
theorem aimed_of_cause {s : McpShared} {h : List McpEvent} {call : ActiveCall}
    (hi : Issued StdioPlace h) (hcause : SweepCause (stdioLog h) (sweepNow h).key)
    (hcurrent : Current h s) (hcall : call ∈ (sweepNow h).calls)
    (hentries : ∀ p ∈ s.active, (p.1, p.2.cancelled) ∈ (stdioLog h).inserted) :
    AimedAt call.cancelled h := by
  obtain ⟨key, hactive, hnamed⟩ := hcurrent call hcall
  have hin := hentries _ hactive
  have hins := insertions hi
  cases hk : (sweepNow h).key with
  | none =>
      rw [hk] at hcause
      exact Or.inl hcause
  | some named =>
      rw [hk] at hcause
      obtain ⟨hpaired, before, line, requestId, hlines, hcancels, htext⟩ := hcause
      have hkey : key = requestId.text := (hnamed named hk).symm.trans htext
      refine Or.inr ⟨before, line, requestId, hlines, hcancels, ?_, fun request hspawned => ?_⟩
      · have hmem := hin
        rw [hpaired] at hmem
        obtain ⟨spawned, hspawned, he⟩ := List.mem_map.mp hmem
        have hnumber : spawned.1 = call.cancelled := (Prod.mk.inj he).2
        exact ⟨spawned.2, by rw [← hnumber]; exact hspawned⟩
      · -- keys of inserted calls are not used twice, and a key is the text of its id
        obtain ⟨hown, hscalar⟩ := spawned_key hi hspawned
        have he : (request.key, call.cancelled) = (key, call.cancelled) :=
          hins.numbers _ (hins.spawned _ hspawned) _ hin rfl
        have hsame : requestId.text = request.id.text := by
          rw [← hkey, ← hown]
          exact (Prod.mk.inj he).1.symm
        have hvalue : request.id.isString = true ∨ request.id.isNumber = true := by
          simpa [isScalar] using hscalar
        exact (text_of_scalar hvalue hsame).symm

/-- What the loop has cancelled: its flag is set; its socket is shut down, or the section is about
    to do so, or its worker has not checked its flag since it registered; and where the section is
    over, one of the first and the last. -/
structure Cancels (s : McpShared) (H : Nat → List McpEvent) : Prop where
  flagged : ∀ n, Stored n (H 0) → s.cancelled n = true
  due : ∀ n, Stored n (H 0) →
    s.shut n = true ∨ Due n (H 0) ∨ (phaseNow (H (n + 1))).checked = false
  swept : ∀ n, Swept n (H 0) → s.shut n = true ∨ (phaseNow (H (n + 1))).checked = false
  aimed : Along (fun h e => ∀ n, e.op.cancels n → AimedAt n h) [] (H 0)

omit [McpCodec] in
/-- A flag stays set. -/
theorem cancelled_after {s : McpShared} {n : Nat} (t : Nat) (o : McpOp)
    (h : s.cancelled n = true) : (s.after t o).cancelled n = true := by
  cases o with
  | storeCancelled m =>
      show Function.update s.cancelled m true n = true
      by_cases hn : n = m
      · rw [hn, Function.update_self]
      · rw [Function.update_of_ne hn]
        exact h
  | _ => exact h

omit [McpCodec] in
/-- A socket stays shut down. -/
theorem shut_after {s : McpShared} {n : Nat} (t : Nat) (o : McpOp) (h : s.shut n = true) :
    (s.after t o).shut n = true := by
  cases o with
  | shutdown m =>
      show Function.update s.shut m true n = true
      by_cases hn : n = m
      · rw [hn, Function.update_self]
      · rw [Function.update_of_ne hn]
        exact h
  | _ => exact h

/-- A section with nothing left to cancel, or an operation that is not part of it. -/
theorem due_snoc {n : Nat} {h : List McpEvent} {e : McpEvent} (hi : Issued StdioPlace h)
    (hp : StdioPlace h e.op) (hdue : Due n h) :
    Due n (h ++ [e]) ∨ ∃ m, e.op = .shutdown m := by
  have hsweep := sweepNow_snoc h e
  obtain ⟨o, a⟩ := e
  cases o with
  | shutdown m => exact Or.inr ⟨m, rfl⟩
  | storeCancelled m =>
      have hflagged : (sweepNow h).flagged = false := hp.2.2.2.2.1
      rw [hdue.1] at hflagged
      cases hflagged
  | lockActive => exact absurd hdue (not_due (unlocked_idle hi (hp.1.1 rfl)))
  | unlockActive => exact absurd hdue (not_due hp.2.2)
  | getActive key => exact absurd hdue (not_due hp.2.2)
  | activeCalls => exact absurd hdue (not_due hp.2.2)
  | insertActive key call => exact absurd hdue (not_due hp.2.2.1)
  | setObserver key call => cases hp.2.1
  | removeActive key => cases hp.2.1
  | _ =>
      left
      unfold Due
      rw [hsweep]
      exact hdue

section Loop

variable {s : McpShared} {H : Nat → List McpEvent} {n : Nat}

/-- A flag that the section sets: the entry tells whether the worker has registered. -/
theorem stored_due {a : Unit} (hp : StdioPlace (H 0) (.storeCancelled n))
    (hcurrent : activeMutex.held (H 0) = true → Current (H 0) s) (hent : Entries s H) :
    Due n (H 0 ++ [⟨.storeCancelled n, a⟩]) ∨ (phaseNow (H (n + 1))).checked = false := by
  obtain ⟨_, _, hheld, _, _, call, rest, hcalls, hn⟩ := hp
  obtain ⟨key, hactive⟩ := (hcurrent hheld).front hcalls
  cases hobserver : call.observer with
  | none =>
      right
      by_cases hu : phaseNow (H (n + 1)) = .unregistered
      · rw [hu]
        rfl
      · rw [← hn] at hu
        have hsome := hent.registered _ hactive hu
        rw [hobserver] at hsome
        cases hsome
  | some observer =>
      left
      have hstored : (sweepNow (H 0)).stored = { sweepNow (H 0) with flagged := true } := by
        unfold Sweep.stored
        rw [hcalls]
        simp [hobserver, hcalls]
      unfold Due
      rw [sweepNow_snoc]
      show (sweepNow (H 0)).stored.flagged = true ∧
        ∃ call rest, (sweepNow (H 0)).stored.calls = call :: rest ∧ call.cancelled = n
      rw [hstored]
      exact ⟨rfl, call, rest, hcalls, hn⟩

/-- A section shuts the socket down that it owes. -/
theorem shutdown_due {m : Nat} (hp : StdioPlace (H 0) (.shutdown m))
    (hcurrent : activeMutex.held (H 0) = true → Current (H 0) s) (hent : Entries s H)
    (hdue : Due n (H 0)) : m = n := by
  obtain ⟨_, _, hheld, _, _, call, rest, hcalls, hobserver⟩ := hp
  obtain ⟨_, call', rest', hcalls', hn⟩ := hdue
  rw [hcalls] at hcalls'
  cases hcalls'
  obtain ⟨key, hactive⟩ := (hcurrent hheld).front hcalls
  exact (hent.own hactive hobserver).symm.trans hn

/-- The operations that cancel a call have a reason. -/
theorem aimed_step {o : McpOp} (hi : Issued StdioPlace (H 0)) (hp : StdioPlace (H 0) o)
    (hcurrent : activeMutex.held (H 0) = true → Current (H 0) s) (hent : Entries s H)
    (hn : o.cancels n) : AimedAt n (H 0) := by
  cases o with
  | storeCancelled m =>
      obtain ⟨_, _, hheld, hcause, _, call, rest, hcalls, hm⟩ := hp
      have hin : call ∈ (sweepNow (H 0)).calls := by
        rw [hcalls]
        exact List.mem_cons_self
      have haimed := aimed_of_cause hi hcause (hcurrent hheld) hin hent.inserted
      rwa [hm, show m = n from hn] at haimed
  | shutdown m =>
      obtain ⟨_, _, hheld, hcause, _, call, rest, hcalls, hobserver⟩ := hp
      have hin : call ∈ (sweepNow (H 0)).calls := by
        rw [hcalls]
        exact List.mem_cons_self
      obtain ⟨key, hactive⟩ := (hcurrent hheld).front hcalls
      have haimed := aimed_of_cause hi hcause (hcurrent hheld) hin hent.inserted
      rwa [hent.own hactive hobserver, show m = n from hn] at haimed
  | _ => exact hn.elim

/-- An operation of the loop keeps what it has cancelled. -/
theorem cancels_stdio {e : McpEvent} (hd : ∀ t, Watched s t (H t)) (hp : StdioPlace (H 0) e.op)
    (hent : Entries s H) (hc : Cancels s H) :
    Cancels (s.after 0 e.op) (Function.update H 0 (H 0 ++ [e])) := by
  have hi : Issued StdioPlace (H 0) := (hd 0).1.1
  have hother : ∀ n, Function.update H 0 (H 0 ++ [e]) (n + 1) = H (n + 1) := fun n =>
    Function.update_of_ne (by omega) _ _
  constructor
  · intro n hn
    rw [Function.update_self] at hn
    rcases hn.snoc with hold | rfl
    · exact cancelled_after 0 e.op (hc.flagged n hold)
    · exact Function.update_self ..
  · intro n hn
    rw [Function.update_self] at hn ⊢
    rw [hother]
    rcases hn.snoc with hold | rfl
    · rcases hc.due n hold with hshut | hdue | hunchecked
      · exact Or.inl (shut_after 0 e.op hshut)
      · rcases due_snoc hi hp hdue with hstill | ⟨m, hm⟩
        · exact Or.inr (Or.inl hstill)
        · left
          rw [hm] at hp ⊢
          rw [shutdown_due hp (hd 0).2 hent hdue]
          exact Function.update_self ..
      · exact Or.inr (Or.inr hunchecked)
    · exact Or.inr (stored_due hp (hd 0).2 hent)
  · intro n hn
    rw [Function.update_self] at hn
    rw [hother]
    rcases hn.snoc with hold | ⟨hunlock, hstored⟩
    · rcases hc.swept n hold with hshut | hunchecked
      · exact Or.inl (shut_after 0 e.op hshut)
      · exact Or.inr hunchecked
    · rw [hunlock] at hp
      rcases hc.due n hstored with hshut | hdue | hunchecked
      · exact Or.inl (shut_after 0 e.op hshut)
      · exact absurd hdue (not_due hp.2.2)
      · exact Or.inr hunchecked
  · rw [Function.update_self]
    exact (along_append [] (H 0) [e]).mpr
      ⟨hc.aimed, fun n hn => aimed_step hi hp (hd 0).2 hent hn, trivial⟩

end Loop

omit [McpCodec] in
/-- A worker that has just checked its flag found it clear, or has shut its socket down. -/
theorem check_step {s : McpShared} {h : List McpEvent} {e : McpEvent} {n t : Nat}
    {request : CallRequest} (hanswer : s.answers e) (hb : e.op.belongs request n)
    (hold : (phaseNow h).checked = false) (hnew : (phaseNow (h ++ [e])).checked = true) :
    s.cancelled n = false ∨ (s.after t e.op).shut n = true := by
  rw [phaseNow_snoc] at hnew
  obtain ⟨o, a⟩ := e
  cases o with
  | loadCancelled m =>
      have hm : m = n := hb
      have hflag : a = s.cancelled m := hanswer
      cases hphase : phaseNow h with
      | registered =>
          rw [hphase] at hnew
          cases ha : a with
          | true =>
              rw [ha] at hnew
              cases hnew
          | false =>
              left
              rw [← hm, ← hflag, ha]
      | _ =>
          rw [hphase] at hold hnew
          exact absurd (hold.symm.trans hnew) (by decide)
  | shutdown m =>
      right
      have hm : m = n := hb
      rw [hm]
      exact Function.update_self ..
  | setObserver key m => cases hnew
  | _ => exact absurd (hold.symm.trans hnew) (by decide)

/-- An operation of a worker keeps what the loop has cancelled. -/
theorem cancels_worker {s : McpShared} {H : Nat → List McpEvent} {e : McpEvent} {n : Nat}
    {request : CallRequest} (hanswer : s.answers e) (hb : e.op.belongs request n)
    (hc : Cancels s H) :
    Cancels (s.after (n + 1) e.op) (Function.update H (n + 1) (H (n + 1) ++ [e])) := by
  have hlog : Function.update H (n + 1) (H (n + 1) ++ [e]) 0 = H 0 :=
    Function.update_of_ne (by omega) _ _
  -- an unchecked worker stays unchecked, or its socket is shut down
  have hcheck : ∀ m, Stored m (H 0) → (phaseNow (H (m + 1))).checked = false →
      (s.after (n + 1) e.op).shut m = true ∨
      (phaseNow (Function.update H (n + 1) (H (n + 1) ++ [e]) (m + 1))).checked = false := by
    intro m hstored hunchecked
    by_cases hm : m = n
    · subst hm
      rw [Function.update_self]
      cases hnew : (phaseNow (H (m + 1) ++ [e])).checked with
      | false => exact Or.inr rfl
      | true =>
          rcases check_step (t := m + 1) hanswer hb hunchecked hnew with hclear | hshut
          · rw [hc.flagged m hstored] at hclear
            cases hclear
          · exact Or.inl hshut
    · right
      rwa [Function.update_of_ne (by omega)]
  constructor
  · intro m hm
    rw [hlog] at hm
    exact cancelled_after (n + 1) e.op (hc.flagged m hm)
  · intro m hm
    rw [hlog] at hm ⊢
    rcases hc.due m hm with hshut | hdue | hunchecked
    · exact Or.inl (shut_after (n + 1) e.op hshut)
    · exact Or.inr (Or.inl hdue)
    · rcases hcheck m hm hunchecked with hshut | hstill
      · exact Or.inl hshut
      · exact Or.inr (Or.inr hstill)
  · intro m hm
    rw [hlog] at hm
    have hstored : Stored m (H 0) := by
      obtain ⟨before, within, after, he⟩ := hm
      rw [Stored, he]
      simp
    rcases hc.swept m hm with hshut | hunchecked
    · exact Or.inl (shut_after (n + 1) e.op hshut)
    · exact hcheck m hstored hunchecked
  · rw [hlog]
    exact hc.aimed

theorem cancels (hr : Reach mcpSystem McpPool.initial c) :
    Entries c.shared c.hist ∧ Cancels c.shared c.hist := by
  refine Reach.logged (D := Watched) (P := fun s H => Entries s H ∧ Cancels s H)
    (fun c hr => watched hr) ?_ ?_ ?_ ?_ hr
  · refine ⟨⟨fun p hp => (by cases hp), fun p hp => (by cases hp), fun p hp => (by cases hp)⟩,
      ⟨fun n hn => (by cases hn), fun n hn => (by cases hn), fun n _ => Or.inr rfl, trivial⟩⟩
  · intro s H t e s' hd hnow hs hc
    obtain ⟨hanswer, rfl⟩ := hs
    cases t with
    | zero =>
        have hp : StdioPlace (H 0) e.op := hnow.1.1.at
        exact ⟨entries_stdio hd hp hc.1, cancels_stdio hd hp hc.1 hc.2⟩
    | succ n =>
        obtain ⟨request, hin, _, hp⟩ := WorkerHist.last hnow.1
        have hin : (n, request) ∈ s.spawned := by
          rwa [(belongs_keeps (t := n + 1) s hp.2.1).2] at hin
        exact ⟨entries_worker hd hin hp hc.1, cancels_worker hanswer hp.2.1 hc.2⟩
  · intro s t p s' H hs hc
    rw [hs.1]
    exact hc
  · intro s s' H hs _
    exact hs.elim

/-! ## 5. No cancellation is lost -/

/-- A phase in which the query is not out, and will not be once the flag is set. -/
def Withheld (n : Nat) (h : List McpEvent) : Prop :=
  phaseNow h ≠ .clear ∧ ∀ e ∈ h, ∀ query, e.op ≠ .send n query

omit [McpCodec] in
theorem phase_unregistered {h : List McpEvent} {e : McpEvent}
    (hu : phaseNow (h ++ [e]) = .unregistered) : phaseNow h = .unregistered := by
  rw [phaseNow_snoc] at hu
  obtain ⟨o, a⟩ := e
  cases o with
  | setObserver key n => cases hu
  | loadCancelled n =>
      cases hp : phaseNow h with
      | registered =>
          rw [hp] at hu
          cases a <;> cases hu
      | unregistered => rfl
      | _ => rw [hp] at hu; cases hu
  | shutdown n =>
      cases hp : phaseNow h with
      | unregistered => rfl
      | _ => rw [hp] at hu; cases hu
  | _ => exact hu

/-- A worker that has not registered has not sent its query. -/
theorem withheld_unregistered {request : CallRequest} {n : Nat} {h : List McpEvent}
    (hi : Issued (WorkerPlace request n) h) (hu : phaseNow h = .unregistered) : Withheld n h := by
  refine ⟨by rw [hu]; decide, ?_⟩
  refine issued_induction (P := fun h => phaseNow h = .unregistered →
    ∀ e ∈ h, ∀ query, e.op ≠ .send n query) ?_ ?_ h hi hu
  · intro _ e he
    cases he
  · intro h e _ hp ih hu e' he' query
    have hu' := phase_unregistered hu
    rcases List.mem_append.mp he' with hold | hnew
    · exact ih hu' e' hold query
    · cases List.mem_singleton.mp hnew
      intro hsend
      rw [hsend] at hp
      have hclear : phaseNow h = .clear := hp.2.2
      rw [hu'] at hclear
      cases hclear

/-- Once its flag is set, a worker that has not sent its query does not send it. -/
theorem Withheld.snoc {s : McpShared} {request : CallRequest} {n : Nat} {h : List McpEvent}
    {e : McpEvent} (hw : Withheld n h) (hflag : s.cancelled n = true) (hanswer : s.answers e)
    (hp : WorkerPlace request n h e.op) : Withheld n (h ++ [e]) := by
  obtain ⟨hclear, hno⟩ := hw
  refine ⟨?_, fun e' he' query => ?_⟩
  · rw [phaseNow_snoc]
    obtain ⟨o, a⟩ := e
    cases o with
    | setObserver key m =>
        intro he
        cases he
    | loadCancelled m =>
        have hm : m = n := hp.2.1
        have ha : a = true := by
          rw [← hflag, ← hm]
          exact hanswer
        rw [ha]
        cases hphase : phaseNow h with
        | clear => exact absurd hphase hclear
        | _ => intro he; cases he
    | shutdown m =>
        cases hphase : phaseNow h with
        | clear => exact absurd hphase hclear
        | _ => intro he; cases he
    | _ => exact hclear
  · rcases List.mem_append.mp he' with hold | hnew
    · exact hno e' hold query
    · cases List.mem_singleton.mp hnew
      intro hsend
      rw [hsend] at hp
      exact hclear hp.2.2

theorem withheld_reach {c' : McpPool} (hr : Reach mcpSystem McpPool.initial c)
    (hr' : Reach mcpSystem c c') {n : Nat} (hflag : c.shared.cancelled n = true)
    (hw : Withheld n (c.hist (n + 1))) :
    c'.shared.cancelled n = true ∧ Withheld n (c'.hist (n + 1)) := by
  refine Reach.logged (D := WorkerHist) (P := fun s H => s.cancelled n = true ∧
    Withheld n (H (n + 1))) (fun c₁ h₁ => worker_hist (hr.trans h₁)) ⟨hflag, hw⟩ ?_ ?_ ?_ hr'
  · intro s H t e s' _ hnow hs hc
    obtain ⟨hanswer, rfl⟩ := hs
    refine ⟨cancelled_after t e.op hc.1, ?_⟩
    by_cases hn : n + 1 = t
    · subst hn
      rw [Function.update_self]
      obtain ⟨request, _, _, hp⟩ := WorkerHist.last hnow
      exact hc.2.snoc hc.1 hanswer hp
    · rw [Function.update_of_ne hn]
      exact hc.2
  · intro s t p s' H hs hc
    rw [hs.1]
    exact hc
  · intro s s' H hs _
    exact hs.elim

/-- No cancellation is lost, from a reachable pool `c` to a later one `c'`. -/
structure CancelKept (c c' : McpPool) : Prop where
  /-- Once the section that set the flag is over and the worker has registered and checked, the
      socket is shut down, -/
  shutDown : ∀ n stdio worker, c.threads 0 = some stdio → c.threads (n + 1) = some worker →
    Swept n stdio.hist → (phaseNow worker.hist).checked = true → c.shared.shut n = true
  /-- and a worker that reads has. -/
  reading : ∀ n stdio worker k, c.threads 0 = some stdio → c.threads (n + 1) = some worker →
    Swept n stdio.hist → worker.rest = .ask (.readResponse n) k → c.shared.shut n = true
  /-- A flag that is set before the registration keeps the query back. -/
  unsent : ∀ n stdio, c.threads 0 = some stdio → Stored n stdio.hist →
    (∀ worker, c.threads (n + 1) = some worker → phaseNow worker.hist = .unregistered) →
    ∀ worker, c'.threads (n + 1) = some worker → ∀ e ∈ worker.hist, ∀ query, e.op ≠ .send n query
  /-- The loop cancels a call only because its line names the id of the call, or at its end, -/
  aimed : ∀ stdio before e after n, c.threads 0 = some stdio → stdio.hist = before ++ e :: after →
    e.op.cancels n → AimedAt n before
  /-- and a worker cancels no call but its own. -/
  own : ∀ n worker, c.threads (n + 1) = some worker → ∀ e ∈ worker.hist, ∀ m,
    e.op.cancels m → m = n

theorem cancel_kept {c' : McpPool} (hr : Reach mcpSystem McpPool.initial c)
    (hr' : Reach mcpSystem c c') : CancelKept c c' := by
  obtain ⟨_, hcancels⟩ := cancels hr
  have hshut : ∀ n stdio worker, c.threads 0 = some stdio → c.threads (n + 1) = some worker →
      Swept n stdio.hist → (phaseNow worker.hist).checked = true → c.shared.shut n = true := by
    intro n stdio worker hstdio hworker hswept hchecked
    have h := hcancels.swept n (by rwa [Pool.hist_of hstdio])
    rw [Pool.hist_of hworker, hchecked] at h
    rcases h with hshut | hfalse
    · exact hshut
    · cases hfalse
  constructor
  · exact hshut
  · intro n stdio worker k hstdio hworker hswept hrest
    obtain ⟨request, _, hstart⟩ := worker_started hr hworker
    have hkept := (worker_places hr hworker hstart).2
    rw [hrest] at hkept
    exact hshut n stdio worker hstdio hworker hswept hkept.1.2.2
  · intro n stdio hstdio hstored hunregistered worker' hworker' e he
    have hflag := hcancels.flagged n (by rwa [Pool.hist_of hstdio])
    have hw : Withheld n (c.hist (n + 1)) := by
      cases hworker : c.threads (n + 1) with
      | none =>
          rw [Pool.hist, hworker]
          refine ⟨by decide, fun e he => (by cases he)⟩
      | some worker =>
          obtain ⟨request, _, hstart⟩ := worker_started hr hworker
          rw [Pool.hist_of hworker]
          exact withheld_unregistered (worker_places hr hworker hstart).1
            (hunregistered worker hworker)
    have hlater := (withheld_reach hr hr' hflag hw).2
    rw [Pool.hist_of hworker'] at hlater
    exact hlater.2 e he
  · intro stdio before e after n hstdio hhist
    have haimed := hcancels.aimed
    rw [Pool.hist_of hstdio, hhist] at haimed
    exact Along.at haimed n
  · intro n worker hworker e he m hm
    obtain ⟨request, _, hstart⟩ := worker_started hr hworker
    have hi := (worker_places hr hworker hstart).1
    obtain ⟨before, after, hhist⟩ := List.append_of_mem he
    rw [hhist] at hi
    have hb := (Along.at hi).2.1
    obtain ⟨o, a⟩ := e
    cases o with
    | storeCancelled k => exact (show k = m from hm).symm.trans hb
    | shutdown k => exact (show k = m from hm).symm.trans hb
    | _ => exact hm.elim

end Run

/-! ## 6. A run in which a call is cancelled while its worker waits -/

def cancelMessages : List Value :=
  callMessages ++ [notificationMessage "notifications/cancelled"
    (.object [("requestId", .number (.int 2))])]

@[reducible] def cancelCodec : McpCodec :=
  sampleCodec cancelMessages [("Send.«Ready?»", sampleSend)]

/-- The call is dispatched, its worker has sent the query and waits, and then it is cancelled. -/
def cancelledPool : McpPool :=
  @McpScript.turn cancelCodec (messagesScript cancelMessages []) 60 0
    (@McpScript.turn cancelCodec (messagesScript [] []) 60 1
      (stdioPool cancelCodec callMessages).firstWorker)

theorem cancelledPool_reach : Reach (@mcpSystem cancelCodec) McpPool.initial cancelledPool := by
  have hworker := @McpPool.firstWorker_reach cancelCodec _ _
    (stdioPool_reach cancelCodec callMessages) (stdioPool_idle cancelCodec callMessages)
  have hwaits := @McpScript.turn_reach cancelCodec (messagesScript [] []) 60 1 _ _ hworker
    (@thread_live cancelCodec _ hworker 1)
  exact @McpScript.turn_reach cancelCodec _ 60 0 _ _ hwaits (@thread_live cancelCodec _ hwaits 0)

theorem cancel_kept_waiting : @CancelKept cancelCodec cancelledPool cancelledPool ∧
    (phaseNow (cancelledPool.hist 1)).checked = true ∧ cancelledPool.shared.shut 0 = true :=
  ⟨@cancel_kept cancelCodec _ _ cancelledPool_reach .refl, by decide +kernel⟩

end MessageNexus
