/-
  File:      MessageNexus/Nexus/ServeReturns.lean
  Subject:   THE LISTENER RETURNS. In every fair run in which it has left its loop, every handler
             returns, or waits for Flow for ever, in a connect or for the answer to an abrupt
             delivery; and `serve` returns if and only if no handler is left so.

  * `holder_inside`, `takes_once` -- who holds the store's mutex is in its section, and no
    connection takes it twice; `lock_passed` -- so every handler gets it;
  * `ClosingLoop`, `spawned_fixed` -- what is left of the listener behind its loop;
  * `WaitsForFlow`, `GracefulStop`, `serve_stops` -- the main result.
-/
import MessageNexus.Nexus.Shutdown

namespace MessageNexus

open Interact SignalFlow

/-! ## 1. The store's mutex -/

/-- The event that takes the mutex of the store. -/
def takesStore : WatchEvent → Bool
  | ⟨.inl (.nexus .lockStore), some _⟩ => true
  | _ => false

/-- A connection that has not taken it. -/
def HandlerStage.Untaken (stage : HandlerStage) : Prop :=
  stage = .answering .unread ∨ stage = .answering .before

theorem takesStore_inv {e : WatchEvent} (h : takesStore e = true) :
    e = ⟨.inl (.nexus .lockStore), some ()⟩ := by
  unfold takesStore at h
  split at h
  · rfl
  · cases h

/-- It is taken before the section only. -/
theorem HandlerStage.Allows.untaken {stage : HandlerStage}
    (h : stage.Allows (.inl (.nexus .lockStore))) : stage = .answering .before := by
  cases stage with
  | answering answered =>
      cases answered with
      | unread => rcases h with h | h <;> cases h
      | before => rfl
      | inside => exact absurd rfl h.1
      | past => cases h
  | forwarding => cases h
  | leaving detached => cases h
  | _ => exact False.elim h

/-- In its section a connection does nothing but use the store. -/
theorem HandlerStage.Allows.inside {o : ServeOp ⊕ WatchOp}
    (h : HandlerStage.Allows (.answering .inside) o) :
    ∃ n, o = .inl (.nexus n) ∧ n ≠ .lockStore ∧ n.offStore = false := by
  have hclear : ¬ AnswerStage.Clear .inside := by rintro (h | h) <;> cases h
  cases o with
  | inl o =>
      cases o with
      | nexus n => exact ⟨n, rfl, h⟩
      | _ => exact absurd h.1 hclear
  | inr o => exact absurd h.1 hclear

/-- In its section, and past it, a connection stays there. -/
theorem AnswerStage.taken_after {stage : AnswerStage} {o : NexusOp} (h : stage.Allows o)
    (hs : stage = .inside ∨ stage = .past) : stage.after o = .inside ∨ stage.after o = .past := by
  rcases hs with rfl | rfl
  · cases o with
    | lockStore => exact Or.inl rfl
    | unlockStore => exact Or.inr rfl
    | matchRecords => exact Or.inl rfl
    | mutateKeyed standard => exact Or.inl rfl
    | _ => cases h.2
  · right
    exact AnswerStage.after_ahead _ h

theorem HandlerStage.Untaken.of_after {stage : HandlerStage} {e : WatchEvent}
    (h : stage.Allows e.op) (hafter : (stage.after e).Untaken) : stage.Untaken := by
  by_contra huntaken
  have hlate : ∀ stage : HandlerStage, stage.Late → ¬ stage.Untaken := by
    rintro stage hl (he | he)
    · exact hl _ he
    · exact hl _ he
  have hother : ¬ stage.Late := fun hl => hlate _ (hl.after e) hafter
  cases stage with
  | answering answered =>
      have hs : answered = .inside ∨ answered = .past := by
        cases answered with
        | unread => exact absurd (Or.inl rfl) huntaken
        | before => exact absurd (Or.inr rfl) huntaken
        | inside => exact Or.inl rfl
        | past => exact Or.inr rfl
      obtain ⟨o, a⟩ := e
      cases o with
      | inl o =>
          cases o with
          | nexus o =>
              cases a with
              | none => exact hlate (.leaving false) (fun _ => nofun) hafter
              | some a =>
                  change HandlerStage.Untaken (.answering (answered.after o)) at hafter
                  rcases AnswerStage.taken_after h hs with hnow | hnow
                  · rw [hnow] at hafter
                    rcases hafter with he | he <;> cases he
                  · rw [hnow] at hafter
                    rcases hafter with he | he <;> cases he
          | finish => exact hlate (.over false) (fun _ => nofun) hafter
          | _ => exact huntaken hafter
      | inr o =>
          cases (show o = .spawnWatcher from h.2)
          exact hlate .forwarding (fun _ => nofun) hafter
  | _ => exact hother fun _ => nofun

/-- No connection takes it twice. -/
theorem takes_once {h : List WatchEvent} (hi : Issued handlerMonitor.Place h) :
    h.countP takesStore ≤ 1 ∧ ((handlerMonitor.state h).Untaken → h.countP takesStore = 0) := by
  refine issued_induction (P := fun h => h.countP takesStore ≤ 1 ∧
    ((handlerMonitor.state h).Untaken → h.countP takesStore = 0)) ⟨Nat.zero_le _, fun _ => rfl⟩ ?_ h hi
  intro h e _ hplace ih
  rw [List.countP_append, List.countP_singleton, handlerMonitor.state_snoc]
  cases htakes : takesStore e with
  | false =>
      refine ⟨by simpa using ih.1, fun hafter => ?_⟩
      simpa using ih.2 (HandlerStage.Untaken.of_after hplace hafter)
  | true =>
      cases takesStore_inv htakes
      have hbefore := HandlerStage.Allows.untaken hplace
      rw [ih.2 (Or.inr hbefore), hbefore]
      refine ⟨by simp, fun hafter => ?_⟩
      rcases hafter with h | h <;> cases h

section Holder

variable [FlowDebug] {nexus : NexusShared} {c : WatchPool}

/-- What is known of a thread's history, for the mutex. -/
def LockKnown (t : Nat) (h : List WatchEvent) : Prop :=
  (∀ e ∈ h, RoleOf t e.op) ∧ ∀ handler, t = serveThread (handler + 1) → Issued handlerMonitor.Place h

theorem lock_known (hr : Reach watchSystem (WatchPool.initial nexus) c) (t : Nat) :
    LockKnown t (c.hist t) :=
  ⟨fun _ he => watch_roles hr he, fun handler ht => ht ▸ handler_issued hr handler⟩

omit [FlowDebug] in
/-- The mutex of the store moves by the operations of handlers only. -/
theorem watchSem_holder {s s' : WatchShared} {t : Nat} {e : WatchEvent} (hs : watchSem s t e s')
    (hrole : RoleOf t e.op) :
    ((∀ n, e.op ≠ .inl (.nexus n)) ∧ s'.serve.nexus.holder = s.serve.nexus.holder) ∨
      ∃ handler o a, t = serveThread (handler + 1) ∧ e = ⟨.inl (.nexus o), a⟩ ∧
        serveSem s.serve (handler + 1) ⟨.nexus o, a⟩ s'.serve := by
  obtain ⟨o, a⟩ := e
  cases o with
  | inl o =>
      obtain ⟨v, s₁, served, ht, _, hsem, rfl⟩ := hs
      by_cases hn : ∃ n, o = .nexus n
      · obtain ⟨n, rfl⟩ := hn
        obtain ⟨handler, ht'⟩ := hrole
        have hv : v = handler + 1 := by
          have hdiv := congrArg (· / 3) (ht.symm.trans ht')
          simpa using hdiv
        subst hv
        exact Or.inr ⟨handler, n, a, ht', rfl, hsem⟩
      · refine Or.inl ⟨fun n he => hn ⟨n, Sum.inl.inj he⟩, ?_⟩
        obtain ⟨_, hserved⟩ := serveSem_other hsem fun n he => hn ⟨n, he⟩
        show served.nexus.holder = _
        rw [hserved]
        cases o <;> rfl
  | inr o =>
      refine Or.inl ⟨fun _ => nofun, ?_⟩
      rw [WatchShared.watch_serve hs]

omit [FlowDebug] in
/-- What an operation of a connection does to the holder of the mutex. -/
theorem nexusSem_holder {s s' : NexusShared} {t v : Nat} {o : NexusOp} {a : NexusAns o}
    (hs : nexusSem s t ⟨o, a⟩ s') (hheld : s'.holder = some v) :
    (o = .lockStore ∧ v = t) ∨ (o ≠ .lockStore ∧ o ≠ .unlockStore ∧ s.holder = some v) := by
  cases o with
  | lockStore =>
      rw [hs.2] at hheld
      exact Or.inl ⟨rfl, (Option.some.inj hheld).symm⟩
  | unlockStore =>
      rw [show s' = _ from hs] at hheld
      cases hheld
  | matchRecords =>
      rw [hs.1] at hheld
      exact Or.inr ⟨nofun, nofun, hheld⟩
  | mutateKeyed standard =>
      rcases hs with ⟨_, rfl⟩ | ⟨_, rfl⟩
      · exact Or.inr ⟨nofun, nofun, hheld⟩
      · exact Or.inr ⟨nofun, nofun, hheld⟩
  | _ =>
      rw [show s' = s from hs] at hheld
      exact Or.inr ⟨nofun, nofun, hheld⟩

omit [FlowDebug] in
/-- A handler that unwinds holds it no more, and takes it from nobody. -/
theorem unwound_holder {s s' : ServeShared} {handler v : Nat} {o : NexusOp}
    (hs : serveSem s (handler + 1) ⟨.nexus o, none⟩ s') (hheld : s'.nexus.holder = some v) :
    v ≠ handler ∧ s.nexus.holder = some v := by
  obtain ⟨nexus, hnexus, rfl⟩ := hs
  change (if nexus.holder = some handler then none else nexus.holder) = some v at hheld
  split at hheld
  · cases hheld
  · rename_i hne
    have hv : v ≠ handler := fun he => hne (he ▸ hheld)
    refine ⟨hv, ?_⟩
    rcases hnexus with rfl | ⟨a, hsem⟩
    · exact hheld
    · rcases nexusSem_holder hsem hheld with ⟨_, he⟩ | ⟨_, _, hkept⟩
      · exact absurd he hv
      · exact hkept

/-- Who holds the mutex is in its section. -/
theorem holder_inside (hfree : nexus.holder = none)
    (hr : Reach watchSystem (WatchPool.initial nexus) c) {handler : Nat}
    (hheld : c.shared.serve.nexus.holder = some handler) :
    handlerMonitor.state (c.hist (serveThread (handler + 1))) = .answering .inside := by
  refine Reach.logged (D := fun _ t h => LockKnown t h) (P := fun s H => ∀ handler,
    s.serve.nexus.holder = some handler →
      handlerMonitor.state (H (serveThread (handler + 1))) = .answering .inside)
    (fun c hr t => lock_known hr t) ?_ ?_ ?_ ?_ hr handler hheld
  · intro handler hheld
    rw [show (WatchPool.initial nexus).shared.serve.nexus.holder = none from hfree] at hheld
    cases hheld
  · intro s H t e s' _ hnow hs hc v hheld
    have hin : e ∈ H t ++ [e] := List.mem_append_right _ (List.mem_singleton_self e)
    have hmove := watchSem_holder hs (hnow.1 e hin)
    by_cases hself : serveThread (v + 1) = t
    · subst hself
      have hissued := hnow.2 v rfl
      have hplace : (handlerMonitor.state (H (serveThread (v + 1)))).Allows e.op := hissued.at
      rw [Function.update_self, handlerMonitor.state_snoc]
      rcases hmove with ⟨hnone, hsame⟩ | ⟨u, o, a, hu, rfl, hsem⟩
      · -- In its section a connection only uses the store.
        have hinside := hc v (hsame ▸ hheld)
        rw [hinside] at hplace
        obtain ⟨n, hn, _⟩ := HandlerStage.Allows.inside hplace
        exact absurd hn (hnone n)
      · obtain rfl : u = v := by
          unfold serveThread at hu
          omega
        cases a with
        | none => exact absurd rfl (unwound_holder hsem hheld).1
        | some a =>
            obtain ⟨_, hsem, hs'⟩ := hsem
            rw [hs'] at hheld
            rcases nexusSem_holder hsem hheld with ⟨rfl, _⟩ | ⟨_, hunlock, hkept⟩
            · rw [HandlerStage.Allows.untaken hplace]
              rfl
            · have hinside := hc u hkept
              rw [hinside] at hplace ⊢
              cases o with
              | unlockStore => exact absurd rfl hunlock
              | lockStore => exact absurd rfl hplace.1
              | matchRecords => rfl
              | mutateKeyed standard => rfl
              | _ => cases hplace.2
    · rw [Function.update_of_ne hself]
      refine hc v ?_
      rcases hmove with ⟨_, hsame⟩ | ⟨u, o, a, hu, rfl, hsem⟩
      · exact hsame ▸ hheld
      · have hne : v ≠ u := fun he => hself (he ▸ hu.symm)
        cases a with
        | none => exact (unwound_holder hsem hheld).2
        | some a =>
            obtain ⟨_, hsem, hs'⟩ := hsem
            rw [hs'] at hheld
            rcases nexusSem_holder hsem hheld with ⟨_, he⟩ | ⟨_, _, hkept⟩
            · exact absurd he hne
            · exact hkept
  · intro s t p s' H hs hc
    cases hs with
    | handler handler socket hs => exact hc
    | _ => exact hc
  · intro s s' H hs _
    exact False.elim hs

/-- A handler that holds the mutex after a step and not before has taken it by this step. -/
theorem store_taken {c' : WatchPool} (hr : Reach watchSystem (WatchPool.initial nexus) c')
    (hs : Step watchSystem c c') {v : Nat} (hne : c.shared.serve.nexus.holder ≠ some v)
    (hheld : c'.shared.serve.nexus.holder = some v) :
    ∃ e, takesStore e = true ∧
      c'.hist (serveThread (v + 1)) = c.hist (serveThread (v + 1)) ++ [e] := by
  cases hs with
  | act t th o k a s' ht hl hrest hs =>
      have hhist := Pool.hist_put c s' t { th with hist := th.hist ++ [⟨o, a⟩], rest := k a }
      have hin : (⟨o, a⟩ : WatchEvent) ∈
          (c.put s' t { th with hist := th.hist ++ [⟨o, a⟩], rest := k a }).hist t := by
        rw [hhist, Function.update_self]
        exact List.mem_append_right _ (List.mem_singleton_self _)
      rcases watchSem_holder hs (watch_roles hr hin) with ⟨_, hsame⟩ | ⟨u, n, b, rfl, he, hsem⟩
      · exact absurd (hsame ▸ hheld) hne
      · cases he
        cases b with
        | none => exact absurd (unwound_holder hsem hheld).2 hne
        | some b =>
            obtain ⟨nexus', hnexus, hs'⟩ := hsem
            rw [Pool.put_shared, hs'] at hheld
            rcases nexusSem_holder hnexus hheld with ⟨rfl, rfl⟩ | ⟨_, _, hkept⟩
            · refine ⟨⟨.inl (.nexus .lockStore), some b⟩, rfl, ?_⟩
              rw [hhist, Function.update_self, Pool.hist_of ht]
            · exact absurd hkept hne
  | again t th l ht hl hrest => exact absurd hheld hne
  | start t p s' ht hs =>
      cases hs with
      | handler handler socket hs => exact absurd hheld hne
      | _ => exact absurd hheld hne
  | halt s' hs => exact False.elim hs

/-- No thread takes it twice. -/
theorem takes_bounded (hr : Reach watchSystem (WatchPool.initial nexus) c) (t : Nat) :
    (c.hist t).countP takesStore ≤ 1 := by
  by_cases hhandler : ∃ handler, t = serveThread (handler + 1)
  · obtain ⟨handler, rfl⟩ := hhandler
    exact (takes_once (handler_issued hr handler)).1
  · have hzero : (c.hist t).countP takesStore = 0 := by
      refine List.countP_eq_zero.mpr fun e he htakes => hhandler ?_
      have hrole := watch_roles hr he
      rw [takesStore_inv htakes] at hrole
      exact hrole
    omega

end Holder

/-! ## 2. Every handler gets the mutex -/

section Runs

variable [FlowDebug] {nexus : NexusShared} {ρ : Run watchSystem (.initial nexus)}
  (hfree : nexus.holder = none) (hf : Fair watchReadiness ρ)

include hfree hf

/-- Whoever holds the mutex gives it back. -/
theorem store_given_back {n v : Nat} (hheld : (ρ.pool n).shared.serve.nexus.holder = some v) :
    ∃ m, n ≤ m ∧ (ρ.pool m).shared.serve.nexus.holder ≠ some v := by
  have hinside := holder_inside hfree (ρ.reach n) hheld
  obtain ⟨th, ht⟩ : ∃ th, (ρ.pool n).threads (serveThread (v + 1)) = some th := by
    cases ht : (ρ.pool n).threads (serveThread (v + 1)) with
    | some th => exact ⟨th, rfl⟩
    | none =>
        rw [Pool.hist, ht] at hinside
        cases hinside
  have hpass : ∀ h o, handlerMonitor.state h = .answering .inside → handlerMonitor.Place h o →
      Passes ρ (serveThread (v + 1)) n o := by
    intro h o hin ho
    rw [Monitor.Place, hin] at ho
    obtain ⟨o, rfl, hne, hoff⟩ := HandlerStage.Allows.inside ho
    cases o with
    | lockStore => exact absurd rfl hne
    | unlockStore => exact handler_passes_ready hf fun _ _ => rfl
    | matchRecords => exact handler_passes_ready hf fun _ _ => rfl
    | mutateKeyed standard => exact handler_passes_ready hf fun _ _ => rfl
    | _ => cases hoff
  obtain ⟨m, th', hm, ht', _, hstop⟩ := ρ.comes_to hpass le_rfl ht (handler_stages (ρ.reach n) ht).2
  refine ⟨m, hm, fun hstill => ?_⟩
  have hnow := holder_inside hfree (ρ.reach m) hstill
  rw [Pool.hist_of ht'] at hnow
  obtain ⟨r, _, hends⟩ := hstop hnow
  rw [hnow] at hends
  cases r with
  | inl l => cases (HandlerStage.AtLoop.forward hends).1
  | inr result =>
      obtain ⟨detached, hover⟩ := hends
      cases hover

/-- Once no handler is spawned any more, every handler gets the mutex. -/
theorem lock_passed {n₀ count : Nat}
    (hfixed : ∀ m, n₀ ≤ m → (ρ.pool m).shared.serve.spawned.length = count) (handler : Nat) :
    Passes ρ (serveThread (handler + 1)) n₀ (.inl (.nexus .lockStore)) := by
  refine hf.acquires_bounded watch_unhalted (fun s => s.serve.nexus.holder) takesStore (K := 1)
    (N := serveThread (count + 1)) ?_ ?_ ?_ ?_
  · intro s hnone
    refine ⟨by rw [serveThread_div], ?_⟩
    exact Option.isNone_iff_eq_none.mpr hnone
  · exact fun n v _ hheld => store_given_back hfree hf hheld
  · exact fun n t => takes_bounded (ρ.reach n) t
  · intro n v hn hne hheld
    rcases ρ.goes n with hs | hsame
    · obtain ⟨e, htakes, hhist⟩ := store_taken (ρ.reach (n + 1)) hs hne hheld
      have hthread : (ρ.pool (n + 1)).threads (serveThread (v + 1)) ≠ none := by
        intro hnone
        rw [Pool.hist, hnone] at hhist
        exact List.cons_ne_nil _ _ (List.append_eq_nil_iff.mp hhist.symm).2
      obtain ⟨th, ht⟩ := Option.ne_none_iff_exists'.mp hthread
      have hspawned := (watch_kind (ρ.reach (n + 1)) _ th ht).of_handler.1
      rw [hfixed (n + 1) (hn.trans n.le_succ)] at hspawned
      refine ⟨serveThread (v + 1), e, ?_, htakes, hhist⟩
      unfold serveThread
      omega
    · rw [hsame] at hheld
      exact absurd hheld hne

end Runs

/-! ## 3. The listener behind its loop -/

/-- What the listener asks up to its joins, -/
def ServeOp.shuts : ServeOp → Bool
  | .dropListener _ => true
  | .shutdownBoth _ => true
  | _ => false

/-- and up to its return. -/
def ServeOp.closes : ServeOp → Bool
  | .join _ => true
  | .dropNexus => true
  | o => o.shuts

theorem ServeOp.closes_of_shuts {o : ServeOp} (h : o.shuts = true) : o.closes = true := by
  cases o <;> first | rfl | cases h

/-- Where it goes round there. -/
def ClosingLoop : ServeLoop ⊕ Unit → Prop
  | .inl (.close _ _) => True
  | .inl (.joins _ _) => True
  | _ => False

abbrev Shuts {α : Type} (Q : α → List ServeEvent → Prop) (p : ServeProg α) (h : List ServeEvent) :
    Prop :=
  Holds anyAnswer (fun _ o => o.shuts = true) Q p h

theorem shutdownHandlers_shuts (handlers : List Nat) (h : List ServeEvent) :
    Shuts (fun _ h' => (∀ e ∈ h, e ∈ h') ∧
      ∀ handler ∈ handlers, (⟨.shutdownBoth handler, ()⟩ : ServeEvent) ∈ h')
      (shutdownHandlers handlers) h := by
  induction handlers generalizing h with
  | nil => exact ⟨fun _ he => he, nofun⟩
  | cons handler handlers ih =>
      refine ⟨rfl, fun _ _ => Holds.mono (fun _ _ hG => hG) ?_ (ih _)⟩
      rintro _ h' ⟨hold, hall⟩
      refine ⟨fun e he => hold e (List.mem_append_left _ he), fun other hother => ?_⟩
      rcases List.mem_cons.mp hother with rfl | hother
      · exact hold _ (List.mem_append_right _ (List.mem_singleton_self _))
      · exact hall other hother

/-- It shuts the streams of all its handlers down before it joins them. -/
theorem closeListeners_shuts (handlers : List Nat) (result : Except IoError Unit)
    (h : List ServeEvent) : Shuts (fun r h' => r = .inl (.joins handlers result) ∧
      ∀ handler ∈ handlers, (⟨.shutdownBoth handler, ()⟩ : ServeEvent) ∈ h')
      (closeListeners handlers result) h := by
  refine ⟨rfl, fun _ _ => ⟨rfl, fun _ _ => ?_⟩⟩
  let after : ServeThread := pure (.inl (.joins handlers result))
  change Shuts _ (shutdownHandlers handlers >>= fun _ => after) _
  refine (holds_bind _ _ _).mpr (Holds.mono (fun _ _ hG => hG) ?_ (shutdownHandlers_shuts handlers _))
  rintro _ h' ⟨_, hall⟩
  exact ⟨rfl, hall⟩

/-- There it stays. -/
theorem watchRound_closes [FlowDebug] (l : ServeLoop ⊕ Unit) (h : List WatchEvent)
    (hl : ClosingLoop l) :
    Holds anyAnswer (fun _ o => ∃ o', o = .inl o' ∧ o'.closes = true)
      (Sum.elim (fun l _ => ClosingLoop l) fun _ _ => True) (watchRound l) h := by
  have hround : ∀ p : ServeThread, Holds anyAnswer (fun _ o => o.closes = true)
      (fun r _ => ∀ loop, r = .inl loop → ClosingLoop (.inl loop)) p (h.filterMap visible) →
      Holds anyAnswer (fun _ o => ∃ o', o = .inl o' ∧ o'.closes = true)
        (Sum.elim (fun l _ => ClosingLoop l) fun _ _ => True) (unwatched p) h := by
    intro p hp
    refine (unwatched_holds hp).mono (fun _ _ hG => hG) ?_
    rintro _ _ ⟨r, rfl, hr⟩
    cases r with
    | inl loop => exact hr loop rfl
    | inr result => trivial
  match l with
  | .inl (.close handlers result) =>
      refine hround _ (Holds.mono (fun _ _ ho => ServeOp.closes_of_shuts ho) ?_
        (closeListeners_shuts handlers result _))
      rintro _ _ ⟨rfl, _⟩ loop he
      cases he
      trivial
  | .inl (.joins [] result) => exact hround _ ⟨rfl, fun _ _ => nofun⟩
  | .inl (.joins (handler :: handlers) result) =>
      refine hround _ ⟨rfl, fun _ _ loop he => ?_⟩
      cases he
      trivial
  | .inl (.poll _) => exact hl.elim
  | .inl (.reap _ _ _) => exact hl.elim
  | .inl (.forward _ _) => exact hl.elim
  | .inr () => exact hl.elim

theorem visible_mem {h : List WatchEvent} {o : ServeOp} {a : ServeAns o}
    (he : (⟨o, a⟩ : ServeEvent) ∈ h.filterMap visible) : (⟨.inl o, a⟩ : WatchEvent) ∈ h := by
  obtain ⟨⟨o', a'⟩, hin, hv⟩ := List.mem_filterMap.mp he
  cases o' with
  | inl o' =>
      cases hv
      exact hin
  | inr o' => cases hv

section Runs

variable [FlowDebug] {nexus : NexusShared} {ρ : Run watchSystem (.initial nexus)}

/-- The listener as `Joined.lean` has it. -/
theorem listener_shown {c : WatchPool} (hr : Reach watchSystem (WatchPool.initial nexus) c)
    {th : WatchThreadState} (ht : c.threads (serveThread 0) = some th) :
    ∃ d th', Reach serveSystem (ServePool.initial nexus) d ∧ d.shared = c.shared.serve ∧
      d.threads 0 = some th' ∧ th'.hist = th.hist.filterMap visible ∧
      Shadows SameEnd th.rest th'.rest := by
  obtain ⟨d, hd, hshows⟩ := watchHiding.reach hr
  obtain ⟨th', ht', hshown⟩ := hshows.thread (u := 0) ht
  exact ⟨d, th', hd, hshows.shared, ht', hshown.hist, hshown.rest⟩

/-- No handler is spawned any more. -/
theorem spawned_fixed {n m : Nat} (hnm : n ≤ m) {th : WatchThreadState} {l : ServeLoop ⊕ Unit}
    (ht : (ρ.pool n).threads (serveThread 0) = some th) (hr : th.rest = .ret (.inl l))
    (hl : ClosingLoop l) :
    (ρ.pool m).shared.serve.spawned.length = (ρ.pool n).shared.serve.spawned.length := by
  obtain ⟨th', es, ht', hhist, htrace⟩ := (ρ.later hnm).thread_trace ht
  have hnumbers : ∀ {c : WatchPool} {th : WatchThreadState},
      Reach watchSystem (WatchPool.initial nexus) c → c.threads (serveThread 0) = some th →
      serveCrew.spawned (th.hist.filterMap visible) = List.range c.shared.serve.spawned.length := by
    intro c th hr ht
    obtain ⟨d, thd, hd, hshared, htd, hhistd, _⟩ := listener_shown hr ht
    rw [← hshared, ← hhistd]
    exact (serve_account hd htd).spawned
  have hissued := htrace.issued watchRound_closes (h := th.hist)
    (by rw [hr]; exact hl) (along_any _ _)
  have hnone : serveCrew.spawned (es.filterMap visible) = [] := by
    refine List.filterMap_eq_nil_iff.mpr fun e he => ?_
    obtain ⟨o, a⟩ := e
    obtain ⟨o', ho', hcloses⟩ := Along.forall hissued _ (visible_mem he)
    cases ho'
    cases o with
    | spawn socket => cases hcloses
    | _ => rfl
  have hnow := hnumbers (ρ.reach m) ht'
  rw [hhist, List.filterMap_append, Reap.Crew.spawned, List.filterMap_append] at hnow
  change serveCrew.spawned _ ++ serveCrew.spawned _ = _ at hnow
  rw [hnone, List.append_nil, hnumbers (ρ.reach n) ht] at hnow
  simpa using (congrArg List.length hnow).symm

/-! ## 4. The end of `serve` -/

/-- From some time on the handler waits for Flow, for ever: in an exchange, or in the opening of its
    subscription. Both begin with a connect, which has no timeout; behind it only the answer to an
    abrupt delivery has none. -/
def WaitsForFlow (ρ : Run watchSystem (.initial nexus)) (handler : Nat) : Prop :=
  ∃ n o, asksFlow o = true ∧ ∀ m, n ≤ m → ∃ th k,
    (ρ.pool m).threads (serveThread (handler + 1)) = some th ∧ th.rest = .ask o k

/-- What a handler asks Flow is passed, unless it waits for it for ever. -/
theorem flow_passed {handler : Nat} (hnever : ¬ WaitsForFlow ρ handler) {o : ServeOp ⊕ WatchOp}
    (ho : asksFlow o = true) (n : Nat) : Passes ρ (serveThread (handler + 1)) n o := by
  intro m th k _ ht hr
  refine (ρ.performs_or_stays watch_unhalted ht hr).resolve_right fun hstays => ?_
  exact hnever ⟨m, o, ho, fun m' hm' => ⟨th, k, hstays m' hm', hr⟩⟩

/-- A handler that waits for Flow for ever never returns. -/
theorem waiting_stays {handler : Nat} (hwaits : WaitsForFlow ρ handler) (n : Nat) :
    (ρ.pool n).shared.serve.ended handler = false := by
  rw [Bool.eq_false_iff]
  intro hended
  obtain ⟨n₁, o, _, hstays⟩ := hwaits
  obtain ⟨th, k, ht, hr⟩ := hstays (max n n₁) (le_max_right _ _)
  have hlater := (run_grows ρ (le_max_left n n₁)).ended handler hended
  have hfinished := (caused (ρ.reach (max n n₁))).returned handler hlater
  rw [Pool.hist_of ht] at hfinished
  obtain ⟨hissued, hrest⟩ := handler_stages (ρ.reach _) ht
  obtain ⟨detached, hover⟩ := over_of_finished hissued hfinished
  rw [hr] at hrest
  have hplace : (handlerMonitor.state th.hist).Allows _ := hrest.1
  rw [hover] at hplace
  exact hplace

/-- The end of a run in which the listener has left its loop with these handlers. -/
structure GracefulStop (ρ : Run watchSystem (.initial nexus)) (handlers : List Nat)
    (result : Except IoError Unit) : Prop where
  /-- Every handler ever spawned returns, or waits for Flow for ever; -/
  settled : ∀ n handler, handler < (ρ.pool n).shared.serve.spawned.length →
    (∃ m, (ρ.pool m).shared.serve.ended handler = true) ∨ WaitsForFlow ρ handler
  /-- so does every watcher of a handler that the listener still had. -/
  watchers : ∀ handler ∈ handlers, ∀ n, (ρ.pool n).shared.watched (handler + 1) = true →
    ∃ m, (ρ.pool m).shared.watcherEnded (handler + 1) = true
  /-- If none is left waiting, `serve` returns, and nobody holds the Nexus; -/
  returns : (∀ handler, ¬ WaitsForFlow ρ handler) → ∃ n th,
    (ρ.pool n).threads (serveThread 0) = some th ∧ th.rest = .ret (.inr result) ∧
      (ρ.pool n).shared.serve.holders = [] ∧ (ρ.pool n).shared.serve.strong = 0
  /-- if one is, it never does. -/
  blocked : ∀ handler, WaitsForFlow ρ handler → ∀ n th result,
    (ρ.pool n).threads (serveThread 0) = some th → th.rest ≠ .ret (.inr result)

section Stop

variable (hf : Fair watchReadiness ρ)

include hf

/-- A handler whose stream the listener has shut down returns, or Flow leaves it waiting. -/
theorem handler_settles (hfree : nexus.holder = none) {n count : Nat}
    (hfixed : ∀ m, n ≤ m → (ρ.pool m).shared.serve.spawned.length = count) {handler : Nat}
    (hspawned : handler < count) (hclosed : (ρ.pool n).shared.closed (handler + 1) = true) :
    (∃ m, (ρ.pool m).shared.serve.ended handler = true) ∨ WaitsForFlow ρ handler := by
  by_cases hwaits : WaitsForFlow ρ handler
  · exact Or.inr hwaits
  left
  obtain ⟨n₁, th, hn₁, ht⟩ := hf.thread_starts (t := serveThread (handler + 1)) (n := n)
    fun m hm => by
      have hlt : handler < (ρ.pool m).shared.serve.spawned.length := by
        rw [hfixed m hm]
        exact hspawned
      exact ⟨_, _, .handler handler _ (List.getElem?_eq_getElem hlt)⟩
  have hshut := (run_grows ρ hn₁).closed _ hclosed
  have hended := shut_ended (ρ.reach n₁) _ (Or.inr hshut)
  have hpass : ∀ h o, True → handlerMonitor.Place h o →
      Passes ρ (serveThread (handler + 1)) n₁ o := by
    intro h o _ ho
    cases hw : waitsElsewhere o with
    | false => exact handler_passes hf hended ho hw fun _ => Or.inr hshut
    | true =>
        unfold waitsElsewhere at hw
        split at hw
        · exact (lock_passed hfree hf hfixed handler).mono hn₁
        · exact flow_passed hwaits hw n₁
  obtain ⟨m, _, hreturned⟩ := handler_returns hf (B := fun _ => True) (fun _ _ _ _ => trivial)
    hended hpass ht trivial
  exact ⟨m, hreturned⟩

/-- The listener joins its handlers one after the other, and returns. -/
theorem joins_return {handlers : List Nat} {result : Except IoError Unit}
    (hends : ∀ handler ∈ handlers, ∃ m, (ρ.pool m).shared.serve.ended handler = true) {n : Nat}
    {th : WatchThreadState} (ht : (ρ.pool n).threads (serveThread 0) = some th)
    (hr : th.rest = .ret (.inl (.inl (.joins handlers result)))) :
    ∃ m th', (ρ.pool m).threads (serveThread 0) = some th' ∧ th'.rest = .ret (.inr result) := by
  induction handlers generalizing n th with
  | nil =>
      obtain ⟨n₁, _, ht₁⟩ := hf.enters watch_unhalted ht hr
      have hdrop : Passes ρ (serveThread 0) n₁ (.inl .dropNexus) :=
        passes_unwaiting hf fun _ => ⟨rfl, rfl⟩
      obtain ⟨n₂, _, _, _, ht₂⟩ := hdrop n₁ _ _ le_rfl ht₁ rfl
      exact ⟨_, _, ht₂, rfl⟩
  | cons handler handlers ih =>
      obtain ⟨n₁, _, ht₁⟩ := hf.enters watch_unhalted ht hr
      obtain ⟨m, hended⟩ := hends handler List.mem_cons_self
      have hjoin : Passes ρ (serveThread 0) n₁ (.inl (.join handler)) :=
        hf.passes watch_unhalted fun _ _ _ _ _ _ =>
          ⟨m, fun m' hm' => ⟨rfl, (run_grows ρ hm').ended handler hended⟩⟩
      obtain ⟨n₂, _, _, _, ht₂⟩ := hjoin n₁ _ _ le_rfl ht₁ rfl
      exact ih (fun other hin => hends other (List.mem_cons_of_mem _ hin)) ht₂ rfl

/-- The listener shuts the streams of its handlers down, and gets to their joins. -/
theorem close_joins {handlers : List Nat} {result : Except IoError Unit} {n : Nat}
    {th : WatchThreadState} (ht : (ρ.pool n).threads (serveThread 0) = some th)
    (hr : th.rest = .ret (.inl (.inl (.close handlers result)))) :
    ∃ m th', n ≤ m ∧ (ρ.pool m).threads (serveThread 0) = some th' ∧
      th'.rest = .ret (.inl (.inl (.joins handlers result))) ∧
      ∀ handler ∈ handlers, (ρ.pool m).shared.closed (handler + 1) = true := by
  obtain ⟨n₁, hn₁, ht₁⟩ := hf.enters watch_unhalted ht hr
  have hpass : ∀ (h : List WatchEvent) o, True → (∃ o', o = .inl o' ∧ o'.shuts = true) →
      Passes ρ (serveThread 0) n₁ o := by
    rintro _ _ _ ⟨o, rfl, hshuts⟩
    cases o with
    | dropListener socket => exact passes_unwaiting hf fun _ => ⟨rfl, rfl⟩
    | shutdownBoth handler => exact passes_unwaiting hf fun _ => ⟨rfl, rfl⟩
    | _ => cases hshuts
  obtain ⟨m, th', hm, ht', _, hstop⟩ := ρ.comes_to (B := fun _ => True) hpass le_rfl ht₁
    (unwatched_holds (closeListeners_shuts handlers result _))
  obtain ⟨_, hr', _, rfl, rfl, hall⟩ := hstop trivial
  refine ⟨m, th', hn₁.trans hm, ht', hr', fun handler hin => ?_⟩
  exact (marked_at (ρ.reach m) ht' (visible_mem (hall handler hin)) : Marked _ _ _).1

/-- `serve` returns, with its result and the Nexus released, if and only if Flow leaves no handler
    waiting for ever. -/
theorem serve_stops (hfree : nexus.holder = none) {n : Nat} {handlers : List Nat}
    {result : Except IoError Unit} {th : WatchThreadState}
    (ht : (ρ.pool n).threads (serveThread 0) = some th)
    (hr : th.rest = .ret (.inl (.inl (.close handlers result)))) : GracefulStop ρ handlers result := by
  obtain ⟨n₁, th₁, hn₁, ht₁, hr₁, hclosed⟩ := close_joins hf ht hr
  have hfixed : ∀ m, n₁ ≤ m → (ρ.pool m).shared.serve.spawned.length =
      (ρ.pool n₁).shared.serve.spawned.length := fun m hm => spawned_fixed hm ht₁ hr₁ trivial
  obtain ⟨d, thd, hd, hshared, htd, hhist, hrest⟩ := listener_shown (ρ.reach n₁) ht₁
  have haccount := serve_account hd htd
  rw [hr₁] at hrest
  obtain ⟨_, hrd, rfl⟩ := hrest
  -- A handler that the listener does not have any more was joined.
  have hsettled : ∀ handler, handler < (ρ.pool n₁).shared.serve.spawned.length →
      (∃ m, (ρ.pool m).shared.serve.ended handler = true) ∨ WaitsForFlow ρ handler := by
    intro handler hlt
    have hspawned : handler ∈ serveCrew.spawned thd.hist := by
      rw [haccount.spawned, hshared]
      exact List.mem_range.mpr hlt
    rcases List.mem_append.mp ((haccount.kept _ hrd).mem_iff.mpr hspawned) with hjoined | hkept
    · left
      have hin : (⟨.join handler, ()⟩ : ServeEvent) ∈ d.hist 0 :=
        Pool.hist_of htd ▸ handler_joined hjoined
      have hended := handler_ended hd hin (Or.inr rfl)
      rw [hshared] at hended
      exact ⟨n₁, hended⟩
    · exact handler_settles hf hfree hfixed hlt (hclosed handler hkept)
  have hbelow : ∀ m, (ρ.pool m).shared.serve.spawned.length ≤
      (ρ.pool n₁).shared.serve.spawned.length := by
    intro m
    rw [← hfixed (max m n₁) (le_max_right _ _)]
    exact (run_grows ρ (le_max_left m n₁)).spawned
  constructor
  · exact fun m handler hlt => hsettled handler (hlt.trans_le (hbelow m))
  · intro handler hin m hwatched
    have hlate := (run_grows ρ (le_max_right m n₁)).closed _ (hclosed handler hin)
    obtain ⟨m', _, hreturned, _⟩ := watcher_returns hf (shut_ended (ρ.reach _) _ (Or.inr hlate))
      ((run_grows ρ (le_max_left m n₁)).watched _ hwatched)
    exact ⟨m', hreturned⟩
  · intro hnone
    have hends : ∀ handler ∈ handlers, ∃ m, (ρ.pool m).shared.serve.ended handler = true := by
      intro handler hin
      have hspawned : handler ∈ serveCrew.spawned thd.hist :=
        (haccount.kept _ hrd).mem_iff.mp (List.mem_append_right _ hin)
      rw [haccount.spawned, hshared] at hspawned
      exact (hsettled handler (List.mem_range.mp hspawned)).resolve_right (hnone handler)
    obtain ⟨m, th', ht', hr'⟩ := joins_return hf hends ht₁ hr₁
    obtain ⟨d', thd', hd', hshared', htd', _, hrest'⟩ := listener_shown (ρ.reach m) ht'
    rw [hr'] at hrest'
    obtain ⟨_, hrd', rfl⟩ := hrest'
    have hreleased := (serve_account hd' htd').released _ hrd'
    rw [hshared'] at hreleased
    exact ⟨m, th', ht', hr', hreleased⟩
  · intro handler hwaits m th' result' ht' hr'
    obtain ⟨n₂, _, _, hstays⟩ := id hwaits
    obtain ⟨thw, _, htw, _⟩ := hstays (max m n₂) (le_max_right _ _)
    have hlt := (watch_kind (ρ.reach _) _ thw htw).of_handler.1
    obtain ⟨th₂, ht₂, hr₂⟩ := ρ.over_later (le_max_left m n₂) ht' hr'
    obtain ⟨d', thd', hd', hshared', htd', _, hrest'⟩ := listener_shown (ρ.reach _) ht₂
    rw [hr₂] at hrest'
    obtain ⟨_, hrd', rfl⟩ := hrest'
    have haccount' := serve_account hd' htd'
    have hspawned : handler ∈ serveCrew.spawned thd'.hist := by
      rw [haccount'.spawned, hshared']
      exact List.mem_range.mpr hlt
    have hended := (haccount'.returned _ hrd').2 handler hspawned
    rw [hshared', waiting_stays hwaits] at hended
    cases hended

end Stop

end Runs

/-- A signal comes while both handlers wait for a silent Flow, and `serve` returns; where the first
    one is still connecting to Flow, and stays so, it does not. -/
theorem serve_stops_signalled : (∃ (ρ : Run (@watchSystem unitDebug)
    (.initial (.serving sampleConfiguration))) (n : Nat) (th : WatchThreadState),
    @GracefulStop unitDebug _ ρ [0, 1] (.ok ()) ∧
      (ρ.pool n).threads (serveThread 0) = some th ∧ th.rest = .ret (.inr (.ok ()))) ∧
    ∃ ρ : Run (@watchSystem unitDebug) (.initial (.serving sampleConfiguration)),
      @GracefulStop unitDebug _ ρ [0, 1] (.ok ()) ∧ @WaitsForFlow unitDebug _ ρ 0 ∧
      ∀ n th result, (ρ.pool n).threads (serveThread 0) = some th →
        th.rest ≠ .ret (.inr result) := by
  constructor
  · obtain ⟨ρ, n, m, hf, hn, hm⟩ := stoppedWatch_run
    have hclose : ∃ th, signalledWatch.threads (serveThread 0) = some th ∧
        th.rest = .ret (.inl (.inl (.close [0, 1] (.ok ())))) := ⟨_, rfl, rfl⟩
    have hreturned : ∃ th, stoppedWatch.threads (serveThread 0) = some th ∧
        th.rest = .ret (.inr (.ok ())) := ⟨_, rfl, rfl⟩
    obtain ⟨th, ht, hr⟩ := hclose
    obtain ⟨th', ht', hr'⟩ := hreturned
    refine ⟨ρ, m, th', ?_, by rw [hm m le_rfl]; exact ht', hr'⟩
    exact @serve_stops unitDebug _ ρ hf rfl n _ _ th (by rw [hn]; exact ht) hr
  · obtain ⟨ρ, n, m, hf, hn, hm⟩ := blockedWatch_run
    have hclose : ∃ th, connectingWatch.threads (serveThread 0) = some th ∧
        th.rest = .ret (.inl (.inl (.close [0, 1] (.ok ())))) := ⟨_, rfl, rfl⟩
    have hconnects : ∃ th o k, asksFlow o = true ∧
        blockedWatch.threads (serveThread 1) = some th ∧ th.rest = .ask o k :=
      ⟨_, .inl (.nexus (.observe _ _ _)), _, rfl, rfl, rfl⟩
    obtain ⟨th, ht, hr⟩ := hclose
    obtain ⟨th', o, k, ho, ht', hr'⟩ := hconnects
    have hstop := @serve_stops unitDebug _ ρ hf rfl n _ _ th (by rw [hn]; exact ht) hr
    have hwaits : @WaitsForFlow unitDebug _ ρ 0 :=
      ⟨m, o, ho, fun i hi => ⟨th', k, by rw [hm i hi]; exact ht', hr'⟩⟩
    exact ⟨ρ, hstop, hwaits, @GracefulStop.blocked unitDebug _ ρ _ _ hstop 0 hwaits⟩

end MessageNexus
