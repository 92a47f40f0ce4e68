/-
  File:      MessageNexus/Nexus/Shutdown.lean
  Subject:   THE END OF THE HANDLERS in every fair run: a watcher whose client's stream has ended
             returns, and a handler in its forwarding loop returns, after it unless it unwinds,
             however silent Flow is.

  * `watcher_returns` -- a watcher;
  * `handler_passes`, `handler_returns` -- a handler whose operations are all passed;
  * `resting_fair` -- a run that comes to rest;
  * `ForwardingReturns`, `forwarding_returns` -- a handler in its forwarding loop whose client has
    gone, or behind it.
-/
import MessageNexus.Nexus.WatcherAccount

namespace MessageNexus

open Interact SignalFlow

/-! ## 1. What the runs keep -/

theorem WatchShared.Grows.trans {s₁ s₂ s₃ : WatchShared} (h : s₁.Grows s₂) (h' : s₂.Grows s₃) :
    s₁.Grows s₃ where
  spawned := h.spawned.trans h'.spawned
  ended handler he := h'.ended handler (h.ended handler he)
  client u := (h.client u).trans (h'.client u)
  flow u := (h.flow u).trans (h'.flow u)
  gone u he := h'.gone u (h.gone u he)
  closed u he := h'.closed u (h.closed u he)
  watched u he := h'.watched u (h.watched u he)
  watcherEnded u he := h'.watcherEnded u (h.watcherEnded u he)

section Runs

variable [FlowDebug] {nexus : NexusShared} {ρ : Run watchSystem (.initial nexus)}

theorem watch_unhalted (s s' : WatchShared) : ¬ watchSystem.halt s s' := fun h => h

theorem run_grows (ρ : Run watchSystem (.initial nexus)) {n m : Nat} (h : n ≤ m) :
    (ρ.pool n).shared.Grows (ρ.pool m).shared :=
  ρ.stays (F := fun s => (ρ.pool n).shared.Grows s) (fun _ _ _ _ hs hg => hg.trans (watchSem_grows hs))
    (fun _ _ _ _ hs hg => hg.trans (WatchStart.grows hs)) (fun _ _ hs _ => False.elim hs) h (.refl _)

/-- How much is left in a half that has ended. -/
def Half.left : Half → Nat
  | .live => 0
  | .ended queued => queued

/-- A half that has ended comes to stay as it is. -/
theorem half_settles (half : WatchShared → Half)
    (hshrinks : ∀ s s', s.Grows s' → (half s).Shrinks (half s')) {n : Nat}
    (hended : half (ρ.pool n).shared ≠ .live) :
    ∃ n₁ left, n ≤ n₁ ∧ ∀ m, n₁ ≤ m → half (ρ.pool m).shared = .ended left := by
  have hstays : ∀ m, n ≤ m → half (ρ.pool m).shared ≠ .live := fun m hm =>
    (hshrinks _ _ (run_grows ρ hm)).ended hended
  have hdown : ∀ m, n ≤ m →
      (half (ρ.pool (m + 1)).shared).left ≤ (half (ρ.pool m).shared).left := by
    intro m hm
    have hnow := hshrinks _ _ (run_grows ρ m.le_succ)
    cases hh : half (ρ.pool m).shared with
    | live => exact absurd hh (hstays m hm)
    | ended queued =>
        rw [hh] at hnow
        obtain ⟨left, hle, hnext⟩ := hnow
        rw [hnext]
        exact hle
  obtain ⟨n₁, hn₁, hsettled⟩ := settles (f := fun m => (half (ρ.pool m).shared).left) hdown
  refine ⟨n₁, (half (ρ.pool n₁).shared).left, hn₁, fun m hm => ?_⟩
  rw [← hsettled m hm]
  cases hh : half (ρ.pool m).shared with
  | live => exact absurd hh (hstays m (hn₁.trans hm))
  | ended queued => rfl

omit [FlowDebug] in
/-- A read that leaves a half that has ended as it was has come to the end. -/
theorem read_settled {s s' : WatchShared} {u left : Nat} {answer : Except IoError Nat}
    (hs : watchSem s (watcherThread u) ⟨.inr .readClient, answer⟩ s')
    (hbefore : s.client u = .ended left) (hafter : s'.client u = .ended left) :
    endsReading answer = true := by
  obtain ⟨hreads, hs'⟩ := hs
  rw [watcherThread_div] at hreads hs'
  rw [hbefore] at hreads hs'
  rw [hs'] at hafter
  dsimp only at hafter
  rw [Function.update_self] at hafter
  match answer, left with
  | .ok 0, _ => rfl
  | .error _, _ => rfl
  | .ok (n + 1), 0 => cases hreads
  | .ok (n + 1), left + 1 => exact absurd (Half.ended.inj hafter) (Nat.succ_ne_self left).symm

omit [FlowDebug] in
theorem next_settled {s s' : WatchShared} {u left : Nat} {answer : Option (Except FrameError Response)}
    (hs : watchSem s (serveThread u) ⟨.inl (.nexus .next), answer⟩ s')
    (hbefore : s.flow u = .ended left) (hafter : s'.flow u = .ended left) (response : Response) :
    answer ≠ some (.ok response) := by
  rintro rfl
  obtain ⟨v, s₁, served, hv, ⟨hne, hs₁⟩, _, rfl⟩ := hs
  cases Nat.eq_of_mul_eq_mul_left (show 0 < 3 by decide) hv
  rw [hs₁] at hafter
  dsimp only at hafter
  rw [Function.update_self, hbefore] at hafter
  match left with
  | 0 => exact hne hbefore
  | left + 1 => exact absurd (Half.ended.inj hafter) (Nat.succ_ne_self left).symm

/-! ## 2. A watcher -/

variable (hf : Fair watchReadiness ρ)

include hf

/-- An operation that never waits is passed. -/
theorem passes_unwaiting {t n : Nat} {o : ServeOp ⊕ WatchOp} (h : ∀ s, WatchShared.ready s t o) :
    Passes ρ t n o :=
  hf.passes_ready watch_unhalted fun _ _ => h _

/-- A watcher whose client's stream has ended passes its operations. -/
theorem watcher_passes {u n : Nat} (hended : (ρ.pool n).shared.client u ≠ .live)
    (h : List WatchEvent) (o : ServeOp ⊕ WatchOp) (ho : watcherMonitor.Place h o) :
    Passes ρ (watcherThread u) n o := by
  have hread : Passes ρ (watcherThread u) n (.inr .readClient) := by
    refine hf.passes_ready watch_unhalted fun m hm => ?_
    have hnow := ((run_grows ρ hm).client u).ended hended
    show WatchShared.watchReady _ (watcherThread u / 3) .readClient = true
    rw [watcherThread_div]
    simpa [WatchShared.watchReady] using hnow
  change WatcherStage.Allows _ o at ho
  generalize watcherMonitor.state h = stage at ho
  cases stage with
  | reading => cases (show o = _ from ho); exact hread
  | cutting => cases (show o = _ from ho); exact passes_unwaiting hf fun _ => rfl
  | finishing => cases (show o = _ from ho); exact passes_unwaiting hf fun _ => rfl
  | returned => exact False.elim ho

/-- A watcher whose client's stream has ended returns, and has shut the Flow stream down. -/
theorem watcher_returns {u n : Nat} (hended : (ρ.pool n).shared.client u ≠ .live)
    (hwatched : (ρ.pool n).shared.watched u = true) :
    ∃ m, n ≤ m ∧ (ρ.pool m).shared.watcherEnded u = true ∧ (ρ.pool m).shared.flow u ≠ .live := by
  obtain ⟨n₁, th, hn₁, ht⟩ := hf.thread_starts (t := watcherThread u) (n := n) fun m hm =>
    ⟨_, _, .watcher u ((run_grows ρ hm).watched u hwatched)⟩
  -- From some time on nothing more is read, so the next read is the last.
  obtain ⟨n₂, left, hn₂, hsettled⟩ := half_settles (fun s => s.client u)
    (fun _ _ hg => hg.client u) hended
  have hlate : n ≤ max n₁ n₂ := hn₁.trans (le_max_left _ _)
  obtain ⟨th₂, ht₂, _⟩ := ρ.thread_later (le_max_left n₁ n₂) ht
  have hpass := watcher_passes hf hended
  have hdone : ∀ m th, (ρ.pool m).threads (watcherThread u) = some th →
      watcherMonitor.state th.hist = .returned →
      (ρ.pool m).shared.watcherEnded u = true ∧ (ρ.pool m).shared.flow u ≠ .live := by
    intro m th ht hreturned
    obtain ⟨hfinished, hcut⟩ := returned_mem hreturned
    have hmark : (ρ.pool m).shared.watcherEnded (watcherThread u / 3) = true :=
      marked_at (ρ.reach m) ht hfinished
    have hmark' : (ρ.pool m).shared.flow (watcherThread u / 3) ≠ .live :=
      marked_at (ρ.reach m) ht hcut
    rw [watcherThread_div] at hmark hmark'
    exact ⟨hmark, hmark'⟩
  obtain ⟨m, th₃, hm, ht₃, _, hstop⟩ := ρ.comes_to (B := fun _ => True)
    (fun h o _ ho => hpass h o ho) hlate ht₂ (watcher_stages (ρ.reach _) ht₂).2
  obtain ⟨r, hr, hends⟩ := hstop trivial
  cases r with
  | inr result => exact ⟨m, hlate.trans hm, hdone m th₃ ht₃ hends⟩
  | inl l =>
      obtain ⟨rfl, hreading⟩ := hends
      obtain ⟨m₁, hm₁, ht₄⟩ := hf.enters watch_unhalted ht₃ hr
      obtain ⟨k, hk, hlast⟩ := watcherRound_last
      have hread : watcherMonitor.Place th₃.hist (.inr .readClient) := by
        rw [Monitor.Place, hreading]
        exact rfl
      have hm₁' := (hlate.trans hm).trans hm₁
      obtain ⟨m₂, answer, hm₂, hsem, ht₅⟩ := hpass _ _ hread m₁ _ k hm₁' ht₄ hk
      have hsettle : n₂ ≤ m₂ := ((le_max_right _ _).trans (hm.trans hm₁)).trans hm₂
      have hend := read_settled hsem (hsettled m₂ hsettle) (hsettled _ (hsettle.trans m₂.le_succ))
      have hwalks : watcherMonitor.Walks WatcherReturns (k answer)
          (watcherMonitor.state (th₃.hist ++ [⟨.inr .readClient, answer⟩])) := by
        rw [watcherMonitor.state_snoc, hreading, hlast answer hend]
        show watcherMonitor.Walks _ _ (WatcherStage.after .reading ⟨.inr .readClient, answer⟩)
        rw [WatcherStage.after, if_pos hend]
        exact interruptFlow_walks
      obtain ⟨m₃, th₆, hm₃, ht₆, _, hstop⟩ := ρ.comes_to (B := fun _ => True)
        (fun h o _ ho => hpass h o ho) ((hm₁'.trans hm₂).trans m₂.le_succ) ht₅ hwalks.holds
      obtain ⟨_, _, result, _, hreturned⟩ := hstop trivial
      exact ⟨m₃, ((hm₁'.trans hm₂).trans m₂.le_succ).trans hm₃, hdone m₃ th₆ ht₆ hreturned⟩

/-! ## 3. A handler -/

omit hf [FlowDebug] in
/-- What a handler asks is an operation of its connection, or one with which it returns, or one
    around its watcher. -/
theorem HandlerStage.Allows.kinds {stage : HandlerStage} {o : ServeOp ⊕ WatchOp}
    (h : stage.Allows o) : (∃ n, o = .inl (.nexus n)) ∨ (∃ e, o = .inl e ∧ e.ends = true) ∨
      o = .inr .spawnWatcher ∨ o = .inr .shutdownRead ∨ (o = .inr .joinWatcher ∧ stage.Watches) := by
  cases o with
  | inl o =>
      by_cases hn : ∃ n, o = .nexus n
      · obtain ⟨n, rfl⟩ := hn
        exact Or.inl ⟨n, rfl⟩
      · refine Or.inr (Or.inl ⟨o, rfl, ?_⟩)
        cases stage with
        | answering answered =>
            cases o with
            | nexus n => exact absurd ⟨n, rfl⟩ hn
            | _ => exact h.2
        | leaving detached => exact h
        | forwarding =>
            cases o with
            | nexus n => exact absurd ⟨n, rfl⟩ hn
            | _ => exact False.elim h
        | _ => exact False.elim h
  | inr o =>
      right
      right
      cases stage with
      | answering answered => exact Or.inl (congrArg Sum.inr h.2)
      | forwarding => exact Or.inr (Or.inl (congrArg Sum.inr h))
      | closing => exact Or.inr (Or.inr ⟨congrArg Sum.inr h, Or.inr rfl⟩)
      | _ => exact False.elim h

/-- A handler that answers no more, -/
def HandlerStage.Late (stage : HandlerStage) : Prop := ∀ answered, stage ≠ .answering answered

/-- and one that has left its loop. -/
def HandlerStage.Past (stage : HandlerStage) : Prop := stage.Late ∧ stage ≠ .forwarding

omit hf [FlowDebug] in
/-- A frame of the subscription is read in the loop only. -/
theorem HandlerStage.Allows.watches {stage : HandlerStage}
    (h : stage.Allows (.inl (.nexus .next))) : stage.Watches := by
  cases stage with
  | answering answered =>
      cases answered with
      | unread => rcases h with h | h <;> cases h
      | before => rcases h with h | h <;> cases h
      | inside => cases h.2
      | past => cases h
  | forwarding => exact Or.inl rfl
  | leaving detached => cases h
  | _ => exact False.elim h

/-- The operations that begin with a connect to Flow. -/
def asksFlow : ServeOp ⊕ WatchOp → Bool
  | .inl (.nexus (.exchange _ _ _ _)) => true
  | .inl (.nexus (.observe _ _ _)) => true
  | _ => false

/-- The operations at which a handler waits for the other handlers, or for Flow. -/
def waitsElsewhere : ServeOp ⊕ WatchOp → Bool
  | .inl (.nexus .lockStore) => true
  | o => asksFlow o

/-- The operations that wait for the client to read. -/
def writesClient : ServeOp ⊕ WatchOp → Bool
  | .inl (.nexus (.writeResponse _)) => true
  | .inl (.nexus (.writeMetaResponse _)) => true
  | _ => false

/-- An operation of a handler that is ready from now on is passed. -/
theorem handler_passes_ready {handler n : Nat} {o : ServeOp}
    (hready : ∀ m, n ≤ m → (ρ.pool m).shared.serveReady (handler + 1) o = true) :
    Passes ρ (serveThread (handler + 1)) n (.inl o) := by
  refine hf.passes_ready watch_unhalted fun m hm => ?_
  refine ⟨by rw [serveThread_div], ?_⟩
  rw [serveThread_div]
  exact hready m hm

omit hf in
/-- A handler that has spawned its watcher has one. -/
theorem spawned_watched {c : WatchPool} (hr : Reach watchSystem (WatchPool.initial nexus) c)
    {handler : Nat} (hspawned : (⟨.inr .spawnWatcher, ()⟩ : WatchEvent) ∈
      c.hist (serveThread (handler + 1))) : c.shared.watched (handler + 1) = true := by
  have hmark : c.shared.watched (serveThread (handler + 1) / 3) = true := marked hr hspawned
  rwa [serveThread_div] at hmark

/-- Where the watcher of a handler must end, an operation is passed that waits for that. -/
theorem handler_passes_watched {handler n : Nat} {o : ServeOp ⊕ WatchOp}
    (hended : (ρ.pool n).shared.client (handler + 1) ≠ .live)
    (hwatches : ∀ h, handlerMonitor.Place h o → (handlerMonitor.state h).Watches)
    (hready : ∀ s : WatchShared, s.watcherEnded (handler + 1) = true →
      s.flow (handler + 1) ≠ .live → s.ready (serveThread (handler + 1)) o) :
    Passes ρ (serveThread (handler + 1)) n o := by
  refine hf.passes watch_unhalted fun m th k hm ht hr => ?_
  have hplace := (handler_stages (ρ.reach m) ht).2
  rw [hr] at hplace
  have hspawned := spawned_mem (hwatches _ hplace.1)
  rw [← Pool.hist_of ht] at hspawned
  obtain ⟨m₁, _, hreturned, hcut⟩ := watcher_returns hf
    (((run_grows ρ hm).client _).ended hended) (spawned_watched (ρ.reach m) hspawned)
  refine ⟨m₁, fun m₂ hm₂ => hready _ ?_ ?_⟩
  · exact (run_grows ρ hm₂).watcherEnded _ hreturned
  · exact ((run_grows ρ hm₂).flow _).ended hcut

/-- A handler whose client's stream has ended passes its other operations; it passes a write where
    the stream has ended on both sides. -/
theorem handler_passes {handler n : Nat}
    (hended : (ρ.pool n).shared.client (handler + 1) ≠ .live) {h : List WatchEvent}
    {o : ServeOp ⊕ WatchOp} (ho : handlerMonitor.Place h o) (hne : waitsElsewhere o = false)
    (hshut : writesClient o = true → (ρ.pool n).shared.gone (handler + 1) = true ∨
      (ρ.pool n).shared.closed (handler + 1) = true) : Passes ρ (serveThread (handler + 1)) n o := by
  have hclient : ∀ m, n ≤ m → ((ρ.pool m).shared.client (handler + 1) != .live) = true := by
    intro m hm
    simpa using ((run_grows ρ hm).client _).ended hended
  have hwrites : writesClient o = true → ∀ m, n ≤ m → ((ρ.pool m).shared.gone (handler + 1) ||
      (ρ.pool m).shared.closed (handler + 1)) = true := by
    intro hw m hm
    rw [Bool.or_eq_true]
    exact (hshut hw).imp ((run_grows ρ hm).gone _) ((run_grows ρ hm).closed _)
  have hjoin : Passes ρ (serveThread (handler + 1)) n (.inr .joinWatcher) := by
    refine handler_passes_watched hf hended (fun h hp => ?_) fun s hreturned _ => ?_
    · rcases HandlerStage.Allows.kinds hp with ⟨_, he⟩ | ⟨_, he, _⟩ | he | he | ⟨_, hw⟩
      · cases he
      · cases he
      · cases he
      · cases he
      · exact hw
    · show s.watchReady (serveThread (handler + 1) / 3) .joinWatcher = true
      rw [serveThread_div]
      exact hreturned
  have hnext : Passes ρ (serveThread (handler + 1)) n (.inl (.nexus .next)) := by
    refine handler_passes_watched hf hended (fun _ hp => HandlerStage.Allows.watches hp)
      fun s _ hcut => ⟨by rw [serveThread_div], ?_⟩
    rw [serveThread_div]
    simpa [WatchShared.serveReady] using hcut
  rcases HandlerStage.Allows.kinds ho with ⟨o, rfl⟩ | ⟨o, rfl, hends⟩ | rfl | rfl | ⟨rfl, _⟩
  · cases o with
    | lockStore => cases hne
    | next => exact hnext
    | readQuery => exact handler_passes_ready hf hclient
    | readMetaQuery => exact handler_passes_ready hf hclient
    | writeResponse response => exact handler_passes_ready hf (hwrites rfl)
    | writeMetaResponse response => exact handler_passes_ready hf (hwrites rfl)
    | exchange path query timeout writeTimeout => cases hne
    | observe path query writeTimeout => cases hne
    | _ => exact handler_passes_ready hf fun _ _ => rfl
  · cases o with
    | poll => cases hends
    | join handler => cases hends
    | nexus o => cases hends
    | _ => exact handler_passes_ready hf fun _ _ => rfl
  · exact passes_unwaiting hf fun _ => rfl
  · exact passes_unwaiting hf fun _ => rfl
  · exact hjoin

/-- A handler that passes its operations as long as `B` holds of its history, which then holds of
    all that follow, returns. -/
theorem handler_returns {B : List WatchEvent → Prop} {handler n : Nat}
    (hB : ∀ h h', h <+: h' → B h → B h')
    (hended : (ρ.pool n).shared.client (handler + 1) ≠ .live)
    (hpass : ∀ h o, B h → handlerMonitor.Place h o → Passes ρ (serveThread (handler + 1)) n o)
    {th : WatchThreadState} (ht : (ρ.pool n).threads (serveThread (handler + 1)) = some th)
    (hth : B th.hist) :
    ∃ m, n ≤ m ∧ (ρ.pool m).shared.serve.ended handler = true := by
  have hdone : ∀ m th result, (ρ.pool m).threads (serveThread (handler + 1)) = some th →
      (handlerMonitor.state th.hist).Over result →
      (ρ.pool m).shared.serve.ended handler = true := by
    intro m th result ht hover
    have hmark : (ρ.pool m).shared.serve.ended (serveThread (handler + 1) / 3 - 1) = true :=
      marked_at (ρ.reach m) ht (finished_mem hover)
    rwa [serveThread_div, Nat.add_sub_cancel] at hmark
  -- Up to the head of a round, or to the end.
  have hround : ∀ m th, n ≤ m → (ρ.pool m).threads (serveThread (handler + 1)) = some th →
      B th.hist → ∃ m' th' r, m ≤ m' ∧ (ρ.pool m').threads (serveThread (handler + 1)) = some th' ∧
        th'.rest = .ret r ∧ HandlerEnds (handlerMonitor.state th'.hist) r ∧ B th'.hist := by
    intro m th hm ht hth
    obtain ⟨m', th', hm', ht', hpre, hstop⟩ :=
      ρ.comes_to hpass hm ht (handler_stages (ρ.reach m) ht).2
    have hth' := hB _ _ hpre hth
    obtain ⟨r, hr, hends⟩ := hstop hth'
    exact ⟨m', th', r, hm', ht', hr, hends, hth'⟩
  obtain ⟨n₁, th₁, r, hn₁, ht₁, hr, hends, hth₁⟩ := hround n th le_rfl ht hth
  cases r with
  | inr result => exact ⟨n₁, hn₁, hdone n₁ th₁ result ht₁ hends⟩
  | inl l =>
      -- The watcher ends Flow's stream, and the frames left in it run out.
      have hspawned := spawned_mem (Or.inl (HandlerStage.AtLoop.forward hends).1)
      rw [← Pool.hist_of ht₁] at hspawned
      obtain ⟨n₂, hn₂, _, hcut⟩ := watcher_returns hf (((run_grows ρ hn₁).client _).ended hended)
        (spawned_watched (ρ.reach n₁) hspawned)
      obtain ⟨n₃, left, hn₃, hsettled⟩ := half_settles (fun s => s.flow (handler + 1))
        (fun _ _ hg => hg.flow _) hcut
      have hlate : n ≤ n₃ := hn₁.trans (hn₂.trans hn₃)
      obtain ⟨th₃, ht₃, hpre⟩ := ρ.thread_later (hn₂.trans hn₃) ht₁
      obtain ⟨n₄, th₄, r, hn₄, ht₄, hr₄, hends₄, hth₄⟩ :=
        hround n₃ th₃ hlate ht₃ (hB _ _ hpre hth₁)
      cases r with
      | inr result => exact ⟨n₄, hlate.trans hn₄, hdone n₄ th₄ result ht₄ hends₄⟩
      | inl l =>
          obtain ⟨hstage, socket, loop, rfl⟩ := HandlerStage.AtLoop.forward hends₄
          obtain ⟨n₅, hn₅, ht₅⟩ := hf.enters watch_unhalted ht₄ hr₄
          obtain ⟨k, hk, hlast⟩ := forwardWatched_last socket loop
          have hplace : handlerMonitor.Place th₄.hist (.inl (.nexus .next)) := by
            rw [Monitor.Place, hstage]
            exact rfl
          have hn₅' := (hlate.trans hn₄).trans hn₅
          obtain ⟨n₆, answer, hn₆, hsem, ht₆⟩ := hpass _ _ hth₄ hplace n₅ _ k hn₅' ht₅ hk
          have hn₆' : n₃ ≤ n₆ := (hn₄.trans hn₅).trans hn₆
          have hnone := next_settled hsem (hsettled n₆ hn₆') (hsettled _ (hn₆'.trans n₆.le_succ))
          have hwalks : WalksHandler HandlerReturns (k answer)
              (handlerMonitor.state (th₄.hist ++ [⟨.inl (.nexus .next), answer⟩])) := by
            rw [handlerMonitor.state_snoc, hstage]
            exact hlast answer hnone
          have hlater := (hn₅'.trans hn₆).trans n₆.le_succ
          obtain ⟨n₇, th₇, hn₇, ht₇, hpre₇, hstop⟩ := ρ.comes_to hpass hlater ht₆ hwalks.holds
          have hth₇ := hB _ _ ((List.prefix_append _ _).trans hpre₇) hth₄
          obtain ⟨_, _, result, _, hover⟩ := hstop hth₇
          exact ⟨n₇, hlater.trans hn₇, hdone n₇ th₇ result ht₇ hover⟩

end Runs

/-! ## 4. A run that comes to rest -/

/-- This thread cannot go on, or cannot start. -/
def WatchPool.resting (c : WatchPool) (t : Nat) : Bool :=
  match c.threads t with
  | none => t == clientThread 0 || (t == watcherThread (t / 3) && !c.shared.watched (t / 3))
  | some th =>
      match th.rest with
      | .ask (.inl o) _ => !c.shared.serveReady (t / 3) o
      | .ask (.inr o) _ => !c.shared.watchReady (t / 3) o
      | .ret (.inl _) => false
      | .ret (.inr _) => true

section Rest

variable [FlowDebug] {nexus : NexusShared} {c : WatchPool}

theorem resting_stuck {t : Nat} (h : c.resting t = true) : ¬ watchReadiness.Can c t := by
  rintro ⟨th, ht, _, ⟨o, k, hr, hready⟩ | ⟨l, hr⟩⟩
  · rw [WatchPool.resting, ht] at h
    dsimp only at h
    rw [hr] at h
    cases o with
    | inl o =>
        change (!c.shared.serveReady (t / 3) o) = true at h
        rw [show c.shared.serveReady (t / 3) o = true from hready.2] at h
        cases h
    | inr o =>
        change (!c.shared.watchReady (t / 3) o) = true at h
        rw [show c.shared.watchReady (t / 3) o = true from hready] at h
        cases h
  · rw [WatchPool.resting, ht] at h
    dsimp only at h
    rw [hr] at h
    cases h

theorem resting_starts {t : Nat} (h : c.resting t = true) :
    c.threads t ≠ none ∨ ∀ p s', ¬ WatchStart c.shared t p s' := by
  cases ht : c.threads t with
  | some th => exact Or.inl nofun
  | none =>
      right
      intro p s' hs
      rw [WatchPool.resting, ht] at h
      simp only [Bool.or_eq_true, Bool.and_eq_true, beq_iff_eq, Bool.not_eq_true'] at h
      have hplaces : (t = 2 ∨ t % 3 = 1) ∧ (t % 3 = 1 → c.shared.watched (t / 3) = false) := by
        unfold clientThread watcherThread at h
        rcases h with h | ⟨h, hwatched⟩
        · exact ⟨Or.inl h, fun _ => by omega⟩
        · exact ⟨Or.inr (by omega), fun _ => hwatched⟩
      obtain ⟨hplace, hunwatched⟩ := hplaces
      cases hs with
      | watcher u hu =>
          have hfalse := hunwatched (by unfold watcherThread; omega)
          rw [watcherThread_div, hu] at hfalse
          cases hfalse
      | listener bound hb => unfold serveThread at hplace; omega
      | handler handler socket hs => unfold serveThread at hplace; omega
      | client handler hh => unfold clientThread at hplace; omega

/-- No thread but those of the spawned connections is there, or may start. -/
theorem watch_bounded (hr : Reach watchSystem (WatchPool.initial nexus) c) {t : Nat}
    (ht : serveThread (c.shared.serve.spawned.length + 1) ≤ t) :
    c.threads t = none ∧ ∀ p s', ¬ WatchStart c.shared t p s' := by
  have hwatched : ∀ u, c.shared.watched u = true → u ≤ c.shared.serve.spawned.length := by
    intro u hu
    obtain ⟨handler, rfl, hin⟩ := (caused hr).watched u hu
    cases hth : c.threads (serveThread (handler + 1)) with
    | none =>
        rw [Pool.hist, hth] at hin
        cases hin
    | some th => exact (watch_kind hr _ th hth).of_handler.1
  have hkind : ∀ p, ¬ WatchKind c.shared t p := by
    intro p hk
    cases hk with
    | listener bound => unfold serveThread at ht; omega
    | handler handler socket hh => unfold serveThread at ht; omega
    | watcher u hu =>
        have hle := hwatched u hu
        unfold serveThread watcherThread at ht
        omega
    | client handler hh => unfold serveThread clientThread at ht; omega
  refine ⟨Option.eq_none_iff_forall_ne_some.mpr fun th hth => hkind _ (watch_kind hr t th hth), ?_⟩
  intro p s' hs
  cases hs with
  | listener bound hb => exact hkind _ (.listener bound)
  | handler handler socket hs =>
      exact hkind _ (.handler handler socket (List.getElem?_eq_some_iff.mp hs).1)
  | watcher u hu => exact hkind _ (.watcher u hu)
  | client handler hh => exact hkind _ (.client handler hh)

/-- A run that comes to a pool in which every thread rests is fair. -/
theorem resting_fair {ρ : Run watchSystem (.initial nexus)} {n : Nat}
    (hr : Reach watchSystem (WatchPool.initial nexus) c) (hrest : ∀ m, n ≤ m → ρ.pool m = c)
    (hall : ∀ t < serveThread (c.shared.serve.spawned.length + 1), c.resting t = true) :
    Fair watchReadiness ρ := by
  refine Fair.of_rest hrest (fun t => ?_) fun t => ?_
  · by_cases ht : t < serveThread (c.shared.serve.spawned.length + 1)
    · exact resting_stuck (hall t ht)
    · rintro ⟨th, hth, _⟩
      rw [(watch_bounded hr (Nat.not_lt.mp ht)).1] at hth
      cases hth
  · by_cases ht : t < serveThread (c.shared.serve.spawned.length + 1)
    · exact resting_starts (hall t ht)
    · exact Or.inr (watch_bounded hr (Nat.not_lt.mp ht)).2

/-- A fair run through a pool to one in which every thread rests. -/
theorem resting_run {d : WatchPool} (hd : Reach watchSystem (WatchPool.initial nexus) d)
    (hr : Reach watchSystem d c)
    (hall : ∀ t < serveThread (c.shared.serve.spawned.length + 1), c.resting t = true) :
    ∃ (ρ : Run watchSystem (.initial nexus)) (n m : Nat), Fair watchReadiness ρ ∧
      ρ.pool n = d ∧ ∀ k, m ≤ k → ρ.pool k = c := by
  obtain ⟨ρ, k, n, _, hk, hrest⟩ := Run.through hd hr
  exact ⟨ρ, k, n, resting_fair (hd.trans hr) hrest hall, hk, hrest⟩

end Rest

/-- The run in which the first client hangs up, a signal comes, and everything returns. -/
theorem stoppedWatch_run : ∃ (ρ : Run (@watchSystem unitDebug)
    (.initial (.serving sampleConfiguration))) (n m : Nat), Fair (@watchReadiness unitDebug) ρ ∧
    ρ.pool n = signalledWatch ∧ ∀ k, m ≤ k → ρ.pool k = stoppedWatch :=
  @resting_run unitDebug _ _ _ signalledWatch_reach stoppedWatch_reach (by decide +kernel)

/-- The run in which the first handler connects to Flow for ever as the signal comes. -/
theorem blockedWatch_run : ∃ (ρ : Run (@watchSystem unitDebug)
    (.initial (.serving sampleConfiguration))) (n m : Nat), Fair (@watchReadiness unitDebug) ρ ∧
    ρ.pool n = connectingWatch ∧ ∀ k, m ≤ k → ρ.pool k = blockedWatch :=
  @resting_run unitDebug _ _ _ connectingWatch_reach blockedWatch_reach (by decide +kernel)

/-! ## 5. A handler in its forwarding loop -/

section Runs

variable [FlowDebug] {nexus : NexusShared} {ρ : Run watchSystem (.initial nexus)}
  (hf : Fair watchReadiness ρ)

include hf

omit hf [FlowDebug] in
/-- What closes a stream ends its receive half. -/
theorem watchSem_shut {s s' : WatchShared} {t : Nat} {e : WatchEvent} (hs : watchSem s t e s') :
    (s'.gone = s.gone ∧ s'.closed = s.closed) ∨ ∃ v, s'.client v ≠ .live ∧
      ∀ u, u ≠ v → s'.gone u = s.gone u ∧ s'.closed u = s.closed u := by
  obtain ⟨o, a⟩ := e
  have hnew : ∀ {v : Nat} {half : Half}, (s.client v).Ends half →
      Function.update s.client v half v ≠ .live := by
    intro v half hends
    rw [Function.update_self]
    exact hends.ended
  cases o with
  | inl o =>
      obtain ⟨v, s₁, served, _, hstreams, _, rfl⟩ := hs
      unfold WatchShared.streams at hstreams
      split at hstreams
      · obtain ⟨half, hends, rfl⟩ := hstreams
        exact Or.inr ⟨_, hnew hends, fun u hu => ⟨rfl, Function.update_of_ne hu _ _⟩⟩
      · obtain ⟨_, rfl⟩ := hstreams
        exact Or.inl ⟨rfl, rfl⟩
      · rw [hstreams]
        exact Or.inl ⟨rfl, rfl⟩
  | inr o =>
      cases o with
      | spawnWatcher => rw [show s' = _ from hs]; exact Or.inl ⟨rfl, rfl⟩
      | finishWatcher => rw [show s' = _ from hs]; exact Or.inl ⟨rfl, rfl⟩
      | joinWatcher => rw [hs.2]; exact Or.inl ⟨rfl, rfl⟩
      | readClient => rw [hs.2]; exact Or.inl ⟨rfl, rfl⟩
      | hangUp =>
          obtain ⟨half, hends, rfl⟩ := hs
          exact Or.inr ⟨_, hnew hends, fun u hu => ⟨Function.update_of_ne hu _ _, rfl⟩⟩
      | _ => obtain ⟨_, _, rfl⟩ := hs; exact Or.inl ⟨rfl, rfl⟩

omit hf in
/-- A client that has gone, and a stream that the listener has shut down, have ended. -/
theorem shut_ended {c : WatchPool} (hr : Reach watchSystem (WatchPool.initial nexus) c) (u : Nat)
    (hshut : c.shared.gone u = true ∨ c.shared.closed u = true) : c.shared.client u ≠ .live := by
  refine Reach.logged (D := fun _ _ _ => True) (P := fun s _ => ∀ u,
    s.gone u = true ∨ s.closed u = true → s.client u ≠ .live) (fun _ _ _ => trivial) ?_ ?_ ?_ ?_ hr u
    hshut
  · rintro u (h | h) <;> cases h
  · intro s H t e s' _ _ hs hc u hshut
    rcases watchSem_shut hs with ⟨hgone, hclosed⟩ | ⟨v, hended, hothers⟩
    · rw [hgone, hclosed] at hshut
      exact ((watchSem_grows hs).client u).ended (hc u hshut)
    · by_cases huv : u = v
      · rwa [huv]
      · rw [(hothers u huv).1, (hothers u huv).2] at hshut
        exact ((watchSem_grows hs).client u).ended (hc u hshut)
  · intro s t p s' H hs hc
    cases hs with
    | handler handler socket hs => exact hc
    | _ => exact hc
  · intro s s' H hs _
    exact False.elim hs

omit hf [FlowDebug] in
theorem HandlerStage.Late.after {stage : HandlerStage} (h : stage.Late) (e : WatchEvent) :
    (stage.after e).Late := by
  cases stage with
  | answering answered => exact absurd rfl (h answered)
  | _ =>
      unfold HandlerStage.after
      split <;> simp_all [HandlerStage.Late]

omit hf [FlowDebug] in
theorem HandlerStage.Past.after {stage : HandlerStage} (h : stage.Past) (e : WatchEvent) :
    (stage.after e).Past := by
  refine ⟨h.1.after e, ?_⟩
  cases stage with
  | answering answered => exact absurd rfl (h.1 answered)
  | forwarding => exact absurd rfl h.2
  | _ =>
      unfold HandlerStage.after
      split <;> simp_all

omit hf [FlowDebug] in
/-- A handler that has spawned its watcher answers no more: it takes no mutex, and asks Flow
    nothing; -/
theorem HandlerStage.Late.here {stage : HandlerStage} (h : stage.Late) {o : ServeOp ⊕ WatchOp}
    (ho : stage.Allows o) : waitsElsewhere o = false := by
  have hloop : ∀ n : NexusOp, o = .inl (.nexus n) → n.forwards = true := by
    rintro n rfl
    cases stage with
    | answering answered => exact absurd rfl (h answered)
    | forwarding => exact ho
    | leaving detached => cases ho
    | _ => exact False.elim ho
  unfold waitsElsewhere
  split
  · cases hloop _ rfl
  · unfold asksFlow
    split
    · cases hloop _ rfl
    · cases hloop _ rfl
    · rfl

omit hf [FlowDebug] in
/-- and behind its loop it writes nothing. -/
theorem HandlerStage.Past.silent {stage : HandlerStage} (h : stage.Past) {o : ServeOp ⊕ WatchOp}
    (ho : stage.Allows o) : writesClient o = false := by
  have hnexus : ∀ n, o ≠ .inl (.nexus n) := by
    rintro n rfl
    cases stage with
    | answering answered => exact absurd rfl (h.1 answered)
    | forwarding => exact absurd rfl h.2
    | leaving detached => cases ho
    | _ => exact False.elim ho
  unfold writesClient
  split
  · exact absurd rfl (hnexus _)
  · exact absurd rfl (hnexus _)
  · rfl

omit hf [FlowDebug] in
theorem late_of_spawned {h : List WatchEvent} (hi : Issued handlerMonitor.Place h)
    (hspawned : (⟨.inr .spawnWatcher, ()⟩ : WatchEvent) ∈ h) : (handlerMonitor.state h).Late := by
  refine handlerMonitor.since (P := HandlerStage.Late) (fun _ e hl => hl.after e) ?_ hi hspawned
  intro stage hallows
  cases stage with
  | answering answered => exact fun _ => nofun
  | forwarding => cases hallows
  | closing => cases hallows
  | _ => exact False.elim hallows

omit hf [FlowDebug] in
theorem past_of_shutdown {h : List WatchEvent} (hi : Issued handlerMonitor.Place h)
    (hshutdown : (⟨.inr .shutdownRead, ()⟩ : WatchEvent) ∈ h) : (handlerMonitor.state h).Past := by
  refine handlerMonitor.since (P := HandlerStage.Past) (fun _ e hp => hp.after e) ?_ hi hshutdown
  intro stage hallows
  cases stage with
  | answering answered => cases hallows.2
  | forwarding => exact ⟨fun _ => nofun, nofun⟩
  | closing => cases hallows
  | _ => exact False.elim hallows

omit hf in
/-- The history of a handler that has returned does not grow. -/
theorem returned_hist {handler n m : Nat} (hnm : n ≤ m)
    (hended : (ρ.pool n).shared.serve.ended handler = true) :
    (ρ.pool m).hist (serveThread (handler + 1)) = (ρ.pool n).hist (serveThread (handler + 1)) := by
  have hfinished := (caused (ρ.reach n)).returned handler hended
  obtain ⟨detached, hover⟩ := over_of_finished (handler_issued (ρ.reach n) handler) hfinished
  cases ht : (ρ.pool n).threads (serveThread (handler + 1)) with
  | none =>
      rw [Pool.hist, ht] at hfinished
      cases hfinished
  | some th =>
      obtain ⟨th', ht', es, hes⟩ := ρ.thread_later hnm ht
      rw [Pool.hist_of ht] at hover ⊢
      rw [Pool.hist_of ht', ← hes]
      cases es with
      | nil => exact List.append_nil _
      | cons e es =>
          have hissued := handler_issued (ρ.reach m) handler
          rw [Pool.hist_of ht', ← hes] at hissued
          have hplace : (handlerMonitor.state th.hist).Allows e.op := hissued.at
          rw [hover] at hplace
          exact hplace.elim

/-- The end of a handler that has spawned a watcher, from this time on. -/
structure ForwardingReturns (ρ : Run watchSystem (.initial nexus)) (handler n : Nat) : Prop where
  /-- The handler returns, its watcher returns, and the subscription is shut down. -/
  returns : ∃ m, n ≤ m ∧ (ρ.pool m).shared.serve.ended handler = true ∧
    (ρ.pool m).shared.watcherEnded (handler + 1) = true ∧
    (ρ.pool m).shared.flow (handler + 1) ≠ .live
  /-- Whenever the handler has returned its watcher has, unless the handler has unwound. -/
  order : ∀ m, (ρ.pool m).shared.serve.ended handler = true →
    (ρ.pool m).shared.watcherEnded (handler + 1) = true ∨
      ∃ o, (⟨.inl (.nexus o), none⟩ : WatchEvent) ∈ (ρ.pool m).hist (serveThread (handler + 1))

omit hf in
/-- A handler that has spawned a watcher returns after it, unless it unwinds. -/
theorem returns_after {handler n m : Nat} {th : WatchThreadState}
    (ht : (ρ.pool n).threads (serveThread (handler + 1)) = some th)
    (hspawned : (⟨.inr .spawnWatcher, ()⟩ : WatchEvent) ∈ th.hist)
    (hended : (ρ.pool m).shared.serve.ended handler = true) :
    (ρ.pool m).shared.watcherEnded (handler + 1) = true ∨
      ∃ o, (⟨.inl (.nexus o), none⟩ : WatchEvent) ∈
        (ρ.pool m).hist (serveThread (handler + 1)) := by
  have hlater := returned_hist (le_max_right n m) hended
  obtain ⟨th', ht', hpre⟩ := ρ.thread_later (le_max_left n m) ht
  -- At `m` the handler has done all that it ever does, so it has spawned its watcher.
  have hin : (⟨.inr .spawnWatcher, ()⟩ : WatchEvent) ∈
      (ρ.pool m).hist (serveThread (handler + 1)) := by
    rw [← hlater, Pool.hist_of ht']
    exact hpre.subset hspawned
  exact (watcher_account (ρ.reach m) (handler + 1)).joined
    ((caused (ρ.reach m)).returned handler hended) (spawned_watched (ρ.reach m) hin)

/-- A handler whose watcher was spawned returns, after it unless it unwinds, however silent Flow
    is, once its client has gone or its loop is over. -/
theorem forwarding_returns {handler n : Nat} {th : WatchThreadState}
    (ht : (ρ.pool n).threads (serveThread (handler + 1)) = some th)
    (hspawned : (⟨.inr .spawnWatcher, ()⟩ : WatchEvent) ∈ th.hist)
    (hend : (ρ.pool n).shared.gone (handler + 1) = true ∨
      (⟨.inr .shutdownRead, ()⟩ : WatchEvent) ∈ th.hist) : ForwardingReturns ρ handler n := by
  refine ⟨?_, fun m => returns_after ht hspawned⟩
  have hissued := (handler_stages (ρ.reach n) ht).1
  have hreturns : (ρ.pool n).shared.client (handler + 1) ≠ .live ∧
      ∃ m, n ≤ m ∧ (ρ.pool m).shared.serve.ended handler = true := by
    rcases hend with hgone | hshutdown
    · have hended := shut_ended (ρ.reach n) _ (Or.inl hgone)
      refine ⟨hended, handler_returns hf (B := fun h => (handlerMonitor.state h).Late)
        (fun h h' hpre hl => handlerMonitor.lasts (P := HandlerStage.Late)
          (fun _ e hl => hl.after e) hpre hl)
        hended ?_ ht (late_of_spawned hissued hspawned)⟩
      exact fun h o hl ho => handler_passes hf hended ho (hl.here ho) fun _ => Or.inl hgone
    · have hended : (ρ.pool n).shared.client (serveThread (handler + 1) / 3) ≠ .live :=
        marked_at (ρ.reach n) ht hshutdown
      rw [serveThread_div] at hended
      refine ⟨hended, handler_returns hf (B := fun h => (handlerMonitor.state h).Past)
        (fun h h' hpre hp => handlerMonitor.lasts (P := HandlerStage.Past)
          (fun _ e hp => hp.after e) hpre hp)
        hended ?_ ht (past_of_shutdown hissued hshutdown)⟩
      intro h o hp ho
      refine handler_passes hf hended ho (hp.1.here ho) fun hw => ?_
      rw [hp.silent ho] at hw
      cases hw
  obtain ⟨hended, m, hm, hreturned⟩ := hreturns
  obtain ⟨m', hm', hwatcher, hcut⟩ := watcher_returns hf hended
    (spawned_watched (ρ.reach n) ((Pool.hist_of ht).symm ▸ hspawned))
  refine ⟨max m m', hm.trans (le_max_left _ _), ?_, ?_, ?_⟩
  · exact (run_grows ρ (le_max_left m m')).ended _ hreturned
  · exact (run_grows ρ (le_max_right m m')).watcherEnded _ hwatcher
  · exact ((run_grows ρ (le_max_right m m')).flow _).ended hcut

end Runs

/-- The first client has hung up, and Flow is silent. -/
theorem forwarding_returns_stopped : ∃ (ρ : Run (@watchSystem unitDebug)
    (.initial (.serving sampleConfiguration))) (n : Nat),
    (ρ.pool n).shared.serve.ended 0 = false ∧ (ρ.pool n).shared.flow 1 = .live ∧
    @ForwardingReturns unitDebug _ ρ 0 n := by
  obtain ⟨ρ, n, _, hf, hn, _⟩ := stoppedWatch_run
  have hobserving : ((signalledWatch.threads (serveThread 1)).map fun th =>
      th.hist.any fun e => e.op.getRight? == some .spawnWatcher) = some true := by
    decide +kernel
  obtain ⟨th, ht, hany⟩ := Option.map_eq_some_iff.mp hobserving
  obtain ⟨⟨o, a⟩, hin, ho⟩ := List.any_eq_true.mp hany
  have hspawned : (⟨.inr .spawnWatcher, ()⟩ : WatchEvent) ∈ th.hist := by
    cases Sum.getRight?_eq_some_iff.mp (beq_iff_eq.mp ho)
    exact hin
  refine ⟨ρ, n, by rw [hn]; decide +kernel, by rw [hn]; decide +kernel, ?_⟩
  exact @forwarding_returns unitDebug _ ρ hf 0 n th (by rw [hn]; exact ht) hspawned
    (Or.inl (by rw [hn]; decide +kernel))

end MessageNexus
