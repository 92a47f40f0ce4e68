/-
  File:      MessageNexus/Nexus/WatcherAccount.lean
  Subject:   THE ACCOUNT OF A WATCHER. The watcher of a forwarded subscription reads nothing of the
             request; it shuts the Flow stream down only when it has read the client's stream to
             its end, or could not read it; and a handler that does not unwind returns after it.

  * `RoleOf`, `Caused` -- whose operation is which, and who has ended what has ended;
  * `Marked` -- what an event leaves behind;
  * `request_once`, `watcher_kept`, `over_of_finished` -- from the stages of the histories;
  * `WatcherAccount`, `watcher_account` -- what follows in every reachable pool.
-/
import MessageNexus.Nexus.Watching

namespace MessageNexus

open Interact SignalFlow

/-! ## 1. Who ends what -/

section Causes

variable [FlowDebug] {nexus : NexusShared} {c : WatchPool} {s s' : WatchShared} {u : Nat}

/-- Whose operation it is. -/
def RoleOf (t : Nat) : ServeOp ⊕ WatchOp → Prop
  | .inl (.shutdownBoth _) => t = serveThread 0
  | .inl (.nexus _) => ∃ handler, t = serveThread (handler + 1)
  | .inl .finish => ∃ handler, t = serveThread (handler + 1)
  | .inl _ => True
  | .inr .spawnWatcher => ∃ handler, t = serveThread (handler + 1)
  | .inr .shutdownRead => ∃ handler, t = serveThread (handler + 1)
  | .inr .joinWatcher => ∃ handler, t = serveThread (handler + 1)
  | .inr .readClient => ∃ u, t = watcherThread u
  | .inr .shutdownFlow => ∃ u, t = watcherThread u
  | .inr .finishWatcher => ∃ u, t = watcherThread u
  | .inr .endSending => ∃ u, t = clientThread u
  | .inr .hangUp => ∃ u, t = clientThread u

omit [FlowDebug] in
theorem HandlerStage.Allows.role {stage : HandlerStage} {o : ServeOp ⊕ WatchOp}
    (h : stage.Allows o) (handler : Nat) : RoleOf (serveThread (handler + 1)) o := by
  cases o with
  | inl o =>
      cases o with
      | shutdownBoth other =>
          cases stage with
          | answering answered => cases h.2
          | leaving detached => cases h
          | _ => exact False.elim h
      | nexus o => exact ⟨handler, rfl⟩
      | finish => exact ⟨handler, rfl⟩
      | _ => trivial
  | inr o =>
      cases stage with
      | answering answered => exact h.2 ▸ ⟨handler, rfl⟩
      | forwarding => exact (show o = _ from h) ▸ ⟨handler, rfl⟩
      | closing => exact (show o = _ from h) ▸ ⟨handler, rfl⟩
      | _ => exact False.elim h

omit [FlowDebug] in
theorem WatcherStage.Allows.role {stage : WatcherStage} {o : ServeOp ⊕ WatchOp}
    (h : stage.Allows o) (u : Nat) : RoleOf (watcherThread u) o := by
  cases stage with
  | returned => exact False.elim h
  | _ => exact (show o = _ from h) ▸ ⟨u, rfl⟩

omit [FlowDebug] in
/-- An event of a history was issued in its place. -/
theorem issued_mem {G : List WatchEvent → ServeOp ⊕ WatchOp → Prop} {h : List WatchEvent}
    (hi : Issued G h) {e : WatchEvent} (he : e ∈ h) : ∃ before, G before e.op := by
  obtain ⟨before, after, rfl⟩ := List.append_of_mem he
  exact ⟨before, hi.at⟩

theorem watch_roles (hr : Reach watchSystem (WatchPool.initial nexus) c) {t : Nat} {e : WatchEvent}
    (he : e ∈ c.hist t) : RoleOf t e.op := by
  cases ht : c.threads t with
  | none =>
      rw [Pool.hist, ht] at he
      cases he
  | some th =>
      have hkind := watch_kind hr t th ht
      generalize th.start = p at hkind
      cases hkind with
      | listener bound =>
          rw [Pool.hist_of ht] at he
          obtain ⟨_, o, ho, hplace⟩ := issued_mem (listener_watched hr ht).1 he
          rw [ho]
          cases o with
          | shutdownBoth handler => rfl
          | nexus o => exact hplace.2.elim
          | finish => exact hplace.2.elim
          | _ => trivial
      | handler handler socket hh =>
          obtain ⟨_, hplace⟩ := issued_mem (handler_issued hr handler) he
          exact HandlerStage.Allows.role hplace handler
      | watcher u hu =>
          obtain ⟨_, hplace⟩ := issued_mem (watcher_issued hr u) he
          exact WatcherStage.Allows.role hplace u
      | client handler hh =>
          rcases client_ops hr he with ho | ho
          · exact ho ▸ ⟨_, rfl⟩
          · exact ho ▸ ⟨_, rfl⟩

/-- What may end the receive half of a client's stream: the client, the listener, or the handler
    after its loop. -/
def ClientEnds (H : Nat → List WatchEvent) (u : Nat) : Prop :=
  (∃ e ∈ H (clientThread u), clientOp e.op) ∨
    (∃ handler, u = handler + 1 ∧
      (⟨.inl (.shutdownBoth handler), ()⟩ : WatchEvent) ∈ H (serveThread 0)) ∨
    (⟨.inr .shutdownRead, ()⟩ : WatchEvent) ∈ H (serveThread u)

/-- Whatever has ended was ended by somebody. -/
structure Caused (s : WatchShared) (H : Nat → List WatchEvent) : Prop where
  client : ∀ u, s.client u ≠ .live → ClientEnds H u
  flow : ∀ u, s.flow u ≠ .live →
    (⟨.inr .shutdownFlow, ()⟩ : WatchEvent) ∈ H (watcherThread u)
  watched : ∀ u, s.watched u = true → ∃ handler, u = handler + 1 ∧
    (⟨.inr .spawnWatcher, ()⟩ : WatchEvent) ∈ H (serveThread (handler + 1))
  returned : ∀ handler, s.serve.ended handler = true →
    (⟨.inl .finish, ()⟩ : WatchEvent) ∈ H (serveThread (handler + 1))

omit [FlowDebug] in
theorem mem_snoc_old {H : Nat → List WatchEvent} {t v : Nat} {e f : WatchEvent} (h : f ∈ H v) :
    f ∈ Function.update H t (H t ++ [e]) v := by
  by_cases hv : v = t
  · subst hv
    rw [Function.update_self]
    exact List.mem_append_left _ h
  · rwa [Function.update_of_ne hv]

omit [FlowDebug] in
theorem mem_snoc_new (H : Nat → List WatchEvent) (t : Nat) (e : WatchEvent) :
    e ∈ Function.update H t (H t ++ [e]) t := by
  rw [Function.update_self]
  exact List.mem_append_right _ (List.mem_singleton_self e)

omit [FlowDebug] in
theorem ClientEnds.snoc {H : Nat → List WatchEvent} (h : ClientEnds H u) (t : Nat) (e : WatchEvent) :
    ClientEnds (Function.update H t (H t ++ [e])) u := by
  rcases h with ⟨f, hf, ho⟩ | ⟨handler, hu, hf⟩ | hf
  · exact Or.inl ⟨f, mem_snoc_old hf, ho⟩
  · exact Or.inr (Or.inl ⟨handler, hu, mem_snoc_old hf⟩)
  · exact Or.inr (Or.inr (mem_snoc_old hf))

omit [FlowDebug] in
/-- An update that ends no live half. -/
theorem update_live {f : Nat → Half} {u v : Nat} {half : Half} (h : f u = .live)
    (hv : f v = .live → half = .live) : Function.update f v half u = .live := by
  by_cases huv : u = v
  · subst huv
    rw [Function.update_self]
    exact hv h
  · rwa [Function.update_of_ne huv]

omit [FlowDebug] in
/-- A half that an update has ended is the one that was updated. -/
theorem ended_by_update {f : Nat → Half} {u v : Nat} {half : Half} (hlive : f u = .live)
    (hended : Function.update f v half u ≠ .live) : u = v := by
  by_contra hne
  rw [Function.update_of_ne hne] at hended
  exact hended hlive

omit [FlowDebug] in
/-- The operation that ends the receive half of a client's stream. -/
theorem client_ends {t : Nat} {e : WatchEvent} (hs : watchSem s t e s') (hrole : RoleOf t e.op)
    (hlive : s.client u = .live) (hended : s'.client u ≠ .live) (H : Nat → List WatchEvent) :
    ClientEnds (Function.update H t (H t ++ [e])) u := by
  have hnew := mem_snoc_new H t e
  obtain ⟨o, a⟩ := e
  cases o with
  | inl o =>
      obtain ⟨v, s₁, served, _, hstreams, _, rfl⟩ := hs
      unfold WatchShared.streams at hstreams
      split at hstreams
      · rename_i heq
        cases heq
        obtain ⟨half, _, rfl⟩ := hstreams
        have hu := ended_by_update hlive hended
        cases (show t = serveThread 0 from hrole)
        exact Or.inr (Or.inl ⟨_, hu, hnew⟩)
      · obtain ⟨_, rfl⟩ := hstreams
        exact absurd hlive hended
      · rw [hstreams] at hended
        exact absurd hlive hended
  | inr o =>
      cases o with
      | spawnWatcher => rw [show s' = _ from hs] at hended; exact absurd hlive hended
      | finishWatcher => rw [show s' = _ from hs] at hended; exact absurd hlive hended
      | joinWatcher => rw [hs.2] at hended; exact absurd hlive hended
      | shutdownFlow => obtain ⟨_, _, rfl⟩ := hs; exact absurd hlive hended
      | readClient =>
          rw [hs.2] at hended
          exact absurd (update_live hlive fun h => Half.afterRead_live h _) hended
      | shutdownRead =>
          obtain ⟨handler, rfl⟩ := hrole
          obtain ⟨_, _, rfl⟩ := hs
          have hu := ended_by_update hlive hended
          rw [show u = handler + 1 from hu.trans (serveThread_div _)]
          exact Or.inr (Or.inr hnew)
      | endSending =>
          obtain ⟨v, rfl⟩ := hrole
          obtain ⟨_, _, rfl⟩ := hs
          have hu := ended_by_update hlive hended
          rw [show u = v from hu.trans (clientThread_div v)]
          exact Or.inl ⟨_, hnew, Or.inl rfl⟩
      | hangUp =>
          obtain ⟨v, rfl⟩ := hrole
          obtain ⟨_, _, rfl⟩ := hs
          have hu := ended_by_update hlive hended
          rw [show u = v from hu.trans (clientThread_div v)]
          exact Or.inl ⟨_, hnew, Or.inr rfl⟩

omit [FlowDebug] in
/-- A subscription's stream is ended by the watcher alone. -/
theorem flow_ends {t : Nat} {e : WatchEvent} (hs : watchSem s t e s') (hrole : RoleOf t e.op)
    (hlive : s.flow u = .live) (hended : s'.flow u ≠ .live) (H : Nat → List WatchEvent) :
    (⟨.inr .shutdownFlow, ()⟩ : WatchEvent) ∈
      Function.update H t (H t ++ [e]) (watcherThread u) := by
  have hnew := mem_snoc_new H t e
  obtain ⟨o, a⟩ := e
  cases o with
  | inl o =>
      obtain ⟨v, s₁, served, _, hstreams, _, rfl⟩ := hs
      unfold WatchShared.streams at hstreams
      split at hstreams
      · obtain ⟨_, _, rfl⟩ := hstreams
        exact absurd hlive hended
      · obtain ⟨_, rfl⟩ := hstreams
        exact absurd (update_live hlive Half.taken_live) hended
      · rw [hstreams] at hended
        exact absurd hlive hended
  | inr o =>
      cases o with
      | spawnWatcher => rw [show s' = _ from hs] at hended; exact absurd hlive hended
      | finishWatcher => rw [show s' = _ from hs] at hended; exact absurd hlive hended
      | joinWatcher => rw [hs.2] at hended; exact absurd hlive hended
      | readClient => rw [hs.2] at hended; exact absurd hlive hended
      | shutdownFlow =>
          obtain ⟨v, rfl⟩ := hrole
          obtain ⟨_, _, rfl⟩ := hs
          have hu := ended_by_update hlive hended
          rw [show u = v from hu.trans (watcherThread_div v)]
          exact hnew
      | _ => obtain ⟨_, _, rfl⟩ := hs; exact absurd hlive hended

omit [FlowDebug] in
/-- A watcher is spawned by its handler. -/
theorem watcher_starts {t : Nat} {e : WatchEvent} (hs : watchSem s t e s') (hrole : RoleOf t e.op)
    (hnone : s.watched u = false) (hwatched : s'.watched u = true) (H : Nat → List WatchEvent) :
    ∃ handler, u = handler + 1 ∧ (⟨.inr .spawnWatcher, ()⟩ : WatchEvent) ∈
      Function.update H t (H t ++ [e]) (serveThread (handler + 1)) := by
  have hnew := mem_snoc_new H t e
  obtain ⟨o, a⟩ := e
  have hsame : s'.watched = s.watched ∨ o = .inr .spawnWatcher := by
    cases o with
    | inl o =>
        obtain ⟨v, s₁, served, _, hstreams, _, rfl⟩ := hs
        unfold WatchShared.streams at hstreams
        split at hstreams
        · obtain ⟨_, _, rfl⟩ := hstreams
          exact Or.inl rfl
        · obtain ⟨_, rfl⟩ := hstreams
          exact Or.inl rfl
        · rw [hstreams]
          exact Or.inl rfl
    | inr o =>
        cases o with
        | spawnWatcher => exact Or.inr rfl
        | finishWatcher => rw [show s' = _ from hs]; exact Or.inl rfl
        | joinWatcher => rw [hs.2]; exact Or.inl rfl
        | readClient => rw [hs.2]; exact Or.inl rfl
        | _ => obtain ⟨_, _, rfl⟩ := hs; exact Or.inl rfl
  rcases hsame with hsame | rfl
  · rw [hsame, hnone] at hwatched
    cases hwatched
  · obtain ⟨handler, rfl⟩ := hrole
    refine ⟨handler, ?_, hnew⟩
    by_contra hne
    have hs' : s'.watched = Function.update s.watched (handler + 1) true := by
      rw [show s' = _ from hs]
      dsimp only
      rw [serveThread_div]
    rw [hs', Function.update_of_ne hne, hnone] at hwatched
    cases hwatched

omit [FlowDebug] in
/-- A handler ends by returning. -/
theorem handler_finishes {t handler : Nat} {e : WatchEvent} (hs : watchSem s t e s')
    (hrole : RoleOf t e.op) (hnot : s.serve.ended handler = false)
    (hended : s'.serve.ended handler = true) (H : Nat → List WatchEvent) :
    (⟨.inl .finish, ()⟩ : WatchEvent) ∈
      Function.update H t (H t ++ [e]) (serveThread (handler + 1)) := by
  have hnew := mem_snoc_new H t e
  have hsame : s'.serve.ended = s.serve.ended → False := by
    intro hsame
    rw [hsame, hnot] at hended
    cases hended
  obtain ⟨o, a⟩ := e
  cases o with
  | inr o => exact (hsame (congrArg ServeShared.ended (WatchShared.watch_serve hs))).elim
  | inl o =>
      obtain ⟨v, s₁, served, ht, _, hsem, rfl⟩ := hs
      by_cases hn : ∃ n, o = .nexus n
      · obtain ⟨n, rfl⟩ := hn
        obtain ⟨_, hserved⟩ := serveSem_nexus hsem
        rw [hserved] at hsame
        exact (hsame rfl).elim
      · obtain ⟨_, rfl⟩ := serveSem_other hsem fun n he => hn ⟨n, he⟩
        cases o with
        | finish =>
            obtain ⟨u, rfl⟩ := hrole
            obtain rfl : u + 1 = v := Nat.eq_of_mul_eq_mul_left (by decide) ht
            have hu : handler = u := by
              by_contra hne
              change Function.update s.serve.ended u true handler = true at hended
              rw [Function.update_of_ne hne, hnot] at hended
              cases hended
            rw [hu]
            exact hnew
        | nexus n => exact absurd ⟨n, rfl⟩ hn
        | _ => exact (hsame rfl).elim

theorem caused (hr : Reach watchSystem (WatchPool.initial nexus) c) : Caused c.shared c.hist := by
  refine Reach.logged (D := fun _ t h => ∀ e ∈ h, RoleOf t e.op)
    (fun c hr t e he => watch_roles hr he) ?_ ?_ ?_ ?_ hr
  · exact ⟨fun u h => absurd rfl h, fun u h => absurd rfl h, nofun, nofun⟩
  · intro s H t e s' _ hnow hs hc
    have hrole := hnow e (List.mem_append_right _ (List.mem_singleton_self e))
    refine ⟨fun u hended => ?_, fun u hended => ?_, fun u hwatched => ?_, fun handler hended => ?_⟩
    · by_cases hlive : s.client u = .live
      · exact client_ends hs hrole hlive hended H
      · exact (hc.client u hlive).snoc t e
    · by_cases hlive : s.flow u = .live
      · exact flow_ends hs hrole hlive hended H
      · exact mem_snoc_old (hc.flow u hlive)
    · cases hw : s.watched u with
      | false => exact watcher_starts hs hrole hw hwatched H
      | true =>
          obtain ⟨handler, hu, hin⟩ := hc.watched u hw
          exact ⟨handler, hu, mem_snoc_old hin⟩
    · cases hnot : s.serve.ended handler with
      | false => exact handler_finishes hs hrole hnot hended H
      | true => exact mem_snoc_old (hc.returned handler hnot)
  · intro s t p s' H hs hc
    cases hs with
    | handler handler socket hs => exact ⟨hc.client, hc.flow, hc.watched, hc.returned⟩
    | _ => exact hc
  · intro s s' H hs _
    exact hs.elim

/-! ## 2. What an event leaves behind -/

/-- What an event of thread `t` leaves behind. -/
def Marked (t : Nat) (e : WatchEvent) (s : WatchShared) : Prop :=
  match e with
  | ⟨.inr .spawnWatcher, _⟩ => s.watched (t / 3) = true
  | ⟨.inr .shutdownRead, _⟩ => s.client (t / 3) ≠ .live
  | ⟨.inr .joinWatcher, _⟩ => s.watcherEnded (t / 3) = true
  | ⟨.inr .readClient, .ok 0⟩ => s.client (t / 3) ≠ .live
  | ⟨.inr .shutdownFlow, _⟩ => s.flow (t / 3) ≠ .live
  | ⟨.inr .finishWatcher, _⟩ => s.watcherEnded (t / 3) = true
  | ⟨.inl (.shutdownBoth handler), _⟩ =>
      s.closed (handler + 1) = true ∧ s.client (handler + 1) ≠ .live
  | ⟨.inl .finish, _⟩ => s.serve.ended (t / 3 - 1) = true
  | _ => True

omit [FlowDebug] in
theorem Marked.grows {t : Nat} {e : WatchEvent} (h : Marked t e s) (hg : s.Grows s') :
    Marked t e s' := by
  unfold Marked at h ⊢
  split
  · exact hg.watched _ h
  · exact (hg.client _).ended h
  · exact hg.watcherEnded _ h
  · exact (hg.client _).ended h
  · exact (hg.flow _).ended h
  · exact hg.watcherEnded _ h
  · exact ⟨hg.closed _ h.1, (hg.client _).ended h.2⟩
  · exact hg.ended _ h
  · trivial

omit [FlowDebug] in
theorem watchSem_marks {t : Nat} {e : WatchEvent} (h : watchSem s t e s') : Marked t e s' := by
  obtain ⟨o, a⟩ := e
  cases o with
  | inl o =>
      obtain ⟨u, s₁, served, rfl, hstreams, hsem, rfl⟩ := h
      cases o with
      | shutdownBoth handler =>
          obtain ⟨half, hends, rfl⟩ := hstreams
          refine ⟨Function.update_self _ _ _, ?_⟩
          show Function.update s.client (handler + 1) half (handler + 1) ≠ .live
          rw [Function.update_self]
          exact hends.ended
      | finish =>
          have hserved : served = s.serve.after u .finish := hsem.2
          show served.ended (serveThread u / 3 - 1) = true
          rw [hserved, serveThread_div]
          exact Function.update_self _ _ _
      | _ => trivial
  | inr o =>
      cases o with
      | spawnWatcher => rw [show s' = _ from h]; exact Function.update_self _ _ _
      | finishWatcher => rw [show s' = _ from h]; exact Function.update_self _ _ _
      | joinWatcher => rw [h.2]; exact h.1
      | shutdownRead =>
          obtain ⟨half, hends, rfl⟩ := h
          show Function.update s.client (t / 3) half (t / 3) ≠ .live
          rw [Function.update_self]
          exact hends.ended
      | shutdownFlow =>
          obtain ⟨half, hends, rfl⟩ := h
          show Function.update s.flow (t / 3) half (t / 3) ≠ .live
          rw [Function.update_self]
          exact hends.ended
      | readClient =>
          match a with
          | .ok 0 =>
              have hread := h.1
              rw [h.2]
              show Function.update s.client (t / 3) _ (t / 3) ≠ .live
              rw [Function.update_self]
              intro hlive
              rw [show s.client (t / 3) = .live from hlive] at hread
              cases hread
          | .ok (_ + 1) => trivial
          | .error _ => trivial
      | _ => trivial

theorem marked (hr : Reach watchSystem (WatchPool.initial nexus) c) {t : Nat} {e : WatchEvent}
    (he : e ∈ c.hist t) : Marked t e c.shared :=
  Reach.marks (F := Marked) (fun _ _ _ _ hs => watchSem_marks hs)
    (fun _ _ _ _ _ _ hs h => h.grows (watchSem_grows hs))
    (fun _ _ _ _ _ _ hs h => h.grows (WatchStart.grows hs)) (fun _ _ _ _ hs _ => False.elim hs) hr he

theorem marked_at (hr : Reach watchSystem (WatchPool.initial nexus) c) {t : Nat}
    {th : WatchThreadState} (ht : c.threads t = some th) {e : WatchEvent} (he : e ∈ th.hist) :
    Marked t e c.shared :=
  marked hr ((Pool.hist_of ht).symm ▸ he)

end Causes

/-! ## 3. The histories of a handler and of its watcher -/

/-- A watcher was spawned, and its handler has neither joined it nor unwound. -/
def HandlerStage.Watches (stage : HandlerStage) : Prop := stage = .forwarding ∨ stage = .closing

/-- It gets there by spawning its watcher, -/
theorem HandlerStage.watches_after {stage : HandlerStage} {e : WatchEvent}
    (hbefore : ¬ stage.Watches) (hafter : (stage.after e).Watches) :
    e = ⟨.inr .spawnWatcher, ()⟩ := by
  unfold HandlerStage.after at hafter
  split at hafter <;> simp_all [HandlerStage.Watches]

/-- and it is over when it has returned. -/
theorem HandlerStage.over_after {stage : HandlerStage} {e : WatchEvent} {result : Except IoError Unit}
    (hbefore : ¬ stage.Over result) (hafter : (stage.after e).Over result) :
    e = ⟨.inl .finish, ()⟩ := by
  unfold HandlerStage.after at hafter
  split at hafter <;> simp_all [HandlerStage.Over]

theorem spawned_mem {h : List WatchEvent} (hw : (handlerMonitor.state h).Watches) :
    (⟨.inr .spawnWatcher, ()⟩ : WatchEvent) ∈ h := by
  have hstart : ¬ handlerMonitor.start.Watches := by simp [handlerMonitor, HandlerStage.Watches]
  obtain ⟨before, e, after, rfl, hbefore, hafter⟩ := handlerMonitor.entered hstart hw
  rw [HandlerStage.watches_after hbefore hafter]
  simp

theorem finished_mem {h : List WatchEvent} {result : Except IoError Unit}
    (hover : (handlerMonitor.state h).Over result) : (⟨.inl .finish, ()⟩ : WatchEvent) ∈ h := by
  have hstart : ¬ handlerMonitor.start.Over result := by simp [handlerMonitor, HandlerStage.Over]
  obtain ⟨before, e, after, rfl, hbefore, hafter⟩ :=
    handlerMonitor.entered (P := fun stage => stage.Over result) hstart hover
  rw [HandlerStage.over_after hbefore hafter]
  simp

/-- A watcher stops reading at an answer that tells it to. -/
theorem stopped_mem {h : List WatchEvent} (hs : watcherMonitor.state h ≠ .reading) :
    ∃ answer, endsReading answer = true ∧ (⟨.inr .readClient, answer⟩ : WatchEvent) ∈ h := by
  obtain ⟨before, e, after, rfl, hbefore, hafter⟩ :=
    watcherMonitor.entered (P := fun stage => stage ≠ .reading) (fun h => h rfl) hs
  rw [not_not] at hbefore
  rw [hbefore] at hafter
  change WatcherStage.after .reading e ≠ .reading at hafter
  unfold WatcherStage.after at hafter
  split at hafter
  · rename_i answer _
    split at hafter
    · rename_i hends
      exact ⟨answer, hends, by simp⟩
    · exact absurd rfl hafter
  · simp_all
  · simp_all
  · exact absurd rfl hafter

/-- A watcher that has returned has shut the Flow stream down before. -/
theorem returned_mem {h : List WatchEvent} (hs : watcherMonitor.state h = .returned) :
    (⟨.inr .finishWatcher, ()⟩ : WatchEvent) ∈ h ∧ (⟨.inr .shutdownFlow, ()⟩ : WatchEvent) ∈ h := by
  have hfinishing : ∀ h, watcherMonitor.state h = .finishing →
      (⟨.inr .shutdownFlow, ()⟩ : WatchEvent) ∈ h := by
    intro h hs
    obtain ⟨before, e, after, rfl, hbefore, hafter⟩ :=
      watcherMonitor.entered (P := fun stage => stage = .finishing) nofun hs
    change WatcherStage.after _ e = .finishing at hafter
    unfold WatcherStage.after at hafter
    split at hafter
    · split at hafter <;> cases hafter
    · simp
    · cases hafter
    · exact absurd hafter hbefore
  obtain ⟨before, e, after, rfl, hbefore, hafter⟩ :=
    watcherMonitor.entered (P := fun stage => stage = .returned) nofun hs
  have hcut := hfinishing before
  change WatcherStage.after _ e = .returned at hafter
  unfold WatcherStage.after at hafter
  split at hafter
  · split at hafter <;> cases hafter
  · cases hafter
  · rename_i hstage
    exact ⟨by simp, List.mem_append_left _ (hcut hstage)⟩
  · exact absurd hafter hbefore

/-- An operation that reads the request. -/
def readsRequest : ServeOp ⊕ WatchOp → Bool
  | .inl (.nexus .readQuery) => true
  | .inl (.nexus .readMetaQuery) => true
  | _ => false

theorem AnswerStage.after_read {stage : AnswerStage} (hs : stage ≠ .unread) (o : NexusOp) :
    stage.after o ≠ .unread := by
  cases o <;> simp [AnswerStage.after, hs]

theorem HandlerStage.after_read {stage : HandlerStage} (hs : stage ≠ .answering .unread)
    (e : WatchEvent) : stage.after e ≠ .answering .unread := by
  unfold HandlerStage.after
  split
  · rename_i answered _ _
    have hread : answered ≠ .unread := fun h => hs (congrArg _ h)
    exact fun h => AnswerStage.after_read hread _ (HandlerStage.answering.inj h)
  · exact nofun
  · exact nofun
  · exact nofun
  · exact nofun
  · exact nofun
  · exact nofun
  · exact nofun
  · exact hs

/-- Once it is read, nothing that may come reads the request. -/
theorem HandlerStage.Allows.unreading {stage : HandlerStage} {o : ServeOp ⊕ WatchOp}
    (h : stage.Allows o) (hs : stage ≠ .answering .unread) : readsRequest o = false := by
  have hnexus : ∀ n : NexusOp, (n = .readQuery ∨ n = .readMetaQuery) →
      ¬ stage.Allows (.inl (.nexus n)) := by
    intro n hn h
    cases stage with
    | answering answered =>
        cases answered with
        | unread => exact hs rfl
        | before => rcases hn with rfl | rfl <;> rcases h with h | h <;> cases h
        | inside => rcases hn with rfl | rfl <;> cases h.2
        | past => rcases hn with rfl | rfl <;> cases h
    | forwarding => rcases hn with rfl | rfl <;> cases h
    | leaving detached => cases h
    | _ => exact h
  unfold readsRequest
  split
  · exact absurd h (hnexus _ (Or.inl rfl))
  · exact absurd h (hnexus _ (Or.inr rfl))
  · rfl

/-- The first operation reads the request, and leaves it read. -/
theorem HandlerStage.Allows.first {o : ServeOp ⊕ WatchOp}
    (h : HandlerStage.Allows (.answering .unread) o) (a : SumAns ServeAns WatchAns o) :
    readsRequest o = true ∧
      HandlerStage.after (.answering .unread) ⟨o, a⟩ ≠ .answering .unread := by
  have hunread : ¬ AnswerStage.Clear .unread := by rintro (h | h) <;> cases h
  cases o with
  | inl o =>
      cases o with
      | nexus o =>
          rcases h with rfl | rfl
          · cases a <;> exact ⟨rfl, nofun⟩
          · cases a <;> exact ⟨rfl, nofun⟩
      | _ => exact absurd h.1 hunread
  | inr o => exact absurd h.1 hunread

/-- A handler first reads the request, and then never again. -/
theorem request_once {h : List WatchEvent} (hi : Issued handlerMonitor.Place h) :
    h = [] ∨ (handlerMonitor.state h ≠ .answering .unread ∧ ∃ e rest, h = e :: rest ∧
      readsRequest e.op = true ∧ ∀ e' ∈ rest, readsRequest e'.op = false) := by
  refine issued_induction (P := fun h => h = [] ∨ (handlerMonitor.state h ≠ .answering .unread ∧
    ∃ e rest, h = e :: rest ∧ readsRequest e.op = true ∧
      ∀ e' ∈ rest, readsRequest e'.op = false)) (Or.inl rfl) ?_ h hi
  intro h e _ hplace ih
  right
  rw [handlerMonitor.state_snoc]
  rcases ih with rfl | ⟨hread, first, rest, rfl, hfirst, hrest⟩
  · obtain ⟨hreads, hafter⟩ := HandlerStage.Allows.first hplace e.ans
    exact ⟨hafter, e, [], rfl, hreads, fun _ h => absurd h List.not_mem_nil⟩
  · refine ⟨HandlerStage.after_read hread e, first, rest ++ [e], rfl, hfirst, ?_⟩
    intro e' he'
    rcases List.mem_append.mp he' with hold | hnew
    · exact hrest e' hold
    · rw [List.mem_singleton.mp hnew]
      exact HandlerStage.Allows.unreading hplace hread

theorem HandlerStage.Watches.after {stage : HandlerStage} (hw : stage.Watches) {e : WatchEvent}
    (h : stage.Allows e.op) : (stage.after e).Watches ∨ e = ⟨.inr .joinWatcher, ()⟩ ∨
      ∃ o, e = ⟨.inl (.nexus o), none⟩ := by
  obtain ⟨o, a⟩ := e
  rcases hw with rfl | rfl
  · cases o with
    | inl o =>
        cases o with
        | nexus o =>
            cases a with
            | none => exact Or.inr (Or.inr ⟨o, rfl⟩)
            | some _ => exact Or.inl (Or.inl rfl)
        | _ => exact False.elim h
    | inr o =>
        cases (show o = .shutdownRead from h)
        exact Or.inl (Or.inr rfl)
  · cases o with
    | inl o => cases o <;> exact False.elim h
    | inr o =>
        cases (show o = .joinWatcher from h)
        exact Or.inr (Or.inl rfl)

/-- A handler that has spawned its watcher still has it, or has joined it, or has unwound. -/
theorem watcher_kept {h : List WatchEvent} (hi : Issued handlerMonitor.Place h)
    (hspawned : (⟨.inr .spawnWatcher, ()⟩ : WatchEvent) ∈ h) :
    (handlerMonitor.state h).Watches ∨ (⟨.inr .joinWatcher, ()⟩ : WatchEvent) ∈ h ∨
      ∃ o, (⟨.inl (.nexus o), none⟩ : WatchEvent) ∈ h := by
  refine issued_induction (P := fun h => (⟨.inr .spawnWatcher, ()⟩ : WatchEvent) ∈ h →
    (handlerMonitor.state h).Watches ∨ (⟨.inr .joinWatcher, ()⟩ : WatchEvent) ∈ h ∨
      ∃ o, (⟨.inl (.nexus o), none⟩ : WatchEvent) ∈ h) nofun ?_ h hi hspawned
  intro h e _ hplace ih hin
  have hnow : e ∈ h ++ [e] := List.mem_append_right _ (List.mem_singleton_self e)
  rw [handlerMonitor.state_snoc]
  rcases List.mem_append.mp hin with hold | hnew
  · rcases ih hold with hwatches | hjoined | ⟨o, hunwound⟩
    · rcases HandlerStage.Watches.after hwatches hplace with h | rfl | ⟨o, rfl⟩
      · exact Or.inl h
      · exact Or.inr (Or.inl hnow)
      · exact Or.inr (Or.inr ⟨o, hnow⟩)
    · exact Or.inr (Or.inl (List.mem_append_left _ hjoined))
    · exact Or.inr (Or.inr ⟨o, List.mem_append_left _ hunwound⟩)
  · cases List.mem_singleton.mp hnew
    change HandlerStage.Allows _ (.inr .spawnWatcher) at hplace
    left
    show (HandlerStage.after _ ⟨.inr .spawnWatcher, ()⟩).Watches
    generalize handlerMonitor.state h = stage at hplace
    cases stage with
    | answering answered => exact Or.inl rfl
    | forwarding => cases hplace
    | closing => cases hplace
    | _ => exact False.elim hplace

/-- A handler that has returned does nothing more. -/
theorem over_of_finished {h : List WatchEvent} (hi : Issued handlerMonitor.Place h)
    (hfinished : (⟨.inl .finish, ()⟩ : WatchEvent) ∈ h) :
    ∃ detached, handlerMonitor.state h = .over detached := by
  refine handlerMonitor.since (P := fun stage => ∃ detached, stage = .over detached) ?_ ?_ hi hfinished
  · rintro _ e ⟨detached, rfl⟩
    exact ⟨detached, rfl⟩
  · intro stage hallows
    cases stage with
    | answering answered => exact ⟨false, rfl⟩
    | leaving detached => exact ⟨detached, rfl⟩
    | _ => exact False.elim hallows

/-! ## 4. The account -/

/-- The watcher of connection `u`, in any reachable pool. -/
structure WatcherAccount (c : WatchPool) (u : Nat) : Prop where
  /-- A watcher is there only where the handler has read its request, the one time that it reads
      it; what the watcher reads is not of the request. -/
  request : (c.threads (watcherThread u)).isSome = true → ∃ e rest,
    c.hist (serveThread u) = e :: rest ∧ readsRequest e.op = true ∧
      ∀ e' ∈ rest, readsRequest e'.op = false
  /-- The subscription's stream is shut down by the watcher only, after a read that found the end
      of the client's stream, or failed; -/
  cut : c.shared.flow u ≠ .live → ∃ before answer after, c.hist (watcherThread u) =
    before ++ ⟨.inr .shutdownFlow, ()⟩ :: after ∧ endsReading answer = true ∧
      (⟨.inr .readClient, answer⟩ : WatchEvent) ∈ before
  /-- and it finds the end only where the client has ended what it sends, or the listener has shut
      the stream down, or the handler has left its loop. -/
  cause : (⟨.inr .readClient, (.ok 0 : Except IoError Nat)⟩ : WatchEvent) ∈
    c.hist (watcherThread u) → ClientEnds c.hist u
  /-- A handler that has returned has joined its watcher, unless it has unwound. -/
  joined : (⟨.inl .finish, ()⟩ : WatchEvent) ∈ c.hist (serveThread u) →
    c.shared.watched u = true → c.shared.watcherEnded u = true ∨
      ∃ o, (⟨.inl (.nexus o), none⟩ : WatchEvent) ∈ c.hist (serveThread u)

theorem watcher_account [FlowDebug] {nexus : NexusShared} {c : WatchPool}
    (hr : Reach watchSystem (WatchPool.initial nexus) c) (u : Nat) : WatcherAccount c u := by
  have hcaused := caused hr
  constructor
  · intro hthread
    obtain ⟨th, ht⟩ := Option.isSome_iff_exists.mp hthread
    obtain ⟨hwatched, _⟩ := (watch_kind hr _ th ht).of_watcher
    obtain ⟨handler, rfl, hspawned⟩ := hcaused.watched u hwatched
    rcases request_once (handler_issued hr handler) with hnil | ⟨_, hrequest⟩
    · rw [hnil] at hspawned
      cases hspawned
    · exact hrequest
  · intro hended
    obtain ⟨before, after, hsplit⟩ := List.append_of_mem (hcaused.flow u hended)
    have hissued := watcher_issued hr u
    rw [hsplit] at hissued
    have hcutting : watcherMonitor.state before ≠ .reading := by
      intro hreading
      have hplace : WatcherStage.Allows (watcherMonitor.state before) (.inr .shutdownFlow) :=
        hissued.at
      rw [hreading] at hplace
      cases hplace
    obtain ⟨answer, hends, hin⟩ := stopped_mem hcutting
    exact ⟨before, answer, after, hsplit, hends, hin⟩
  · intro hin
    have hmark : c.shared.client (watcherThread u / 3) ≠ .live := marked hr hin
    rw [watcherThread_div] at hmark
    exact hcaused.client u hmark
  · intro hfinished hwatched
    obtain ⟨handler, rfl, hspawned⟩ := hcaused.watched u hwatched
    have hissued := handler_issued hr handler
    rcases watcher_kept hissued hspawned with hwatches | hjoined | hunwound
    · obtain ⟨detached, hover⟩ := over_of_finished hissued hfinished
      rw [hover] at hwatches
      rcases hwatches with h | h <;> cases h
    · left
      have hmark : c.shared.watcherEnded (serveThread (handler + 1) / 3) = true := marked hr hjoined
      rwa [serveThread_div] at hmark
    · exact Or.inr hunwound

/-- The second watcher has found the end that the listener made. -/
theorem watcher_account_stopped : WatcherAccount stoppedWatch 2 ∧
    (stoppedWatch.threads (watcherThread 2)).isSome = true ∧
    stoppedWatch.shared.flow 2 ≠ .live ∧ stoppedWatch.shared.watched 2 = true :=
  ⟨@watcher_account unitDebug _ _ (signalledWatch_reach.trans stoppedWatch_reach) 2,
    by decide +kernel, by decide +kernel, by decide +kernel⟩

end MessageNexus
