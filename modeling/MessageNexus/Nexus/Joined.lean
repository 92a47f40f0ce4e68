/-
  File:      MessageNexus/Nexus/Joined.lean
  Subject:   THE HANDLERS OF THE LISTENER: at every head of its loops the handlers it has joined and
             those it keeps are those it has spawned, and when `serve` returns all of them are
             joined, and nobody holds the Nexus any more.

  * `serveCrew`, `handNow` -- what the listener spawns and joins, and the `Arc`s in its own hands;
  * `ListenerLoop`, `serveRound_listener` -- the account that its rounds keep;
  * `HandlerPlace`, `serveRound_handler` -- a handler releases the Nexus once, before it returns;
  * `serveReaper` -- the reaping pass of the listener;
  * `Counts`, `counts` -- the strong count is that of the listener and of the handlers that run;
  * `ServeAccount`, `serve_account` -- what follows in every reachable pool, and `workers_joined`
    -- together with the stdio loop.
-/
import MessageNexus.Mcp.Joined
import MessageNexus.Nexus.Serve

namespace MessageNexus

open Interact SignalFlow Reap

/-! ## 1. The account of the listener -/

/-- The listener spawns and joins handlers by their numbers. -/
def serveCrew : Crew ServeOp ServeAns Nat where
  spawns
    | ⟨.spawn _, handler⟩ => some handler
    | _ => none
  joins
    | ⟨.join handler, _⟩ => some handler
    | _ => none

/-- The `Arc`s of the Nexus that the listener itself holds. -/
def handAfter (hand : Nat) : ServeEvent → Nat
  | ⟨.cloneNexus, _⟩ => hand + 1
  | ⟨.dropNexus, _⟩ => hand - 1
  | ⟨.spawn _, _⟩ => hand - 1
  | _ => hand

def handNow (h : List ServeEvent) : Nat := h.foldl handAfter 1

theorem handNow_snoc (h : List ServeEvent) (e : ServeEvent) :
    handNow (h ++ [e]) = handAfter (handNow h) e := by
  simp [handNow]

/-- The operations of the listener that neither spawn nor join nor move an `Arc`. -/
def ServeOp.plain : ServeOp → Bool
  | .startup _ => true
  | .poll => true
  | .accept _ => true
  | .tryClone => true
  | .isFinished _ => true
  | .dropListener _ => true
  | .shutdownBoth _ => true
  | _ => false

/-- Where an operation of the listener may stand. -/
def ListenerPlace (h : List ServeEvent) (o : ServeOp) : Prop :=
  serveCrew.Place h o ∧
    match o with
    | .dropNexus => 1 ≤ handNow h
    | .spawn _ => handNow h = 2
    | .nexus _ => False
    | .release => False
    | .finish => False
    | _ => True

/-- What the listener keeps: these handlers, and so many `Arc`s. -/
structure Keeping (handlers : List Nat) (hand : Nat) (h : List ServeEvent) : Prop where
  balanced : serveCrew.Balanced h handlers
  hand : handNow h = hand

/-- The handlers that the head of a loop keeps. -/
def ServeLoop.handlers : ServeLoop → List Nat
  | .poll handlers => handlers
  | .reap handlers _ _ => handlers
  | .close handlers _ => handlers
  | .joins handlers _ => handlers
  | .forward _ _ => []

/-- Where the listener goes round: it keeps what it has spawned and not joined, and one `Arc`. -/
def ListenerLoop : ServeLoop → List ServeEvent → Prop
  | .poll handlers, h => Keeping handlers 1 h
  | .reap handlers _ _, h => Keeping handlers 1 h
  | .close handlers _, h => Keeping handlers 1 h
  | .joins handlers _, h => Keeping handlers 1 h
  | .forward _ _, _ => False

abbrev ListenerHolds {α : Type} (Q : α → List ServeEvent → Prop) (p : ServeProg α)
    (h : List ServeEvent) : Prop :=
  Holds anyAnswer ListenerPlace Q p h

abbrev ListenerKept (p : ServeThread) (h : List ServeEvent) : Prop :=
  ListenerHolds (Sum.elim ListenerLoop fun _ h => Keeping [] 0 h) p h

variable {handlers : List Nat} {hand : Nat} {h : List ServeEvent}

theorem plain_place {o : ServeOp} (ho : o.plain = true) : ListenerPlace h o := by
  have hj : ∀ a, serveCrew.joins ⟨o, a⟩ = none := by
    intro a
    cases o with
    | join handler => cases ho
    | _ => rfl
  refine ⟨fun a handler hjoin => ?_, ?_⟩
  · rw [hj a] at hjoin
    cases hjoin
  · cases o with
    | dropNexus => cases ho
    | spawn socket => cases ho
    | nexus o => cases ho
    | release => cases ho
    | finish => cases ho
    | _ => trivial

theorem Keeping.plain (hk : Keeping handlers hand h) (e : ServeEvent) (ho : e.op.plain = true) :
    Keeping handlers hand (h ++ [e]) := by
  have he : serveCrew.spawns e = none ∧ serveCrew.joins e = none ∧
      handAfter (handNow h) e = handNow h := by
    obtain ⟨o, a⟩ := e
    cases o with
    | cloneNexus => cases ho
    | dropNexus => cases ho
    | spawn socket => cases ho
    | join handler => cases ho
    | _ => exact ⟨rfl, rfl, rfl⟩
  obtain ⟨hs, hj, hhand⟩ := he
  refine ⟨hk.balanced.quiet hs hj, ?_⟩
  rw [handNow_snoc, hhand]
  exact hk.hand

/-- The account over a plain operation, -/
theorem Keeping.ask {α : Type} {Q : α → List ServeEvent → Prop} {o : ServeOp}
    {k : ServeAns o → ServeProg α} (hk : Keeping handlers hand h) (ho : o.plain = true)
    (hnext : ∀ a, Keeping handlers hand (h ++ [⟨o, a⟩]) → ListenerHolds Q (k a) (h ++ [⟨o, a⟩])) :
    ListenerHolds Q (.ask o k) h :=
  ⟨plain_place ho, fun a _ => hnext a (hk.plain ⟨o, a⟩ ho)⟩

/-- and over a program of plain operations. -/
theorem Keeping.uses {α : Type} {p : ServeProg α} (hk : Keeping handlers hand h)
    (hp : Uses (fun o => o.plain = true) p) :
    ListenerHolds (fun _ h' => Keeping handlers hand h') p h :=
  hp.holds (I := fun h' => Keeping handlers hand h') (fun _ e hk (ho : e.op.plain = true) => hk.plain e ho)
    (fun _ o _ (ho : o.plain = true) => plain_place ho) hk

/-- Where the listener goes on with these handlers, or leaves its round with a failure. -/
def AcceptedWith (handlers : List Nat) (result : Except IoError (Option Nat))
    (h : List ServeEvent) : Prop :=
  match result with
  | .error _ => Keeping handlers 1 h
  | .ok handler => Keeping (handlers ++ handler.toList) 1 h

/-- A connection: its clone of the `Arc` goes to the handler, or is dropped. -/
theorem acceptOne_listener (socket : Socket) (hk : Keeping handlers 1 h) :
    ListenerHolds (AcceptedWith handlers) (acceptOne socket) h := by
  refine hk.ask rfl fun answer hk => ?_
  cases answer with
  | wouldBlock =>
      show Keeping (handlers ++ []) 1 _
      rwa [List.append_nil]
  | failed error => exact hk
  | accepted =>
      refine hk.ask rfl fun cloned hk => ?_
      cases cloned with
      | error error => exact hk
      | ok _ =>
          refine ⟨⟨fun _ _ hj => (by cases hj), trivial⟩, fun _ _ => ?_⟩
          have hk : Keeping handlers 2 _ :=
            ⟨@Crew.Balanced.quiet _ _ _ serveCrew _ ⟨.cloneNexus, ()⟩ _ hk.balanced rfl rfl, by
              rw [handNow_snoc, hk.hand]
              rfl⟩
          refine hk.ask rfl fun cloned hk => ?_
          cases cloned with
          | error error =>
              refine ⟨⟨fun _ _ hj => (by cases hj), ?_⟩, fun _ _ => ?_⟩
              · have hhand := hk.hand
                show 1 ≤ handNow _
                omega
              · refine ⟨hk.balanced.quiet rfl rfl, ?_⟩
                rw [handNow_snoc, hk.hand]
                rfl
          | ok _ =>
              refine ⟨⟨fun _ _ hj => (by cases hj), hk.hand⟩, fun handler _ => ?_⟩
              refine ⟨hk.balanced.spawn rfl rfl, ?_⟩
              rw [handNow_snoc, hk.hand]
              rfl

theorem acceptReady_listener (listeners : List (Bool × Socket)) (hk : Keeping handlers 1 h) :
    ListenerHolds (fun r h' => Keeping r.1 1 h') (acceptReady listeners handlers) h := by
  induction listeners generalizing handlers h with
  | nil => exact hk
  | cons listener listeners ih =>
      obtain ⟨ready, socket⟩ := listener
      cases ready with
      | false => exact ih hk
      | true =>
          rw [acceptReady, ListenerHolds, holds_bind]
          refine (acceptOne_listener socket hk).mono (fun _ _ hG => hG) fun result h' hk => ?_
          cases result with
          | error error => exact hk
          | ok handler => exact ih hk

theorem pollRound_listener (hk : Keeping handlers 1 h) : ListenerKept (pollRound handlers) h := by
  refine hk.ask rfl fun answer hk => ?_
  cases answer with
  | interrupted => exact hk
  | failed error => exact hk
  | ready signals ordinary owner =>
      cases signals with
      | true => exact hk
      | false =>
          show ListenerKept (acceptReady [(ordinary, .ordinary), (owner, .owner)] handlers >>=
            fun r => pure (.inl (.reap r.1 0 r.2))) _
          rw [ListenerKept, ListenerHolds, holds_bind]
          exact (acceptReady_listener _ hk).mono (fun _ _ hG => hG) fun _ _ hk => hk

/-- A finished handler leaves the kept ones as it is joined. -/
theorem reapHandlers_listener (index : Nat) (failure : Option IoError)
    (hk : Keeping handlers 1 h) : ListenerKept (reapHandlers handlers index failure) h := by
  unfold reapHandlers
  cases hhandler : handlers[index]? with
  | none =>
      cases failure with
      | none => exact hk
      | some error => exact hk
  | some handler =>
      have hperm := swapRemove_perm hhandler
      refine hk.ask rfl fun finished hk => ?_
      cases finished with
      | false => exact hk
      | true =>
          refine ⟨⟨fun _ _ hj => ?_, trivial⟩, fun _ _ => ?_⟩
          · cases hj
            exact ⟨_, hk.balanced.perm hperm.symm⟩
          · refine ⟨hk.balanced.join rfl rfl hperm, ?_⟩
            rw [handNow_snoc]
            exact hk.hand

theorem shutdownHandlers_uses (handlers : List Nat) :
    Uses (fun o => o.plain = true) (shutdownHandlers handlers) := by
  induction handlers with
  | nil => trivial
  | cons handler handlers ih => exact ⟨rfl, fun _ => ih⟩

theorem closeListeners_listener (result : Except IoError Unit) (hk : Keeping handlers 1 h) :
    ListenerKept (closeListeners handlers result) h := by
  refine hk.ask rfl fun _ hk => hk.ask rfl fun _ hk => ?_
  show ListenerKept (shutdownHandlers handlers >>= fun _ => pure (.inl (.joins handlers result))) _
  rw [ListenerKept, ListenerHolds, holds_bind]
  exact (hk.uses (shutdownHandlers_uses handlers)).mono (fun _ _ hG => hG) fun _ _ hk => hk

theorem leaveServe_listener (result : Except IoError Unit) (hk : Keeping [] 1 h) :
    ListenerKept (leaveServe result) h := by
  refine ⟨⟨fun _ _ hj => (by cases hj), ?_⟩, fun _ _ => ⟨hk.balanced.quiet rfl rfl, ?_⟩⟩
  · have hhand := hk.hand
    show 1 ≤ handNow h
    omega
  · rw [handNow_snoc, hk.hand]
    rfl

theorem joinHandlers_listener (result : Except IoError Unit) (hk : Keeping handlers 1 h) :
    ListenerKept (joinHandlers result handlers) h := by
  cases handlers with
  | nil => exact leaveServe_listener result hk
  | cons handler handlers =>
      refine ⟨⟨fun _ _ hj => ?_, trivial⟩, fun _ _ => ?_⟩
      · cases hj
        exact ⟨handlers, hk.balanced⟩
      · refine ⟨hk.balanced.join rfl rfl (List.Perm.refl _), ?_⟩
        rw [handNow_snoc]
        exact hk.hand

/-! ## 2. A handler -/

/-- Where an operation of a handler may stand: it releases the Nexus once, and then returns. -/
def HandlerPlace (h : List ServeEvent) : ServeOp → Prop
  | .nexus _ => True
  | .shutdownWrite => True
  | .report _ _ => True
  | .release => (⟨.release, ()⟩ : ServeEvent) ∉ h
  | .finish => (⟨.release, ()⟩ : ServeEvent) ∈ h
  | _ => False

/-- Where a handler goes round: it holds the Nexus. -/
def HandlerLoop : ServeLoop → List ServeEvent → Prop
  | .forward _ _, h => (⟨.release, ()⟩ : ServeEvent) ∉ h
  | _, _ => False

abbrev HandlerKept (p : ServeThread) (h : List ServeEvent) : Prop :=
  Holds anyAnswer HandlerPlace (Sum.elim HandlerLoop fun _ _ => True) p h

theorem attempt_uses {α : Type} (p : NexusProg α) : Uses (fun o => ∃ n, o = .nexus n) (attempt p) := by
  induction p with
  | ret a => trivial
  | ask o k ih =>
      refine ⟨⟨o, rfl⟩, fun a => ?_⟩
      cases a with
      | none => trivial
      | some a => exact ih a

theorem releaseHandler_kept (hh : (⟨.release, ()⟩ : ServeEvent) ∉ h) :
    HandlerKept releaseHandler h :=
  ⟨hh, fun _ _ => ⟨by simp [HandlerPlace], fun _ _ => trivial⟩⟩

theorem endHandler_kept (socket : Socket) (result : Except FrameError Unit)
    (hh : (⟨.release, ()⟩ : ServeEvent) ∉ h) : HandlerKept (endHandler socket result) h := by
  have hreport : ∀ error : FrameError, HandlerKept
      (serving (.report socket error) >>= fun _ => releaseHandler)
      (h ++ [⟨.shutdownWrite, ()⟩]) := by
    intro error
    exact ⟨trivial, fun _ _ => releaseHandler_kept (by simpa using hh)⟩
  refine ⟨trivial, fun _ _ => ?_⟩
  cases result with
  | ok _ => exact releaseHandler_kept (by simpa using hh)
  | error error =>
      cases error with
      | closed => exact releaseHandler_kept (by simpa using hh)
      | io error => exact hreport (.io error)
      | archive error => exact hreport (.archive error)
      | tooLarge bytes => exact hreport (.tooLarge bytes)

/-- The connection's own program does not release the Nexus. -/
theorem runHandler_kept (socket : Socket) (p : Handler) (hh : (⟨.release, ()⟩ : ServeEvent) ∉ h) :
    HandlerKept (runHandler socket p) h := by
  have hattempt : Holds anyAnswer HandlerPlace (fun _ h' => (⟨.release, ()⟩ : ServeEvent) ∉ h')
      (attempt p) h := by
    refine (attempt_uses p).holds (I := fun h' => (⟨.release, ()⟩ : ServeEvent) ∉ h') ?_ ?_ hh
    · rintro h' ⟨_, a⟩ hh ⟨n, rfl⟩
      simpa using hh
    · rintro h' _ _ ⟨n, rfl⟩
      trivial
  rw [runHandler, HandlerKept, holds_bind]
  refine hattempt.mono (fun _ _ hG => hG) fun result h' hh => ?_
  cases result with
  | none => exact releaseHandler_kept hh
  | some next =>
      cases next with
      | inl loop => exact hh
      | inr result => exact endHandler_kept socket result hh

/-! ## 3. The rounds -/

section Rounds

variable [FlowDebug]

theorem serveRound_listener (l : ServeLoop) (h : List ServeEvent) (hl : ListenerLoop l h) :
    ListenerKept (serveRound l) h := by
  cases l with
  | poll handlers => exact pollRound_listener hl
  | reap handlers index failure => exact reapHandlers_listener index failure hl
  | close handlers result => exact closeListeners_listener result hl
  | joins handlers result => exact joinHandlers_listener result hl
  | forward socket loop => exact hl.elim

omit [FlowDebug] in
theorem serve_listener (bound : Configuration) :
    ListenerKept (ListensOnSockets.serve bound) [] := by
  have hk : Keeping [] 1 [] := ⟨Crew.balanced_nil, rfl⟩
  have hlisten : Uses (fun o : ServeOp => o.plain = true)
      (@Prog.lift _ _ _ ServeOp ServeAns .startup (fun _ a => a) (listen bound)) :=
    Prog.uses_lift (P := fun o : ServeOp => o.plain = true) (fun _ => rfl) _
  rw [ListensOnSockets.serve, ListenerKept, ListenerHolds, holds_bind]
  refine (hk.uses hlisten).mono (fun _ _ hG => hG) fun result h hk => ?_
  cases result with
  | error error => exact leaveServe_listener _ hk
  | ok _ => exact hk

theorem serveRound_handler (l : ServeLoop) (h : List ServeEvent) (hl : HandlerLoop l h) :
    HandlerKept (serveRound l) h := by
  cases l with
  | forward socket loop => exact runHandler_kept socket _ hl
  | _ => exact hl.elim

/-- The pass of a round that ends with this failure, if any. -/
def serveReaper (failure : Option IoError) :
    Reaper (R := Except IoError Unit) serveRound Nat where
  head handlers index := .reap handlers index failure
  after handlers := afterPass handlers failure
  found handler finished := ⟨.isFinished handler, finished⟩
  joined handler := ⟨.join handler, ()⟩
  behind := by
    intro handlers index hindex
    show reapHandlers handlers index failure = _
    rw [reapHandlers, List.getElem?_eq_none hindex]
    rfl
  round := by
    intro handlers index handler e es q hhandler ht
    have hround : serveRound (.reap handlers index failure) =
        .ask (.isFinished handler) fun finished =>
          if finished = true then
            .ask (.join handler) fun _ =>
              .ret (.inl (.reap (Reap.swapRemove handlers index) index failure))
          else .ret (.inl (.reap handlers (index + 1) failure)) := by
      show reapHandlers handlers index failure = _
      rw [reapHandlers, hhandler]
      refine congrArg (Prog.ask _) (funext fun finished => ?_)
      cases finished <;> rfl
    rw [hround] at ht
    obtain ⟨finished, rfl, hnext⟩ := ht.ask_inv
    cases finished with
    | false => exact Or.inl ⟨rfl, hnext⟩
    | true =>
        refine Or.inr ⟨rfl, fun e' es' he => ?_⟩
        subst he
        obtain ⟨_, rfl, hjoined⟩ := Trace.ask_inv hnext
        exact ⟨rfl, hjoined⟩

/-! ## 4. The discipline of every thread -/

variable {nexus : NexusShared} {d : ServePool}

/-- What a thread is: the listener, or a handler that was spawned. -/
def ServeKind (s : ServeShared) (t : Nat) (start : ServeThread) : Prop :=
  (t = 0 ∧ ∃ bound, start = ListensOnSockets.serve bound) ∨
    ∃ handler socket, t = handler + 1 ∧ handler < s.spawned.length ∧
      start = runHandler socket socket.handler

theorem ServeKind.grows {s s' : ServeShared} {t : Nat} {start : ServeThread}
    (h : ServeKind s t start) (hs : s.spawned.length ≤ s'.spawned.length) :
    ServeKind s' t start := by
  rcases h with hlistener | ⟨handler, socket, ht, hlt, hstart⟩
  · exact Or.inl hlistener
  · exact Or.inr ⟨handler, socket, ht, by omega, hstart⟩

omit [FlowDebug] in
/-- An operation on the Nexus changes nothing else; -/
theorem serveSem_nexus {s s' : ServeShared} {t : Nat} {o : NexusOp} {a : Option (NexusAns o)}
    (hs : serveSem s t ⟨.nexus o, a⟩ s') : ∃ nexus, s' = { s with nexus := nexus } := by
  cases a with
  | none =>
      obtain ⟨nexus, _, hs'⟩ := hs
      exact ⟨_, hs'⟩
  | some a =>
      obtain ⟨nexus, _, hs'⟩ := hs
      exact ⟨nexus, hs'⟩

omit [FlowDebug] in
/-- any other one answers and does what it says. -/
theorem serveSem_other {s s' : ServeShared} {t : Nat} {e : ServeEvent}
    (hs : serveSem s t e s') (ho : ∀ o, e.op ≠ .nexus o) : s.answers e ∧ s' = s.after t e.op := by
  obtain ⟨o, a⟩ := e
  cases o with
  | nexus o => exact absurd rfl (ho o)
  | _ => exact hs

omit [FlowDebug] in
/-- A handler stays spawned, and ended. -/
theorem serveSem_grows {s s' : ServeShared} {t : Nat} {e : ServeEvent} (hs : serveSem s t e s') :
    s.spawned.length ≤ s'.spawned.length ∧
      ∀ handler, s.ended handler = true → s'.ended handler = true := by
  by_cases ho : ∃ o, e.op = .nexus o
  · obtain ⟨o, a⟩ := e
    obtain ⟨o, rfl⟩ := ho
    obtain ⟨nexus, rfl⟩ := serveSem_nexus hs
    exact ⟨Nat.le_refl _, fun _ hended => hended⟩
  · obtain ⟨_, rfl⟩ := serveSem_other hs fun o he => ho ⟨o, he⟩
    cases e.op with
    | spawn socket => exact ⟨by simp [ServeShared.after], fun _ hended => hended⟩
    | finish =>
        refine ⟨Nat.le_refl _, fun handler hended => ?_⟩
        by_cases hsame : handler = t - 1
        · simp [ServeShared.after, hsame]
        · simpa [ServeShared.after, hsame] using hended
    | _ => exact ⟨Nat.le_refl _, fun _ hended => hended⟩

theorem serveStart_keeps {s s' : ServeShared} {t : Nat} {p : ServeThread}
    (hs : serveStart s t p s') : ∃ nexus, s' = { s with nexus := nexus } := by
  rcases hs with ⟨_, rfl, _⟩ | ⟨handler, socket, _, _, _, rfl⟩
  · exact ⟨_, rfl⟩
  · exact ⟨_, rfl⟩

theorem serve_kind (hr : Reach serveSystem (ServePool.initial nexus) d) :
    ∀ t th, d.threads t = some th → ServeKind d.shared t th.start := by
  refine Reach.invariant (P := fun d : ServePool => ∀ t th, d.threads t = some th →
    ServeKind d.shared t th.start) ?_ ?_ hr
  · intro t th ht
    cases ht
  · intro d d' _ _ hd hs t th' ht'
    have hgrow : d.shared.spawned.length ≤ d'.shared.spawned.length := by
      cases hs with
      | act t th o k a s' ht hl hrest hs => exact (serveSem_grows hs).1
      | again t th l ht hl hrest => exact Nat.le_refl _
      | start t p s' ht hs =>
          obtain ⟨nexus, rfl⟩ := serveStart_keeps hs
          exact Nat.le_refl _
      | halt s' hs => exact hs.elim
    rcases hs.thread_cases ht' with ⟨th, ht, hstart, _⟩ | ⟨th, e, ht, _, hstart, _, _⟩ |
      ⟨_, _, hstart⟩
    · rw [hstart]
      exact (hd t th ht).grows hgrow
    · rw [hstart]
      exact (hd t th ht).grows hgrow
    · rcases hstart with ⟨ht0, _, bound, _, hp⟩ | ⟨handler, socket, htn, hin, hp, hsame⟩
      · exact Or.inl ⟨ht0, bound, hp⟩
      · refine Or.inr ⟨handler, socket, htn, ?_, hp⟩
        rw [hsame]
        exact (List.getElem?_eq_some_iff.mp hin).1

/-- What every thread's history shows, in a pool with this shared state. -/
def Serving (s : ServeShared) : Nat → List ServeEvent → Prop
  | 0, h => Issued ListenerPlace h
  | handler + 1, h => h = [] ∨ (handler < s.spawned.length ∧ Issued HandlerPlace h)

theorem listener_places (hr : Reach serveSystem (ServePool.initial nexus) d)
    {th : ServeThreadState} (ht : d.threads 0 = some th) :
    Issued ListenerPlace th.hist ∧ ListenerKept th.rest th.hist := by
  rcases serve_kind hr 0 th ht with ⟨_, bound, hstart⟩ | ⟨handler, _, he, _⟩
  · have hp : ListenerKept th.start [] := hstart ▸ serve_listener bound
    exact ⟨hr.issued serveRound_listener ht hp, hr.holds serveRound_listener ht hp⟩
  · cases he

theorem serving_places (hr : Reach serveSystem (ServePool.initial nexus) d) :
    ∀ t, Serving d.shared t (d.hist t) := by
  intro t
  cases ht : d.threads t with
  | none =>
      rw [Pool.hist, ht]
      cases t with
      | zero => trivial
      | succ handler => exact Or.inl rfl
  | some th =>
      rw [Pool.hist_of ht]
      cases t with
      | zero => exact (listener_places hr ht).1
      | succ handler =>
          rcases serve_kind hr _ th ht with ⟨he, _⟩ | ⟨handler', socket, he, hlt, hstart⟩
          · cases he
          · cases he
            have hp : HandlerKept th.start [] :=
              hstart ▸ runHandler_kept socket _ List.not_mem_nil
            exact Or.inr ⟨hlt, hr.issued serveRound_handler ht hp⟩

/-! ## 5. Who holds the Nexus -/

omit [FlowDebug]

/-- The handlers are numbered as they come; the strong count is that of the listener and of the
    handlers that hold the Nexus; these are the spawned ones that have not released it, and one
    that has ended has. -/
structure Counts (s : ServeShared) (H : Nat → List ServeEvent) : Prop where
  numbers : serveCrew.spawned (H 0) = List.range s.spawned.length
  strong : s.strong = handNow (H 0) + s.holders.length
  distinct : s.holders.Nodup
  held : ∀ handler, handler ∈ s.holders ↔
    handler < s.spawned.length ∧ (⟨.release, ()⟩ : ServeEvent) ∉ H (handler + 1)
  ended : ∀ handler, s.ended handler = true → (⟨.release, ()⟩ : ServeEvent) ∈ H (handler + 1)

variable {s s' : ServeShared} {H : Nat → List ServeEvent} {e : ServeEvent}

/-- An operation of the listener that spawns nothing leaves the handlers alone. -/
theorem Counts.unspawning (hc : Counts s H) (hspawned : s'.spawned = s.spawned)
    (hholders : s'.holders = s.holders) (hended : s'.ended = s.ended)
    (hspawns : serveCrew.spawns e = none)
    (hcount : s'.strong = handAfter (handNow (H 0)) e + s.holders.length) :
    Counts s' (Function.update H 0 (H 0 ++ [e])) := by
  have hsucc : ∀ n, Function.update H 0 (H 0 ++ [e]) (n + 1) = H (n + 1) := fun n =>
    Function.update_of_ne (Nat.succ_ne_zero n) _ _
  refine ⟨?_, ?_, ?_, fun handler => ?_, fun handler => ?_⟩
  · rw [Function.update_self, Crew.spawned_snoc, hspawns, hspawned, hc.numbers]
    simp
  · rw [Function.update_self, handNow_snoc, hholders, hcount]
  · rw [hholders]
    exact hc.distinct
  · rw [hsucc, hholders, hspawned]
    exact hc.held handler
  · rw [hsucc, hended]
    exact hc.ended handler

/-- A spawned handler has the next number, and holds the clone that was in hand. -/
theorem Counts.spawn (hc : Counts s H) (hnew : H (s.spawned.length + 1) = [])
    (hhand : handNow (H 0) = 2) (socket : Socket) :
    Counts (s.after 0 (.spawn socket))
      (Function.update H 0 (H 0 ++ [⟨.spawn socket, s.spawned.length⟩])) := by
  have hsucc : ∀ n, Function.update H 0 (H 0 ++ [⟨.spawn socket, s.spawned.length⟩]) (n + 1) =
      H (n + 1) := fun n => Function.update_of_ne (Nat.succ_ne_zero n) _ _
  have hstrong := hc.strong
  have hspawns : serveCrew.spawns ⟨.spawn socket, s.spawned.length⟩ = some s.spawned.length := rfl
  refine ⟨?_, ?_, ?_, fun handler => ?_, fun handler hended => ?_⟩
  · rw [Function.update_self, Crew.spawned_snoc, hspawns, hc.numbers]
    simp [ServeShared.after, List.range_succ]
  · rw [Function.update_self, handNow_snoc]
    simp only [ServeShared.after, handAfter, List.length_cons]
    omega
  · refine List.nodup_cons.mpr ⟨fun hin => ?_, hc.distinct⟩
    have hlt := ((hc.held _).mp hin).1
    omega
  · rw [hsucc]
    simp only [ServeShared.after, List.mem_cons, List.length_append, List.length_singleton]
    by_cases hsame : handler = s.spawned.length
    · simp [hsame, hnew]
    · have hheld := hc.held handler
      grind
  · rw [hsucc]
    exact hc.ended handler hended

/-- The listener counts the handlers that it spawns, and its own clones. -/
theorem Counts.listener (hc : Counts s H) (hd : ∀ t, Serving s t (H t))
    (hp : ListenerPlace (H 0) e.op) (hs : serveSem s 0 e s') :
    Counts s' (Function.update H 0 (H 0 ++ [e])) := by
  have hstrong := hc.strong
  obtain ⟨hanswer, rfl⟩ := serveSem_other hs fun o he => by
    rw [he] at hp
    exact hp.2
  obtain ⟨o, a⟩ := e
  cases o with
  | cloneNexus =>
      refine hc.unspawning rfl rfl rfl rfl ?_
      simp only [ServeShared.after, handAfter]
      omega
  | dropNexus =>
      have hhand : 1 ≤ handNow (H 0) := hp.2
      refine hc.unspawning rfl rfl rfl rfl ?_
      simp only [ServeShared.after, handAfter]
      omega
  | spawn socket =>
      have hnew : H (s.spawned.length + 1) = [] := by
        rcases hd (s.spawned.length + 1) with hnil | ⟨hlt, _⟩
        · exact hnil
        · omega
      have ha : a = s.spawned.length := hanswer
      rw [ha]
      exact hc.spawn hnew hp.2 socket
  | nexus o => exact hp.2.elim
  | release => exact hp.2.elim
  | finish => exact hp.2.elim
  | _ => exact hc.unspawning rfl rfl rfl rfl hstrong

/-- What a handler's own operation adds to the releases of all. -/
theorem release_mem (n : Nat) (e : ServeEvent) (m : Nat) : (⟨.release, ()⟩ : ServeEvent) ∈
    Function.update H (n + 1) (H (n + 1) ++ [e]) (m + 1) ↔
      (⟨.release, ()⟩ : ServeEvent) ∈ H (m + 1) ∨ (m = n ∧ ⟨.release, ()⟩ = e) := by
  by_cases hm : m = n
  · subst hm
    simp
  · rw [Function.update_of_ne (by omega)]
    simp [hm]

/-- An operation of a handler on the Nexus, or on its own stream, leaves all of this alone. -/
theorem Counts.unreleasing {n : Nat} (hc : Counts s H) (hsame : ∃ nexus, s' = { s with nexus := nexus })
    (hne : (⟨.release, ()⟩ : ServeEvent) ≠ e) :
    Counts s' (Function.update H (n + 1) (H (n + 1) ++ [e])) := by
  obtain ⟨nexus, rfl⟩ := hsame
  have hzero : Function.update H (n + 1) (H (n + 1) ++ [e]) 0 = H 0 :=
    Function.update_of_ne (Nat.succ_ne_zero n).symm _ _
  refine ⟨by rw [hzero]; exact hc.numbers, by rw [hzero]; exact hc.strong, hc.distinct,
    fun handler => ?_, fun handler hended => ?_⟩
  · rw [release_mem]
    simpa [hne] using hc.held handler
  · rw [release_mem]
    exact Or.inl (hc.ended handler hended)

/-- A handler that releases the Nexus has held it. -/
theorem Counts.release {n : Nat} (hc : Counts s H) (hheld : n ∈ s.holders) :
    Counts (s.after (n + 1) .release)
      (Function.update H (n + 1) (H (n + 1) ++ [⟨.release, ()⟩])) := by
  have hzero : Function.update H (n + 1) (H (n + 1) ++ [⟨.release, ()⟩]) 0 = H 0 :=
    Function.update_of_ne (Nat.succ_ne_zero n).symm _ _
  have hlength := List.length_erase_of_mem hheld
  have hpos := List.length_pos_of_mem hheld
  have hstrong := hc.strong
  refine ⟨by rw [hzero]; exact hc.numbers, ?_, hc.distinct.erase n, fun handler => ?_,
    fun handler hended => ?_⟩
  · rw [hzero]
    simp only [ServeShared.after, Nat.add_sub_cancel]
    omega
  · rw [release_mem]
    have hother := hc.held handler
    simp only [ServeShared.after, Nat.add_sub_cancel, hc.distinct.mem_erase_iff]
    grind
  · rw [release_mem]
    exact Or.inl (hc.ended handler hended)

/-- A handler that returns has released the Nexus. -/
theorem Counts.finish {n : Nat} (hc : Counts s H)
    (hreleased : (⟨.release, ()⟩ : ServeEvent) ∈ H (n + 1)) :
    Counts (s.after (n + 1) .finish)
      (Function.update H (n + 1) (H (n + 1) ++ [⟨.finish, ()⟩])) := by
  have hzero : Function.update H (n + 1) (H (n + 1) ++ [⟨.finish, ()⟩]) 0 = H 0 :=
    Function.update_of_ne (Nat.succ_ne_zero n).symm _ _
  refine ⟨by rw [hzero]; exact hc.numbers, by rw [hzero]; exact hc.strong, hc.distinct,
    fun handler => ?_, fun handler hended => ?_⟩
  · rw [release_mem]
    have hheld := hc.held handler
    simpa [ServeShared.after] using hheld
  · rw [release_mem]
    by_cases hsame : handler = n
    · rw [hsame]
      exact Or.inl hreleased
    · refine Or.inl (hc.ended handler ?_)
      simpa [ServeShared.after, hsame] using hended

theorem Counts.handler {n : Nat} (hc : Counts s H) (hlt : n < s'.spawned.length)
    (hp : HandlerPlace (H (n + 1)) e.op) (hs : serveSem s (n + 1) e s') :
    Counts s' (Function.update H (n + 1) (H (n + 1) ++ [e])) := by
  obtain ⟨o, a⟩ := e
  cases o with
  | nexus o => exact hc.unreleasing (serveSem_nexus hs) nofun
  | shutdownWrite => exact hc.unreleasing ⟨s.nexus, hs.2⟩ nofun
  | report socket error => exact hc.unreleasing ⟨s.nexus, hs.2⟩ nofun
  | release =>
      obtain ⟨_, rfl⟩ := hs
      exact hc.release ((hc.held n).mpr ⟨hlt, hp⟩)
  | finish =>
      obtain ⟨_, rfl⟩ := hs
      exact hc.finish hp
  | _ => exact hp.elim

theorem counts [FlowDebug] (hr : Reach serveSystem (ServePool.initial nexus) d) :
    Counts d.shared d.hist := by
  refine Reach.logged (D := Serving) (fun d hr => serving_places hr) ?_ ?_ ?_ ?_ hr
  · refine ⟨rfl, rfl, List.nodup_nil, fun handler => ?_, nofun⟩
    simp [ServePool.initial, Pool.idle, ServeShared.initial]
  · intro s H t e s' hd hnow hs hc
    cases t with
    | zero => exact hc.listener hd hnow.at hs
    | succ n =>
        rcases hnow with hnil | ⟨hlt, hi⟩
        · simp at hnil
        · exact hc.handler hlt hi.at hs
  · intro s t p s' H hs hc
    obtain ⟨nexus, rfl⟩ := serveStart_keeps hs
    exact ⟨hc.numbers, hc.strong, hc.distinct, hc.held, hc.ended⟩
  · intro s s' H hs _
    exact hs.elim

/-! ## 6. The account of a run -/

variable [FlowDebug]

/-- A handler that was found finished, or joined, has ended. -/
theorem handler_ended (hr : Reach serveSystem (ServePool.initial nexus) d) {t handler : Nat}
    {e : ServeEvent} (hin : e ∈ d.hist t)
    (he : e = ⟨.isFinished handler, true⟩ ∨ e = ⟨.join handler, ()⟩) :
    d.shared.ended handler = true := by
  refine Reach.told (F := fun s : ServeShared => s.ended handler = true)
    (T := fun e => e = ⟨.isFinished handler, true⟩ ∨ e = ⟨.join handler, ()⟩) ?_ ?_ ?_ ?_ hr hin he
  · intro s t e s' hs htells
    rcases htells with rfl | rfl
    · exact hs.1 rfl
    · exact hs.1
  · intro s t e s' hs hended
    exact (serveSem_grows hs).2 handler hended
  · intro s t p s' hs hended
    obtain ⟨nexus, rfl⟩ := serveStart_keeps hs
    exact hended
  · intro s s' hs _
    exact hs.elim

/-- The handlers of the listener, in any reachable pool. -/
structure ServeAccount (d : ServePool) (th : ServeThreadState) : Prop where
  /-- The handlers are those that the listener has spawned, each with a number of its own; -/
  spawned : serveCrew.spawned th.hist = List.range d.shared.spawned.length
  /-- none is joined twice, and none that was not spawned; -/
  once : (serveCrew.joined th.hist).Nodup ∧
    serveCrew.joined th.hist ⊆ serveCrew.spawned th.hist
  /-- wherever a loop goes round, what is joined and what is kept is what was spawned; -/
  kept : ∀ l, th.rest = .ret (.inl l) → serveCrew.Balanced th.hist l.handlers
  /-- and once `serve` returns, every handler that was spawned is joined, and has ended. -/
  returned : ∀ result, th.rest = .ret (.inr result) →
    (serveCrew.joined th.hist).Perm (serveCrew.spawned th.hist) ∧
      ∀ handler ∈ serveCrew.spawned th.hist, d.shared.ended handler = true
  /-- Then no handler holds the Nexus, and the listener has dropped the last `Arc`. -/
  released : ∀ result, th.rest = .ret (.inr result) →
    d.shared.holders = [] ∧ d.shared.strong = 0
  /-- What happens from the head of a reaping pass on is a pass over the handlers kept there; -/
  passes : ∀ handlers failure d' th', th.rest = .ret (.inl (.reap handlers 0 failure)) →
    Reach serveSystem d d' → d'.threads 0 = some th' →
    ∃ es seen kept, th'.hist = th.hist ++ es ∧ (serveReaper failure).Whole handlers seen kept ∧
      (serveReaper failure).Follows seen kept es th'.rest
  /-- a handler is removed only once it has ended, and its join does not wait. -/
  ready : ∀ handler k before, th.rest = .ask (.join handler) k →
    th.hist = before ++ [⟨.isFinished handler, true⟩] →
    d.shared.ended handler = true ∧ d.shared.answers ⟨.join handler, ()⟩

omit [FlowDebug] in
theorem handler_joined {h : List ServeEvent} {handler : Nat}
    (hin : handler ∈ serveCrew.joined h) : (⟨.join handler, ()⟩ : ServeEvent) ∈ h := by
  obtain ⟨⟨o, a⟩, he, hj⟩ := List.mem_filterMap.mp hin
  cases o with
  | join handler =>
      cases hj
      exact he
  | _ => cases hj

theorem serve_account (hr : Reach serveSystem (ServePool.initial nexus) d) {th : ServeThreadState}
    (ht : d.threads 0 = some th) : ServeAccount d th := by
  obtain ⟨hissued, hrest⟩ := listener_places hr ht
  have hcounts := counts hr
  have hended := @handler_ended nexus d _ hr 0
  have hspawned := hcounts.numbers
  have hstrong := hcounts.strong
  rw [Pool.hist_of ht] at hended hspawned hstrong
  have hplace : Issued serveCrew.Place th.hist := Along.mono hissued fun _ _ hp => hp.1
  have hdistinct : (serveCrew.spawned th.hist).Nodup := hspawned ▸ List.nodup_range
  have hreturned : ∀ result, th.rest = .ret (.inr result) →
      (serveCrew.joined th.hist).Perm (serveCrew.spawned th.hist) ∧
        ∀ handler ∈ serveCrew.spawned th.hist, d.shared.ended handler = true := by
    intro result hl
    rw [hl] at hrest
    have hall := (Keeping.balanced hrest).joined_all
    refine ⟨hall, fun handler hin => ?_⟩
    exact hended (handler_joined (hall.mem_iff.mpr hin)) (Or.inr rfl)
  constructor
  · exact hspawned
  · exact Crew.joined_once hplace hdistinct
  · intro l hl
    rw [hl] at hrest
    cases l with
    | forward socket loop => exact hrest.elim
    | _ => exact Keeping.balanced hrest
  · exact hreturned
  · intro result hl
    obtain ⟨_, hall⟩ := hreturned result hl
    have hnone : d.shared.holders = [] := by
      refine List.eq_nil_iff_forall_not_mem.mpr fun handler hin => ?_
      obtain ⟨hlt, hheld⟩ := (hcounts.held handler).mp hin
      refine hheld (hcounts.ended handler (hall handler ?_))
      rw [hspawned]
      exact List.mem_range.mpr hlt
    rw [hl] at hrest
    have hhand := Keeping.hand hrest
    rw [hhand, hnone] at hstrong
    exact ⟨hnone, hstrong⟩
  · intro handlers failure d' th' hl hr' ht'
    exact (serveReaper failure).run hr' ht hl ht'
  · intro handler k before _ hhist
    have hend := @hended handler ⟨.isFinished handler, true⟩ (by simp [hhist]) (Or.inl rfl)
    exact ⟨hend, hend⟩

end Rounds

/-! ## 7. Both programs -/

/-- In every reachable pool, the stdio loop and the listener account for all that they spawned. -/
theorem workers_joined [McpCodec] [FlowDebug] {nexus : NexusShared} {c : McpPool} {d : ServePool}
    (hc : Reach mcpSystem McpPool.initial c)
    (hd : Reach serveSystem (ServePool.initial nexus) d) {stdio : McpThreadState}
    {listener : ServeThreadState} (hstdio : c.threads 0 = some stdio)
    (hlistener : d.threads 0 = some listener) :
    StdioAccount c stdio ∧ ServeAccount d listener :=
  ⟨stdio_account hc hstdio, serve_account hd hlistener⟩

/-- One connection, then two at once; the first handler is reaped, and then a signal comes. -/
def settlePolls : List PollAnswer :=
  [.ready false true false, .ready false true true, .ready false false false,
    .ready true false false]

def settleScript (polls : List PollAnswer) : ServeScript where
  startup := sampleStart unreachableFlow
  polls := polls
  connection := clientScript

def connectedPool : ServePool :=
  @ServeScript.turn unitDebug (settleScript (settlePolls.take 2)) 80 0
    ((ServePool.initial (.serving sampleConfiguration)).listener sampleConfiguration)

/-- The first handler has ended and is reaped, and the listener awaits the others. -/
def signalledPool : ServePool :=
  @ServeScript.turn unitDebug (settleScript settlePolls) 80 0
    (@ServeScript.turn unitDebug (settleScript []) 40 1
      (@ServePool.handler unitDebug connectedPool 0 .ordinary))

/-- They have ended as well, and `serve` returns. -/
def settledPool : ServePool :=
  @ServeScript.turn unitDebug (settleScript []) 40 0
    (@ServeScript.turn unitDebug (settleScript []) 40 3
      (@ServePool.handler unitDebug
        (@ServeScript.turn unitDebug (settleScript []) 40 2
          (@ServePool.handler unitDebug signalledPool 1 .ordinary)) 2 .owner))

theorem settledPool_reach : Reach (@serveSystem unitDebug)
    (ServePool.initial (.serving sampleConfiguration)) settledPool := by
  have hlistener := @ServePool.listener_reach unitDebug _
    (ServePool.initial (.serving sampleConfiguration)) .refl sampleConfiguration rfl rfl
  have hconnected : Reach (@serveSystem unitDebug) _ connectedPool :=
    @ServeScript.turn_reach unitDebug _ _ _ 80 0 hlistener (@serve_live unitDebug _ _ hlistener 0)
  have hfirst := @ServePool.handler_reach unitDebug _ _ hconnected 0 .ordinary rfl rfl
  have hended := @ServeScript.turn_reach unitDebug _ _ (settleScript []) 40 1 hfirst
    (@serve_live unitDebug _ _ hfirst 1)
  have hsignalled : Reach (@serveSystem unitDebug) _ signalledPool :=
    @ServeScript.turn_reach unitDebug _ _ _ 80 0 hended (@serve_live unitDebug _ _ hended 0)
  have hsecond := @ServePool.handler_reach unitDebug _ _ hsignalled 1 .ordinary rfl rfl
  have hanswered := @ServeScript.turn_reach unitDebug _ _ (settleScript []) 40 2 hsecond
    (@serve_live unitDebug _ _ hsecond 2)
  have hthird := @ServePool.handler_reach unitDebug _ _ hanswered 2 .owner rfl rfl
  have hclosed := @ServeScript.turn_reach unitDebug _ _ (settleScript []) 40 3 hthird
    (@serve_live unitDebug _ _ hthird 3)
  exact @ServeScript.turn_reach unitDebug _ _ _ 40 0 hclosed (@serve_live unitDebug _ _ hclosed 0)

/-- Both programs have returned, each after a worker that was reaped and others that were awaited. -/
theorem workers_joined_settled : ∃ stdio listener, joinedPool.threads 0 = some stdio ∧
    settledPool.threads 0 = some listener ∧
    (@StdioAccount joinCodec joinedPool stdio ∧ @ServeAccount unitDebug settledPool listener) ∧
    stdio.rest = .ret (.inr ()) ∧ mcpCrew.joined stdio.hist = [0, 1] ∧
    (∃ result, listener.rest = .ret (.inr result)) ∧
    serveCrew.joined listener.hist = [0, 2, 1] := by
  have hstdio : ((joinedPool.threads 0).bind fun th => th.rest.outcome).isSome = true ∧
      mcpCrew.joined (joinedPool.hist 0) = [0, 1] := by
    decide +kernel
  have hlistener : ((settledPool.threads 0).bind fun th => th.rest.outcome).isSome = true ∧
      serveCrew.joined (settledPool.hist 0) = [0, 2, 1] := by
    decide +kernel
  obtain ⟨hover, hjoined⟩ := hstdio
  obtain ⟨hover', hjoined'⟩ := hlistener
  obtain ⟨_, hresult⟩ := Option.isSome_iff_exists.mp hover
  obtain ⟨_, hresult'⟩ := Option.isSome_iff_exists.mp hover'
  obtain ⟨stdio, hs, hout⟩ := Option.bind_eq_some_iff.mp hresult
  obtain ⟨listener, hl, hout'⟩ := Option.bind_eq_some_iff.mp hresult'
  rw [Pool.hist_of hs] at hjoined
  rw [Pool.hist_of hl] at hjoined'
  refine ⟨stdio, listener, hs, hl, ?_, Prog.outcome_some hout, hjoined,
    ⟨_, Prog.outcome_some hout'⟩, hjoined'⟩
  exact @workers_joined joinCodec unitDebug _ _ _ joinedPool_reach settledPool_reach _ _ hs hl

end MessageNexus
