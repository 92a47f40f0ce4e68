/-
  File:      MessageNexus/Nexus/Configure.lean
  Subject:   THE CONFIGURE REQUESTS OF BOTH SOCKETS: what each of them commits and is told, over
             every interleaving, and what the latch leaves to the ordinary socket.

  * `asksConfigure`, `committed`, `told` -- what a connection was asked, what it replaced in the
    store, and whether it was told success;
  * `configure_told` -- a connection is told success exactly when it has committed its request;
  * `configure_refused` -- with the latch closed an ordinary Configure commits nothing;
  * `unread_peer` -- nor does one whose peer cannot be read, which is told nothing;
  * `configuration_kept` -- all of it for every later pool of every reachable one.
-/
import MessageNexus.Nexus.Faults
import MessageNexus.Nexus.Latch

namespace MessageNexus

open Interact SignalFlow

/-! ## 1. The Configure of a connection -/

/-- The Configure that a history begins with, and the socket it came on. -/
def asksConfigure : List NexusEvent → Option (Socket × Configuration)
  | ⟨.readQuery, .ok (.configure configuration)⟩ :: ⟨.peerProcess, some _⟩ :: _ =>
      some (.ordinary, configuration)
  | ⟨.readMetaQuery, .ok (.configure configuration)⟩ :: _ => some (.owner, configuration)
  | _ => none

def committed? : NexusEvent → Option Configuration
  | ⟨.mutateKeyed standard, .ok _⟩ => some standard.configuration
  | _ => none

/-- The configurations a connection has put into the store, in order. -/
def committed (h : List NexusEvent) : List Configuration := h.filterMap committed?

def told? : NexusEvent → Option Bool
  | ⟨.writeResponse .configured, _⟩ => some true
  | ⟨.writeResponse (.refused _), _⟩ => some false
  | ⟨.writeMetaResponse .configured, _⟩ => some true
  | ⟨.writeMetaResponse .restartRequired, _⟩ => some true
  | ⟨.writeMetaResponse (.refused _), _⟩ => some false
  | _ => none

/-- The verdicts a Configure was told: success or refusal. -/
def told (h : List NexusEvent) : List Bool := h.filterMap told?

/-- A verdict agrees with what was committed. -/
def ToldTruly (configuration : Configuration) (h : List NexusEvent) : Prop :=
  ∀ success ∈ told h, committed h = if success then [configuration] else []

/-- Nothing is committed and nothing told. -/
def Untouched (h : List NexusEvent) : Prop := committed h = [] ∧ told h = []

@[simp] theorem committed_append (h es : List NexusEvent) :
    committed (h ++ es) = committed h ++ committed es := List.filterMap_append

@[simp] theorem told_append (h es : List NexusEvent) : told (h ++ es) = told h ++ told es :=
  List.filterMap_append

theorem Untouched.snoc {h : List NexusEvent} (hu : Untouched h) (e : NexusEvent)
    (hc : committed? e = none) (ht : told? e = none) : Untouched (h ++ [e]) := by
  refine ⟨?_, ?_⟩
  · simp [committed, hc, ← hu.1]
  · simp [told, ht, ← hu.2]

theorem toldTruly_of_silent {configuration : Configuration} {h : List NexusEvent}
    (ht : told h = []) : ToldTruly configuration h := by
  intro success hs
  rw [ht] at hs
  cases hs

/-- What a Configure has committed when it ends with this outcome. -/
def Committed (configuration : Configuration) (outcome : Except ConfigureFailure Bool)
    (h : List NexusEvent) : Prop :=
  told h = [] ∧ committed h = match outcome with
    | .ok _ => [configuration]
    | .error _ => []

section Configure

variable {configuration : Configuration} {isMeta : Bool} {h : List NexusEvent}

/-- Under the guard: a Configure succeeds exactly with its commit. -/
theorem configureStore_commits (hu : Untouched h) :
    Holds anyAnswer (fun h' _ => told h' = []) (Committed configuration)
      (configureStore configuration isMeta) h := by
  unfold configureStore
  rw [holds_bind, holds_standard]
  refine ⟨hu.2, fun records _ => ?_⟩
  have hu' : Untouched (h ++ [⟨.matchRecords, records⟩]) := by
    refine hu.snoc _ ?_ rfl
    rfl
  cases (records.mapError StoreError.engine).bind theStandard with
  | error error => exact ⟨hu'.2, hu'.1⟩
  | ok current =>
      change Holds _ _ _ (if !isMeta && current.metaConfigured then _ else _) _
      by_cases hlatch : (!isMeta && current.metaConfigured) = true
      · rw [if_pos hlatch]
        exact ⟨hu'.2, hu'.1⟩
      · rw [if_neg hlatch, holds_bind, holds_replaceStandard]
        refine ⟨hu'.2, fun outcome _ => ?_⟩
        cases outcome with
        | error error =>
            have hu'' := hu'.snoc (⟨.mutateKeyed (current.changedConfiguration configuration isMeta),
              .error error⟩ : NexusEvent) rfl rfl
            exact ⟨hu''.2, hu''.1⟩
        | ok _ =>
            refine ⟨?_, ?_⟩
            · rw [told_append, hu'.2]
              rfl
            · rw [committed_append, hu'.1]
              rfl

theorem configure_commits (hu : Untouched h) :
    Holds anyAnswer (fun h' _ => told h' = []) (Committed configuration)
      (configure configuration isMeta) h := by
  unfold configure
  rw [holds_withStore]
  refine ⟨hu.2, fun _ => ?_⟩
  have hu' := hu.snoc (⟨.lockStore, ()⟩ : NexusEvent) rfl rfl
  refine (configureStore_commits hu').mono (fun _ _ hG => hG) fun outcome h' hc => ?_
  refine ⟨hc.1, fun _ => ⟨?_, ?_⟩⟩
  · rw [told_append, hc.1]
    rfl
  · rw [committed_append, hc.2]
    cases outcome <;> rfl

/-- The program tells truly at every point, and ends without a subscription to forward. -/
abbrev TellsTruly (configuration : Configuration) (p : Handler) (h : List NexusEvent) : Prop :=
  Holds anyAnswer (fun h' _ => ToldTruly configuration h')
    (Sum.elim (fun _ _ => False) fun _ h' => ToldTruly configuration h' ∧ (told h').length = 1) p h

/-- The answer to an ordinary Configure tells what was committed. -/
theorem answerQuery_tells [FlowDebug] (process : Process) (hu : Untouched h) :
    TellsTruly configuration (answerQuery process (.configure configuration)) h := by
  have hconf : Holds anyAnswer (fun h' _ => ToldTruly configuration h')
      (fun response h' => ToldTruly configuration h' ∧ ∀ a : Except FrameError Unit,
        ToldTruly configuration (h' ++ [⟨.writeResponse response, a⟩]) ∧
          (told (h' ++ [⟨.writeResponse response, a⟩])).length = 1)
      (serveQuery process (.configure configuration)) h := by
    change Holds _ _ _ (configure configuration false >>= _) h
    rw [holds_bind]
    refine (configure_commits hu).mono (fun h' _ ht => toldTruly_of_silent ht)
      fun outcome h' hc => ⟨toldTruly_of_silent hc.1, fun a => ?_⟩
    rw [told_append, hc.1, List.nil_append]
    refine ⟨fun success hs => ?_, ?_⟩
    · rw [told_append, hc.1, List.nil_append] at hs
      rw [committed_append, hc.2]
      cases outcome with
      | ok restart => cases List.mem_singleton.mp hs; rfl
      | error failure => cases failure <;> (cases List.mem_singleton.mp hs; rfl)
    · cases outcome with
      | ok restart => rfl
      | error failure => cases failure <;> rfl
  change Holds _ _ _ (serveQuery process (.configure configuration) >>= _) h
  rw [holds_bind]
  exact hconf.mono (fun _ _ ht => ht) fun response h' ht => ⟨ht.1, fun a _ => ht.2 a⟩

/-- The answer to a meta Configure tells what was committed. -/
theorem answerMeta_tells (hu : Untouched h) :
    TellsTruly configuration (do
      let outcome ← configure configuration true
      let written ← perform (.writeMetaResponse (metaResponse outcome))
      return .inr written) h := by
  rw [TellsTruly, holds_bind]
  refine (configure_commits hu).mono (fun h' _ ht => toldTruly_of_silent ht)
    fun outcome h' hc => ⟨toldTruly_of_silent hc.1, fun a _ => ⟨fun success hs => ?_, ?_⟩⟩
  · rw [told_append, hc.1, List.nil_append] at hs
    rw [committed_append, hc.2]
    cases outcome with
    | ok restart => cases restart <;> (cases List.mem_singleton.mp hs; rfl)
    | error failure => cases List.mem_singleton.mp hs; rfl
  · rw [told_append, hc.1]
    cases outcome with
    | ok restart => cases restart <;> rfl
    | error failure => rfl

end Configure

/-! ## 2. An ordinary Configure after the latch has closed -/

/-- A read of the record, where there is one, finds one record with the latch closed. -/
def ReadsClosed : NexusEvent → Prop
  | ⟨.matchRecords, .ok records⟩ =>
      ∃ current, records = [current] ∧ current.metaConfigured = true
  | _ => True

/-- The failure of an ordinary Configure that found the latch closed, or could not read. -/
def ClosedFailure (failure : ConfigureFailure) (h : List NexusEvent) : Prop :=
  failure = .alreadyConfigured ∨
    ∃ error, ⟨.matchRecords, .error error⟩ ∈ h ∧ failure = .store (.engine error)

/-- Nothing is committed, and every frame is the refusal of such a failure. -/
def RefusedClosed (h : List NexusEvent) : Prop :=
  committed h = [] ∧ ∀ response ∈ written h, ∃ failure, ClosedFailure failure h ∧
    response = configureResponse (.error failure)

/-- Nothing is committed and nothing written. -/
def Unanswered (h : List NexusEvent) : Prop := committed h = [] ∧ written h = []

theorem Unanswered.snoc {h : List NexusEvent} (hu : Unanswered h) (e : NexusEvent)
    (hc : committed? e = none) (hw : written? e = none) : Unanswered (h ++ [e]) := by
  refine ⟨?_, ?_⟩
  · simp [committed, hc, ← hu.1]
  · simp [written, hw, ← hu.2]

theorem Unanswered.refused {h : List NexusEvent} (hu : Unanswered h) : RefusedClosed h := by
  refine ⟨hu.1, fun response hr => ?_⟩
  rw [hu.2] at hr
  cases hr

/-- Where an ordinary Configure ends that found the latch closed. -/
def EndsClosed (outcome : Except ConfigureFailure Bool) (h : List NexusEvent) : Prop :=
  Unanswered h ∧ ∃ failure, ClosedFailure failure h ∧ outcome = .error failure

section Closed

variable {configuration : Configuration} {h : List NexusEvent}

theorem configureStore_closed (hu : Unanswered h) :
    Holds (fun _ e => ReadsClosed e) (fun h' _ => Unanswered h') EndsClosed
      (configureStore configuration false) h := by
  unfold configureStore
  rw [holds_bind, holds_standard]
  refine ⟨hu, fun records hread => ?_⟩
  have hu' : Unanswered (h ++ [⟨.matchRecords, records⟩]) := hu.snoc _ rfl rfl
  cases records with
  | error error =>
      refine ⟨hu', .store (.engine error), Or.inr ⟨error, ?_, rfl⟩, rfl⟩
      exact List.mem_append_right _ (List.mem_singleton_self _)
  | ok records =>
      obtain ⟨current, rfl, hclosed⟩ := hread
      change Holds _ _ _ (if !false && current.metaConfigured then _ else _) _
      have hlatch : (!false && current.metaConfigured) = true := by rw [hclosed]; rfl
      rw [if_pos hlatch]
      exact ⟨hu', .alreadyConfigured, Or.inl rfl, rfl⟩

theorem ClosedFailure.mono {failure : ConfigureFailure} (hf : ClosedFailure failure h)
    (es : List NexusEvent) : ClosedFailure failure (h ++ es) := by
  rcases hf with hf | ⟨error, hin, hf⟩
  · exact Or.inl hf
  · exact Or.inr ⟨error, List.mem_append_left _ hin, hf⟩

theorem configure_closed (hu : Unanswered h) :
    Holds (fun _ e => ReadsClosed e) (fun h' _ => Unanswered h') EndsClosed
      (configure configuration false) h := by
  unfold configure
  rw [holds_withStore]
  refine ⟨hu, fun _ => ?_⟩
  have hu' := hu.snoc (⟨.lockStore, ()⟩ : NexusEvent) rfl rfl
  refine (configureStore_closed hu').mono (fun _ _ hG => hG) fun outcome h' hend => ?_
  obtain ⟨hq, failure, hf, ho⟩ := hend
  exact ⟨hq, fun _ => ⟨hq.snoc _ rfl rfl, failure, hf.mono _, ho⟩⟩

/-- An ordinary Configure that reads a closed latch is refused. -/
theorem configure_refused [FlowDebug] (process : Process) (hu : Unanswered h) :
    Holds (fun _ e => ReadsClosed e) (fun h' _ => RefusedClosed h')
      (Sum.elim (fun _ _ => False) fun _ h' => RefusedClosed h' ∧ (written h').length = 1)
      (answerQuery process (.configure configuration)) h := by
  change Holds _ _ _ ((configure configuration false >>= _) >>= _) h
  rw [holds_bind, holds_bind]
  refine (configure_closed hu).mono (fun h' _ hq => hq.refused) fun outcome h' hend => ?_
  obtain ⟨hq, failure, hf, rfl⟩ := hend
  refine ⟨hq.refused, fun a _ => ⟨⟨?_, fun response hr => ?_⟩, by rw [written_append, hq.2]; rfl⟩⟩
  · rw [committed_append, hq.1]
    rfl
  · rw [written_append, hq.2, List.nil_append] at hr
    exact ⟨failure, hf.mono _, List.mem_singleton.mp hr⟩

end Closed

/-! ## 3. Every connection of every pool -/

section Run

variable [FlowDebug] {c c₁ c₂ : NexusPool} {t : Nat}
  {th : Thread NexusOp NexusAns ForwardLoop (Except FrameError Unit)}

/-- The program of a connection that the owner asked a Configure, from there on. -/
theorem meta_trace {s₀ : NexusShared} (hr : Reach nexusSystem (.idle s₀) c)
    (ht : c.threads t = some th) {configuration : Configuration} {rest : List NexusEvent}
    (hh : th.hist = ⟨.readMetaQuery, .ok (.configure configuration)⟩ :: rest) :
    Trace forwardRound (do
      let outcome ← configure configuration true
      let written ← perform (.writeMetaResponse (metaResponse outcome))
      return .inr written) rest th.rest := by
  have hp := hr.started (P := fun p => p = answerOrdinary ∨ p = answerMeta)
    (fun _ _ _ _ => nexusStart_program) t th ht
  have htr := hr.trace t th ht
  rw [hh] at htr
  rcases hp with hp | hp
  · have h1 : Trace forwardRound (.ask .readQuery _) _ _ := hp ▸ htr
    obtain ⟨_, he, _⟩ := h1.ask_inv
    cases he
  · have h1 : Trace forwardRound (.ask .readMetaQuery _) _ _ := hp ▸ htr
    obtain ⟨_, he, h2⟩ := h1.ask_inv
    cases he
    exact h2

/-- The program of a connection that was asked a Configure, from there on. -/
theorem asksConfigure_trace {s₀ : NexusShared} (hr : Reach nexusSystem (.idle s₀) c)
    (ht : c.threads t = some th) {socket : Socket} {configuration : Configuration}
    (ha : asksConfigure th.hist = some (socket, configuration)) :
    ∃ before rest p, th.hist = before ++ rest ∧ Untouched before ∧
      TellsTruly configuration p before ∧ Trace forwardRound p rest th.rest := by
  unfold asksConfigure at ha
  split at ha
  · rename_i configuration process rest hh
    cases ha
    have hasked : asked th.hist = some (process, .configure configuration) := by rw [hh]; rfl
    obtain ⟨rest, he, htr⟩ := connection_trace hr ht hasked
    exact ⟨_, rest, _, he, ⟨rfl, rfl⟩, answerQuery_tells process ⟨rfl, rfl⟩, htr⟩
  · rename_i configuration rest hh
    cases ha
    exact ⟨[⟨.readMetaQuery, .ok (.configure configuration)⟩], rest, _, hh, ⟨rfl, rfl⟩,
      answerMeta_tells ⟨rfl, rfl⟩, meta_trace hr ht hh⟩
  · cases ha

/-- A connection is told success exactly when it has committed its request, and at its end it has
    been told once. -/
theorem configure_told {s₀ : NexusShared} (hr : Reach nexusSystem (.idle s₀) c)
    (ht : c.threads t = some th) {socket : Socket} {configuration : Configuration}
    (ha : asksConfigure th.hist = some (socket, configuration)) :
    ToldTruly configuration th.hist ∧
      ∀ result, th.rest = .ret (.inr result) → (told th.hist).length = 1 := by
  obtain ⟨before, rest, p, hh, _, hp, htr⟩ := asksConfigure_trace hr ht ha
  have hend := htr.holds (J := fun _ _ => False) (fun _ _ hf => hf.elim) hp (along_any _ _)
  rw [hh]
  refine ⟨Holds.now (hend.mono (fun _ _ hG => hG) fun a h' hq => ?_), fun result hres => ?_⟩
  · cases a with
    | inl l => exact hq.elim
    | inr r => exact hq.1
  · rw [hres] at hend
    exact hend.2

/-- After a Configure of the owner the store holds one record, with the latch closed. -/
theorem rows_closed {s : NexusShared} (hr : Reach nexusSystem (.idle .absent) c)
    (hlater : Later s c.shared) (hclosed : ∃ entry ∈ s.configured, entry.1 = .owner) :
    ∃ current, c.shared.rows = [current] ∧ current.metaConfigured = true := by
  have hk := reach_keeps hr
  obtain ⟨entry, hin, howner⟩ := hclosed
  have hin' := hlater.1.subset hin
  cases hs : c.shared.seeded with
  | none =>
      rw [(hk.unseeded hs).1] at hin'
      cases hin'
  | some seed =>
      exact ⟨_, hk.rows hs, (intended_closed_iff seed _).mpr ⟨entry, hin', howner⟩⟩

/-- Once the latch is closed, whatever a connection reads of the record says so. -/
theorem reads_closed (h₁ : Reach nexusSystem (.idle .absent) c₁) (h₂ : Reach nexusSystem c₁ c₂)
    (hclosed : ∃ entry ∈ c₁.shared.configured, entry.1 = .owner) : ∀ t th,
    c₂.threads t = some th →
    (∀ th₁, c₁.threads t = some th₁ → ∀ e ∈ th₁.hist, e.op ≠ .matchRecords) →
    ∀ e ∈ th.hist, ReadsClosed e := by
  have hfree : ∀ e : NexusEvent, e.op ≠ .matchRecords → ReadsClosed e := by
    intro e hne
    obtain ⟨o, a⟩ := e
    cases o with
    | matchRecords => exact absurd rfl hne
    | _ => trivial
  induction h₂ with
  | refl => exact fun t th ht hfresh e he => hfree e (hfresh th ht e he)
  | tail hr hs ih =>
      rename_i c c'
      intro t th' ht' hfresh e he
      rcases hs.thread_cases ht' with ⟨th, ht, _, hhist⟩ | ⟨th, ev, ht, hl, _, hhist, hsem⟩ |
        ⟨_, hhist, _⟩
      · rw [hhist] at he
        exact ih t th ht hfresh e he
      · rw [hhist] at he
        rcases List.mem_append.mp he with he | he
        · exact ih t th ht hfresh e he
        · -- the read of this step finds the intended record, whose latch is closed
          cases List.mem_singleton.mp he
          obtain ⟨o, a⟩ := e
          cases o with
          | matchRecords =>
              rcases hsem.2 with rfl | ⟨error, rfl⟩
              · exact rows_closed (h₁.trans hr) (reach_later hr) hclosed
              · trivial
          | _ => trivial
      · rw [hhist] at he
        cases he

/-- An ordinary Configure that has not read the record before the latch closed is refused. -/
theorem configure_closed_refused (h₁ : Reach nexusSystem (.idle .absent) c₁)
    (h₂ : Reach nexusSystem c₁ c₂) (hclosed : ∃ entry ∈ c₁.shared.configured, entry.1 = .owner)
    (ht : c₂.threads t = some th)
    (hfresh : ∀ th₁, c₁.threads t = some th₁ → ∀ e ∈ th₁.hist, e.op ≠ .matchRecords)
    {configuration : Configuration}
    (ha : asksConfigure th.hist = some (.ordinary, configuration)) : RefusedClosed th.hist ∧
      ∀ result, th.rest = .ret (.inr result) → (written th.hist).length = 1 := by
  have hreads := reads_closed h₁ h₂ hclosed t th ht hfresh
  unfold asksConfigure at ha
  split at ha
  · rename_i configuration process rest hh
    cases ha
    have hasked : asked th.hist = some (process, .configure configuration) := by rw [hh]; rfl
    obtain ⟨rest, he, htr⟩ := connection_trace (h₁.trans h₂) ht hasked
    rw [he] at hreads ⊢
    have hadm : Along (fun _ e => ReadsClosed e) (askedBy process (.configure configuration))
        rest := along_of_forall fun e hin => hreads e (List.mem_append_right _ hin)
    have hunanswered : Unanswered (askedBy process (.configure configuration)) := ⟨rfl, rfl⟩
    have hp := @configure_refused configuration _ _ process hunanswered
    have hend := htr.holds (J := fun _ _ => False) (fun _ _ hf => hf.elim) hp hadm
    refine ⟨Holds.now (hend.mono (fun _ _ hG => hG) fun a h' hq => ?_), fun result hres => ?_⟩
    · cases a with
      | inl l => exact hq.elim
      | inr r => exact hq.1
    · rw [hres] at hend
      exact hend.2
  · cases ha
  · cases ha

/-- An ordinary connection whose peer cannot be read ends there. -/
theorem unread_peer {s₀ : NexusShared} (hr : Reach nexusSystem (.idle s₀) c)
    (ht : c.threads t = some th) {query : SignalMessage.Query} {rest : List NexusEvent}
    (hh : th.hist = ⟨.readQuery, .ok query⟩ :: ⟨.peerProcess, none⟩ :: rest) :
    Unanswered th.hist ∧ ended th.rest = true := by
  have hp := hr.started (P := fun p => p = answerOrdinary ∨ p = answerMeta)
    (fun _ _ _ _ => nexusStart_program) t th ht
  have htr := hr.trace t th ht
  rw [hh] at htr ⊢
  rcases hp with hp | hp
  · have h1 : Trace forwardRound (.ask .readQuery _) _ _ := hp ▸ htr
    obtain ⟨_, he, h2⟩ := h1.ask_inv
    cases he
    have h2' : Trace forwardRound (.ask .peerProcess _) _ _ := h2
    obtain ⟨_, he, h3⟩ := h2'.ask_inv
    cases he
    have h3' : Trace forwardRound
        (.ret (.inr (.error (.io "cannot read the peer process identity")))) rest th.rest := h3
    obtain ⟨rfl, hend⟩ := h3'.ret_inv
    exact ⟨⟨rfl, rfl⟩, by rw [hend]; rfl⟩
  · have h1 : Trace forwardRound (.ask .readMetaQuery _) _ _ := hp ▸ htr
    obtain ⟨_, he, _⟩ := h1.ask_inv
    cases he

/-- The succeeded requests of a state are what its connections have committed. -/
def Recorded (c : NexusPool) : Prop :=
  ∀ socket configuration, (socket, configuration) ∈ c.shared.configured ↔
    ∃ t th, c.threads t = some th ∧ c.shared.socketOf t = some socket ∧
      configuration ∈ committed th.hist

omit [FlowDebug] in
/-- A commit is recorded with the socket of its connection. -/
theorem nexusSem_committed {s s' : NexusShared} {e : NexusEvent} {socket : Socket}
    {configuration : Configuration} (hs : nexusSem s t e s') (hsock : s.socketOf t = some socket)
    (hc : committed? e = some configuration) : (socket, configuration) ∈ s'.configured := by
  obtain ⟨o, a⟩ := e
  cases o with
  | mutateKeyed standard =>
      rcases hs with ⟨rfl, rfl⟩ | ⟨⟨error, rfl⟩, _⟩
      · cases hc
        refine List.mem_append_right _ (List.mem_map.mpr ⟨socket, ?_, rfl⟩)
        exact Option.mem_toList.mpr hsock
      · cases hc
  | _ => cases hc

/-- An entry of the record after a step was there before, or is the commit of the step. -/
theorem step_recorded {c' : NexusPool} (hs : Step nexusSystem c c')
    {entry : Socket × Configuration} (he : entry ∈ c'.shared.configured) :
    entry ∈ c.shared.configured ∨ ∃ t th, c'.threads t = some th ∧
      c'.shared.socketOf t = some entry.1 ∧ entry.2 ∈ committed th.hist := by
  cases hs with
  | act t th o k a s' ht hl hrest hs =>
      rw [Pool.put_shared] at he ⊢
      cases o with
      | lockStore => rw [hs.2] at he; exact Or.inl he
      | matchRecords => rw [hs.1] at he; exact Or.inl he
      | mutateKeyed standard =>
          rcases hs with ⟨rfl, rfl⟩ | ⟨_, rfl⟩
          · rcases List.mem_append.mp he with he | he
            · exact Or.inl he
            · obtain ⟨socket, hsock, rfl⟩ := List.mem_map.mp he
              refine Or.inr ⟨t, _, Pool.put_self _ _ _ _, Option.mem_toList.mp hsock, ?_⟩
              rw [committed_append]
              exact List.mem_append_right _ (List.mem_singleton_self _)
          · exact Or.inl he
      | _ => cases hs; exact Or.inl he
  | again t th l ht hl hrest => exact Or.inl he
  | start t p s' ht hs =>
      rcases hs.2 with ⟨_, rfl⟩ | ⟨_, rfl⟩
      · exact Or.inl he
      · exact Or.inl he
  | halt s' hs =>
      cases hs with
      | kill opening => exact Or.inl he
      | «open» answers path seed hstop =>
          refine Or.inl ?_
          cases ho : openStore answers path ⟨seed, false⟩ c.shared.file with
          | mk file result =>
              cases result with
              | error error =>
                  rw [opened_error ho] at he
                  exact he
              | ok _ =>
                  obtain ⟨bound, hopened⟩ := opened_ok ho
                  rw [hopened] at he
                  exact he

theorem reach_recorded (hr : Reach nexusSystem (.idle .absent) c) : Recorded c := by
  refine Reach.invariant (P := fun c : NexusPool => Recorded c) ?_ ?_ hr
  · intro socket configuration
    refine iff_of_false (fun he => by cases he) fun ⟨t, th, ht, _⟩ => by cases ht
  · intro c c' hrc hrc' hc hs socket configuration
    have hlater := (reach_later (Relation.ReflTransGen.single hs)).1
    constructor
    · intro he
      rcases step_recorded hs he with he | hnew
      · obtain ⟨t, th, ht, hsock, hin⟩ := (hc socket configuration).mp he
        obtain ⟨th', ht', hgrows⟩ := hs.thread_grows ht
        exact ⟨t, th', ht', (step_socketOf hs ht).trans hsock, (hgrows.filterMap _).subset hin⟩
      · exact hnew
    · intro hcommit
      obtain ⟨t, th', ht', hsock, hin⟩ := hcommit
      have hold : ∀ th, c.threads t = some th → configuration ∈ committed th.hist →
          (socket, configuration) ∈ c'.shared.configured := by
        intro th ht hin
        have hsock' := (step_socketOf hs ht).symm.trans hsock
        exact hlater.subset ((hc socket configuration).mpr ⟨t, th, ht, hsock', hin⟩)
      rcases hs.thread_cases ht' with ⟨th, ht, _, hhist⟩ | ⟨th, e, ht, hl, _, hhist, hsem⟩ |
        ⟨_, hhist, _⟩
      · rw [hhist] at hin
        exact hold th ht hin
      · rw [hhist, committed_append] at hin
        rcases List.mem_append.mp hin with hin | hin
        · exact hold th ht hin
        · obtain ⟨ev, hev, hcommit⟩ := List.mem_filterMap.mp hin
          cases List.mem_singleton.mp hev
          exact nexusSem_committed hsem ((step_socketOf hs ht).symm.trans hsock) hcommit
      · rw [hhist] at hin
        cases hin

/-- What any interleaving of Configure requests, failures, kills and restarts leaves, from a
    reachable pool to a later one. -/
structure ConfigurationKept (c₁ c₂ : NexusPool) : Prop where
  /-- A Nexus that runs has been seeded, and the first seed stays. -/
  seeded : c₂.shared.running = true → ∃ seed, c₂.shared.seeded = some seed
  firstSeed : ∀ seed, c₁.shared.seeded = some seed → c₂.shared.seeded = some seed
  /-- The succeeded requests only grow, they are the commits of the connections, and no ordinary
      one follows one of the owner. -/
  grows : c₁.shared.configured <+: c₂.shared.configured
  recorded : Recorded c₂
  ownerLast : OwnerLast c₂.shared.configured
  /-- From the first seed on the store holds exactly one record, the intended one. -/
  record : ∀ seed, c₂.shared.seeded = some seed →
    c₂.shared.rows = [intended seed c₂.shared.configured]
  /-- A Configure is told success exactly with its commit, and once by its end. -/
  told : ∀ t th socket configuration, c₂.threads t = some th →
    asksConfigure th.hist = some (socket, configuration) → ToldTruly configuration th.hist ∧
      ∀ result, th.rest = .ret (.inr result) → (told th.hist).length = 1
  /-- After a Configure of the owner the latch is closed, -/
  closed : (∃ entry ∈ c₁.shared.configured, entry.1 = .owner) →
    ∃ current, c₂.shared.rows = [current] ∧ current.metaConfigured = true
  /-- and an ordinary Configure that comes to its read only now is refused and commits nothing. -/
  refused : (∃ entry ∈ c₁.shared.configured, entry.1 = .owner) →
    ∀ t th configuration, c₂.threads t = some th →
    asksConfigure th.hist = some (.ordinary, configuration) →
    (∀ th₁, c₁.threads t = some th₁ → ∀ e ∈ th₁.hist, e.op ≠ .matchRecords) →
    RefusedClosed th.hist ∧ ∀ result, th.rest = .ret (.inr result) → (written th.hist).length = 1
  /-- One whose peer cannot be read is answered nothing, commits nothing and ends there. -/
  unread : ∀ t th configuration rest, c₂.threads t = some th →
    th.hist = ⟨.readQuery, .ok (.configure configuration)⟩ :: ⟨.peerProcess, none⟩ :: rest →
    Unanswered th.hist ∧ ended th.rest = true

theorem configuration_kept (h₁ : Reach nexusSystem (.idle .absent) c₁)
    (h₂ : Reach nexusSystem c₁ c₂) : ConfigurationKept c₁ c₂ := by
  have hr := h₁.trans h₂
  have hk := reach_keeps hr
  have hlater := reach_later h₂
  constructor
  · exact fun hrun => Option.isSome_iff_exists.mp (hk.running hrun)
  · exact hlater.2
  · exact hlater.1
  · exact reach_recorded hr
  · exact hk.ownerLast
  · exact fun seed hs => hk.rows hs
  · exact fun t th socket configuration ht ha => configure_told hr ht ha
  · exact fun hclosed => rows_closed hr hlater hclosed
  · exact fun hclosed t th configuration ht ha hfresh =>
      configure_closed_refused h₁ h₂ hclosed ht hfresh ha
  · exact fun t th configuration rest ht hh => unread_peer hr ht hh

end Run

/-! ## 4. An owner's Configure, and an ordinary one after it -/

/-- An open that meets no failure. -/
def smoothOpen : OpenAnswers :=
  ⟨⟨.ok (), .ok (), .ok (), .ok (), .ok (), .ok (), .ok (), .ok (), fun _ => true⟩, .ok (), .ok (),
    .ok (), .ok ()⟩

/-- A first open whose seeding fails. -/
def unseededOpen : OpenAnswers := { smoothOpen with assertKeyed := .error "No space left on device" }

/-- A Nexus after its first open with these answers. -/
def firstOpen (answers : OpenAnswers) : NexusShared :=
  NexusShared.absent.opened answers "/var/lib/message.sema" sampleConfiguration

def ownerConfiguration : Configuration :=
  ⟨"/run/message.sock", "/run/message-meta.sock", "/run/other-flow.sock"⟩

def ownerScript : NexusScript :=
  { deliveredScript with metaQuery := some (.configure ownerConfiguration) }

def clientScript : NexusScript := { deliveredScript with query := .configure sampleConfiguration }

/-- The client's Configure where the store cannot be read. -/
def unreadScript : NexusScript := { clientScript with storeError := some "Input/output error" }

/-- The client's Configure where `/proc` does not tell who the client is. -/
def peerlessScript : NexusScript := { clientScript with peerKnown := false }

/-- The owner has configured the Nexus. -/
def ownedPool : NexusPool :=
  @NexusScript.join unitDebug ownerScript 20 (.idle (firstOpen smoothOpen)) 0

/-- After it a client has asked the Nexus to configure itself, by this script. -/
def askedPool (script : NexusScript) : NexusPool :=
  @NexusScript.join unitDebug script 20 ownedPool 1

theorem firstOpen_reach (answers : OpenAnswers) :
    Reach (@nexusSystem unitDebug) (.idle .absent) (.idle (firstOpen answers)) :=
  .single (.halt (.idle NexusShared.absent) _ (NexusHalt.open NexusShared.absent answers _ _ rfl))

theorem ownedPool_reach : Reach (@nexusSystem unitDebug) (.idle .absent) ownedPool :=
  @NexusScript.join_reach unitDebug ownerScript 20 _ _ 0 (firstOpen_reach smoothOpen) rfl rfl

theorem askedPool_reach (script : NexusScript) :
    Reach (@nexusSystem unitDebug) ownedPool (askedPool script) :=
  @NexusScript.join_reach unitDebug script 20 _ _ 1 .refl rfl rfl

theorem configuration_kept_owned :
    ConfigurationKept ownedPool (askedPool clientScript) ∧
    (askedPool clientScript).shared.rows = [⟨ownerConfiguration, true⟩] :=
  ⟨@configuration_kept unitDebug _ _ ownedPool_reach (askedPool_reach clientScript), rfl⟩

/-- After a Configure of the owner, an ordinary one is told of the store where that cannot be read,
    and nothing where its peer cannot be read; and a first open that fails leaves no record. -/
theorem configure_unread :
    Reach (@nexusSystem unitDebug) (.idle .absent) ownedPool ∧
    Reach (@nexusSystem unitDebug) ownedPool (askedPool unreadScript) ∧
    ownedPool.shared.configured = [(.owner, ownerConfiguration)] ∧ ownedPool.threads 1 = none ∧
    (∃ th, (askedPool unreadScript).threads 1 = some th ∧
      asksConfigure th.hist = some (.ordinary, sampleConfiguration) ∧
      written th.hist = [.refused (.store "sema-engine: Input/output error")] ∧
      ¬ ∀ response ∈ written th.hist, response = .refused .alreadyConfigured) ∧
    Reach (@nexusSystem unitDebug) ownedPool (askedPool peerlessScript) ∧
    (∃ th rest, (askedPool peerlessScript).threads 1 = some th ∧
      th.hist = ⟨.readQuery, .ok (.configure sampleConfiguration)⟩ :: rest ∧
      ended th.rest = true ∧ written th.hist = []) ∧
    Reach (@nexusSystem unitDebug) (.idle .absent) (.idle (firstOpen unseededOpen)) ∧
    (firstOpen unseededOpen).rows = [] := by
  refine ⟨ownedPool_reach, askedPool_reach unreadScript, rfl, rfl, ?_,
    askedPool_reach peerlessScript,
    ⟨_, _, @NexusScript.join_thread unitDebug peerlessScript 20 ownedPool 1, rfl, rfl, rfl⟩,
    firstOpen_reach unseededOpen, rfl⟩
  refine ⟨_, @NexusScript.join_thread unitDebug unreadScript 20 ownedPool 1, rfl, rfl, ?_⟩
  intro hall
  have hfirst := hall (.refused (.store "sema-engine: Input/output error")) (List.mem_singleton_self _)
  cases hfirst

end MessageNexus
