/-
  File:      MessageNexus/Nexus/Restart.lean
  Subject:   WHAT THE OWNER IS TOLD OF A RESTART: a meta Configure is answered by comparing it with
             the configuration that is stored, not with the one that the Nexus has bound.

  * `found`, `metaWritten` -- the record a Configure read, and what the owner was answered;
  * `RestartTold` -- the answer tells whether the configuration differs from the bound one, and is
    Configured only while the stored sockets are the bound ones;
  * `configure_compares` -- a Configure compares with the record it read;
  * `lastOwner`, `rows_owner` -- the last Configure of the owner that succeeded, which is stored;
  * `restart_told_iff` -- over every interleaving, the answer is right exactly where the record that
    was found and the bound configuration compare alike with the requested one, and no other owner's
    Configure has moved the sockets before it is written.
-/
import MessageNexus.Nexus.Configure

namespace MessageNexus

open Interact

/-! ## 1. The answers -/

def found? : NexusEvent → Option Standard
  | ⟨.matchRecords, .ok [current]⟩ => some current
  | _ => none

/-- The records a connection has read. -/
def found (h : List NexusEvent) : List Standard := h.filterMap found?

def metaWritten? : NexusEvent → Option MetaSignalMessage.Response
  | ⟨.writeMetaResponse response, _⟩ => some response
  | _ => none

/-- What a connection of the owner was answered. -/
def metaWritten (h : List NexusEvent) : List MetaSignalMessage.Response := h.filterMap metaWritten?

@[simp] theorem found_append (h es : List NexusEvent) : found (h ++ es) = found h ++ found es :=
  List.filterMap_append

@[simp] theorem metaWritten_append (h es : List NexusEvent) :
    metaWritten (h ++ es) = metaWritten h ++ metaWritten es := List.filterMap_append

def Configuration.SameSockets (a b : Configuration) : Prop :=
  a.ordinary = b.ordinary ∧ a.metaSocket = b.metaSocket

/-- A successful Configure is told that a restart is required exactly if it differs from the bound
    configuration; and it is told as configured only while the sockets of the stored rows are the
    bound ones. -/
def RestartTold (bound configuration : Configuration) (rows : List Standard)
    (response : MetaSignalMessage.Response) : Prop :=
  (response = .restartRequired ↔ configuration ≠ bound) ∧
  (response = .configured → ∀ row ∈ rows, row.configuration.SameSockets bound)

/-- The last Configure of the owner among the succeeded ones. -/
def lastOwner (log : List (Socket × Configuration)) : Option Configuration :=
  (ownerEntries log).getLast?.map (·.2)

/-- Nothing is read and nothing answered. -/
def Unread (h : List NexusEvent) : Prop := found h = [] ∧ metaWritten h = []

/-- Every success that was answered compares the requested configuration with the one record that
    was read. -/
def ComparesFound (configuration : Configuration) (h : List NexusEvent) : Prop :=
  ∀ response ∈ metaWritten h, response ≠ .refused .storeRefused →
    ∃ current, found h = [current] ∧
      response = if current.configuration ≠ configuration then .restartRequired else .configured

/-! ## 2. One Configure -/

/-- What a Configure that ends with this outcome has compared. -/
def Compared (configuration : Configuration) (outcome : Except ConfigureFailure Bool)
    (h : List NexusEvent) : Prop :=
  metaWritten h = [] ∧ ∀ restart, outcome = .ok restart →
    ∃ current, found h = [current] ∧ restart = (current.configuration != configuration)

section Configure

variable {configuration : Configuration} {isMeta : Bool} {h : List NexusEvent}

theorem Unread.snoc (hu : Unread h) (e : NexusEvent) (hf : found? e = none)
    (hw : metaWritten? e = none) : Unread (h ++ [e]) := by
  constructor
  · rw [found_append, hu.1]
    simp [found, hf]
  · rw [metaWritten_append, hu.2]
    simp [metaWritten, hw]

/-- One record is read, and the replacement decides between success and failure only. -/
theorem configureStore_compares (hu : Unread h) :
    Holds anyAnswer (fun h' _ => metaWritten h' = []) (Compared configuration)
      (configureStore configuration isMeta) h := by
  unfold configureStore
  rw [holds_bind, holds_standard]
  refine ⟨hu.2, fun records _ => ?_⟩
  have hquiet : metaWritten (h ++ [⟨.matchRecords, records⟩]) = [] := by
    rw [metaWritten_append, hu.2]
    rfl
  cases hrecord : (records.mapError StoreError.engine).bind theStandard with
  | error error => exact ⟨hquiet, fun _ he => (by cases he)⟩
  | ok current =>
      have hread : found (h ++ [⟨.matchRecords, records⟩]) = [current] := by
        rw [found_append, hu.1]
        cases records with
        | error e => cases hrecord
        | ok records =>
            change theStandard records = .ok current at hrecord
            unfold theStandard at hrecord
            split at hrecord
            · cases hrecord
              rfl
            · cases hrecord
      change Holds _ _ _ (if !isMeta && current.metaConfigured then _ else _) _
      by_cases hlatch : (!isMeta && current.metaConfigured) = true
      · rw [if_pos hlatch]
        exact ⟨hquiet, fun _ he => (by cases he)⟩
      · rw [if_neg hlatch, holds_bind, holds_replaceStandard]
        refine ⟨hquiet, fun outcome _ => ?_⟩
        have hquiet' : metaWritten (h ++ [⟨.matchRecords, records⟩] ++
            [⟨.mutateKeyed (current.changedConfiguration configuration isMeta), outcome⟩]) = [] := by
          rw [metaWritten_append, hquiet]
          rfl
        have hread' : found (h ++ [⟨.matchRecords, records⟩] ++
            [⟨.mutateKeyed (current.changedConfiguration configuration isMeta), outcome⟩]) =
              [current] := by
          rw [found_append, hread]
          rfl
        cases outcome with
        | error error => exact ⟨hquiet', fun _ he => (by cases he)⟩
        | ok _ => exact ⟨hquiet', fun _ he => ⟨current, hread', (Except.ok.inj he).symm⟩⟩

theorem configure_compares (hu : Unread h) :
    Holds anyAnswer (fun h' _ => metaWritten h' = []) (Compared configuration)
      (configure configuration isMeta) h := by
  unfold configure
  rw [holds_withStore]
  refine ⟨hu.2, fun _ => ?_⟩
  have hu' := hu.snoc (⟨.lockStore, ()⟩ : NexusEvent) rfl rfl
  refine (configureStore_compares hu').mono (fun _ _ hG => hG) fun outcome h' hc => ?_
  refine ⟨hc.1, fun _ => ⟨?_, fun restart he => ?_⟩⟩
  · rw [metaWritten_append, hc.1]
    rfl
  · obtain ⟨current, hread, hrestart⟩ := hc.2 restart he
    refine ⟨current, ?_, hrestart⟩
    rw [found_append, hread]
    rfl

/-- The answer to the owner compares with the record that was read. -/
theorem answerMeta_compares (hu : Unread h) :
    Holds anyAnswer (fun h' _ => ComparesFound configuration h')
      (Sum.elim (fun (_ : ForwardLoop) _ => False) fun (_ : Except FrameError Unit) h' =>
        ComparesFound configuration h') (do
      let outcome ← configure configuration true
      let written ← perform (.writeMetaResponse (metaResponse outcome))
      return .inr written) h := by
  have hquiet : ∀ h', metaWritten h' = [] → ComparesFound configuration h' := by
    intro h' hw response hin
    rw [hw] at hin
    cases hin
  rw [holds_bind]
  refine (configure_compares hu).mono (fun h' _ hw => hquiet h' hw) fun outcome h' hc => ?_
  refine ⟨hquiet h' hc.1, fun written _ response hin hok => ?_⟩
  rw [metaWritten_append, hc.1, List.nil_append] at hin
  have hresponse : response = metaResponse outcome := List.mem_singleton.mp hin
  rw [hresponse] at hok ⊢
  cases outcome with
  | error failure => exact absurd rfl hok
  | ok restart =>
      obtain ⟨current, hread, hrestart⟩ := hc.2 restart rfl
      refine ⟨current, ?_, ?_⟩
      · rw [found_append, hread]
        rfl
      · rw [hrestart]
        by_cases hsame : current.configuration = configuration
        · rw [if_neg (not_not_intro hsame), hsame]
          simp [metaResponse]
        · rw [if_pos hsame]
          have hne : (current.configuration != configuration) = true := bne_iff_ne.mpr hsame
          rw [hne]
          rfl

end Configure

/-! ## 3. Every connection of every pool -/

section Run

variable [FlowDebug] {c : NexusPool} {t : Nat} {configuration : Configuration}
  {th : Thread NexusOp NexusAns ForwardLoop (Except FrameError Unit)}

/-- A connection of the owner is answered by a comparison with the record it read. -/
theorem meta_compares {s₀ : NexusShared} (hr : Reach nexusSystem (.idle s₀) c)
    (ht : c.threads t = some th) (ha : asksConfigure th.hist = some (.owner, configuration)) :
    ComparesFound configuration th.hist := by
  unfold asksConfigure at ha
  split at ha
  · cases ha
  · rename_i configuration rest hh
    cases ha
    have hunread : Unread [⟨.readMetaQuery, .ok (.configure configuration)⟩] := ⟨rfl, rfl⟩
    have hend := (meta_trace hr ht hh).holds (J := fun _ _ => False) (fun _ _ hf => hf.elim)
      (answerMeta_compares hunread) (along_any _ _)
    rw [hh]
    refine Holds.now (hend.mono (fun _ _ hG => hG) fun a h' hq => ?_)
    cases a with
    | inl l => exact hq.elim
    | inr r => exact hq
  · cases ha

omit [FlowDebug] in
/-- An answer by comparison is right exactly where both configurations compare alike, and the stored
    sockets are the bound ones where these were asked for. -/
theorem restartTold_iff (bound current last : Configuration) :
    RestartTold bound configuration [⟨last, true⟩]
        (if current ≠ configuration then .restartRequired else .configured) ↔
      (current = configuration ↔ bound = configuration) ∧
        (bound = configuration → last.SameSockets bound) := by
  by_cases hsame : current = configuration
  · rw [if_neg (not_not_intro hsame)]
    constructor
    · intro htold
      refine ⟨⟨fun _ => ?_, fun _ => hsame⟩, fun _ => htold.2 rfl _ (List.mem_singleton_self _)⟩
      by_contra hne
      cases htold.1.mpr fun he => hne he.symm
    · rintro ⟨halike, hstored⟩
      have hbound := halike.mp hsame
      refine ⟨⟨fun he => (by cases he), fun hne => absurd hbound.symm hne⟩, fun _ row hin => ?_⟩
      rw [List.mem_singleton.mp hin]
      exact hstored hbound
  · rw [if_pos hsame]
    constructor
    · intro htold
      have hne : bound ≠ configuration := fun he => htold.1.mp rfl he.symm
      exact ⟨iff_of_false hsame hne, fun he => absurd he hne⟩
    · rintro ⟨halike, _⟩
      exact ⟨⟨fun _ he => hsame (halike.mpr he.symm), fun _ => rfl⟩, fun he => (by cases he)⟩

omit [FlowDebug] in
theorem asksConfigure_append {h : List NexusEvent} {asked : Socket × Configuration}
    (ha : asksConfigure h = some asked) (es : List NexusEvent) :
    asksConfigure (h ++ es) = some asked := by
  unfold asksConfigure at ha
  split at ha
  · cases ha
    rfl
  · cases ha
    rfl
  · cases ha

/-- A connection that was asked on the owner's socket was accepted there. -/
theorem owner_socket {s₀ : NexusShared} (hr : Reach nexusSystem (.idle s₀) c)
    (ht : c.threads t = some th) (ha : asksConfigure th.hist = some (.owner, configuration)) :
    c.shared.socketOf t = some .owner := by
  obtain ⟨socket, hsock, hstart⟩ := socket_handler hr t th ht
  cases socket with
  | owner => exact hsock
  | ordinary =>
      unfold asksConfigure at ha
      split at ha
      · cases ha
      · rename_i rest hh
        have htr := hr.trace t th ht
        rw [hh, hstart] at htr
        have h1 : Trace forwardRound (.ask .readQuery _) _ _ := htr
        obtain ⟨_, he, _⟩ := h1.ask_inv
        cases he
      · cases ha

/-- Where a Configure of the owner has succeeded, the store holds the last one. -/
theorem rows_owner (hr : Reach nexusSystem (.idle .absent) c)
    (hin : (.owner, configuration) ∈ c.shared.configured) :
    ∃ last, lastOwner c.shared.configured = some last ∧ c.shared.rows = [⟨last, true⟩] := by
  have hk := reach_keeps hr
  cases hs : c.shared.seeded with
  | none =>
      rw [(hk.unseeded hs).1] at hin
      cases hin
  | some seed =>
      have howner : (.owner, configuration) ∈ ownerEntries c.shared.configured :=
        List.mem_filter.mpr ⟨hin, rfl⟩
      cases hlast : (ownerEntries c.shared.configured).getLast? with
      | none =>
          rw [List.getLast?_eq_none_iff.mp hlast] at howner
          cases howner
      | some entry =>
          refine ⟨entry.2, by rw [lastOwner, hlast]; rfl, ?_⟩
          rw [hk.rows hs, intended, hlast]

omit [FlowDebug] in
/-- A success that was answered was told. -/
theorem told_success {h : List NexusEvent} {response : MetaSignalMessage.Response}
    {outcome : Except FrameError Unit} (hok : response ≠ .refused .storeRefused) :
    true ∈ told (h ++ [⟨.writeMetaResponse response, outcome⟩]) := by
  rw [told_append]
  refine List.mem_append_right _ ?_
  cases response with
  | configured => exact List.mem_singleton_self true
  | restartRequired => exact List.mem_singleton_self true
  | refused refusal =>
      cases refusal
      exact absurd rfl hok

/-- Over every interleaving of Configure requests, failures, kills and restarts: the step that
    answers a successful Configure of the owner tells rightly whether a restart is required, and is
    no Configured while other sockets are stored, exactly if the configuration that it found stored
    equals the requested one just when the bound one does, and the last owner's Configure so far has
    the bound sockets where the bound configuration was requested. -/
theorem restart_told_iff {c' : NexusPool} (hr : Reach nexusSystem (.idle .absent) c)
    (hs : Step nexusSystem c c') (ht : c.threads t = some th)
    (ha : asksConfigure th.hist = some (.owner, configuration))
    {th' : Thread NexusOp NexusAns ForwardLoop (Except FrameError Unit)}
    (ht' : c'.threads t = some th') {response : MetaSignalMessage.Response}
    {outcome : Except FrameError Unit}
    (hanswer : th'.hist = th.hist ++ [⟨.writeMetaResponse response, outcome⟩])
    (hok : response ≠ .refused .storeRefused) :
    ∃ current last, found th.hist = [current] ∧ lastOwner c.shared.configured = some last ∧
      ∀ bound, c.shared.bound = some bound →
        (RestartTold bound configuration c.shared.rows response ↔
          (current.configuration = configuration ↔ bound = configuration) ∧
            (bound = configuration → last.SameSockets bound)) := by
  have hr' := hr.tail hs
  have ha' : asksConfigure th'.hist = some (.owner, configuration) :=
    hanswer ▸ asksConfigure_append ha _
  -- the write changes nothing of the shared state
  have hshared : c'.shared = c.shared := by
    rcases hs.thread_cases ht' with ⟨th₀, ht₀, _, hhist⟩ | ⟨th₀, e, ht₀, _, _, hhist, hsem⟩ |
      ⟨_, hhist, _⟩
    · cases ht.symm.trans ht₀
      rw [hanswer] at hhist
      simp at hhist
    · cases ht.symm.trans ht₀
      rw [hanswer] at hhist
      obtain ⟨rfl, _⟩ := List.cons.inj (List.append_cancel_left hhist)
      exact hsem
    · rw [hanswer] at hhist
      simp at hhist
  obtain ⟨current, hfound, hresponse⟩ := meta_compares hr' ht' ha' response
    (by rw [hanswer, metaWritten_append]; exact List.mem_append_right _ (List.mem_singleton_self _))
    hok
  have hread : found th.hist = [current] := by
    rw [hanswer, found_append] at hfound
    exact (List.append_nil _).symm.trans hfound
  -- it was stored, and so is the last one of the owner
  have hcommitted := (configure_told hr' ht' ha').1 true (hanswer ▸ told_success hok)
  have hin : (.owner, configuration) ∈ c.shared.configured := by
    rw [← hshared]
    refine (reach_recorded hr' .owner configuration).mpr ⟨t, th', ht', owner_socket hr' ht' ha', ?_⟩
    rw [hcommitted, if_pos rfl]
    exact List.mem_singleton_self _
  obtain ⟨last, hlast, hrows⟩ := rows_owner hr hin
  refine ⟨current, last, hread, hlast, fun bound _ => ?_⟩
  rw [hresponse, hrows]
  exact restartTold_iff bound current.configuration last

end Run

/-! ## 4. The same Configure twice -/

/-- The sockets moved. -/
def movedConfiguration : Configuration :=
  ⟨"/run/moved.sock", "/run/moved-meta.sock", "/run/flow.sock"⟩

def movedScript : NexusScript :=
  { deliveredScript with metaQuery := some (.configure movedConfiguration) }

/-- The owner has moved the sockets once. -/
def movedPool : NexusPool :=
  @NexusScript.join unitDebug movedScript 20 (.idle (firstOpen smoothOpen)) 0

theorem movedPool_reach : Reach (@nexusSystem unitDebug) (.idle .absent) movedPool :=
  @NexusScript.join_reach unitDebug movedScript 20 _ _ 0 (firstOpen_reach smoothOpen) rfl rfl

/-- The owner's first move, and the same one again, in front of their answers. -/
def movingPool : NexusPool :=
  @NexusScript.join unitDebug movedScript 5 (.idle (firstOpen smoothOpen)) 0

def movingTwicePool : NexusPool := @NexusScript.join unitDebug movedScript 5 movedPool 1

theorem movingPool_reach : Reach (@nexusSystem unitDebug) (.idle .absent) movingPool :=
  @NexusScript.join_reach unitDebug movedScript 5 _ _ 0 (firstOpen_reach smoothOpen) rfl rfl

theorem movingTwicePool_reach : Reach (@nexusSystem unitDebug) (.idle .absent) movingTwicePool :=
  @NexusScript.join_reach unitDebug movedScript 5 _ _ 1 movedPool_reach rfl rfl

/-- A connection that is about to answer the owner may do so. -/
theorem answers_step [FlowDebug] {c : NexusPool} {t : Nat}
    {th : Thread NexusOp NexusAns ForwardLoop (Except FrameError Unit)}
    (ht : c.threads t = some th) (hl : th.live = true)
    {response : MetaSignalMessage.Response} {k : Except FrameError Unit → Handler}
    (hrest : th.rest = .ask (.writeMetaResponse response) k) :
    ∃ c' th', Step nexusSystem c c' ∧ c'.threads t = some th' ∧
      th'.hist = th.hist ++ [⟨.writeMetaResponse response, .ok ()⟩] :=
  ⟨_, _, .act c t th (.writeMetaResponse response) k (.ok ()) c.shared ht hl hrest rfl,
    Pool.put_self _ _ _ _, rfl⟩

/-- The first move is told. -/
theorem restart_told_moved :
    movingPool.shared.bound = some sampleConfiguration ∧
    movingPool.shared.rows = [⟨movedConfiguration, true⟩] ∧
    RestartTold sampleConfiguration movedConfiguration movingPool.shared.rows .restartRequired := by
  have ht := @NexusScript.join_thread unitDebug movedScript 5 (.idle (firstOpen smoothOpen)) 0
  obtain ⟨c', th', hs, ht', hanswer⟩ :=
    @answers_step unitDebug movingPool 0 _ ht rfl .restartRequired _ rfl
  obtain ⟨current, last, hfound, hlast, htold⟩ := @restart_told_iff unitDebug movingPool 0
    movedConfiguration _ c' movingPool_reach hs ht rfl th' ht' .restartRequired (.ok ()) hanswer
    (by decide)
  refine ⟨rfl, rfl, (htold sampleConfiguration rfl).mpr ⟨?_, fun he => absurd he (by decide)⟩⟩
  have hcurrent : [⟨sampleConfiguration, false⟩] = [current] := hfound
  rw [← (List.cons.inj hcurrent).1]

/-- Asked for again, the same move is told as configured, while the Nexus listens where it did. -/
theorem restart_told_twice :
    Reach (@nexusSystem unitDebug) (.idle .absent) movingTwicePool ∧
    movingTwicePool.shared.bound = some sampleConfiguration ∧
    movingTwicePool.shared.rows = [⟨movedConfiguration, true⟩] ∧
    (∃ c' th th', Step (@nexusSystem unitDebug) movingTwicePool c' ∧
      movingTwicePool.threads 1 = some th ∧ c'.threads 1 = some th' ∧
      asksConfigure th.hist = some (.owner, movedConfiguration) ∧
      th'.hist = th.hist ++ [⟨.writeMetaResponse .configured, .ok ()⟩]) ∧
    ¬ RestartTold sampleConfiguration movedConfiguration movingTwicePool.shared.rows .configured := by
  have ht := @NexusScript.join_thread unitDebug movedScript 5 movedPool 1
  obtain ⟨c', th', hs, ht', hanswer⟩ :=
    @answers_step unitDebug movingTwicePool 1 _ ht rfl .configured _ rfl
  refine ⟨movingTwicePool_reach, rfl, rfl, ⟨c', _, th', hs, ht, ht', rfl, hanswer⟩, fun htold => ?_⟩
  have hstored := htold.2 rfl ⟨movedConfiguration, true⟩ (List.mem_singleton_self _)
  exact absurd hstored.1 (by decide)

end MessageNexus
