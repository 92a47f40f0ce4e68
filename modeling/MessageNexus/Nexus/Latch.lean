/-
  File:      MessageNexus/Nexus/Latch.lean
  Subject:   THE ONE RECORD: what the store of a Nexus holds, over every interleaving of Configure
             requests, store failures, kills and restarts.

  * `intended` -- what the record is for: the configuration of the last owner's Configure, with
    the latch closed; before that, of the last Configure at all, or the first seed;
  * `intended_snoc` -- a Configure that finds the latch as the record says keeps the intention;
  * `StoreKeeps` -- the invariant of the store: from the first completed open on, the file holds
    the intended record and nothing else;
  * `reach_keeps` -- it holds in every reachable pool.
-/
import MessageNexus.Nexus.StoreLock

namespace MessageNexus

open Interact

/-! ## 1. The intended record -/

/-- The Configure requests of the owner's socket among the succeeded ones. -/
def ownerEntries (log : List (Socket × Configuration)) : List (Socket × Configuration) :=
  log.filter fun entry => entry.1 == .owner

/-- The record after these Configure requests have succeeded, in this order. -/
def intended (seed : Configuration) (log : List (Socket × Configuration)) : Standard :=
  match (ownerEntries log).getLast? with
  | some entry => ⟨entry.2, true⟩
  | none => ⟨(log.getLast?.map (·.2)).getD seed, false⟩

/-- No ordinary Configure has succeeded after one of the owner. -/
def OwnerLast (log : List (Socket × Configuration)) : Prop :=
  log.Pairwise fun before after => before.1 = .owner → after.1 = .owner

/-- The latch is closed exactly when a Configure of the owner has succeeded. -/
theorem intended_closed_iff (seed : Configuration) (log : List (Socket × Configuration)) :
    (intended seed log).metaConfigured = true ↔ ∃ entry ∈ log, entry.1 = .owner := by
  unfold intended
  cases hl : (ownerEntries log).getLast? with
  | some entry =>
      have hmem : entry ∈ ownerEntries log := List.mem_of_getLast? hl
      obtain ⟨hin, howner⟩ := List.mem_filter.mp hmem
      exact iff_of_true rfl ⟨entry, hin, by simpa using howner⟩
  | none =>
      have hnil : ownerEntries log = [] := List.getLast?_eq_none_iff.mp hl
      refine iff_of_false (by simp) fun ⟨entry, hin, howner⟩ => ?_
      have hmem : entry ∈ ownerEntries log := List.mem_filter.mpr ⟨hin, by simp [howner]⟩
      rw [hnil] at hmem
      cases hmem

/-- One more Configure changes the intended record as the store changes its own, where an
    ordinary one finds the latch open. -/
theorem intended_snoc {seed : Configuration} {log : List (Socket × Configuration)}
    {socket : Socket} (configuration : Configuration)
    (hopen : (socket == .owner) = false → (intended seed log).metaConfigured = false) :
    intended seed (log ++ [(socket, configuration)]) =
      (intended seed log).changedConfiguration configuration (socket == .owner) := by
  cases socket with
  | owner => simp [intended, ownerEntries, Standard.changedConfiguration]
  | ordinary =>
      have hlatch := hopen rfl
      have hnone : (ownerEntries log).getLast? = none := by
        cases hl : (ownerEntries log).getLast? with
        | none => rfl
        | some entry => simp [intended, hl] at hlatch
      have hkeep : ownerEntries (log ++ [(.ordinary, configuration)]) = ownerEntries log := by
        simp [ownerEntries]
      have hend : intended seed (log ++ [(.ordinary, configuration)]) = ⟨configuration, false⟩ := by
        simp [intended, hkeep, hnone]
      rw [hend, Standard.changedConfiguration, hlatch]
      rfl

theorem OwnerLast.snoc {seed : Configuration} {log : List (Socket × Configuration)}
    {socket : Socket} {configuration : Configuration} (hl : OwnerLast log)
    (hopen : (socket == .owner) = false → (intended seed log).metaConfigured = false) :
    OwnerLast (log ++ [(socket, configuration)]) := by
  refine List.pairwise_append.mpr ⟨hl, List.pairwise_singleton _ _, fun before hb after ha => ?_⟩
  rw [List.mem_singleton.mp ha]
  intro howner
  have hclosed := (intended_closed_iff seed log).mpr ⟨before, hb, howner⟩
  cases socket with
  | owner => rfl
  | ordinary => rw [hopen rfl] at hclosed; cases hclosed

/-! ## 2. The files of a Nexus -/

/-- The content of a store whose first open is not completed: without the family, or without the
    record. -/
def Unfinished (content : StoreContent) : Prop :=
  content = (engineOpen none).content ∨ content = (registerTable (engineOpen none)).content

/-- A store whose first open is not completed is not recognised. -/
theorem recognize_unfinished (answers : RecognizeAnswers) (path : String) {file : StoreFile}
    (hf : Unfinished file.content) : ∃ error, recognize answers path (some file) = .error error := by
  obtain ⟨opening, content⟩ := file
  unfold recognize
  dsimp only at hf ⊢
  cases openForReading answers opening with
  | error error => exact ⟨_, rfl⟩
  | ok _ =>
      rcases hf with rfl | rfl
      · exact ⟨.unrecognized path "missing Standard2 family", rfl⟩
      · exact ⟨.unrecognized path "missing or duplicate Standard row", rfl⟩

/-- Opening a store with the record leaves it as it is. -/
theorem openStore_keeping (answers : OpenAnswers) (path : String) (seed standard : Standard)
    (opening : Opening) :
    (openStore answers path seed (some ⟨opening, (StoreFile.keeping standard).content⟩)).1 =
      some ⟨opening, (StoreFile.keeping standard).content⟩ := by
  unfold openStore
  cases recognize answers.recognize path
      (some ⟨opening, (StoreFile.keeping standard).content⟩) with
  | error error => rfl
  | ok _ =>
      cases answers.engineOpen with
      | error error => rfl
      | ok _ =>
          cases answers.registerTable with
          | error error => rfl
          | ok _ => cases answers.matchRecords <;> rfl

/-- Opening where there is no store seeds one, or leaves it unfinished. -/
theorem openStore_none (answers : OpenAnswers) (path : String) (seed : Standard) :
    openStore answers path seed none = (some (.keeping seed), .ok ()) ∨
    ∃ file error, openStore answers path seed none = (file, .error error) ∧
      ∀ f ∈ file, Unfinished f.content := by
  have hnew : recognize answers.recognize path none = .ok () := rfl
  unfold openStore
  rw [hnew]
  dsimp only
  cases answers.engineOpen with
  | error error => exact Or.inr ⟨_, _, rfl, fun f hf => (by cases hf)⟩
  | ok _ =>
      cases answers.registerTable with
      | error error => exact Or.inr ⟨_, _, rfl, fun f hf => (by cases hf; exact Or.inl rfl)⟩
      | ok _ =>
          cases answers.matchRecords with
          | error error => exact Or.inr ⟨_, _, rfl, fun f hf => (by cases hf; exact Or.inr rfl)⟩
          | ok _ =>
              cases answers.assertKeyed with
              | error error =>
                  exact Or.inr ⟨_, _, rfl, fun f hf => (by cases hf; exact Or.inr rfl)⟩
              | ok _ => exact Or.inl rfl

/-- Replacing the record of a store with one. -/
theorem mutateKeyed_keeping (opening : Opening) (standard updated : Standard) :
    mutateKeyed ⟨opening, (StoreFile.keeping standard).content⟩ updated =
      ⟨opening, (StoreFile.keeping updated).content⟩ := rfl

/-! ## 3. The invariant -/

/-- What holds of the store in every state: before the first completed open there is no Nexus, no
    record and no succeeded Configure; from it on the file holds the intended record. -/
structure StoreKeeps (s : NexusShared) : Prop where
  running : s.running = true → s.seeded.isSome = true
  unseeded : s.seeded = none →
    s.configured = [] ∧ ∀ file ∈ s.file, Unfinished file.content
  seeded : ∀ seed, s.seeded = some seed → ∃ opening,
    s.file = some ⟨opening, (StoreFile.keeping (intended seed s.configured)).content⟩
  ownerLast : OwnerLast s.configured

theorem StoreKeeps.rows {s : NexusShared} (hk : StoreKeeps s) {seed : Configuration}
    (hs : s.seeded = some seed) : s.rows = [intended seed s.configured] := by
  obtain ⟨opening, hfile⟩ := hk.seeded seed hs
  rw [NexusShared.rows, hfile]
  rfl

/-- The store keeps the invariant where the file, the seed and the succeeded requests stay. -/
theorem StoreKeeps.same {s s' : NexusShared} (hk : StoreKeeps s) (hfile : s'.file = s.file)
    (hseed : s'.seeded = s.seeded) (hlog : s'.configured = s.configured)
    (hrun : s'.running = true → s.running = true) : StoreKeeps s' := by
  constructor
  · rw [hseed]
    exact fun hr => hk.running (hrun hr)
  · rw [hseed, hlog, hfile]
    exact hk.unseeded
  · rw [hseed, hlog, hfile]
    exact hk.seeded
  · rw [hlog]
    exact hk.ownerLast

/-- A Configure that replaces the record it found commits what is intended. -/
theorem StoreKeeps.commit {s : NexusShared} (hk : StoreKeeps s) {t : Nat} {socket : Socket}
    {current : Standard} (configuration : Configuration) (hseeded : s.seeded.isSome = true)
    (hsock : s.socketOf t = some socket) (hcur : s.rows = [current])
    (hopen : (socket == .owner) = false → current.metaConfigured = false) :
    StoreKeeps (s.commit t (current.changedConfiguration configuration (socket == .owner))) := by
  obtain ⟨seed, hs⟩ := Option.isSome_iff_exists.mp hseeded
  have hfound : current = intended seed s.configured := by
    have hrows := hk.rows hs
    rw [hcur] at hrows
    exact (List.cons.inj hrows).1
  have hlog : (s.commit t (current.changedConfiguration configuration (socket == .owner))).configured
      = s.configured ++ [(socket, configuration)] := by
    simp [NexusShared.commit, hsock, Standard.changedConfiguration]
  rw [hfound] at hopen
  constructor
  · intro _
    exact hseeded
  · intro hnone
    exact absurd (hs.symm.trans hnone) (by simp)
  · intro seed' hs'
    have hsame : seed' = seed := by
      have hboth : some seed = some seed' := hs.symm.trans hs'
      exact (Option.some.inj hboth).symm
    obtain ⟨opening, hfile⟩ := hk.seeded seed hs
    refine ⟨opening, ?_⟩
    rw [hlog, hsame, intended_snoc configuration hopen, NexusShared.commit]
    dsimp only
    rw [hfile, Option.map_some, mutateKeyed_keeping, hfound]
  · rw [hlog]
    exact hk.ownerLast.snoc hopen

/-- The shared state after an open that failed. -/
theorem opened_error {s : NexusShared} {answers : OpenAnswers} {path : String}
    {seed : Configuration} {file : Option StoreFile} {error : StoreError}
    (ho : openStore answers path ⟨seed, false⟩ s.file = (file, .error error)) :
    s.opened answers path seed =
      { s with file := file, holder := none, running := false, bound := none } := by
  unfold NexusShared.opened
  rw [ho]

/-- The shared state after a completed open. -/
theorem opened_ok {s : NexusShared} {answers : OpenAnswers} {path : String}
    {seed : Configuration} {file : Option StoreFile}
    (ho : openStore answers path ⟨seed, false⟩ s.file = (file, .ok ())) :
    ∃ bound, s.opened answers path seed =
      { s with
        file := file
        holder := none
        running := true
        bound := bound
        seeded := some (s.seeded.getD seed) } := by
  unfold NexusShared.opened
  rw [ho]
  exact ⟨_, rfl⟩

/-- An open keeps the invariant, whatever its seed and wherever it fails. -/
theorem StoreKeeps.opened {s : NexusShared} (hk : StoreKeeps s) (answers : OpenAnswers)
    (path : String) (seed : Configuration) : StoreKeeps (s.opened answers path seed) := by
  cases hs : s.seeded with
  | some first =>
      obtain ⟨opening, hfile⟩ := hk.seeded first hs
      have hsame := openStore_keeping answers path ⟨seed, false⟩ (intended first s.configured) opening
      rw [← hfile] at hsame
      cases ho : openStore answers path ⟨seed, false⟩ s.file with
      | mk file result =>
          rw [ho] at hsame
          have hfile' : file = s.file := hsame
          cases result with
          | error error =>
              rw [opened_error ho]
              exact hk.same hfile' rfl rfl fun hr => by cases hr
          | ok _ =>
              obtain ⟨bound, he⟩ := opened_ok ho
              rw [he, hs]
              constructor
              · exact fun _ => rfl
              · exact fun hnone => by cases hnone
              · intro seed' hs'
                cases hs'
                exact ⟨opening, hfile'.trans hfile⟩
              · exact hk.ownerLast
  | none =>
      obtain ⟨hlog, hunfinished⟩ := hk.unseeded hs
      -- the open that seeds the store, or one more that is not completed
      have hopen : openStore answers path ⟨seed, false⟩ s.file = (some (.keeping ⟨seed, false⟩), .ok ()) ∨
          ∃ file error, openStore answers path ⟨seed, false⟩ s.file = (file, .error error) ∧
            ∀ f ∈ file, Unfinished f.content := by
        cases hf : s.file with
        | none => exact openStore_none answers path ⟨seed, false⟩
        | some file =>
            have hu := hunfinished file (by rw [hf]; rfl)
            obtain ⟨error, hrec⟩ := recognize_unfinished answers.recognize path hu
            refine Or.inr ⟨some file, error, ?_, fun f hin => (by cases hin; exact hu)⟩
            unfold openStore
            rw [hrec]
      rcases hopen with ho | ⟨file, error, ho, hu⟩
      · obtain ⟨bound, he⟩ := opened_ok ho
        rw [he, hs]
        constructor
        · exact fun _ => rfl
        · exact fun hnone => by cases hnone
        · intro seed' hs'
          cases hs'
          refine ⟨.readable, ?_⟩
          dsimp only
          rw [hlog]
          rfl
        · exact hk.ownerLast
      · rw [opened_error ho]
        constructor
        · exact fun hr => by cases hr
        · exact fun _ => ⟨hlog, hu⟩
        · intro seed' hs'
          exact absurd (hs.symm.trans hs') (by simp)
        · exact hk.ownerLast

theorem StoreKeeps.halt {s s' : NexusShared} (hk : StoreKeeps s) (hs : NexusHalt s s') :
    StoreKeeps s' := by
  cases hs with
  | «open» answers path seed hstop => exact hk.opened answers path seed
  | kill opening =>
      constructor
      · exact fun hr => by cases hr
      · intro hs
        obtain ⟨hlog, hu⟩ := hk.unseeded hs
        refine ⟨hlog, fun file hf => ?_⟩
        obtain ⟨file', hf', rfl⟩ := Option.map_eq_some_iff.mp hf
        exact hu file' hf'
      · intro seed hs
        obtain ⟨opening', hfile⟩ := hk.seeded seed hs
        refine ⟨opening, ?_⟩
        dsimp only
        rw [hfile]
        rfl
      · exact hk.ownerLast

/-! ## 4. Later states -/

/-- One state is later than another: the succeeded requests only grow, and the first seed stays. -/
def Later (s s' : NexusShared) : Prop :=
  s.configured <+: s'.configured ∧ ∀ seed, s.seeded = some seed → s'.seeded = some seed

theorem Later.same {s s' : NexusShared} (hlog : s'.configured = s.configured)
    (hseed : s'.seeded = s.seeded) : Later s s' := by
  refine ⟨hlog ▸ List.prefix_rfl, fun seed hs => hseed.trans hs⟩

theorem Later.trans {s s' s'' : NexusShared} (h : Later s s') (h' : Later s' s'') : Later s s'' :=
  ⟨h.1.trans h'.1, fun seed hs => h'.2 seed (h.2 seed hs)⟩

theorem nexusSem_later {s s' : NexusShared} {t : Nat} {e : NexusEvent}
    (hs : nexusSem s t e s') : Later s s' := by
  obtain ⟨o, a⟩ := e
  cases o with
  | lockStore => rw [hs.2]; exact .same rfl rfl
  | matchRecords => rw [hs.1]; exact .same rfl rfl
  | mutateKeyed standard =>
      rcases hs with ⟨_, rfl⟩ | ⟨_, rfl⟩
      · exact ⟨List.prefix_append _ _, fun seed hs => hs⟩
      · exact .same rfl rfl
  | _ => cases hs; exact .same rfl rfl

theorem opened_later (s : NexusShared) (answers : OpenAnswers) (path : String)
    (seed : Configuration) : Later s (s.opened answers path seed) := by
  cases ho : openStore answers path ⟨seed, false⟩ s.file with
  | mk file result =>
      cases result with
      | error error =>
          rw [opened_error ho]
          exact .same rfl rfl
      | ok _ =>
          obtain ⟨bound, he⟩ := opened_ok ho
          rw [he]
          refine ⟨List.prefix_rfl, fun first hs => ?_⟩
          dsimp only
          rw [hs]
          rfl

/-! ## 5. Every reachable pool -/

theorem nexusSem_running {s s' : NexusShared} {t : Nat} {e : NexusEvent}
    (hs : nexusSem s t e s') : s'.running = s.running := by
  obtain ⟨o, a⟩ := e
  cases o with
  | lockStore => rw [hs.2]
  | matchRecords => rw [hs.1]
  | mutateKeyed standard => rcases hs with ⟨_, rfl⟩ | ⟨_, rfl⟩ <;> rfl
  | _ => cases hs; rfl

section Run

variable [FlowDebug] {c : NexusPool}

/-- Connections live only while the Nexus runs. -/
theorem live_running (hr : Reach nexusSystem (.idle .absent) c) : ∀ t th,
    c.threads t = some th → th.live = true → c.shared.running = true := by
  refine Reach.invariant (P := fun c : NexusPool => ∀ t th, c.threads t = some th →
    th.live = true → c.shared.running = true) ?_ ?_ hr
  · intro t th ht
    cases ht
  · intro c c' _ _ hc hs t th ht hl
    cases hs with
    | act u thu o k a s' hu hlu hrest hs =>
        rw [Pool.put_shared, nexusSem_running hs]
        exact hc u thu hu hlu
    | again u thu l hu hlu hrest => exact hc u thu hu hlu
    | start u p s' hu hs =>
        rcases hs.2 with ⟨_, rfl⟩ | ⟨_, rfl⟩
        · exact hs.1
        · exact hs.1
    | halt s' hs =>
        obtain ⟨thu, _, rfl⟩ := Option.map_eq_some_iff.mp ht
        cases hl

/-- One operation of a live connection keeps the invariant of the store: a replaced record is the
    one the connection has read, and an ordinary connection replaces it only with the latch
    open. -/
theorem act_keeps (hr : Reach nexusSystem (.idle .absent) c) (hk : StoreKeeps c.shared) {t : Nat}
    {th : Thread NexusOp NexusAns ForwardLoop (Except FrameError Unit)} {e : NexusEvent}
    {socket : Socket} {s' : NexusShared} (ht : c.threads t = some th) (hl : th.live = true)
    (hsock : c.shared.socketOf t = some socket) (hp : StorePlace (socket == .owner) th.hist e.op)
    (hs : nexusSem c.shared t e s') : StoreKeeps s' := by
  obtain ⟨o, a⟩ := e
  cases o with
  | lockStore =>
      rw [hs.2]
      exact hk.same rfl rfl rfl fun hrun => hrun
  | matchRecords =>
      rw [hs.1]
      exact hk
  | mutateKeyed standard =>
      rcases hs with ⟨_, rfl⟩ | ⟨_, rfl⟩
      · obtain ⟨hplace, _, current, configuration, hread, rfl, hopen⟩ := hp
        have hheld := hplace.2.2 ⟨_, rfl⟩
        have hcur := read_current rfl hr ht hl hheld hread
        have hseeded := hk.running (live_running hr t th ht hl)
        exact hk.commit configuration hseeded hsock hcur hopen
      · exact hk
  | _ =>
      cases hs
      exact hk.same rfl rfl rfl fun hrun => hrun

/-- The store keeps its invariant in every reachable pool. -/
theorem reach_keeps (hr : Reach nexusSystem (.idle .absent) c) : StoreKeeps c.shared := by
  refine Reach.invariant (P := fun c : NexusPool => StoreKeeps c.shared) ?_ ?_ hr
  · constructor
    · exact fun hrun => by cases hrun
    · exact fun _ => ⟨rfl, fun file hf => by cases hf⟩
    · exact fun seed hs => by cases hs
    · exact List.Pairwise.nil
  · intro c c' hrc hrc' hk hs
    cases hs with
    | act t th o k a s' ht hl hrest hs =>
        obtain ⟨socket, hsock, hi, _⟩ := store_places hrc' (Pool.put_self _ _ _ _)
        rw [Pool.put_shared, nexusSem_socketOf hs] at hsock
        exact act_keeps hrc hk ht hl hsock hi.at hs
    | again t th l ht hl hrest => exact hk
    | start t p s' ht hs =>
        rcases hs.2 with ⟨_, rfl⟩ | ⟨_, rfl⟩
        · exact hk.same rfl rfl rfl fun hrun => hrun
        · exact hk.same rfl rfl rfl fun hrun => hrun
    | halt s' hs => exact hk.halt hs

/-- A run leads to later states only. -/
theorem reach_later {c' : NexusPool} (hr : Reach nexusSystem c c') : Later c.shared c'.shared := by
  induction hr with
  | refl => exact .same rfl rfl
  | tail _ hs ih =>
      refine ih.trans ?_
      cases hs with
      | act t th o k a s' ht hl hrest hs => exact nexusSem_later hs
      | again t th l ht hl hrest => exact .same rfl rfl
      | start t p s' ht hs =>
          rcases hs.2 with ⟨_, rfl⟩ | ⟨_, rfl⟩
          · exact .same rfl rfl
          · exact .same rfl rfl
      | halt s' hs =>
          cases hs with
          | kill opening => exact .same rfl rfl
          | «open» answers path seed hstop => exact opened_later _ answers path seed

end Run

end MessageNexus
