/-
  File:      MessageNexus/Nexus/CrashSafety.lean
  Subject:   A STORE OVER THE LIVES OF ITS PROCESSES: opened with any seeds, its row replaced, closed
             and killed between any two commits. What the next open finds is decided by one moment:
             whether the process that registered the table was stopped before it asserted the seed.

  * `StoreWorld`, `StoreStep` -- the file, the process that has it open, and what happened;
  * `Durable` -- what the commits so far have made of the file, by what happened;
  * `OpenAt` -- how far an open can be, over each of these;
  * `WorldKept`, `WorldKept.step` -- the invariant, and that every step keeps it;
  * `next_open_iff` -- the next open succeeds with the last committed row exactly if that moment was
    not hit.
-/
import Mathlib.Logic.Relation
import MessageNexus.Nexus.Recognition

namespace MessageNexus

open Interact

/-! ## 1. Processes -/

/-- A process that opens its store, or has opened it. -/
inductive StoreProcess where
  | opening (rest : OpenProg)
  | serving

/-- What happened: a process started, did a step, or was stopped. -/
inductive StoreNote where
  | start (seed : Standard)
  | did (e : StoreEvent)
  | stop

structure StoreWorld where
  file : Option StoreFile
  process : Option StoreProcess
  log : List StoreNote

/-- A path without a file. -/
def StoreWorld.absent : StoreWorld := ⟨none, none, []⟩

/-- What redb says of a file that its own writer left: it can be read, or has to be repaired. -/
def Opening.own (opening : Opening) : Prop := opening = .readable ∨ opening = .repairAborted

/-- One step. A process is stopped when it closes its store, gives up, or is killed. -/
inductive StoreStep (path : String) : StoreWorld → StoreWorld → Prop where
  | start (w : StoreWorld) (seed : Standard) (hdown : w.process = none) :
      StoreStep path w ⟨w.file, some (.opening (openProg seed)), w.log ++ [.start seed]⟩
  | opening (w : StoreWorld) (o : StoreOp) (k : StoreAns o → OpenProg) (a : StoreAns o)
      (file : Option StoreFile) (hp : w.process = some (.opening (.ask o k)))
      (hs : storeSem path w.file ⟨o, a⟩ file) :
      StoreStep path w ⟨file, some (.opening (k a)), w.log ++ [.did ⟨o, a⟩]⟩
  | opened (w : StoreWorld) (hp : w.process = some (.opening (.ret (.ok ())))) :
      StoreStep path w ⟨w.file, some .serving, w.log⟩
  | replace (w : StoreWorld) (standard : Standard) (outcome : Except String Unit)
      (file : Option StoreFile) (hp : w.process = some .serving)
      (hs : storeSem path w.file ⟨.mutateKeyed standard, outcome⟩ file) :
      StoreStep path w ⟨file, some .serving, w.log ++ [.did ⟨.mutateKeyed standard, outcome⟩]⟩
  | stop (w : StoreWorld) (opening : Opening) (hp : w.process ≠ none) (ho : opening.own) :
      StoreStep path w ⟨w.file.map fun file => { file with opening := opening }, none,
        w.log ++ [.stop]⟩

/-- The states that any history leads to. -/
abbrev StoreReach (path : String) : StoreWorld → Prop :=
  Relation.ReflTransGen (StoreStep path) .absent

/-! ## 2. What is durable -/

/-- What the commits so far have made of the file. -/
inductive Durable where
  | absent
  | created
  | registered
  | seeded (standard : Standard)
  deriving DecidableEq, Repr

def Durable.after (d : Durable) : StoreNote → Durable
  | .did ⟨.engineOpen, .ok _⟩ => if d = .absent then .created else d
  | .did ⟨.registerTable, .ok _⟩ => if d = .created then .registered else d
  | .did ⟨.assertKeyed seed, .ok _⟩ => .seeded seed
  | .did ⟨.mutateKeyed standard, .ok _⟩ => .seeded standard
  | _ => d

/-- The commits of a history. -/
def durable (log : List StoreNote) : Durable := log.foldl .after .absent

/-- The catalog entry is committed. -/
def Durable.isRegistered : Durable → Bool
  | .registered => true
  | .seeded _ => true
  | _ => false

/-- The last committed Standard, or this seed. -/
def Durable.standardOr (seed : Standard) : Durable → Standard
  | .seeded standard => standard
  | _ => seed

/-- A process was stopped after the table was registered and before a Standard was committed. -/
def StoppedUnseeded (log : List StoreNote) : Prop :=
  ∃ before after, log = before ++ .stop :: after ∧ durable before = .registered

/-- The next open: where no step of it fails, it succeeds, and `standard()` then gives this. -/
def NextOpen (path : String) (file : Option StoreFile) (seed standard : Standard) : Prop :=
  (openStore .working path seed file).2 = .ok () ∧
    theStandard (rowsAt (openStore .working path seed file).1) = .ok standard

/-- The content of a file with these commits. -/
def Durable.content : Durable → Option StoreContent
  | .absent => none
  | .created => some (engineOpen none).content
  | .registered => some (registerTable (engineOpen none)).content
  | .seeded standard => some (StoreFile.keeping standard).content

/-- The file has that content, and redb can read or repair it. -/
def Durable.Fits (d : Durable) (file : Option StoreFile) : Prop :=
  match d.content with
  | none => file = none
  | some content => ∃ opening, Opening.own opening ∧ file = some ⟨opening, content⟩

theorem durable_snoc (log : List StoreNote) (note : StoreNote) :
    durable (log ++ [note]) = (durable log).after note := by
  rw [durable, List.foldl_append]
  rfl

/-- A stop at the one moment stays in the history. -/
theorem StoppedUnseeded.snoc {log : List StoreNote} (h : StoppedUnseeded log) (note : StoreNote) :
    StoppedUnseeded (log ++ [note]) := by
  obtain ⟨before, after, rfl, hd⟩ := h
  exact ⟨before, after ++ [note], by simp, hd⟩

/-- A longer history has the stop before its last note, or there. -/
theorem StoppedUnseeded.snoc_inv {log : List StoreNote} {note : StoreNote}
    (h : StoppedUnseeded (log ++ [note])) :
    StoppedUnseeded log ∨ (note = .stop ∧ durable log = .registered) := by
  obtain ⟨before, after, hlog, hd⟩ := h
  rcases List.eq_nil_or_concat after with rfl | ⟨front, last, rfl⟩
  · obtain ⟨rfl, hlast⟩ := List.append_inj' hlog rfl
    cases hlast
    exact Or.inr ⟨rfl, hd⟩
  · have hsplit : log ++ [note] = (before ++ .stop :: front) ++ [last] := by
      rw [hlog]
      simp
    obtain ⟨rfl, _⟩ := List.append_inj' hsplit rfl
    exact Or.inl ⟨before, front, rfl, hd⟩

theorem StoppedUnseeded.earlier {log : List StoreNote} {note : StoreNote}
    (h : StoppedUnseeded (log ++ [note])) (hn : note ≠ .stop) : StoppedUnseeded log := by
  rcases h.snoc_inv with hbefore | ⟨hstop, _⟩
  · exact hbefore
  · exact absurd hstop hn

/-- A stop leaves the content; redb then reads or repairs the file. -/
theorem Durable.Fits.stopped {d : Durable} {file : Option StoreFile} {opening : Opening}
    (hf : d.Fits file) (hown : opening.own) :
    d.Fits (file.map fun file => { file with opening := opening }) := by
  unfold Durable.Fits at hf ⊢
  cases hcontent : d.content with
  | none =>
      rw [hcontent] at hf
      rw [show file = none from hf]
      rfl
  | some content =>
      rw [hcontent] at hf
      obtain ⟨_, _, hfile⟩ := hf
      rw [hfile]
      exact ⟨opening, hown, rfl⟩

/-! ## 3. How far an open is -/

/-- The rest of an open over what is durable. Only the open that registered the table gets past
    recognition while there is no row. -/
inductive OpenAt (seed : Standard) : Durable → OpenProg → Prop where
  | recognize (d : Durable) : OpenAt seed d (openProg seed)
  | engineNew : OpenAt seed .absent (openEngine seed)
  | engine (standard : Standard) : OpenAt seed (.seeded standard) (openEngine seed)
  | registerNew : OpenAt seed .created (openRegister seed)
  | register (standard : Standard) : OpenAt seed (.seeded standard) (openRegister seed)
  | recordsNew : OpenAt seed .registered (openRecords seed)
  | records (standard : Standard) : OpenAt seed (.seeded standard) (openRecords seed)
  | assertNew : OpenAt seed .registered (openAssert seed)
  | opened (standard : Standard) : OpenAt seed (.seeded standard) (.ret (.ok ()))
  | failed (d : Durable) (error : StoreError) : OpenAt seed d (.ret (.error error))

/-- What a process may be doing over what is durable. -/
def ProcessAt (d : Durable) : Option StoreProcess → Prop
  | none => True
  | some (.opening rest) => ∃ seed, OpenAt seed d rest
  | some .serving => ∃ standard, d = .seeded standard

section Opens

variable {path : String} {seed : Standard} {d : Durable} {file after : Option StoreFile}

/-- Recognition passes where there is no file, or a row. -/
theorem Durable.recognized {answers : RecognizeAnswers} (hf : d.Fits file)
    (h : recognize answers path file = .ok ()) : d = .absent ∨ ∃ standard, d = .seeded standard := by
  cases d with
  | absent => exact Or.inl rfl
  | created =>
      obtain ⟨opening, _, rfl⟩ := hf
      obtain ⟨e, he⟩ := @recognize_unfinished answers path ⟨opening, _⟩ (Or.inl rfl)
      rw [he] at h
      cases h
  | registered =>
      obtain ⟨opening, _, rfl⟩ := hf
      obtain ⟨e, he⟩ := @recognize_unfinished answers path ⟨opening, _⟩ (Or.inr rfl)
      rw [he] at h
      cases h
  | seeded standard => exact Or.inr ⟨standard, rfl⟩

/-- One step of an open: it stays an open, and what is durable fits the file. -/
theorem OpenAt.step {o : StoreOp} {k : StoreAns o → OpenProg} {a : StoreAns o}
    (ho : OpenAt seed d (.ask o k)) (hf : d.Fits file) (hs : storeSem path file ⟨o, a⟩ after) :
    OpenAt seed (d.after (.did ⟨o, a⟩)) (k a) ∧ (d.after (.did ⟨o, a⟩)).Fits after := by
  generalize hp : (Prog.ask o k : OpenProg) = p at ho
  cases ho with
  | recognize _ =>
      cases hp
      obtain ⟨rfl, answers, hrecognized⟩ := hs
      cases a with
      | error e => exact ⟨.failed _ e, hf⟩
      | ok _ =>
          rcases Durable.recognized hf hrecognized.symm with rfl | ⟨standard, rfl⟩
          · exact ⟨.engineNew, hf⟩
          · exact ⟨.engine standard, hf⟩
  | engineNew =>
      cases hp
      cases hf
      cases a with
      | error e => exact ⟨.failed _ _, hs⟩
      | ok _ => exact ⟨.registerNew, .readable, Or.inl rfl, hs⟩
  | engine standard =>
      cases hp
      obtain ⟨opening, hown, rfl⟩ := hf
      cases a with
      | error e => exact ⟨.failed _ _, opening, hown, hs⟩
      | ok _ => exact ⟨.register standard, opening, hown, hs⟩
  | registerNew =>
      cases hp
      obtain ⟨opening, hown, rfl⟩ := hf
      cases a with
      | error e => exact ⟨.failed _ _, opening, hown, hs⟩
      | ok _ => exact ⟨.recordsNew, opening, hown, hs⟩
  | register standard =>
      cases hp
      obtain ⟨opening, hown, rfl⟩ := hf
      cases a with
      | error e => exact ⟨.failed _ _, opening, hown, hs⟩
      | ok _ => exact ⟨.records standard, opening, hown, hs⟩
  | recordsNew =>
      cases hp
      obtain ⟨opening, hown, rfl⟩ := hf
      cases a with
      | error e => exact ⟨.failed _ _, opening, hown, hs⟩
      | ok records =>
          obtain ⟨rfl, rfl⟩ := hs
          exact ⟨.assertNew, opening, hown, rfl⟩
  | records standard =>
      cases hp
      obtain ⟨opening, hown, rfl⟩ := hf
      cases a with
      | error e => exact ⟨.failed _ _, opening, hown, hs⟩
      | ok records =>
          obtain ⟨rfl, rfl⟩ := hs
          exact ⟨.opened standard, opening, hown, rfl⟩
  | assertNew =>
      cases hp
      obtain ⟨opening, hown, rfl⟩ := hf
      cases a with
      | error e => exact ⟨.failed _ _, opening, hown, hs⟩
      | ok _ => exact ⟨.opened seed, opening, hown, hs⟩
  | opened standard => cases hp
  | failed _ error => cases hp

end Opens

/-! ## 4. The invariant -/

/-- What holds of every state a history leads to. -/
structure WorldKept (w : StoreWorld) : Prop where
  fits : (durable w.log).Fits w.file
  process : ProcessAt (durable w.log) w.process
  unseeded : durable w.log = .registered → w.process = none → StoppedUnseeded w.log
  stopped : StoppedUnseeded w.log → durable w.log = .registered ∧
    ∀ rest, w.process = some (.opening rest) →
      (∃ seed, rest = openProg seed) ∨ ∃ error, rest = .ret (.error error)

/-- After that moment an open only recognises the file, and is refused. -/
theorem refused_step {path : String} {file after : Option StoreFile} {o : StoreOp}
    {k : StoreAns o → OpenProg} {a : StoreAns o} (hf : Durable.registered.Fits file)
    (hrest : (∃ seed, Prog.ask o k = openProg seed) ∨ ∃ error, Prog.ask o k = .ret (.error error))
    (hs : storeSem path file ⟨o, a⟩ after) :
    Durable.registered.after (.did ⟨o, a⟩) = .registered ∧ ∃ error, k a = .ret (.error error) := by
  rcases hrest with ⟨seed, he⟩ | ⟨error, he⟩
  · cases he
    obtain ⟨_, answers, hrecognized⟩ := hs
    cases a with
    | error e => exact ⟨rfl, e, rfl⟩
    | ok _ =>
        rcases Durable.recognized hf hrecognized.symm with h | ⟨_, h⟩ <;> cases h
  · cases he

section Kept

variable {path : String} {w : StoreWorld}

/-- A process starts with the recognition. -/
theorem WorldKept.start (hk : WorldKept w) (seed : Standard) :
    WorldKept ⟨w.file, some (.opening (openProg seed)), w.log ++ [.start seed]⟩ := by
  have hsame : durable (w.log ++ [.start seed]) = durable w.log := durable_snoc _ _
  constructor
  · rw [hsame]
    exact hk.fits
  · rw [hsame]
    exact ⟨seed, .recognize _⟩
  · intro _ hnone
    cases hnone
  · intro hstopped
    have hbefore := hstopped.earlier (by simp)
    refine ⟨hsame.trans (hk.stopped hbefore).1, fun rest hrest => ?_⟩
    cases hrest
    exact Or.inl ⟨seed, rfl⟩

/-- A step of an open; once the moment was hit, it is the recognition, and refuses. -/
theorem WorldKept.opening (hk : WorldKept w) {o : StoreOp} {k : StoreAns o → OpenProg}
    {a : StoreAns o} {file : Option StoreFile} (hp : w.process = some (.opening (.ask o k)))
    (hsem : storeSem path w.file ⟨o, a⟩ file) :
    WorldKept ⟨file, some (.opening (k a)), w.log ++ [.did ⟨o, a⟩]⟩ := by
  have hprocess := hk.process
  rw [hp] at hprocess
  obtain ⟨seed, hat⟩ := hprocess
  obtain ⟨hat', hfits⟩ := hat.step hk.fits hsem
  have hsnoc := durable_snoc w.log (.did ⟨o, a⟩)
  constructor
  · rw [hsnoc]
    exact hfits
  · rw [hsnoc]
    exact ⟨seed, hat'⟩
  · intro _ hnone
    cases hnone
  · intro hstopped
    obtain ⟨hregistered, hrests⟩ := hk.stopped (hstopped.earlier (by simp))
    have hfits' := hk.fits
    rw [hregistered] at hfits'
    obtain ⟨hstays, error, hfailed⟩ := refused_step hfits' (hrests _ hp) hsem
    refine ⟨?_, fun rest hrest => ?_⟩
    · rw [hsnoc, hregistered, hstays]
    · cases hrest
      exact Or.inr ⟨error, hfailed⟩

/-- An open that succeeded has a row. -/
theorem WorldKept.opened (hk : WorldKept w)
    (hp : w.process = some (.opening (.ret (.ok ())))) :
    WorldKept ⟨w.file, some .serving, w.log⟩ := by
  have hprocess := hk.process
  rw [hp] at hprocess
  obtain ⟨seed, hat⟩ := hprocess
  have hseeded : ∃ standard, durable w.log = .seeded standard := by
    generalize hd : durable w.log = d at hat
    cases hat with
    | opened standard => exact ⟨standard, rfl⟩
  refine ⟨hk.fits, hseeded, fun _ hnone => (by cases hnone), fun hstopped => ?_⟩
  exact ⟨(hk.stopped hstopped).1, fun rest hrest => (by cases hrest)⟩

/-- A replacement leaves the old row or the new one. -/
theorem WorldKept.replace (hk : WorldKept w) {standard : Standard} {outcome : Except String Unit}
    {file : Option StoreFile} (hp : w.process = some .serving)
    (hsem : storeSem path w.file ⟨.mutateKeyed standard, outcome⟩ file) :
    WorldKept ⟨file, some .serving, w.log ++ [.did ⟨.mutateKeyed standard, outcome⟩]⟩ := by
  have hprocess := hk.process
  rw [hp] at hprocess
  obtain ⟨current, hcurrent⟩ := hprocess
  have hfits := hk.fits
  have hsnoc := durable_snoc w.log (.did ⟨.mutateKeyed standard, outcome⟩)
  have hnever : ¬ StoppedUnseeded (w.log ++ [.did ⟨.mutateKeyed standard, outcome⟩]) := by
    intro hstopped
    have hregistered := (hk.stopped (hstopped.earlier (by simp))).1
    rw [hregistered] at hcurrent
    cases hcurrent
  rw [hcurrent] at hfits hsnoc
  obtain ⟨opening, hown, hfile⟩ := hfits
  rw [hfile] at hsem
  have hafter : ∃ next, durable (w.log ++ [.did ⟨.mutateKeyed standard, outcome⟩])
      = .seeded next ∧ (Durable.seeded next).Fits file := by
    cases outcome with
    | error e => exact ⟨current, hsnoc, opening, hown, hsem⟩
    | ok _ => exact ⟨standard, hsnoc, opening, hown, hsem⟩
  obtain ⟨next, hd, hfits⟩ := hafter
  constructor
  · rw [hd]
    exact hfits
  · exact ⟨next, hd⟩
  · intro _ hnone
    cases hnone
  · exact fun hstopped => absurd hstopped hnever

/-- A stop changes nothing that is durable; it is the moment if a table is registered only. -/
theorem WorldKept.stop (hk : WorldKept w) {opening : Opening} (hown : opening.own) :
    WorldKept ⟨w.file.map fun file => { file with opening := opening }, none,
      w.log ++ [.stop]⟩ := by
  have hsame : durable (w.log ++ [.stop]) = durable w.log := durable_snoc _ _
  constructor
  · rw [hsame]
    exact hk.fits.stopped hown
  · exact trivial
  · intro hregistered _
    rw [hsame] at hregistered
    exact ⟨w.log, [], rfl, hregistered⟩
  · intro hstopped
    refine ⟨?_, fun rest hrest => (by cases hrest)⟩
    rw [hsame]
    rcases hstopped.snoc_inv with hbefore | ⟨_, hregistered⟩
    · exact (hk.stopped hbefore).1
    · exact hregistered

theorem WorldKept.step {w' : StoreWorld} (hk : WorldKept w) (hs : StoreStep path w w') :
    WorldKept w' := by
  cases hs with
  | start seed hdown => exact hk.start seed
  | opening o k a file hp hsem => exact hk.opening hp hsem
  | opened hp => exact hk.opened hp
  | replace standard outcome file hp hsem => exact hk.replace hp hsem
  | stop opening hp hown => exact hk.stop hown

end Kept

theorem StoreReach.kept {path : String} {w : StoreWorld} (hr : StoreReach path w) :
    WorldKept w := by
  induction hr with
  | refl =>
      refine ⟨rfl, trivial, fun h => (by cases h), ?_⟩
      rintro ⟨before, after, hlog, _⟩
      exact absurd hlog.symm (List.append_ne_nil_of_right_ne_nil before (List.cons_ne_nil _ _))
  | tail _ hs ih => exact ih.step hs

/-! ## 5. The next open -/

section Next

variable {path : String} {w : StoreWorld}

theorem openForReading_own {opening : Opening} (h : opening.own) :
    openForReading .working opening = .ok () := by
  rcases h with rfl | rfl <;> rfl

/-- An open of a store with a row finds that row. -/
theorem nextOpen_seeded (seed standard : Standard) {opening : Opening} (hown : opening.own) :
    NextOpen path (some ⟨opening, (StoreFile.keeping standard).content⟩) seed standard := by
  have hrow : IsStandard2 (StoreFile.keeping standard).content standard :=
    ⟨⟨_, rfl, rfl⟩, ⟨_, rfl, rfl⟩, rfl, rfl⟩
  have hrecognized := (recognize_ok_iff .working path
    ⟨opening, (StoreFile.keeping standard).content⟩).mpr ⟨openForReading_own hown, standard, hrow⟩
  unfold NextOpen openStore
  rw [show OpenAnswers.working.recognize = RecognizeAnswers.working from rfl, hrecognized]
  exact ⟨rfl, rfl⟩

/-- A store whose table was registered and never seeded is refused. -/
theorem nextOpen_registered (seed standard : Standard) (opening : Opening) :
    ¬ NextOpen path (some ⟨opening, (registerTable (engineOpen none)).content⟩) seed standard := by
  rintro ⟨hok, _⟩
  obtain ⟨error, hrefused⟩ := @recognize_unfinished .working path
    ⟨opening, (registerTable (engineOpen none)).content⟩ (Or.inr rfl)
  unfold openStore at hok
  rw [show OpenAnswers.working.recognize = RecognizeAnswers.working from rfl, hrefused] at hok
  cases hok

/-- From a path without a file, over every history of opens, replacements, closes and kills after
    which the table is registered and no process is left, the next open succeeds and finds the last
    committed Standard exactly if no process was stopped between registering the table and
    asserting its seed. -/
theorem next_open_iff (hr : StoreReach path w) (hdown : w.process = none)
    (hregistered : (durable w.log).isRegistered = true) (seed : Standard) :
    NextOpen path w.file seed ((durable w.log).standardOr seed) ↔ ¬ StoppedUnseeded w.log := by
  have hk := StoreReach.kept hr
  have hfits := hk.fits
  cases hd : durable w.log with
  | absent =>
      rw [hd] at hregistered
      cases hregistered
  | created =>
      rw [hd] at hregistered
      cases hregistered
  | registered =>
      rw [hd] at hfits
      obtain ⟨opening, _, hfile⟩ := hfits
      rw [hfile]
      refine ⟨fun hnext => absurd hnext (nextOpen_registered seed _ opening), fun hno => ?_⟩
      exact absurd (hk.unseeded hd hdown) hno
  | seeded standard =>
      rw [hd] at hfits
      obtain ⟨opening, hown, hfile⟩ := hfits
      rw [hfile]
      refine ⟨fun _ hstopped => ?_, fun _ => nextOpen_seeded seed standard hown⟩
      have hsame := (hk.stopped hstopped).1
      rw [hd] at hsame
      cases hsame

end Next

/-! ## 6. Two lives -/

/-- The first open, until the table is registered. -/
theorem registered_reach (path : String) (seed : Standard) :
    StoreReach path ⟨some (registerTable (engineOpen none)), some (.opening (openRecords seed)),
      [.start seed, .did ⟨.recognize, .ok ()⟩, .did ⟨.engineOpen, .ok ()⟩,
        .did ⟨.registerTable, .ok ()⟩]⟩ := by
  have hstart : StoreReach path ⟨none, some (.opening (openProg seed)), [.start seed]⟩ :=
    .single (.start .absent seed rfl)
  have hrecognized := hstart.tail (.opening _ .recognize _ (.ok ()) none rfl ⟨rfl, .working, rfl⟩)
  have hopened := hrecognized.tail (.opening _ .engineOpen _ (.ok ()) _ rfl rfl)
  have hregistered := hopened.tail (.opening _ .registerTable _ (.ok ()) _ rfl rfl)
  exact hregistered

/-- The first open, its table seeded. -/
theorem seeded_reach (path : String) (seed : Standard) :
    ∃ log, durable log = .seeded seed ∧ ¬ StoppedUnseeded log ∧
      StoreReach path ⟨some (.keeping seed), some .serving, log⟩ := by
  have hmatched := (registered_reach path seed).tail
    (.opening _ .matchRecords _ (.ok []) _ rfl ⟨rfl, rfl⟩)
  have hseeded := hmatched.tail (.opening _ (.assertKeyed seed) _ (.ok ()) _ rfl rfl)
  have hserving := hseeded.tail (.opened _ rfl)
  refine ⟨_, rfl, fun hstopped => ?_, hserving⟩
  have hsame := ((StoreReach.kept hserving).stopped hstopped).1
  cases hsame

/-- A Standard was replaced and the process killed: the next open finds what was replaced. -/
theorem next_open_replaced :
    let seed : Standard := ⟨⟨"m.sock", "o.sock", "f.sock"⟩, false⟩
    let replaced : Standard := ⟨⟨"n.sock", "p.sock", "g.sock"⟩, true⟩
    NextOpen "m.sema" (some ⟨.repairAborted, (StoreFile.keeping replaced).content⟩) seed
      replaced := by
  intro seed replaced
  obtain ⟨log, hd, hnever, hr⟩ := seeded_reach "m.sema" seed
  have hreplaced := hr.tail (.replace _ replaced (.ok ()) _ rfl rfl)
  have hkilled := hreplaced.tail (.stop _ .repairAborted (by simp) (Or.inr rfl))
  have hd' : durable (log ++ [.did ⟨.mutateKeyed replaced, .ok ()⟩] ++ [.stop]) =
      .seeded replaced := by
    rw [durable_snoc, durable_snoc]
    rfl
  have hnext := (next_open_iff hkilled rfl (by
    show (durable _).isRegistered = true
    rw [hd']
    rfl) seed).mpr (fun hstopped => by
      have hsame := ((StoreReach.kept hkilled).stopped hstopped).1
      rw [hd'] at hsame
      cases hsame)
  rw [hd'] at hnext
  exact hnext

/-- A process that was killed between the two commits of the first open: the store is refused for
    ever after. -/
theorem next_open_bricked :
    let seed : Standard := ⟨⟨"m.sock", "o.sock", "f.sock"⟩, false⟩
    ∃ w, StoreReach "m.sema" w ∧ w.process = none ∧ (durable w.log).isRegistered = true ∧
      ¬ NextOpen "m.sema" w.file seed ((durable w.log).standardOr seed) ∧
      (openStore .working "m.sema" seed w.file).2 =
        .error (.unrecognized "m.sema" "missing or duplicate Standard row") := by
  intro seed
  have hkilled := (registered_reach "m.sema" seed).tail
    (.stop _ .repairAborted (by simp) (Or.inr rfl))
  refine ⟨_, hkilled, rfl, rfl, nextOpen_registered seed _ _, rfl⟩

end MessageNexus
