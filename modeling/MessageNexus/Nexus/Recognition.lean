/-
  File:      MessageNexus/Nexus/Recognition.lean
  Subject:   WHICH FILES THE STORE OPENS: `recognize` accepts exactly the content of a current
             Standard2 store, and `open` neither writes to another file nor seeds one that is there.

  * `IsStandard2` -- the content of such a store, with its row;
  * `recognize_ok_iff`, `recognize_error` -- recognition as a decision;
  * `StoreOp`, `openProg`, `storeSem` -- `MessageStore::open` step by step, and what each step does
    to the file;
  * `openStore_leads` -- `openStore` is a run of these steps;
  * `open_recognizes` -- what an open of an existing file does.
-/
import MessageNexus.Nexus.Latch

namespace MessageNexus

open Interact

/-! ## 1. The content of a current store -/

/-- The content of a current Standard2 store with this row. -/
structure IsStandard2 (content : StoreContent) (row : Standard) : Prop where
  version : ∃ metadata, content.metadata = .ok metadata ∧
    tableGet metadata "schema_version" = some schemaVersion
  layout : ∃ counters, content.counters = .ok counters ∧
    tableGet counters "engine_storage_layout" = some (.ok storageLayout)
  catalog : content.catalog =
    .ok [(standardTable, .ok ⟨standardTable, standardFamily, standardSchemaHash⟩)]
  standards : content.standards = .ok [(standardKey, .ok row)]

theorem IsStandard2.rows {content : StoreContent} {row : Standard} (h : IsStandard2 content row) :
    content.rows = [row] := by
  unfold StoreContent.rows
  rw [h.standards]
  rfl

/-! ## 2. The checks -/

theorem checkVersion_ok_iff (content : StoreContent) :
    checkVersion content = .ok () ↔ ∃ metadata, content.metadata = .ok metadata ∧
      tableGet metadata "schema_version" = some schemaVersion := by
  unfold checkVersion
  cases content.metadata with
  | error e => exact ⟨fun h => (by cases h), fun ⟨_, h, _⟩ => (by cases h)⟩
  | ok metadata =>
      show (if tableGet metadata "schema_version" ≠ some schemaVersion then _ else _) = _ ↔ _
      by_cases hversion : tableGet metadata "schema_version" = some schemaVersion
      · rw [if_neg (not_not_intro hversion)]
        exact ⟨fun _ => ⟨metadata, rfl, hversion⟩, fun _ => rfl⟩
      · rw [if_pos hversion]
        refine ⟨fun h => (by cases h), fun ⟨_, he, h⟩ => ?_⟩
        cases he
        exact absurd h hversion

theorem checkLayout_ok_iff (content : StoreContent) :
    checkLayout content = .ok () ↔ ∃ counters, content.counters = .ok counters ∧
      tableGet counters "engine_storage_layout" = some (.ok storageLayout) := by
  unfold checkLayout
  cases content.counters with
  | error e => exact ⟨fun h => (by cases h), fun ⟨_, h, _⟩ => (by cases h)⟩
  | ok counters =>
      constructor
      · intro h
        refine ⟨counters, rfl, ?_⟩
        dsimp only [bind, Except.bind] at h
        cases hget : tableGet counters "engine_storage_layout" with
        | none =>
            rw [hget] at h
            cases h
        | some bytes =>
            rw [hget] at h
            cases bytes with
            | error e => cases h
            | ok layout =>
                change (if some layout ≠ some storageLayout then _ else _) = _ at h
                by_cases hsame : some layout = some storageLayout
                · rw [Option.some.inj hsame]
                · rw [if_pos hsame] at h
                  cases h
      · rintro ⟨counters', he, hget⟩
        cases he
        dsimp only [bind, Except.bind]
        rw [hget]
        rfl

/-- An entry of the catalog that passes. -/
def Standard2Entry (entry : String × Except String TableRegistration) : Prop :=
  entry = (standardTable, .ok ⟨standardTable, standardFamily, standardSchemaHash⟩)

/-- The loop over the catalog accepts Standard2 entries only, and counts them. -/
theorem countCatalog_ok_iff (printed : Char → Bool)
    (entries : List (String × Except String TableRegistration)) (count total : Nat) :
    countCatalog printed entries count = .ok total ↔
      (∀ entry ∈ entries, Standard2Entry entry) ∧ total = count + entries.length := by
  induction entries generalizing count with
  | nil =>
      rw [countCatalog, Except.ok.injEq]
      constructor
      · rintro rfl
        exact ⟨fun _ h => absurd h List.not_mem_nil, rfl⟩
      · rintro ⟨_, rfl⟩
        rfl
  | cons entry rest ih =>
      obtain ⟨key, value⟩ := entry
      rw [List.forall_mem_cons, List.length_cons, Standard2Entry]
      cases value with
      | error e => exact ⟨fun h => (by cases h), fun ⟨⟨h, _⟩, _⟩ => (by cases h)⟩
      | ok registration =>
          obtain ⟨tableName, family, schemaHash⟩ := registration
          show (if key ≠ standardTable ∨ tableName ≠ standardTable ∨ family ≠ standardFamily ∨
            schemaHash ≠ standardSchemaHash then _ else
              countCatalog printed rest (count + 1)) = _ ↔ _
          by_cases hforeign : key ≠ standardTable ∨ tableName ≠ standardTable ∨
              family ≠ standardFamily ∨ schemaHash ≠ standardSchemaHash
          · rw [if_pos hforeign]
            refine ⟨fun h => (by cases h), fun ⟨⟨h, _⟩, _⟩ => ?_⟩
            cases h
            simp at hforeign
          · rw [if_neg hforeign, ih]
            push Not at hforeign
            obtain ⟨rfl, rfl, rfl, rfl⟩ := hforeign
            constructor
            · rintro ⟨hall, rfl⟩
              exact ⟨⟨rfl, hall⟩, by omega⟩
            · rintro ⟨⟨_, hall⟩, rfl⟩
              exact ⟨hall, by omega⟩

/-- The loop over the Standard table accepts decodable rows at the one key, and counts them. -/
theorem countStandards_ok_iff (entries : List (String × Except String Standard))
    (count total : Nat) : countStandards entries count = .ok total ↔
      (∀ entry ∈ entries, ∃ row, entry = (standardKey, .ok row)) ∧
        total = count + entries.length := by
  induction entries generalizing count with
  | nil =>
      rw [countStandards, Except.ok.injEq]
      constructor
      · rintro rfl
        exact ⟨fun _ h => absurd h List.not_mem_nil, rfl⟩
      · rintro ⟨_, rfl⟩
        rfl
  | cons entry rest ih =>
      obtain ⟨key, value⟩ := entry
      rw [List.forall_mem_cons, List.length_cons, countStandards]
      by_cases hkey : key = standardKey
      · rw [if_neg (not_not_intro hkey), hkey]
        cases value with
        | error e => exact ⟨fun h => (by cases h), fun ⟨⟨⟨_, h⟩, _⟩, _⟩ => (by cases h)⟩
        | ok row =>
            show countStandards rest (count + 1) = _ ↔ _
            rw [ih]
            constructor
            · rintro ⟨hall, rfl⟩
              exact ⟨⟨⟨row, rfl⟩, hall⟩, by omega⟩
            · rintro ⟨⟨_, hall⟩, rfl⟩
              exact ⟨hall, by omega⟩
      · rw [if_pos hkey]
        refine ⟨fun h => (by cases h), fun ⟨⟨⟨_, h⟩, _⟩, _⟩ => ?_⟩
        cases h
        exact absurd rfl hkey

theorem checkCatalog_ok_iff (printed : Char → Bool) (content : StoreContent) :
    checkCatalog printed content = .ok () ↔ content.catalog =
      .ok [(standardTable, .ok ⟨standardTable, standardFamily, standardSchemaHash⟩)] := by
  unfold checkCatalog
  cases content.catalog with
  | error e => exact ⟨fun h => (by cases h), fun h => (by cases h)⟩
  | ok entries =>
      show (countCatalog printed entries 0 >>= fun count => if count ≠ 1 then _ else _) = _ ↔ _
      cases hcount : countCatalog printed entries 0 with
      | error e =>
          refine ⟨fun h => (by cases h), fun h => ?_⟩
          cases h
          rw [(countCatalog_ok_iff _ _ 0 1).mpr ⟨by simp [Standard2Entry], rfl⟩] at hcount
          cases hcount
      | ok count =>
          obtain ⟨hall, htotal⟩ := (countCatalog_ok_iff printed entries 0 count).mp hcount
          show (if count ≠ 1 then _ else _) = _ ↔ _
          by_cases hone : count = 1
          · rw [if_neg (not_not_intro hone)]
            refine ⟨fun _ => ?_, fun _ => rfl⟩
            obtain ⟨entry, rfl⟩ := List.length_eq_one_iff.mp (by omega : entries.length = 1)
            rw [hall entry List.mem_cons_self]
          · rw [if_pos hone]
            refine ⟨fun h => (by cases h), fun h => ?_⟩
            cases h
            exact absurd htotal hone

theorem checkStandards_ok_iff (content : StoreContent) :
    checkStandards content = .ok () ↔
      ∃ row, content.standards = .ok [(standardKey, .ok row)] := by
  unfold checkStandards
  cases content.standards with
  | error e => exact ⟨fun h => (by cases h), fun ⟨_, h⟩ => (by cases h)⟩
  | ok entries =>
      show (countStandards entries 0 >>= fun count => if count ≠ 1 then _ else _) = _ ↔ _
      cases hcount : countStandards entries 0 with
      | error e =>
          refine ⟨fun h => (by cases h), fun ⟨row, h⟩ => ?_⟩
          cases h
          rw [(countStandards_ok_iff _ 0 1).mpr ⟨by simp, rfl⟩] at hcount
          cases hcount
      | ok count =>
          obtain ⟨hall, htotal⟩ := (countStandards_ok_iff entries 0 count).mp hcount
          show (if count ≠ 1 then _ else _) = _ ↔ _
          by_cases hone : count = 1
          · rw [if_neg (not_not_intro hone)]
            refine ⟨fun _ => ?_, fun _ => rfl⟩
            obtain ⟨entry, rfl⟩ := List.length_eq_one_iff.mp (by omega : entries.length = 1)
            obtain ⟨row, rfl⟩ := hall entry List.mem_cons_self
            exact ⟨row, rfl⟩
          · rw [if_pos hone]
            refine ⟨fun h => (by cases h), fun ⟨row, h⟩ => ?_⟩
            cases h
            exact absurd htotal hone

theorem andThen_ok_iff {p q : Except String Unit} :
    (p >>= fun _ => q) = .ok () ↔ p = .ok () ∧ q = .ok () := by
  cases p with
  | error e => exact ⟨fun h => (by cases h), fun h => (by cases h.1)⟩
  | ok _ => exact ⟨fun h => ⟨rfl, h⟩, fun h => h.2⟩

theorem mapError_ok_iff {p : Except String Unit} {f : String → StoreError} :
    p.mapError f = .ok () ↔ p = .ok () := by
  cases p with
  | error e => exact ⟨fun h => (by cases h), fun h => (by cases h)⟩
  | ok _ => exact ⟨fun _ => rfl, fun _ => rfl⟩

/-- Recognition accepts a file that can be read and is a current store, and no other. -/
theorem recognize_ok_iff (answers : RecognizeAnswers) (path : String) (file : StoreFile) :
    recognize answers path (some file) = .ok () ↔
      openForReading answers file.opening = .ok () ∧ ∃ row, IsStandard2 file.content row := by
  have hall : recognize answers path (some file) = .ok () ↔
      openForReading answers file.opening = .ok () ∧ checkVersion file.content = .ok () ∧
        checkLayout file.content = .ok () ∧ checkCatalog answers.printed file.content = .ok () ∧
          checkStandards file.content = .ok () := by
    unfold recognize
    dsimp only
    rw [mapError_ok_iff]
    simp only [andThen_ok_iff]
  rw [hall, checkVersion_ok_iff, checkLayout_ok_iff, checkCatalog_ok_iff, checkStandards_ok_iff]
  constructor
  · rintro ⟨hopen, hversion, hlayout, hcatalog, row, hrow⟩
    exact ⟨hopen, row, hversion, hlayout, hcatalog, hrow⟩
  · rintro ⟨hopen, row, hversion, hlayout, hcatalog, hrow⟩
    exact ⟨hopen, hversion, hlayout, hcatalog, row, hrow⟩

/-- Whatever recognition does not accept, it refuses as unrecognised. -/
theorem recognize_error {answers : RecognizeAnswers} {path : String} {file : Option StoreFile}
    {error : StoreError} (h : recognize answers path file = .error error) :
    ∃ reason, error = .unrecognized path reason := by
  cases file with
  | none => cases h
  | some file =>
      unfold recognize at h
      dsimp only at h
      cases hchecks : (do
          openForReading answers file.opening
          checkVersion file.content
          checkLayout file.content
          checkCatalog answers.printed file.content
          checkStandards file.content : Except String Unit) with
      | error reason =>
          rw [hchecks] at h
          cases h
          exact ⟨reason, rfl⟩
      | ok _ =>
          rw [hchecks] at h
          cases h

/-! ## 3. Opening, step by step -/

/-- What a process does to its store. -/
inductive StoreOp where
  | recognize
  | engineOpen
  | registerTable
  | matchRecords
  | assertKeyed (seed : Standard)
  | mutateKeyed (standard : Standard)
  deriving DecidableEq

@[reducible] def StoreAns : StoreOp → Type
  | .recognize => Except StoreError Unit
  | .engineOpen => Except String Unit
  | .registerTable => Except String Unit
  | .matchRecords => Except String (List Standard)
  | .assertKeyed _ => Except String Unit
  | .mutateKeyed _ => Except String Unit

abbrev OpenProg := Prog StoreOp StoreAns (Except StoreError Unit)
abbrev StoreEvent := Event StoreOp StoreAns

/-- One step of a process. -/
abbrev storeStep (o : StoreOp) : Prog StoreOp StoreAns (StoreAns o) := Prog.perform o

/-- The seed of an empty table. -/
def openAssert (seed : Standard) : OpenProg := do
  match ← storeStep (.assertKeyed seed) with
  | .error error => return .error (.engine error)
  | .ok () => return .ok ()

/-- The rows, and the seed if there are none. -/
def openRecords (seed : Standard) : OpenProg := do
  match ← storeStep .matchRecords with
  | .error error => return .error (.engine error)
  | .ok records => if records.isEmpty then openAssert seed else return .ok ()

/-- The registration of the table, and what comes after it. -/
def openRegister (seed : Standard) : OpenProg := do
  match ← storeStep .registerTable with
  | .error error => return .error (.engine error)
  | .ok () => openRecords seed

/-- The engine, and what comes after it. -/
def openEngine (seed : Standard) : OpenProg := do
  match ← storeStep .engineOpen with
  | .error error => return .error (.engine error)
  | .ok () => openRegister seed

/-- `MessageStore::open`. -/
def openProg (seed : Standard) : OpenProg := do
  match ← storeStep .recognize with
  | .error error => return .error error
  | .ok () => openEngine seed

/-- The rows of a path. -/
def rowsAt (file : Option StoreFile) : List Standard := (file.map StoreFile.rows).getD []

/-- What each step may answer and do to the file. A step that fails leaves it as it is. -/
def storeSem (path : String) (file : Option StoreFile) : StoreEvent → Option StoreFile → Prop
  | ⟨.recognize, result⟩, after =>
      after = file ∧ ∃ answers, result = recognize answers path file
  | ⟨.engineOpen, .ok _⟩, after => after = some (engineOpen file)
  | ⟨.registerTable, .ok _⟩, after => after = file.map registerTable
  | ⟨.matchRecords, .ok records⟩, after => after = file ∧ records = rowsAt file
  | ⟨.assertKeyed seed, .ok _⟩, after => after = file.map (assertKeyed · seed)
  | ⟨.mutateKeyed standard, .ok _⟩, after => after = file.map (mutateKeyed · standard)
  | _, after => after = file

/-- `openStore` is a run of these steps. -/
theorem openStore_leads (answers : OpenAnswers) (path : String) (seed : Standard)
    (file : Option StoreFile) :
    Leads (storeSem path) (openProg seed) file (.ret (openStore answers path seed file).2)
      (openStore answers path seed file).1 := by
  unfold openStore
  have hrecognized : storeSem path file ⟨.recognize, recognize answers.recognize path file⟩ file :=
    ⟨rfl, _, rfl⟩
  refine .step hrecognized ?_
  cases recognize answers.recognize path file with
  | error e => exact .refl _ _
  | ok _ =>
      cases answers.engineOpen with
      | error e =>
          have hfailed : storeSem path file ⟨.engineOpen, .error e⟩ file := rfl
          exact .step hfailed (.refl _ _)
      | ok _ =>
          dsimp only
          generalize hopened : engineOpen file = opened
          have hengine : storeSem path file ⟨.engineOpen, .ok ()⟩ (some opened) :=
            congrArg some hopened.symm
          refine .step hengine ?_
          cases answers.registerTable with
          | error e =>
              have hfailed : storeSem path (some opened) ⟨.registerTable, .error e⟩ (some opened) :=
                rfl
              exact .step hfailed (.refl _ _)
          | ok _ =>
              dsimp only
              generalize hregistered : registerTable opened = registered
              have hregister : storeSem path (some opened) ⟨.registerTable, .ok ()⟩
                  (some registered) := congrArg some hregistered.symm
              refine .step hregister ?_
              cases answers.matchRecords with
              | error e =>
                  have hfailed : storeSem path (some registered) ⟨.matchRecords, .error e⟩
                      (some registered) := rfl
                  exact .step hfailed (.refl _ _)
              | ok _ =>
                  have hrecords : storeSem path (some registered)
                      ⟨.matchRecords, .ok registered.rows⟩ (some registered) := ⟨rfl, rfl⟩
                  refine .step hrecords ?_
                  change Leads _ (if registered.rows.isEmpty then openAssert seed else _) _ _ _
                  dsimp only
                  by_cases hempty : registered.rows.isEmpty = true
                  · rw [if_pos hempty, if_pos hempty]
                    cases answers.assertKeyed with
                    | error e =>
                        have hfailed : storeSem path (some registered) ⟨.assertKeyed seed, .error e⟩
                            (some registered) := rfl
                        exact .step hfailed (.refl _ _)
                    | ok _ =>
                        have hseeded : storeSem path (some registered) ⟨.assertKeyed seed, .ok ()⟩
                            (some (assertKeyed registered seed)) := rfl
                        exact .step hseeded (.refl _ _)
                  · rw [if_neg hempty, if_neg hempty]
                    exact .refl _ _

/-! ## 4. An existing file -/

section Existing

variable {path : String} {seed row : Standard} {file : StoreFile} {es : List StoreEvent}
  {result : Except StoreError Unit} {after : Option StoreFile}

/-- Registering the family of a current store again changes nothing. -/
theorem IsStandard2.registerTable_eq (h : IsStandard2 file.content row) :
    registerTable file = file := by
  unfold registerTable
  rw [h.catalog]
  rfl

/-- An accepted file is opened by the engine without being changed. -/
theorem open_accepted (h : IsStandard2 file.content row)
    (hrun : Executes (storeSem path) (openEngine seed) (some file) es (.ret result) after) :
    after = some file := by
  obtain ⟨opened, _, _, rfl, hsem, hrun⟩ := hrun.ask_inv
  cases opened with
  | error e =>
      cases hsem
      exact hrun.ret_inv.2.2
  | ok _ =>
      cases hsem
      obtain ⟨registered, _, _, rfl, hsem, hrun⟩ := hrun.ask_inv
      cases registered with
      | error e =>
          cases hsem
          exact hrun.ret_inv.2.2
      | ok _ =>
          cases hsem
          rw [show (some (engineOpen (some file))).map registerTable = some file from
            congrArg some h.registerTable_eq] at hrun
          obtain ⟨records, _, _, rfl, hsem, hrun⟩ := hrun.ask_inv
          cases records with
          | error e =>
              cases hsem
              exact hrun.ret_inv.2.2
          | ok records =>
              obtain ⟨rfl, hrows⟩ := hsem
              have hone : records = [row] := hrows.trans h.rows
              subst hone
              exact hrun.ret_inv.2.2

/-- An open of an existing file succeeds only on a current Standard2 store, whose row it leaves and
    then reads, whatever the seed; every other file is refused as unrecognised, before the engine is
    opened and unchanged. -/
theorem open_recognizes
    (hrun : Executes (storeSem path) (openProg seed) (some file) es (.ret result) after) :
    (result = .ok () → ∃ row, IsStandard2 file.content row ∧ after = some file ∧
      theStandard (rowsAt after) = .ok row) ∧
    ((¬ ∃ row, IsStandard2 file.content row) → after = some file ∧
      ∃ reason, result = .error (.unrecognized path reason) ∧ es = [⟨.recognize, result⟩]) := by
  obtain ⟨recognized, _, rest, rfl, ⟨rfl, answers, hrecognized⟩, hrun⟩ := hrun.ask_inv
  cases recognized with
  | error e =>
      obtain ⟨rfl, hresult, rfl⟩ := hrun.ret_inv
      cases hresult
      obtain ⟨reason, rfl⟩ := recognize_error hrecognized.symm
      exact ⟨fun h => (by cases h), fun _ => ⟨rfl, reason, rfl, rfl⟩⟩
  | ok _ =>
      obtain ⟨_, row, hrow⟩ := (recognize_ok_iff answers path file).mp hrecognized.symm
      have hafter := open_accepted hrow hrun
      refine ⟨fun _ => ⟨row, hrow, hafter, ?_⟩, fun hno => absurd ⟨row, hrow⟩ hno⟩
      rw [hafter, show rowsAt (some file) = file.content.rows from rfl, hrow.rows]
      rfl

end Existing

/-- No step of a recognition fails. -/
def RecognizeAnswers.working : RecognizeAnswers :=
  ⟨.ok (), .ok (), .ok (), .ok (), .ok (), .ok (), .ok (), .ok (), fun _ => true⟩

/-- No step of an open fails. -/
def OpenAnswers.working : OpenAnswers := ⟨.working, .ok (), .ok (), .ok (), .ok ()⟩

/-- A store that needs repair keeps its row, and a store of an older schema is refused. -/
theorem open_recognizes_both :
    let current : Standard := ⟨⟨"m.sock", "o.sock", "f.sock"⟩, true⟩
    let seed : Standard := ⟨⟨"n.sock", "p.sock", "g.sock"⟩, false⟩
    let killed : StoreFile := { StoreFile.keeping current with opening := .repairAborted }
    let older : StoreFile :=
      ⟨.readable, { killed.content with metadata := .ok [("schema_version", 1)] }⟩
    (∃ row, IsStandard2 killed.content row ∧
      (openStore .working "m.sema" seed (some killed)).1 = some killed ∧
      theStandard (rowsAt (openStore .working "m.sema" seed (some killed)).1) = .ok row) ∧
    (openStore .working "m.sema" seed (some older)).1 = some older := by
  intro current seed killed older
  obtain ⟨_, hkilled⟩ := openStore_leads .working "m.sema" seed (some killed)
  obtain ⟨_, holder⟩ := openStore_leads .working "m.sema" seed (some older)
  refine ⟨(open_recognizes hkilled).1 rfl, ((open_recognizes holder).2 ?_).1⟩
  rintro ⟨row, ⟨_, hmetadata, hversion⟩, _, _, _⟩
  cases hmetadata
  cases hversion

end MessageNexus
