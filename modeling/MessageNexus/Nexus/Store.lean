/-
  File:      MessageNexus/Nexus/Store.lean
  Subject:   THE STORE (`store.rs`): the one Standard record behind the engine, and how an
             existing file is recognised before an engine writer touches it.

  * `standards`, `standard`, `replaceStandard`, `changedConfiguration` -- reading and replacing
    the record (programs over the connection's operations);
  * `StoreFile` -- the content of a store file: the four tables `recognize` reads;
  * `recognize` -- the checks on an existing file, in the source's order and with its reasons;
  * `engineOpen`, `registerTable`, `assertKeyed`, `mutateKeyed` -- the four durable effects of
    sema-engine the program uses, each one commit;
  * `openStore` -- `MessageStore::open` on a file: what it leaves durable and whether it opened.
-/
import MessageNexus.Lib.Text
import MessageNexus.Nexus.Operation

namespace MessageNexus

open Interact

/-! ## 1. The record, through the engine -/

/-- `ReadsRows::standards`. -/
def standards : NexusProg (Except StoreError (List Standard)) := do
  let records ← perform .matchRecords
  return records.mapError .engine

/-- The single record of a key lookup. -/
def theStandard : List Standard → Except StoreError Standard
  | [standard] => .ok standard
  | _ => .error .stateInvariant

/-- `KeepsStandard::standard`. -/
def standard : NexusProg (Except StoreError Standard) := do
  let records ← standards
  return records.bind theStandard

/-- `KeepsStandard::replace_standard`. -/
def replaceStandard (standard : Standard) : NexusProg (Except StoreError Unit) := do
  let outcome ← perform (.mutateKeyed standard)
  return outcome.mapError .engine

section Rules

variable {Adm : List NexusEvent → NexusEvent → Prop} {G : List NexusEvent → NexusOp → Prop}

@[simp] theorem holds_standard {Q : Except StoreError Standard → List NexusEvent → Prop}
    (h : List NexusEvent) : Holds Adm G Q standard h ↔
      G h .matchRecords ∧ ∀ records : Except String (List Standard), Adm h ⟨.matchRecords, records⟩ →
        Q ((records.mapError .engine).bind theStandard) (h ++ [⟨.matchRecords, records⟩]) :=
  Iff.rfl

@[simp] theorem holds_replaceStandard {Q : Except StoreError Unit → List NexusEvent → Prop}
    (s : Standard) (h : List NexusEvent) : Holds Adm G Q (replaceStandard s) h ↔
      G h (.mutateKeyed s) ∧ ∀ outcome : Except String Unit, Adm h ⟨.mutateKeyed s, outcome⟩ →
        Q (outcome.mapError .engine) (h ++ [⟨.mutateKeyed s, outcome⟩]) :=
  Iff.rfl

end Rules

/-- `ChangesConfiguration::changed_configuration`. -/
def Standard.changedConfiguration (s : Standard) (configuration : Configuration)
    (isMeta : Bool) : Standard :=
  { configuration := configuration, metaConfigured := s.metaConfigured || isMeta }

/-! ## 2. The file -/

def standardTable : String := "message_nexus_standard"
def standardKey : String := "standard"
def standardFamily : String := "message-nexus-standard"
def schemaVersion : Nat := 2
def storageLayout : Nat := 7

/-- `SchemaHash`, named by the label it is the hash of. -/
structure SchemaHash where
  label : String
  deriving DecidableEq, Repr

def standardSchemaHash : SchemaHash := ⟨"message-nexus-standard-v2"⟩

/-- What `TableRegistration::identity` tells. -/
structure TableRegistration where
  tableName : String
  family : String
  schemaHash : SchemaHash
  deriving DecidableEq, Repr

/-- A table: its entries, or why it cannot be opened as a table of its type. A value that does
    not decode is the decoder's error. -/
abbrev Table (V : Type) := Except String (List (String × V))

/-- The content of a store file, as far as it is read. -/
structure StoreContent where
  metadata : Table Nat
  counters : Table (Except String Nat)
  catalog : Table (Except String TableRegistration)
  standards : Table (Except String Standard)

/-- What redb's read-only open says of a file. -/
inductive Opening where
  | readable
  | repairAborted
  | refused (error : String)
  deriving DecidableEq, Repr

structure StoreFile where
  opening : Opening
  content : StoreContent

/-- The value under a key of a table. -/
def tableGet {V : Type} (entries : List (String × V)) (key : String) : Option V :=
  (entries.find? fun entry => entry.1 == key).map (·.2)

/-- The rows a key lookup finds in the Standard table. -/
def StoreContent.rows (content : StoreContent) : List Standard :=
  match content.standards with
  | .error _ => []
  | .ok entries => entries.filterMap fun entry =>
      if entry.1 == standardKey then entry.2.toOption else none

def StoreFile.rows (file : StoreFile) : List Standard := file.content.rows

/-! ## 3. Recognising an existing file -/

/-- What the reads of a recognition meet: the read transaction of a readable file; for one that
    needs repair the source's open, lock and read, and the snapshot's two writes, its open and
    its read transaction; and which characters beyond ASCII `{:?}` prints as they are. -/
structure RecognizeAnswers where
  beginRead : Except String Unit
  openSource : Except String Unit
  lockShared : Except String Unit
  readToEnd : Except String Unit
  setLen : Except String Unit
  writeSnapshot : Except String Unit
  createDatabase : Except String Unit
  beginReadRecovered : Except String Unit
  printed : Char → Bool

/-- The read transaction, on the file or on a repaired snapshot of it. -/
def openForReading (answers : RecognizeAnswers) : Opening → Except String Unit
  | .readable => answers.beginRead
  | .repairAborted => do
      answers.openSource
      answers.lockShared
      answers.readToEnd
      answers.setLen
      answers.writeSnapshot
      answers.createDatabase
      answers.beginReadRecovered
  | .refused error => .error error

/-- The text of an optional number in a reason (`{:?}`). -/
def debugOption : Option Nat → String
  | some n => "Some(" ++ toString n ++ ")"
  | none => "None"

def checkVersion (content : StoreContent) : Except String Unit := do
  let metadata ← content.metadata
  let version := tableGet metadata "schema_version"
  if version ≠ some schemaVersion then
    throw ("schema version " ++ debugOption version ++ ", expected 2")

def checkLayout (content : StoreContent) : Except String Unit := do
  let counters ← content.counters
  let layout ← match tableGet counters "engine_storage_layout" with
    | some bytes => bytes.map some
    | none => pure none
  if layout ≠ some storageLayout then
    throw ("engine layout " ++ debugOption layout ++ ", expected 7")

/-- The loop over the catalog; the number of registrations, all of them Standard2. -/
def countCatalog (printed : Char → Bool) :
    List (String × Except String TableRegistration) → Nat → Except String Nat
  | [], count => .ok count
  | (key, value) :: rest, count => do
      let registration ← value
      if key ≠ standardTable ∨ registration.tableName ≠ standardTable
          ∨ registration.family ≠ standardFamily
          ∨ registration.schemaHash ≠ standardSchemaHash then
        throw ("foreign or historical family " ++ Text.debugText printed key)
      countCatalog printed rest (count + 1)

def checkCatalog (printed : Char → Bool) (content : StoreContent) : Except String Unit := do
  let catalog ← content.catalog
  let count ← countCatalog printed catalog 0
  if count ≠ 1 then throw "missing Standard2 family"

/-- The loop over the Standard table; the number of its rows, all of them at the one key. -/
def countStandards : List (String × Except String Standard) → Nat → Except String Nat
  | [], count => .ok count
  | (key, value) :: rest, count => do
      if key ≠ standardKey then throw "noncanonical Standard key"
      let _ ← value
      countStandards rest (count + 1)

def checkStandards (content : StoreContent) : Except String Unit := do
  let standards ← content.standards
  let count ← countStandards standards 0
  if count ≠ 1 then throw "missing or duplicate Standard row"

/-- `MessageStore::recognize`; a path without a file is fine. -/
def recognize (answers : RecognizeAnswers) (path : String) :
    Option StoreFile → Except StoreError Unit
  | none => .ok ()
  | some file => Except.mapError (StoreError.unrecognized path) do
      openForReading answers file.opening
      checkVersion file.content
      checkLayout file.content
      checkCatalog answers.printed file.content
      checkStandards file.content

/-! ## 4. Opening -/

/-- What `Engine::open` leaves: the file that is there, or a new one without families. -/
def engineOpen : Option StoreFile → StoreFile
  | some file => file
  | none => ⟨.readable,
      { metadata := .ok [("schema_version", schemaVersion)]
        counters := .ok [("engine_storage_layout", .ok storageLayout)]
        catalog := .ok []
        standards := .error "Table 'message_nexus_standard' does not exist" }⟩

/-- `Engine::register_table` for the Standard family: it commits the catalog entry, once. -/
def registerTable (file : StoreFile) : StoreFile :=
  match file.content.catalog with
  | .error _ => file
  | .ok entries =>
    if (tableGet entries standardTable).isSome then file
    else
      { file with content := { file.content with
          catalog := .ok (entries ++
            [(standardTable, .ok ⟨standardTable, standardFamily, standardSchemaHash⟩)])
          standards := .ok [] } }

/-- `Engine::assert_keyed` at the Standard key. -/
def assertKeyed (file : StoreFile) (seed : Standard) : StoreFile :=
  match file.content.standards with
  | .error _ => file
  | .ok entries =>
      { file with content := { file.content with
          standards := .ok (entries ++ [(standardKey, .ok seed)]) } }

/-- `Engine::mutate_keyed` at the Standard key: the row there is replaced, in one commit. -/
def mutateKeyed (file : StoreFile) (standard : Standard) : StoreFile :=
  match file.content.standards with
  | .error _ => file
  | .ok entries =>
      { file with content := { file.content with
          standards := .ok (entries.map fun entry =>
            if entry.1 == standardKey then (standardKey, .ok standard) else entry) } }

/-- What the steps of an opening meet; a step that fails leaves nothing of its own behind. -/
structure OpenAnswers where
  recognize : RecognizeAnswers
  engineOpen : Except String Unit
  registerTable : Except String Unit
  matchRecords : Except String Unit
  assertKeyed : Except String Unit

/-- `MessageStore::open`: the file it leaves, and whether the store opened. -/
def openStore (answers : OpenAnswers) (path : String) (seed : Standard)
    (file : Option StoreFile) : Option StoreFile × Except StoreError Unit :=
  match recognize answers.recognize path file with
  | .error error => (file, .error error)
  | .ok () =>
    match answers.engineOpen with
    | .error error => (file, .error (.engine error))
    | .ok () =>
      let opened := engineOpen file
      match answers.registerTable with
      | .error error => (some opened, .error (.engine error))
      | .ok () =>
        let registered := registerTable opened
        match answers.matchRecords with
        | .error error => (some registered, .error (.engine error))
        | .ok () =>
          if registered.rows.isEmpty then
            match answers.assertKeyed with
            | .error error => (some registered, .error (.engine error))
            | .ok () => (some (assertKeyed registered seed), .ok ())
          else (some registered, .ok ())

end MessageNexus
