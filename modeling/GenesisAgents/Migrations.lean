import GenesisAgents.Library.SortedPrefix
import Mathlib.Data.String.Basic
import Mathlib.Data.List.Sort

/-! The SQL migration runner `migrations/runner.py`, run by any number of processes against one
database: the advisory lock, the ledger, and one transaction for each file. -/

namespace GenesisAgents

structure Directory where
  files : List (String × List UInt8)
  named : (files.map Prod.fst).Nodup

structure Migration where
  filename : String
  checksum : String
  raw : List UInt8
  /-- The checksums of the content under either line-ending convention. -/
  equivalents : List String

/-- `raw.replace(b"\r\n", b"\n")` -/
def toLf : List UInt8 → List UInt8
  | 13 :: 10 :: rest => 10 :: toLf rest
  | byte :: rest => byte :: toLf rest
  | [] => []

/-- `lf.replace(b"\n", b"\r\n")` -/
def toCrlf (lf : List UInt8) : List UInt8 := lf.flatMap fun byte => if byte = 10 then [13, 10] else [byte]

/-- `equivalent_checksums`; `sha256` is that of `hashlib`. -/
def equivalentChecksums (sha256 : List UInt8 → String) (raw : List UInt8) : List String :=
  [sha256 raw, sha256 (toLf raw), sha256 (toCrlf (toLf raw))]

def isSql (filename : String) : Bool := ".sql".toList.isSuffixOf filename.toList

/-- Every `*.sql` in the directory, in lexical order. -/
def discover (sha256 : List UInt8 → String) (directory : Directory) : List Migration :=
  ((directory.files.filter fun file => isSql file.1).insertionSort fun file other =>
    file.1 ≤ other.1).map fun file =>
      { filename := file.1, checksum := sha256 file.2, raw := file.2
        equivalents := equivalentChecksums sha256 file.2 }

/-- A row of `genesis_schema_migrations`. -/
structure LedgerRow where
  filename : String
  checksum : String
  deriving DecidableEq

inductive MigrationFailure where
  /-- Filename, recorded checksum and checksum of the file. -/
  | checksumMismatch (drifted : List (String × String × String))
  | missingMigrationFile (vanished : List String)
  | outOfOrderMigration (highestApplied : String) (late : List String)
  /-- `MigrationError`: the lock is no longer held. -/
  | lostLock
  /-- The ledger has the file already. -/
  | uniqueViolation
  /-- An SQL error, a refused file or the end of the process, at any statement. -/
  | broken
  deriving DecidableEq

/-- The three errors of `reconcile`. -/
def MigrationFailure.isRefusal : MigrationFailure → Bool
  | checksumMismatch _ => true
  | missingMigrationFile _ => true
  | outOfOrderMigration _ _ => true
  | _ => false

def sortedNames (names : List String) : List String := names.insertionSort (· ≤ ·)

/-- `checksum[:12]…` -/
def shortSum (checksum : String) : String := String.ofList (checksum.toList.take 12) ++ "…"

def MigrationFailure.message : MigrationFailure → Option String
  | checksumMismatch drifted => some <|
    "refusing to run — an already-applied migration has been edited since it was applied (" ++
      "; ".intercalate (drifted.map fun (name, was, now) =>
        name ++ ": applied sha256=" ++ shortSum was ++ " file sha256=" ++ shortSum now) ++
      "). The database and this repository disagree about the schema. " ++
      "Do not edit an applied migration: add a new one. If the edit was intentional and " ++
      "the database really is correct, update the checksum in " ++
      "genesis_schema_migrations by hand, deliberately."
  | missingMigrationFile vanished => some <|
    "refusing to run — the ledger records migrations whose files are missing from the " ++
      "repository: " ++ ", ".intercalate vanished ++
      ". A fresh database can no longer be built to match production."
  | outOfOrderMigration highestApplied late => some <|
    "refusing to run — pending migrations sort before the highest applied one (" ++
      highestApplied ++ "): " ++ ", ".intercalate late ++ ". Applying them now would produce a " ++
      "schema no fresh database can reproduce. Renumber them to sort last."
  | lostLock => some <|
    "lost the migration advisory lock: this session no longer holds it, so another " ++
      "applier is no longer excluded. Re-run the migration."
  | _ => none

def driftOf (migrations : List Migration) (record : LedgerRow) : Option (String × String × String) :=
  (migrations.find? fun m => m.filename == record.filename).bind fun m =>
    if m.equivalents.contains record.checksum then none
    else some (record.filename, record.checksum, m.checksum)

def reconcile (migrations : List Migration) (applied : List LedgerRow) :
    Except MigrationFailure (List Migration) :=
  let drifted := applied.filterMap (driftOf migrations)
  let names := applied.map LedgerRow.filename
  let vanished := names.filter fun name => !(migrations.map Migration.filename).contains name
  let pending := migrations.filter fun m => decide (m.filename ∉ names)
  if !drifted.isEmpty then
    .error (.checksumMismatch (drifted.insertionSort fun drift other => drift.1 ≤ other.1))
  else if !vanished.isEmpty then .error (.missingMigrationFile (sortedNames vanished))
  else
    match names.max? with
    | none => .ok pending
    | some highestApplied =>
      let late := (pending.filter fun m => m.filename < highestApplied).map Migration.filename
      if late.isEmpty then .ok pending else .error (.outOfOrderMigration highestApplied late)

structure RunView where
  migrations : List Migration
  applied : List LedgerRow

def RunView.names (view : RunView) : List String := view.migrations.map Migration.filename

inductive MigratePhase where
  /-- `pg_advisory_lock` -/
  | waiting
  | locked
  | listed (migrations : List Migration)
  | loaded (view : RunView)
  /-- Past `reconcile`, between two files. -/
  | ready (view : RunView) (pending : List Migration)
  /-- The lock has been seen alive for this file. -/
  | asserted (view : RunView) (file : Migration) (rest : List Migration)
  /-- The body has run and the ledger row is inserted; nothing is committed. -/
  | inserted (view : RunView) (file : Migration) (rest : List Migration)
  | ended (view : RunView)
  | raised (failure : MigrationFailure)

structure Database where
  /-- `genesis_schema_migrations`, once it exists. -/
  ledger : Option (List LedgerRow)
  /-- The migrations whose bodies have taken effect, in the order of their commits. -/
  schema : List Migration

def Database.rows (db : Database) : List LedgerRow := db.ledger.getD []

def Database.names (db : Database) : List String := db.rows.map LedgerRow.filename

structure MigrateState where
  db : Database
  /-- The run whose session holds the advisory lock. -/
  lock : Option Nat
  runs : List MigratePhase

inductive MigrateEvent where
  /-- A process calls `migrate()`. -/
  | migrate
  | acquire (k : Nat)
  /-- `discover`, which finds the directory as it is now. -/
  | list (k : Nat) (directory : Directory)
  /-- The transaction of `_ensure_ledger` and `_read_ledger`. -/
  | load (k : Nat)
  | reconcile (k : Nat)
  /-- The head of the loop: `_assert_lock_alive`, or the return. -/
  | next (k : Nat)
  /-- The body of the file and the insert of its ledger row. -/
  | insert (k : Nat)
  | commit (k : Nat)
  /-- The session that holds the lock ends. -/
  | loseLock
  /-- A statement fails, or the process dies. -/
  | fail (k : Nat)

def MigrateEvent.run? : MigrateEvent → Option Nat
  | acquire k => some k
  | list k _ => some k
  | load k => some k
  | reconcile k => some k
  | next k => some k
  | insert k => some k
  | commit k => some k
  | fail k => some k
  | _ => none

def insertedName : MigratePhase → Option String
  | .inserted _ file _ => some file.filename
  | _ => none

def isDone : MigratePhase → Bool
  | .ended _ => true
  | .raised _ => true
  | _ => false

namespace MigrateState

def empty : MigrateState := ⟨⟨none, []⟩, none, []⟩

def setRun (σ : MigrateState) (k : Nat) (phase : MigratePhase) : MigrateState :=
  { σ with runs := σ.runs.set k phase }

def close (σ : MigrateState) (k : Nat) (phase : MigratePhase) : MigrateState :=
  { σ.setRun k phase with lock := if σ.lock = some k then none else σ.lock }

def goOn (σ : MigrateState) (k : Nat) : MigratePhase → MigrateState
  | .ready view [] => σ.close k (.ended view)
  | .ready view (file :: rest) =>
    if σ.lock = some k then σ.setRun k (.asserted view file rest) else σ.close k (.raised .lostLock)
  | _ => σ

/-- The primary key makes the insert wait for another one of the same file, and fail when that one has
committed. -/
def insertFile (σ : MigrateState) (k : Nat) : MigratePhase → MigrateState
  | .asserted view file rest =>
    if file.filename ∈ σ.db.names then σ.close k (.raised .uniqueViolation)
    else if σ.runs.any fun other => insertedName other == some file.filename then σ
    else σ.setRun k (.inserted view file rest)
  | _ => σ

def commitFile (σ : MigrateState) (k : Nat) : MigratePhase → MigrateState
  | .inserted view file rest =>
    { σ.setRun k (.ready view rest) with
      db := ⟨some (σ.db.rows ++ [⟨file.filename, file.checksum⟩]), σ.db.schema ++ [file]⟩ }
  | _ => σ

def stepRun (sha256 : List UInt8 → String) (σ : MigrateState) (k : Nat) (phase : MigratePhase) :
    MigrateEvent → MigrateState
  | .acquire _ =>
    match phase with
    | .waiting => if σ.lock.isNone then { σ.setRun k .locked with lock := some k } else σ
    | _ => σ
  | .list _ directory =>
    match phase with
    | .locked => σ.setRun k (.listed (discover sha256 directory))
    | _ => σ
  | .load _ =>
    match phase with
    | .listed migrations =>
      { σ.setRun k (.loaded ⟨migrations, σ.db.rows⟩) with db := ⟨some σ.db.rows, σ.db.schema⟩ }
    | _ => σ
  | .reconcile _ =>
    match phase with
    | .loaded view =>
      match GenesisAgents.reconcile view.migrations view.applied with
      | .ok pending => σ.setRun k (.ready view pending)
      | .error failure => σ.close k (.raised failure)
    | _ => σ
  | .next _ => σ.goOn k phase
  | .insert _ => σ.insertFile k phase
  | .commit _ => σ.commitFile k phase
  | .fail _ => if isDone phase then σ else σ.close k (.raised .broken)
  | _ => σ

def step (sha256 : List UInt8 → String) (σ : MigrateState) (event : MigrateEvent) : MigrateState :=
  match event with
  | .migrate => { σ with runs := σ.runs ++ [.waiting] }
  | .loseLock => { σ with lock := none }
  | event =>
    match event.run? with
    | none => σ
    | some k =>
      match σ.runs[k]? with
      | none => σ
      | some phase => σ.stepRun sha256 k phase event

end MigrateState

end GenesisAgents
