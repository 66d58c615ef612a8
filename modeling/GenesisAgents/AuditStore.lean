import GenesisAgents.AuditChain
import GenesisAgents.Library.CallTable

/-! `AuditLog.log` statement by statement, with any number of calls at once on one store. A call holds
the lock of its session from the first statement of its transaction to its end, reads what is
committed, and publishes its row and its head together. -/

namespace GenesisAgents

/-- How a backend serialises appends, and whether ROLLBACK gives ids back. -/
structure AuditBackend where
  lockKey : String → Int
  restoresIds : Bool
  /-- Only a store that is locked as a whole gives ids back. -/
  whole : restoresIds = true → ∀ sessionId other, lockKey sessionId = lockKey other

/-- `_sqlite_append_lock` and `BEGIN IMMEDIATE`: one writer; the id counter is a table of the store. -/
def sqliteBackend : AuditBackend :=
  { lockKey := fun _ => 0, restoresIds := true, whole := fun _ _ _ => rfl }

/-- `pg_advisory_xact_lock`: one writer a session key; a sequence is never rolled back. -/
def postgresBackend (advisoryKey : String → Int) : AuditBackend :=
  { lockKey := fun sessionId => advisoryKey ("genesis:audit:" ++ sessionId), restoresIds := false
    whole := nofun }

structure AuditEntry where
  call : LogCall
  inputsJson : String
  outputsJson : String

def pendingRow (A : Auditing) (entry : AuditEntry) (id : Int) (prevHash : String) : AuditRow :=
  { id := id, sessionId := entry.call.sessionId, actionType := entry.call.actionType
    toolName := entry.call.toolName, inputsJson := entry.inputsJson
    outputsJson := entry.outputsJson, costCents := entry.call.costCents, error := entry.call.error
    timestamp := entry.call.timestamp, prevHash := prevHash, rowHash := ""
    inputsDigest := some (A.digest entry.inputsJson)
    outputsDigest := some (A.digest entry.outputsJson), schemaVersion := 2 }

/-- `UPDATE ... SET row_hash`: `_row_hash` of the columns of the row. -/
def sealRow (A : Auditing) (row : AuditRow) : AuditRow :=
  { row with rowHash := A.sha256 row.payload }

def AuditDb.publish (db : AuditDb) (row : AuditRow) (head : ChainHead) : AuditDb :=
  { db with
    rows := db.rows ++ [row]
    heads := fun sessionId => if sessionId = row.sessionId then some head else db.heads sessionId }

/-- Where one call of `log` stands. From the insert on it knows the counter from before. -/
inductive AppendPhase where
  | encoded (entry : AuditEntry)
  | locked (entry : AuditEntry)
  | linked (entry : AuditEntry) (prevHash : String)
  | inserted (entry : AuditEntry) (row : AuditRow) (counter : Int)
  | hashed (entry : AuditEntry) (row : AuditRow) (counter : Int)
  | headed (entry : AuditEntry) (row : AuditRow) (counter : Int) (head : ChainHead)
  | committed (entry : AuditEntry) (row : AuditRow)
  | raised

namespace AppendPhase

def session? : AppendPhase → Option String
  | locked entry => some entry.call.sessionId
  | linked entry _ => some entry.call.sessionId
  | inserted entry _ _ => some entry.call.sessionId
  | hashed entry _ _ => some entry.call.sessionId
  | headed entry _ _ _ => some entry.call.sessionId
  | _ => none

def writtenEntry : AppendPhase → Option AuditEntry
  | encoded entry => some entry
  | locked entry => some entry
  | linked entry _ => some entry
  | inserted entry _ _ => some entry
  | hashed entry _ _ => some entry
  | headed entry _ _ _ => some entry
  | committed entry _ => some entry
  | raised => none

def committed? : AppendPhase → Option AuditRow
  | committed _ row => some row
  | _ => none

def counterAfter (B : AuditBackend) (nextId : Int) : AppendPhase → Int
  | inserted _ _ counter => if B.restoresIds then counter else nextId
  | hashed _ _ counter => if B.restoresIds then counter else nextId
  | headed _ _ counter _ => if B.restoresIds then counter else nextId
  | _ => nextId

end AppendPhase

/-- The committed store and the calls; `commits` are the calls in the order of their commits. -/
structure AuditState where
  db : AuditDb
  appends : List AppendPhase
  commits : List Nat

namespace AuditState

variable (A : Auditing) (B : AuditBackend)

def start : AuditState := { db := .empty, appends := [], commits := [] }

def isFree (σ : AuditState) (key : Int) : Bool :=
  σ.appends.all fun phase => phase.session?.map B.lockKey != some key

def move (σ : AuditState) (i : Nat) (phase : AppendPhase) : AuditState :=
  { σ with appends := σ.appends.set i phase }

/-- The redaction and `json.dumps` come before the transaction. -/
def encode (call : LogCall) : AppendPhase :=
  match AuditDb.rowTexts A call with
  | some texts => .encoded ⟨call, texts.1, texts.2⟩
  | none => .raised

def arrive (σ : AuditState) (call : LogCall) : AuditState :=
  { σ with appends := σ.appends ++ [encode A call] }

/-- The next statement of the transaction of a call; one that has to wait changes nothing. -/
def advance (σ : AuditState) (i : Nat) : AuditState :=
  match σ.appends[i]? with
  | some (.encoded entry) =>
    if isFree B σ (B.lockKey entry.call.sessionId) then σ.move i (.locked entry) else σ
  | some (.locked entry) => σ.move i (.linked entry (σ.db.lastRowHash entry.call.sessionId))
  | some (.linked entry prevHash) =>
    let id := σ.db.nextId + entry.call.skippedIds
    { σ.move i (.inserted entry (pendingRow A entry id prevHash) σ.db.nextId) with
      db := { σ.db with nextId := id + 1 } }
  | some (.inserted entry row counter) => σ.move i (.hashed entry (sealRow A row) counter)
  | some (.hashed entry row counter) =>
    σ.move i (.headed entry row counter (AuditDb.nextHead (σ.db.heads row.sessionId) row))
  | some (.headed entry row _ head) =>
    { db := σ.db.publish row head
      appends := σ.appends.set i (.committed entry row)
      commits := σ.commits ++ [i] }
  | _ => σ

/-- Any statement, the commit included, may raise instead; the transaction is rolled back. -/
def fail (σ : AuditState) (i : Nat) : AuditState :=
  match σ.appends[i]? with
  | some (.committed _ _) => σ
  | some .raised => σ
  | some phase =>
    { σ.move i .raised with
      db := { σ.db with nextId := phase.counterAfter B σ.db.nextId } }
  | none => σ

end AuditState

inductive AuditEvent where
  | arrive (call : LogCall)
  | advance (append : Nat)
  | fail (append : Nat)

def arrivals (events : List AuditEvent) : List LogCall :=
  events.filterMap fun
    | .arrive call => some call
    | _ => none

namespace AuditState

variable (A : Auditing) (B : AuditBackend)

def step (σ : AuditState) : AuditEvent → AuditState
  | .arrive call => σ.arrive A call
  | .advance append => σ.advance A B append
  | .fail append => σ.fail B append

def run (σ : AuditState) (events : List AuditEvent) : AuditState := Runs.run (step A B) σ events

def successes (σ : AuditState) : List AuditRow :=
  σ.commits.filterMap fun i => σ.appends[i]?.bind AppendPhase.committed?

end AuditState

end GenesisAgents
