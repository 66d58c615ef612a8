import GenesisAgents.Value
import GenesisAgents.Library.Runs
import Mathlib.Data.List.Sort

/-! The append-only log of `audit.py`: what `AuditLog.log` writes, and `AuditLog.verify_chain`. -/

namespace GenesisAgents

open Value

/-- A float, by its `repr`. -/
structure Timestamp where
  repr : String
  plain : ':' ∉ repr.toList

/-- What the log takes from outside. -/
structure Auditing where
  /-- `hashlib.sha256(text.encode("utf-8")).hexdigest()` -/
  sha256 : String → String
  /-- `str.lower` -/
  lower : String → String
  /-- The string case of `_sanitize`. -/
  redactText : String → String
  /-- It raises: `urlsplit` or `urlencode` does not take the text. -/
  refusesText : String → Bool

structure AuditRow where
  id : Int
  sessionId : String
  actionType : String
  toolName : String
  inputsJson : String
  outputsJson : String
  costCents : Int
  error : String
  timestamp : Timestamp
  prevHash : String
  rowHash : String
  /-- `NULL` in a row of the first schema. -/
  inputsDigest : Option String
  outputsDigest : Option String
  schemaVersion : Nat

/-- A row of `audit_chain_heads`. -/
structure ChainHead where
  lastRowId : Int
  lastRowHash : String
  rowCount : Int

structure AuditDb where
  nextId : Int
  rows : List AuditRow
  heads : String → Option ChainHead

def AuditDb.empty : AuditDb := { nextId := 1, rows := [], heads := fun _ => none }

/-- The arguments of `log`, with the clock it reads and the ids its sequence skips. -/
structure LogCall where
  sessionId : String
  actionType : String
  toolName : String
  inputs : Value
  outputs : Value
  costCents : Int
  error : String
  timestamp : Timestamp
  skippedIds : Nat
  /-- Encoding, the driver or the database refuses the row: a lone surrogate, a NUL, an integer out of range,
  a full disk, a lost connection. -/
  refused : Bool := false

def sensitiveKeys : List String :=
  ["api_key", "token", "password", "secret", "key", "authorization", "bearer", "credential",
   "passwd", "passphrase"]

namespace Auditing

variable (A : Auditing)

def isSensitive (parentKey : String) : Bool :=
  sensitiveKeys.any fun s => isSubstring s (A.lower parentKey)

mutual
def sanitize (parentKey : String) (v : Value) : Value :=
  if A.isSensitive parentKey then str "[REDACTED]"
  else match v with
    | dict kvs => dict (sanitizeItems kvs)
    | list xs => list (sanitizeList parentKey xs)
    | str s => str (A.redactText s)
    | v => v
def sanitizeList (parentKey : String) : List Value → List Value
  | [] => []
  | x :: xs => sanitize parentKey x :: sanitizeList parentKey xs
def sanitizeItems : List (String × Value) → List (String × Value)
  | [] => []
  | (k, v) :: rest => (k, sanitize k v) :: sanitizeItems rest
end

def sanitizeInputs (inputs : Value) : Value := if inputs.isDict then A.sanitize "" inputs else dict []

mutual
/-- `_sanitize` raises, under a key that is not sensitive. -/
def refuses : Value → Bool
  | dict kvs => refusesItems kvs
  | list xs => refusesList xs
  | str s => A.refusesText s
  | _ => false
def refusesList : List Value → Bool
  | [] => false
  | x :: xs => refuses x || refusesList xs
def refusesItems : List (String × Value) → Bool
  | [] => false
  | (k, v) :: rest => (!A.isSensitive k && refuses v) || refusesItems rest
end

/-- `_sanitize` raises on the inputs or the outputs of a call. -/
def refusesCall (call : LogCall) : Bool :=
  (call.inputs.isDict && A.refuses call.inputs) || A.refuses call.outputs

/-- `_digest` -/
def digest (text : String) : String := if text = "" then "" else A.sha256 text

def payload (id : Int) (sessionId actionType toolName : String) (costCents : Int)
    (timestamp : Timestamp) (prevHash inputs outputs : String) : String :=
  String.intercalate ":"
    [toString id, sessionId, actionType, toolName, toString costCents, timestamp.repr, prevHash,
     inputs, outputs]

/-- `_row_hash` over the digests and `_row_hash_v1` over the raw texts share their format. -/
def rowHash (id : Int) (sessionId actionType toolName : String) (costCents : Int)
    (timestamp : Timestamp) (prevHash inputs outputs : String) : String :=
  A.sha256 (payload id sessionId actionType toolName costCents timestamp prevHash inputs outputs)

end Auditing

open Auditing

/-- `str(s)` of a column that may be `NULL` -/
def columnText (s : Option String) : String := s.getD "None"

def AuditRow.payload (row : AuditRow) : String :=
  match row.inputsDigest with
  | none =>
    Auditing.payload row.id row.sessionId row.actionType row.toolName row.costCents row.timestamp
      row.prevHash row.inputsJson row.outputsJson
  | some inputsDigest =>
    Auditing.payload row.id row.sessionId row.actionType row.toolName row.costCents row.timestamp
      row.prevHash inputsDigest (columnText row.outputsDigest)

/-- `SELECT ... WHERE session_id = ? ORDER BY id` -/
def sessionRows (rows : List AuditRow) (sessionId : String) : List AuditRow :=
  (rows.filter (·.sessionId = sessionId)).insertionSort (·.id ≤ ·.id)

namespace AuditDb

variable (A : Auditing)

def lastRowHash (db : AuditDb) (sessionId : String) : String :=
  ((sessionRows db.rows sessionId).getLast?.map AuditRow.rowHash).getD ""

def nextHead (old : Option ChainHead) (row : AuditRow) : ChainHead :=
  { lastRowId := row.id, lastRowHash := row.rowHash
    rowCount := (old.map ChainHead.rowCount).getD 0 + 1 }

/-- The row that `log` appends. -/
def newRow (db : AuditDb) (call : LogCall) (inputsJson outputsJson : String) : AuditRow :=
  let id := db.nextId + call.skippedIds
  let prevHash := db.lastRowHash call.sessionId
  { id := id, sessionId := call.sessionId, actionType := call.actionType, toolName := call.toolName
    inputsJson := inputsJson, outputsJson := outputsJson, costCents := call.costCents
    error := call.error, timestamp := call.timestamp, prevHash := prevHash
    rowHash := A.rowHash id call.sessionId call.actionType call.toolName call.costCents
      call.timestamp prevHash (A.digest inputsJson) (A.digest outputsJson)
    inputsDigest := some (A.digest inputsJson), outputsDigest := some (A.digest outputsJson)
    schemaVersion := 2 }

def append (db : AuditDb) (row : AuditRow) : AuditDb :=
  { nextId := row.id + 1
    rows := db.rows ++ [row]
    heads := fun sessionId =>
      if sessionId = row.sessionId then some (nextHead (db.heads sessionId) row)
      else db.heads sessionId }

/-- `json.dumps`, an integer of too many digits included. -/
def jsonText (v : Value) : Option String := if v.writable then dumps v else none

def outputsJson (outputs : Value) : Option String :=
  match A.sanitize "" outputs with
  | str s => some s
  | v => jsonText v

/-- The row's texts, when the call gets as far as its INSERT and through it. -/
def rowTexts (call : LogCall) : Option (String × String) :=
  if A.refusesCall call || call.refused then none
  else (jsonText (A.sanitizeInputs call.inputs)).bind fun inputsJson =>
    (outputsJson A call.outputs).map (Prod.mk inputsJson)

/-- `AuditLog.log`; `none` when it raises: nothing is written, or what is written is rolled back. -/
def log (db : AuditDb) (call : LogCall) : Option AuditDb :=
  (rowTexts A call).map fun texts => db.append (db.newRow A call texts.1 texts.2)

/-- A call of `log`, whether it raises or not. -/
def step (db : AuditDb) (call : LogCall) : AuditDb := (db.log A call).getD db

end AuditDb

def isRecorded (A : Auditing) (call : LogCall) : Bool := (AuditDb.rowTexts A call).isSome

/-! `verify_chain` -/

def headMatches (rows : List AuditRow) : Option ChainHead → Bool
  | none => true
  | some head => (rows.length : Int) == head.rowCount &&
    match rows.getLast? with
    | none => true
    | some last => last.rowHash == head.lastRowHash && last.id == head.lastRowId

def rowsVerify (A : Auditing) : String → List AuditRow → Bool
  | _, [] => true
  | expectedPrev, row :: rest =>
    row.prevHash == expectedPrev && A.sha256 row.payload == row.rowHash &&
      rowsVerify A row.rowHash rest

def verifyChain (A : Auditing) (db : AuditDb) (sessionId : String) : Bool :=
  headMatches (sessionRows db.rows sessionId) (db.heads sessionId) &&
    rowsVerify A "" (sessionRows db.rows sessionId)

end GenesisAgents
