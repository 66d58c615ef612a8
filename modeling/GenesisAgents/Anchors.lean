import GenesisAgents.AuditChain

/-! The daily anchors of `anchor_logger.py`, and the stores that its objects choose. -/

namespace GenesisAgents

open Value

/-! `_build_merkle_tree` -/

structure MerkleTree where
  root : String
  leaves : List String
  tree : List (List String)

namespace Auditing

variable (A : Auditing)

/-- The parents of a level; an odd node is duplicated. -/
def nextLevel : List String → List String
  | [] => []
  | [left] => [A.sha256 (left ++ left)]
  | left :: right :: rest => A.sha256 (left ++ right) :: nextLevel rest

/-- The levels from `current` on, in at most that many more rounds. -/
def merkleLevels : Nat → List String → List (List String)
  | 0, current => [current]
  | rounds + 1, current =>
    if 1 < current.length then current :: merkleLevels rounds (A.nextLevel current) else [current]

def buildMerkleTree (leafHashes : List String) : MerkleTree :=
  if leafHashes.isEmpty then { root := A.sha256 "empty", leaves := [], tree := [] }
  else
    let levels := A.merkleLevels leafHashes.length leafHashes
    { root := (levels.getLast?.bind List.head?).getD "", leaves := leafHashes, tree := levels }

theorem nextLevel_length (level : List String) :
    (A.nextLevel level).length = (level.length + 1) / 2 := by
  induction level using nextLevel.induct with
  | case1 => rfl
  | case2 left => simp [nextLevel]
  | case3 left right rest halved =>
    rw [nextLevel, List.length_cons, halved, List.length_cons, List.length_cons]
    omega

/-- The rounds suffice: the last level is one node. -/
theorem merkleLevels_ends (rounds : Nat) : ∀ current : List String, current ≠ [] →
    current.length ≤ rounds + 1 → ∃ root, (A.merkleLevels rounds current).getLast? = some [root] := by
  have single (current : List String) (present : current ≠ []) (short : current.length ≤ 1) :
      ∃ root, current = [root] := by
    have filled := List.length_pos_iff.mpr present
    exact List.length_eq_one_iff.mp (by omega)
  induction rounds with
  | zero =>
    intro current present short
    rcases single current present short with ⟨root, rfl⟩
    exact ⟨root, rfl⟩
  | succ rounds later =>
    intro current present short
    rw [merkleLevels]
    split
    · have halved := A.nextLevel_length current
      have next : A.nextLevel current ≠ [] := List.length_pos_iff.mp (by omega)
      rcases later _ next (by omega) with ⟨root, ends⟩
      refine ⟨root, ?_⟩
      rw [List.getLast?_cons, ends]
      rfl
    · rcases single current present (by omega) with ⟨root, rfl⟩
      exact ⟨root, rfl⟩

theorem root_of_last (leafHashes : List String) (present : leafHashes ≠ []) :
    (A.buildMerkleTree leafHashes).tree.getLast? = some [(A.buildMerkleTree leafHashes).root] := by
  rcases A.merkleLevels_ends leafHashes.length leafHashes present (Nat.le_succ _) with ⟨root, ends⟩
  have filled : leafHashes.isEmpty = false := by simpa using present
  rw [buildMerkleTree, filled]
  simp [ends]

end Auditing

/-- What `datetime` makes of dates and of clock readings, in UTC. -/
structure Calendar where
  /-- The first second of a `%Y-%m-%d` day; `none` when `strptime` raises. -/
  strptime : String → Option Int
  /-- The value of a float, unless it is nan or infinite. -/
  seconds : Timestamp → Option Rat
  /-- `strftime("%Y-%m-%d")` -/
  strftime : Timestamp → String
  isoformat : Timestamp → String

structure AuditContent where
  db : AuditDb
  /-- The sessions with columns that `verify_chain` raises on. -/
  raises : String → Bool

def AuditContent.empty : AuditContent := { db := .empty, raises := fun _ => false }

inductive AuditFile where
  | missing
  /-- SQLite does not open it. -/
  | closed
  /-- A query raises. -/
  | damaged (exc : String)
  | database (content : AuditContent)

/-- A line of the JSONL file: blank or malformed, or what `json.loads` makes of it. -/
inductive AnchorLine where
  | skipped
  | record (value : Value)

inductive ReadEnd where
  | eof
  | osError
  /-- The next bytes are no UTF-8. -/
  | undecodable
  deriving DecidableEq

structure JsonlFile where
  lines : List AnchorLine
  ending : ReadEnd

/-- A row of `genesis_audit_anchors`; `leaf_hashes` is any JSON. -/
structure AnchorRow where
  anchorDate : String
  merkleRoot : String
  sessionCount : Int
  actionCount : Int
  leafHashes : Value
  computedAt : String

/-- The environment, the database and the file system. A path is its text. -/
structure Host where
  getenv : String → Option String
  /-- `pg_store.postgres_selected()` -/
  postgresSelected : Bool
  /-- The audit tables, or the error that reaching them raises. -/
  postgres : Except String AuditContent
  /-- `genesis_audit_anchors` in the order of its ids; `none` when it cannot be read. -/
  anchorRows : Option (List AnchorRow)
  files : String → AuditFile
  /-- `AuditLog.connect` can write there. -/
  writable : String → Bool
  jsonl : String → Option JsonlFile

/-- `(os.getenv(name) or "").strip()`, unless empty -/
def Host.configured (w : Host) (name : String) : Option String :=
  let text := strip ((w.getenv name).getD "")
  if text = "" then none else some text

/-- The backend of an `AuditLog`. -/
structure AuditLog where
  pg : Bool
  dbPath : Option String

/-- `AuditLog.__init__` -/
def AuditLog.init (w : Host) (dbPath : Option String) : Except String AuditLog :=
  let pg := dbPath.isNone && w.postgresSelected
  let configured := w.configured "GENESIS_AUDIT_DB_PATH"
  if dbPath.isNone && configured.isNone && !pg then
    .error ("GENESIS_AUDIT_DB_PATH or db_path is required (or configure " ++
      "GENESIS_JOB_DATABASE_URL to use the Postgres audit chain)")
  else .ok { pg := pg, dbPath := dbPath <|> configured }

structure AnchorLogger where
  pg : Bool
  dbPath : Option String
  anchorStore : Option String

/-- `AnchorLogger.__init__` -/
def AnchorLogger.init (w : Host) (dbPath anchorStorePath : Option String) :
    Except String AnchorLogger :=
  let pg := dbPath.isNone && anchorStorePath.isNone && w.postgresSelected
  let configuredDb := w.configured "GENESIS_AUDIT_DB_PATH"
  let configuredAnchor := w.configured "GENESIS_ANCHOR_STORE_PATH"
  if !pg && (dbPath.isNone && configuredDb.isNone) then
    .error "GENESIS_AUDIT_DB_PATH or db_path is required"
  else if !pg && (anchorStorePath.isNone && configuredAnchor.isNone) then
    .error "GENESIS_ANCHOR_STORE_PATH or anchor_store_path is required"
  else
    .ok { pg := pg, dbPath := dbPath <|> configuredDb
          anchorStore := anchorStorePath <|> configuredAnchor }

/-! `AuditLog.connect`, which creates a missing file -/

def Host.connectFile (w : Host) (path : String) : Option AuditContent :=
  if w.writable path then
    match w.files path with
    | .missing => some .empty
    | .database content => some content
    | .closed => none
    | .damaged _ => none
  else none

/-- What `verify_chain` and `log` of the connected object work on; `none` when `connect` raises. -/
def Host.connect (w : Host) (log : AuditLog) : Option AuditContent :=
  if log.pg then w.postgres.toOption else log.dbPath.bind w.connectFile

/-- `verify_chain` returns `False`, or raises. -/
def AuditContent.broken (A : Auditing) (content : AuditContent) (sessionId : String) : Bool :=
  content.raises sessionId || !verifyChain A content.db sessionId

/-- What comes of opening the store of an `AnchorLogger` for reading. -/
inductive StoreRead where
  /-- `_open_db` returns `None`. -/
  | missing
  /-- `Path.as_uri` raises on a relative path. -/
  | relative
  | raises (exc : String)
  | content (content : AuditContent)

def Host.readFile (w : Host) (path : String) : StoreRead :=
  match w.files path with
  | .missing => .missing
  | file =>
    if !path.startsWith "/" then .relative
    else match file with
      | .missing => .missing
      | .closed => .missing
      | .damaged exc => .raises exc
      | .database content => .content content

def Host.readStore (w : Host) (al : AnchorLogger) : StoreRead :=
  if al.pg then
    match w.postgres with
    | .ok content => .content content
    | .error exc => .raises exc
  else
    match al.dbPath with
    | none => .missing
    | some path => w.readFile path

def Calendar.onDate (cal : Calendar) (date : String) (timestamp : Timestamp) : Bool :=
  match cal.strptime date, cal.seconds timestamp with
  | some start, some seconds => start ≤ seconds && seconds < start + 86400
  | _, _ => false

/-- `_query_date_rows` -/
def queryDateRows (cal : Calendar) (db : AuditDb) (date : String) : List AuditRow :=
  (db.rows.filter fun row => cal.onDate date row.timestamp).insertionSort (·.id ≤ ·.id)

def datedSessions (cal : Calendar) (db : AuditDb) (date : String) : List String :=
  ((queryDateRows cal db date).map AuditRow.sessionId).eraseDups

/-- Why a call of the `AnchorLogger` raises. -/
inductive AnchorRefusal where
  | valueError
  | anchorError (message : String)
  | storeError (exc : String)
  /-- The stored record is none that the code can use. -/
  | badRecord
  deriving DecidableEq

structure Anchor where
  date : String
  sessionCount : Nat
  actionCount : Nat
  leafHashes : List String
  merkleRoot : String
  computedAt : String

/-- The record of `compute_daily_anchor` over the rows of a day. -/
def anchorOf (A : Auditing) (date computedAt : String) (rows : List AuditRow) : Anchor :=
  let leafHashes := rows.map AuditRow.rowHash
  { date := date, sessionCount := (rows.map AuditRow.sessionId).eraseDups.length
    actionCount := rows.length, leafHashes := leafHashes
    merkleRoot := (A.buildMerkleTree leafHashes).root, computedAt := computedAt }

namespace Host

variable (A : Auditing) (cal : Calendar)

/-- `compute_daily_anchor`; `now` is what the clock shows. -/
def computeDailyAnchor (w : Host) (al : AnchorLogger) (date? : Option String) (now : Timestamp) :
    Except AnchorRefusal Anchor :=
  let date := date?.getD (cal.strftime now)
  if (cal.strptime date).isNone then .error .valueError
  else
    match w.readStore al with
    | .missing =>
      .error (.anchorError ("cannot compute the anchor for " ++ date ++ ": the audit database at " ++
        al.dbPath.getD "None" ++ " is missing or unreadable"))
    | .relative => .error .valueError
    | .raises exc =>
      .error (.anchorError ("cannot compute the anchor for " ++ date ++
        (if al.pg then ": the audit chain" else ": the audit database") ++ " is unreadable (" ++
        exc ++ ")"))
    | .content content =>
      .ok (anchorOf A date (cal.isoformat now) (queryDateRows cal content.db date))

/-- `_sessions_on` -/
def sessionsOn (w : Host) (al : AnchorLogger) (date : String) : Except AnchorRefusal (List String) :=
  match w.readStore al with
  | .missing => .ok []
  | .relative => .error .valueError
  | .raises exc => .error (.storeError exc)
  | .content content => .ok (datedSessions cal content.db date)

/-- `AuditLog(self._db_path)`, connected -/
def reverifier (w : Host) (al : AnchorLogger) : Option AuditContent :=
  (AuditLog.init w al.dbPath).toOption.bind w.connect

/-- `_broken_sessions` -/
def brokenSessions (w : Host) (al : AnchorLogger) (date : String) :
    Except AnchorRefusal (List String) :=
  match w.reverifier al with
  -- unverifiable is not verified
  | none => w.sessionsOn cal al date
  | some content => (w.sessionsOn cal al date).map (List.filter (content.broken A))

end Host

/-- `_row_to_anchor` -/
def rowToAnchor (row : AnchorRow) : Except AnchorRefusal Value :=
  match listOr row.leafHashes with
  | some leafHashes =>
    .ok (dict [("date", str row.anchorDate), ("session_count", int row.sessionCount),
      ("action_count", int row.actionCount), ("leaf_hashes", list leafHashes),
      ("merkle_root", str row.merkleRoot), ("computed_at", str row.computedAt)])
  | none => .error .badRecord

/-- The loop of `get_anchor` over the lines of the file. -/
def findAnchor (date : String) (ending : ReadEnd) : List AnchorLine → Except AnchorRefusal (Option Value)
  | [] => if ending = .undecodable then .error .badRecord else .ok none
  | .skipped :: rest => findAnchor date ending rest
  | .record v :: rest =>
    if !v.isDict then .error .badRecord
    else if (v.get "date").pyEq (str date) then .ok (some v)
    else findAnchor date ending rest

/-- The dict that `record_anchor` writes as a line. -/
def Anchor.value (anchor : Anchor) : Value :=
  dict [("date", str anchor.date), ("session_count", int anchor.sessionCount),
    ("action_count", int anchor.actionCount), ("leaf_hashes", list (anchor.leafHashes.map str)),
    ("merkle_root", str anchor.merkleRoot), ("computed_at", str anchor.computedAt)]

def Anchor.row (anchor : Anchor) : AnchorRow :=
  { anchorDate := anchor.date, merkleRoot := anchor.merkleRoot, sessionCount := anchor.sessionCount
    actionCount := anchor.actionCount, leafHashes := list (anchor.leafHashes.map str)
    computedAt := anchor.computedAt }

/-- The insert takes it: the counts are `integer` columns, and no text holds a NUL. -/
def Anchor.storable (anchor : Anchor) : Bool :=
  anchor.sessionCount ≤ 2147483647 && anchor.actionCount ≤ 2147483647 &&
    (anchor.date :: anchor.merkleRoot :: anchor.computedAt :: anchor.leafHashes).all fun text =>
      !text.toList.contains (Char.ofNat 0)

/-- One more line, which a reader gets to see if it gets to the end. -/
def JsonlFile.add (file : JsonlFile) (value : Value) : JsonlFile :=
  if file.ending = .eof then { file with lines := file.lines ++ [.record value] } else file

namespace Host

/-- `get_anchor` -/
def getAnchor (w : Host) (al : AnchorLogger) (date : String) : Except AnchorRefusal (Option Value) :=
  if al.pg then
    match w.anchorRows.bind (List.find? fun row => row.anchorDate == date) with
    | none => .ok none
    | some row => (rowToAnchor row).map some
  else
    match al.anchorStore.bind w.jsonl with
    | none => .ok none
    | some file => findAnchor date file.ending file.lines

/-- `record_anchor`; in a store that cannot take the record it raises. -/
def recordAnchor (w : Host) (al : AnchorLogger) (anchor : Anchor) : Host :=
  if al.pg then
    if anchor.storable then { w with anchorRows := w.anchorRows.map (· ++ [anchor.row]) } else w
  else
    match al.anchorStore with
    | none => w
    | some path =>
      let file := (w.jsonl path).getD { lines := [], ending := .eof }
      { w with
        jsonl := fun other => if other = path then some (file.add anchor.value) else w.jsonl other }

end Host

/-- What `verify_anchor` returns. -/
structure AnchorVerdict where
  date : String
  anchored : Bool
  storedRoot : Value
  recomputedRoot : String
  rowsIntact : Bool
  brokenSessions : List String
  matched : Bool
  tampered : Bool

/-- `stored["merkle_root"] if stored else ""`; a record with a date is not empty. -/
def storedRoot : Option Value → Except AnchorRefusal Value
  | none => .ok (str "")
  | some record =>
    match record.get? "merkle_root" with
    | some root => .ok root
    | none => .error .badRecord

def Value.isStr : Value → Bool
  | str _ => true
  | _ => false

def anchorVerdict (date : String) (stored : Option Value) (storedRoot : Value)
    (recomputedRoot : String) (broken : List String) : Except AnchorRefusal AnchorVerdict :=
  let rowsIntact := broken.isEmpty
  let rootsMatch := stored.isSome && storedRoot.pyEq (str recomputedRoot)
  let matched := rootsMatch && rowsIntact
  let tampered := stored.isSome && !matched
  -- the warning slices the stored root
  if tampered && !storedRoot.isStr then .error .badRecord
  else
    .ok { date := date, anchored := stored.isSome, storedRoot := storedRoot
          recomputedRoot := recomputedRoot, rowsIntact := rowsIntact, brokenSessions := broken
          matched := matched, tampered := tampered }

/-- `verify_anchor` -/
def Host.verifyAnchor (A : Auditing) (cal : Calendar) (w : Host) (al : AnchorLogger) (date : String)
    (now : Timestamp) : Except AnchorRefusal AnchorVerdict := do
  let stored ← w.getAnchor al date
  let root ← storedRoot stored
  let live ← w.computeDailyAnchor A cal al (some date) now
  let broken ← w.brokenSessions A cal al date
  anchorVerdict date stored root live.merkleRoot broken

end GenesisAgents
