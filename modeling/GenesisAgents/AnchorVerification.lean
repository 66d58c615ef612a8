import GenesisAgents.Anchors
import GenesisAgents.AuditTamper

/-! `verify_anchor` over every configuration: the leaves and the re-verification of their rows go
through two objects, each of which chooses its own store. -/

namespace GenesisAgents

open Value

section

variable (A : Auditing) (cal : Calendar) (w : Host)

theorem mem_queryDateRows (db : AuditDb) (date : String) (row : AuditRow) :
    row ∈ queryDateRows cal db date ↔ row ∈ db.rows ∧ cal.onDate date row.timestamp = true := by
  rw [queryDateRows, List.mem_insertionSort, List.mem_filter]

theorem mem_datedSessions (db : AuditDb) (date sessionId : String) :
    sessionId ∈ datedSessions cal db date ↔
      ∃ row ∈ db.rows, cal.onDate date row.timestamp = true ∧ row.sessionId = sessionId := by
  rw [datedSessions, List.mem_eraseDups, List.mem_map]
  simp only [mem_queryDateRows, and_assoc]

/-- The file that the re-verification opens although the leaves come from Postgres. -/
def Host.misdirected (dbPath anchorStorePath : Option String) : Option String :=
  if dbPath.isNone && anchorStorePath.isNone && w.postgresSelected then
    w.configured "GENESIS_AUDIT_DB_PATH"
  else none

theorem anchorLogger_pg (dbPath anchorStorePath : Option String) (al : AnchorLogger)
    (accepted : AnchorLogger.init w dbPath anchorStorePath = .ok al)
    (selected : (dbPath.isNone && anchorStorePath.isNone && w.postgresSelected) = true) :
    al.pg = true ∧ al.dbPath = w.configured "GENESIS_AUDIT_DB_PATH" := by
  have missing : dbPath = none := by
    rw [Bool.and_eq_true, Bool.and_eq_true, Option.isNone_iff_eq_none] at selected
    exact selected.1.1
  rw [AnchorLogger.init, selected] at accepted
  obtain rfl := Except.ok.inj accepted
  simp [missing]

theorem anchorLogger_file (dbPath anchorStorePath : Option String) (al : AnchorLogger)
    (accepted : AnchorLogger.init w dbPath anchorStorePath = .ok al)
    (unselected : (dbPath.isNone && anchorStorePath.isNone && w.postgresSelected) = false) :
    al.pg = false ∧ ∃ path, al.dbPath = some path := by
  rw [AnchorLogger.init, unselected] at accepted
  split at accepted
  · contradiction
  split at accepted
  · contradiction
  rename_i located _
  obtain rfl := Except.ok.inj accepted
  refine ⟨rfl, ?_⟩
  rcases dbPath with _ | path
  · rcases configured : w.configured "GENESIS_AUDIT_DB_PATH" with _ | path
    · simp [configured] at located
    · exact ⟨path, by simp⟩
  · exact ⟨path, rfl⟩

theorem readFile_content (path : String) (content : AuditContent)
    (reads : w.readFile path = .content content) : w.files path = .database content := by
  rw [Host.readFile] at reads
  split at reads
  · contradiction
  split at reads
  · contradiction
  split at reads
  · contradiction
  · contradiction
  · contradiction
  · rename_i held
    rw [held, StoreRead.content.inj reads]

theorem reverifier_path (al : AnchorLogger) (path : String) (located : al.dbPath = some path) :
    w.reverifier al = w.connectFile path := by
  rw [Host.reverifier, located]
  rfl

/-- Unless it is misdirected, the re-verification reads the store of the leaves or none. -/
theorem reverifier_same (dbPath anchorStorePath : Option String) (al : AnchorLogger)
    (content : AuditContent) (accepted : AnchorLogger.init w dbPath anchorStorePath = .ok al)
    (reads : w.readStore al = .content content)
    (directed : w.misdirected dbPath anchorStorePath = none) :
    w.reverifier al = none ∨ w.reverifier al = some content := by
  rcases selected : (dbPath.isNone && anchorStorePath.isNone && w.postgresSelected) with _ | _
  · rcases anchorLogger_file w dbPath anchorStorePath al accepted selected with ⟨file, path, located⟩
    rw [reverifier_path w al path located, Host.connectFile]
    rw [Host.readStore, file, located] at reads
    rw [readFile_content w path content reads]
    by_cases writes : w.writable path = true
    · exact .inr (by rw [if_pos writes])
    · exact .inl (by rw [if_neg writes])
  · rcases anchorLogger_pg w dbPath anchorStorePath al accepted selected with ⟨pg, located⟩
    rw [Host.misdirected, if_pos selected] at directed
    rw [Bool.and_eq_true, Bool.and_eq_true] at selected
    rw [Host.readStore, pg] at reads
    rcases reached : w.postgres with exc | stored
    · rw [reached] at reads
      cases reads
    · rw [reached] at reads
      obtain rfl := StoreRead.content.inj reads
      right
      rw [Host.reverifier, located, directed, AuditLog.init, directed, selected.2]
      simp [Except.toOption, Host.connect, reached]

theorem reverifier_misdirected (dbPath anchorStorePath : Option String) (al : AnchorLogger)
    (path : String) (accepted : AnchorLogger.init w dbPath anchorStorePath = .ok al)
    (directed : w.misdirected dbPath anchorStorePath = some path) :
    w.reverifier al = w.connectFile path := by
  rw [Host.misdirected] at directed
  split at directed
  · rename_i selected
    have located := (anchorLogger_pg w dbPath anchorStorePath al accepted selected).2
    exact reverifier_path w al path (located.trans directed)
  · contradiction

theorem brokenSessions_some (al : AnchorLogger) (date : String) (content : AuditContent)
    (reads : w.readStore al = .content content) :
    ∃ broken, w.brokenSessions A cal al date = .ok broken ∧
      ∀ sessionId, sessionId ∈ broken ↔ sessionId ∈ datedSessions cal content.db date ∧
        ∀ other, w.reverifier al = some other → other.broken A sessionId = true := by
  have sessions : w.sessionsOn cal al date = .ok (datedSessions cal content.db date) := by
    rw [Host.sessionsOn, reads]
  rw [Host.brokenSessions, sessions]
  rcases w.reverifier al with _ | other
  · exact ⟨_, rfl, by simp⟩
  · exact ⟨_, rfl, by simp [List.mem_filter]⟩

/-- `verify_anchor` can use the record. -/
def Rooted (stored : Option Value) : Prop :=
  ∀ record, stored = some record → ∃ root, record.get? "merkle_root" = some (str root)

/-- The first record of the date has a root, and every line up to it is blank, malformed or a dict. -/
def LinesReadable (date : String) (ending : ReadEnd) : List AnchorLine → Prop
  | [] => ending ≠ .undecodable
  | .skipped :: rest => LinesReadable date ending rest
  | .record v :: rest => v.isDict = true ∧
    if (v.get "date").pyEq (str date) = true then ∃ root, v.get? "merkle_root" = some (str root)
    else LinesReadable date ending rest

def RecordReadable (al : AnchorLogger) (date : String) : Prop :=
  if al.pg then
    ∀ row, w.anchorRows.bind (List.find? fun row => row.anchorDate == date) = some row →
      (listOr row.leafHashes).isSome = true
  else ∀ file, al.anchorStore.bind w.jsonl = some file → LinesReadable date file.ending file.lines

theorem linesReadable_iff (date : String) (ending : ReadEnd) (lines : List AnchorLine) :
    LinesReadable date ending lines ↔
      ∃ stored, findAnchor date ending lines = .ok stored ∧ Rooted stored := by
  induction lines with
  | nil =>
    rw [LinesReadable, findAnchor]
    by_cases damaged : ending = .undecodable
    · simp [damaged]
    · simp [damaged, Rooted]
  | cons line rest later =>
    rcases line with _ | v
    · exact later
    · rw [LinesReadable, findAnchor]
      by_cases object : v.isDict = true
      · by_cases dated : (v.get "date").pyEq (str date) = true
        · simp [object, dated, Rooted]
        · simp [object, dated, later]
      · simp [object]

theorem rowToAnchor_root (row : AnchorRow) (record : Value)
    (shaped : rowToAnchor row = .ok record) :
    record.get? "merkle_root" = some (str row.merkleRoot) := by
  rw [rowToAnchor] at shaped
  split at shaped
  · obtain rfl := Except.ok.inj shaped
    rfl
  · contradiction

theorem recordReadable_iff (al : AnchorLogger) (date : String) :
    RecordReadable w al date ↔ ∃ stored, w.getAnchor al date = .ok stored ∧ Rooted stored := by
  rw [RecordReadable, Host.getAnchor]
  split
  · rcases w.anchorRows.bind (List.find? fun row => row.anchorDate == date) with _ | row
    · simp [Rooted]
    · rcases shaped : rowToAnchor row with refusal | record
      · have odd : listOr row.leafHashes = none := by
          rw [rowToAnchor] at shaped
          split at shaped
          · contradiction
          · assumption
        simp [shaped, odd, Except.map]
      · have plain : (listOr row.leafHashes).isSome = true := by
          rw [rowToAnchor] at shaped
          split at shaped
          · rename_i listed
            rw [listed]
            rfl
          · contradiction
        simp [shaped, plain, Except.map, Rooted, rowToAnchor_root row record shaped]
  · rcases al.anchorStore.bind w.jsonl with _ | file
    · simp [Rooted]
    · simp [linesReadable_iff]

theorem verdict_broken (date : String) (stored : Option Value) (root : Value) (recomputed : String)
    (broken : List String) (found : broken ≠ []) :
    (∃ verdict, anchorVerdict date stored root recomputed broken = .ok verdict ∧
        verdict.rowsIntact = false ∧ verdict.matched = false) ↔
      (stored.isSome = true → root.isStr = true) := by
  have intact : broken.isEmpty = false := by simpa using found
  rw [anchorVerdict, intact]
  rcases stored with _ | record
  · simp
  · rcases root.isStr with _ | _ <;> simp

theorem verdict_intact (date : String) (stored : Option Value) (root : Value) (recomputed : String)
    (verdict : AnchorVerdict) (given : anchorVerdict date stored root recomputed [] = .ok verdict) :
    verdict.rowsIntact = true := by
  rw [anchorVerdict] at given
  split at given
  · contradiction
  · obtain rfl := Except.ok.inj given
    rfl

/-- Past a stored record that it can use, `verify_anchor` comes to a verdict. -/
theorem rooted_iff (stored : Option Value) :
    Rooted stored ↔
      ∃ root, storedRoot stored = .ok root ∧ (stored.isSome = true → root.isStr = true) := by
  rcases stored with _ | record
  · simp [Rooted, storedRoot]
  · rcases held : record.get? "merkle_root" with _ | root
    · simp [Rooted, storedRoot, held]
    · rw [storedRoot, held]
      cases root <;> simp [Rooted, held, Value.isStr]

theorem computeDailyAnchor_content (al : AnchorLogger) (date : String) (now : Timestamp)
    (content : AuditContent) (reads : w.readStore al = .content content)
    (day : (cal.strptime date).isSome = true) :
    w.computeDailyAnchor A cal al (some date) now =
      .ok (anchorOf A date (cal.isoformat now) (queryDateRows cal content.db date)) := by
  rcases Option.isSome_iff_exists.mp day with ⟨start, parsed⟩
  rw [Host.computeDailyAnchor, reads, Option.getD_some, parsed]
  rfl

theorem onDate_parsed (date : String) (timestamp : Timestamp)
    (dated : cal.onDate date timestamp = true) : (cal.strptime date).isSome = true := by
  rw [Calendar.onDate] at dated
  split at dated
  · rename_i parsed _
    rw [parsed]
    rfl
  · contradiction

theorem verifyAnchor_broken (al : AnchorLogger) (date : String) (now : Timestamp)
    (content : AuditContent) (broken : List String) (reads : w.readStore al = .content content)
    (day : (cal.strptime date).isSome = true)
    (listed : w.brokenSessions A cal al date = .ok broken) :
    (∃ verdict, w.verifyAnchor A cal al date now = .ok verdict ∧ verdict.rowsIntact = false ∧
        verdict.matched = false) ↔ RecordReadable w al date ∧ broken ≠ [] := by
  have live := computeDailyAnchor_content A cal w al date now content reads day
  rw [recordReadable_iff, Host.verifyAnchor, live, listed]
  constructor
  · rintro ⟨verdict, given, torn, unmatched⟩
    rcases except_bind_ok _ _ _ given with ⟨stored, loaded, given⟩
    rcases except_bind_ok _ _ _ given with ⟨root, rooted, given⟩
    have found : broken ≠ [] := by
      intro none_
      rw [none_] at given
      rw [verdict_intact date stored root _ verdict given] at torn
      contradiction
    have text := (verdict_broken date stored root _ broken found).mp ⟨verdict, given, torn, unmatched⟩
    exact ⟨⟨stored, loaded, (rooted_iff stored).mpr ⟨root, rooted, text⟩⟩, found⟩
  · rintro ⟨⟨stored, loaded, usable⟩, found⟩
    rcases (rooted_iff stored).mp usable with ⟨root, rooted, text⟩
    rw [loaded]
    change ∃ verdict, (storedRoot stored >>= fun root => _) = .ok verdict ∧ _
    rw [rooted]
    exact (verdict_broken date stored root _ broken found).mpr text

end

/-- Rows of a day whose chain is broken in the store of the leaves are reported exactly when the record
of the day can be used and the re-verification is not misdirected to a file in which the sessions of
the day all verify. -/
theorem broken_rows_reported_iff (A : Auditing) (cal : Calendar) (w : Host)
    (dbPath anchorStorePath : Option String) (al : AnchorLogger) (date : String) (now : Timestamp)
    (content : AuditContent) (row : AuditRow)
    (accepted : AnchorLogger.init w dbPath anchorStorePath = .ok al)
    (reads : w.readStore al = .content content) (member : row ∈ content.db.rows)
    (dated : cal.onDate date row.timestamp = true)
    (broken : content.broken A row.sessionId = true) :
    (∃ verdict, w.verifyAnchor A cal al date now = .ok verdict ∧ verdict.rowsIntact = false ∧
        verdict.matched = false) ↔
      RecordReadable w al date ∧
        ∀ path file, w.misdirected dbPath anchorStorePath = some path →
          w.connectFile path = some file → ∃ other ∈ content.db.rows,
            cal.onDate date other.timestamp = true ∧ file.broken A other.sessionId = true := by
  rcases brokenSessions_some A cal w al date content reads with ⟨listed, found, members⟩
  have session : row.sessionId ∈ datedSessions cal content.db date :=
    (mem_datedSessions cal content.db date _).mpr ⟨row, member, dated, rfl⟩
  rw [verifyAnchor_broken A cal w al date now content listed reads (onDate_parsed cal date _ dated)
    found]
  refine and_congr_right fun _ => ?_
  rcases directed : w.misdirected dbPath anchorStorePath with _ | path
  · refine iff_of_true ?_ nofun
    have seen : row.sessionId ∈ listed := by
      refine (members _).mpr ⟨session, fun other opened => ?_⟩
      rcases reverifier_same w dbPath anchorStorePath al content accepted reads directed with
        closed | same
      · rw [closed] at opened
        contradiction
      · rw [same] at opened
        rw [← Option.some.inj opened]
        exact broken
    exact List.ne_nil_of_mem seen
  · have opens := reverifier_misdirected w dbPath anchorStorePath al path accepted directed
    rw [opens] at members
    constructor
    · intro some_ path' file same opened
      rw [← Option.some.inj same] at opened
      rcases List.exists_mem_of_ne_nil listed some_ with ⟨sessionId, seen⟩
      rcases (members sessionId).mp seen with ⟨ofDay, fails⟩
      rcases (mem_datedSessions cal content.db date _).mp ofDay with ⟨other, present, on, own⟩
      exact ⟨other, present, on, own ▸ fails file opened⟩
    · intro seen
      rcases opened : w.connectFile path with _ | file
      · exact List.ne_nil_of_mem ((members row.sessionId).mpr ⟨session, by simp [opened]⟩)
      · rcases seen path file rfl opened with ⟨other, present, on, fails⟩
        have ofDay := (mem_datedSessions cal content.db date _).mpr ⟨other, present, on, rfl⟩
        refine List.ne_nil_of_mem ((members other.sessionId).mpr ⟨ofDay, fun file' same => ?_⟩)
        rw [opened] at same
        rw [← Option.some.inj same]
        exact fails

/-! Postgres is selected, a leftover `GENESIS_AUDIT_DB_PATH` leads to no file, and a row was edited. -/

def newYear : Calendar where
  strptime date := if date = "2026-01-01" then some 1767225600 else none
  seconds timestamp := if timestamp.repr = "1767225600.0" then some 1767225600 else none
  strftime _ := "2026-01-01"
  isoformat _ := "2026-01-01T00:00:00+00:00"

def editedRow : AuditRow := { loggedRow with prevHash := "edited" }

def editedContent : AuditContent :=
  { db := { nextId := 2, rows := [editedRow], heads := fun _ => none }, raises := fun _ => false }

def leftoverHost : Host where
  getenv name := if name = "GENESIS_AUDIT_DB_PATH" then some "/data/audit.db" else none
  postgresSelected := true
  postgres := .ok editedContent
  anchorRows := some []
  files _ := .missing
  writable _ := true
  jsonl _ := none

def leftoverLogger : AnchorLogger :=
  { pg := true, dbPath := some "/data/audit.db", anchorStore := none }

set_option maxRecDepth 4000 in
theorem leftover_accepted : AnchorLogger.init leftoverHost none none = .ok leftoverLogger := rfl

theorem editedRow_dated : newYear.onDate "2026-01-01" editedRow.timestamp = true := by
  decide +kernel

theorem editedContent_broken (A : Auditing) : editedContent.broken A editedRow.sessionId = true := by
  have rows : sessionRows editedContent.db.rows editedRow.sessionId = [editedRow] := rfl
  rw [AuditContent.broken, verifyChain, rows, rowsVerify]
  rfl

theorem leftover_file_silences :
    ¬∀ (A : Auditing) (cal : Calendar) (w : Host) (dbPath anchorStorePath : Option String)
        (al : AnchorLogger) (date : String) (now : Timestamp) (content : AuditContent)
        (row : AuditRow), AnchorLogger.init w dbPath anchorStorePath = .ok al →
      w.readStore al = .content content → row ∈ content.db.rows →
      cal.onDate date row.timestamp = true → content.broken A row.sessionId = true →
      ∃ verdict, w.verifyAnchor A cal al date now = .ok verdict ∧ verdict.rowsIntact = false ∧
        verdict.matched = false := by
  intro hold
  have reported := hold knownAuditing newYear leftoverHost none none leftoverLogger "2026-01-01"
    loggedCall.timestamp editedContent editedRow leftover_accepted rfl (by simp [editedContent])
    editedRow_dated (editedContent_broken knownAuditing)
  rcases brokenSessions_some knownAuditing newYear leftoverHost leftoverLogger "2026-01-01"
    editedContent rfl with ⟨listed, found, members⟩
  rw [verifyAnchor_broken knownAuditing newYear leftoverHost leftoverLogger "2026-01-01"
    loggedCall.timestamp editedContent listed rfl rfl found] at reported
  rcases List.exists_mem_of_ne_nil listed reported.2 with ⟨sessionId, seen⟩
  exact Bool.false_ne_true (((members sessionId).mp seen).2 .empty rfl)

theorem leftover_file_verdict :
    (∃ verdict, leftoverHost.verifyAnchor knownAuditing newYear leftoverLogger "2026-01-01"
        loggedCall.timestamp = .ok verdict ∧ verdict.rowsIntact = false ∧ verdict.matched = false) ↔
      RecordReadable leftoverHost leftoverLogger "2026-01-01" ∧
        ∀ path file, leftoverHost.misdirected none none = some path →
          leftoverHost.connectFile path = some file → ∃ other ∈ editedContent.db.rows,
            newYear.onDate "2026-01-01" other.timestamp = true ∧
              file.broken knownAuditing other.sessionId = true :=
  broken_rows_reported_iff knownAuditing newYear leftoverHost none none leftoverLogger "2026-01-01"
    loggedCall.timestamp editedContent editedRow leftover_accepted rfl (by simp [editedContent])
    editedRow_dated (editedContent_broken knownAuditing)

end GenesisAgents
