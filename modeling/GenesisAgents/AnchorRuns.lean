import GenesisAgents.AnchorVerification

/-! Runs of appends and anchor commands on one audit store. -/

namespace GenesisAgents

open Value

inductive AnchorEvent where
  | log (call : LogCall)
  /-- `compute_daily_anchor`, then `record_anchor`, at a time of the clock. -/
  | anchor (date? : Option String) (now : Timestamp)

namespace Host

variable (A : Auditing) (cal : Calendar) (al : AnchorLogger)

/-- Nothing has been written yet; there are paths where nothing can be. -/
def fresh (getenv : String → Option String) (postgresSelected : Bool) (writable : String → Bool) : Host where
  getenv := getenv
  postgresSelected := postgresSelected
  postgres := .ok .empty
  anchorRows := some []
  files _ := .missing
  writable := writable
  jsonl _ := none

def logged (content : AuditContent) (call : LogCall) : AuditContent :=
  { content with db := content.db.step A call }

/-- A call of `AuditLog.log` on the store that the anchors read. -/
def logTo (w : Host) (call : LogCall) : Host :=
  if al.pg then { w with postgres := w.postgres.map (logged A · call) }
  else
    match al.dbPath with
    | none => w
    | some path =>
      match w.connectFile path with
      | none => w
      | some content =>
        { w with
          files := fun other =>
            if other = path then .database (logged A content call) else w.files other }

def anchorTo (w : Host) (date? : Option String) (now : Timestamp) : Host :=
  match w.computeDailyAnchor A cal al date? now with
  | .ok anchor => w.recordAnchor al anchor
  | .error _ => w

def step (w : Host) : AnchorEvent → Host
  | .log call => w.logTo A al call
  | .anchor date? now => w.anchorTo A cal al date? now

end Host

/-- The date of a line that `get_anchor` may return. -/
def AnchorLine.date? : AnchorLine → Option String
  | .skipped => none
  | .record v =>
    match v.get "date" with
    | str date => some date
    | _ => none

def Host.storedDates (w : Host) (al : AnchorLogger) : List String :=
  if al.pg then (w.anchorRows.getD []).map AnchorRow.anchorDate
  else ((al.anchorStore.bind w.jsonl).map JsonlFile.lines).getD [] |>.filterMap AnchorLine.date?

def Host.dayEmpty (cal : Calendar) (al : AnchorLogger) (w : Host) (date : String) : Bool :=
  match w.readStore al with
  | .content content => (queryDateRows cal content.db date).isEmpty
  | _ => true

/-- No row is appended to a day with a stored anchor, and a day with rows is anchored only while the store in
which they are to be re-verified can be opened. -/
def timely (A : Auditing) (cal : Calendar) (al : AnchorLogger) (w : Host) : AnchorEvent → Bool
  | .log call =>
    !isRecorded A call || (w.storedDates al).all fun date => !cal.onDate date call.timestamp
  | .anchor date? now =>
    (w.reverifier al).isSome || w.dayEmpty cal al (date?.getD (cal.strftime now))

section

variable (A : Auditing) (cal : Calendar) (al : AnchorLogger)

theorem findAnchor_append (date : String) (value stored : Value) (lines : List AnchorLine)
    (found : findAnchor date .eof (lines ++ [.record value]) = .ok (some stored)) :
    findAnchor date .eof lines = .ok (some stored) ∨ value.get "date" = str date ∧ stored = value := by
  induction lines with
  | nil =>
    rw [List.nil_append, findAnchor] at found
    split at found
    · contradiction
    split at found
    · rename_i dated
      exact .inr ⟨(pyEq_str _ date).mp dated, (Option.some.inj (Except.ok.inj found)).symm⟩
    · cases found
  | cons line rest later =>
    rcases line with _ | v
    · exact later found
    · rw [List.cons_append, findAnchor] at found
      rw [findAnchor]
      split at found
      · contradiction
      rename_i object
      rw [if_neg object]
      split at found
      · rename_i dated
        rw [if_pos dated]
        exact .inl found
      · rename_i undated
        rw [if_neg undated]
        exact later found

theorem find_append_cases {α : Type} (p : α → Bool) (l : List α) (last found : α)
    (search : (l ++ [last]).find? p = some found) :
    l.find? p = some found ∨ p last = true ∧ found = last := by
  rw [List.find?_append] at search
  rcases earlier : l.find? p with _ | first
  · rw [earlier, Option.none_or, List.find?_singleton] at search
    split at search
    · rename_i holds
      exact .inr ⟨holds, (Option.some.inj search).symm⟩
    · contradiction
  · rw [earlier, Option.some_or] at search
    exact .inl search

theorem rowToAnchor_written (anchor : Anchor) : rowToAnchor anchor.row = .ok anchor.value := by
  rw [rowToAnchor, Anchor.row, listOr_list]
  rfl

theorem getAnchor_recordRow (w : Host) (anchor : Anchor) (date : String) (stored : Value)
    (pg : al.pg = true)
    (found : (w.recordAnchor al anchor).getAnchor al date = .ok (some stored)) :
    w.getAnchor al date = .ok (some stored) ∨ anchor.date = date ∧ stored = anchor.value := by
  rw [Host.recordAnchor, if_pos pg] at found
  split at found
  swap
  · exact .inl found
  rw [Host.getAnchor, if_pos pg] at found ⊢
  rcases held : w.anchorRows with _ | rows
  · rw [held] at found
    cases found
  · rw [held, Option.map_some, Option.bind_some] at found
    rw [Option.bind_some]
    rcases search : (rows ++ [anchor.row]).find? (fun row => row.anchorDate == date) with _ | row
    · rw [search] at found
      cases found
    · rw [search] at found
      rcases find_append_cases _ rows anchor.row row search with earlier | ⟨dated, rfl⟩
      · rw [earlier]
        exact .inl found
      · change (rowToAnchor anchor.row).map some = _ at found
        rw [rowToAnchor_written] at found
        exact .inr ⟨beq_iff_eq.mp dated, (Option.some.inj (Except.ok.inj found)).symm⟩

theorem getAnchor_recordLine (w : Host) (anchor : Anchor) (date : String) (stored : Value)
    (path : String) (file : al.pg = false) (located : al.anchorStore = some path)
    (found : (w.recordAnchor al anchor).getAnchor al date = .ok (some stored)) :
    w.getAnchor al date = .ok (some stored) ∨ anchor.date = date ∧ stored = anchor.value := by
  have written : (w.recordAnchor al anchor).getAnchor al date =
      findAnchor date (((w.jsonl path).getD ⟨[], .eof⟩).add anchor.value).ending
        (((w.jsonl path).getD ⟨[], .eof⟩).add anchor.value).lines := by
    simp [Host.getAnchor, Host.recordAnchor, file, located]
  have before (held : JsonlFile) (present : w.jsonl path = some held) :
      w.getAnchor al date = findAnchor date held.ending held.lines := by
    simp [Host.getAnchor, file, located, present]
  have same (dated : anchor.value.get "date" = str date) : anchor.date = date := str.inj dated
  rw [written, JsonlFile.add] at found
  rcases present : w.jsonl path with _ | held
  all_goals rw [present] at found
  · rcases findAnchor_append date anchor.value stored [] found with impossible | ⟨dated, own⟩
    · cases impossible
    · exact .inr ⟨same dated, own⟩
  · rw [before held present]
    dsimp only [Option.getD_some] at found ⊢
    split at found
    · rename_i ends
      rw [ends] at found ⊢
      rcases findAnchor_append date anchor.value stored held.lines found with earlier | ⟨dated, own⟩
      · exact .inl earlier
      · exact .inr ⟨same dated, own⟩
    · exact .inl found

/-- What `get_anchor` finds after `record_anchor` it found before, or it is the new record. -/
theorem getAnchor_record (w : Host) (anchor : Anchor) (date : String) (stored : Value)
    (found : (w.recordAnchor al anchor).getAnchor al date = .ok (some stored)) :
    w.getAnchor al date = .ok (some stored) ∨ anchor.date = date ∧ stored = anchor.value := by
  rcases file : al.pg with _ | _
  · rcases located : al.anchorStore with _ | path
    · have same : w.recordAnchor al anchor = w := by simp [Host.recordAnchor, file, located]
      rw [same] at found
      exact .inl found
    · exact getAnchor_recordLine al w anchor date stored path file located found
  · exact getAnchor_recordRow al w anchor date stored file found

theorem findAnchor_dates (date : String) (ending : ReadEnd) (stored : Value)
    (lines : List AnchorLine) (found : findAnchor date ending lines = .ok (some stored)) :
    date ∈ lines.filterMap AnchorLine.date? := by
  induction lines with
  | nil =>
    rw [findAnchor] at found
    split at found <;> cases found
  | cons line rest later =>
    rcases line with _ | v
    · exact later found
    · rw [findAnchor] at found
      split at found
      · contradiction
      split at found
      · rename_i dated
        have first : (AnchorLine.record v).date? = some date := by
          rw [AnchorLine.date?, (pyEq_str _ date).mp dated]
        rw [List.filterMap_cons_some first]
        exact List.mem_cons_self
      · rw [List.filterMap_cons]
        split
        · exact later found
        · exact List.mem_cons_of_mem _ (later found)

theorem getAnchor_dates (w : Host) (date : String) (stored : Value)
    (found : w.getAnchor al date = .ok (some stored)) : date ∈ w.storedDates al := by
  rw [Host.getAnchor] at found
  rw [Host.storedDates]
  split
  · rename_i pg
    rw [if_pos pg] at found
    rcases held : w.anchorRows with _ | rows
    all_goals rw [held] at found
    · cases found
    · rw [Option.bind_some] at found
      rcases search : rows.find? (fun row => row.anchorDate == date) with _ | row
      · rw [search] at found
        cases found
      · have dated := List.find?_some search
        exact List.mem_map.mpr ⟨row, List.mem_of_find?_eq_some search, beq_iff_eq.mp dated⟩
  · rename_i file
    rw [if_neg file] at found
    rcases held : al.anchorStore.bind w.jsonl with _ | lines
    all_goals rw [held] at found
    · cases found
    · exact findAnchor_dates date lines.ending stored lines.lines found

/-- Nothing but `log` has written there. -/
structure Untouched (content : AuditContent) : Prop where
  kept : Kept A content.db
  readable : ∀ sessionId, content.raises sessionId = false

theorem untouched_empty : Untouched A .empty := ⟨kept_empty A, fun _ => rfl⟩

theorem untouched_logged (content : AuditContent) (call : LogCall) (holds : Untouched A content) :
    Untouched A (Host.logged A content call) :=
  ⟨step_kept A content.db call holds.kept, holds.readable⟩

theorem untouched_verifies (content : AuditContent) (holds : Untouched A content)
    (sessionId : String) : content.broken A sessionId = false := by
  rw [AuditContent.broken, holds.readable, kept_verifies A content.db holds.kept]
  rfl

def dayRoot (db : AuditDb) (date : String) : String :=
  (A.buildMerkleTree ((queryDateRows cal db date).map AuditRow.rowHash)).root

theorem queryDateRows_logged (content : AuditContent) (call : LogCall) (date : String)
    (other : isRecorded A call = false ∨ cal.onDate date call.timestamp = false) :
    queryDateRows cal (Host.logged A content call).db date = queryDateRows cal content.db date := by
  change queryDateRows cal (content.db.step A call) date = _
  rcases other with raises | off
  · have silent : content.db.log A call = none := by
      rw [← Option.not_isSome_iff_eq_none, log_isSome, raises]
      exact Bool.false_ne_true
    rw [AuditDb.step, silent, Option.getD_none]
  · rcases logStep_cases A content.db call with same | ⟨inputsJson, outputsJson, appended⟩
    · rw [same]
    · rw [appended, queryDateRows, AuditDb.append, List.filter_append]
      have dropped : [content.db.newRow A call inputsJson outputsJson].filter
          (fun row => cal.onDate date row.timestamp) = [] := by
        rw [List.filter_singleton]
        change (bif cal.onDate date call.timestamp then _ else []) = []
        rw [off]
        rfl
      rw [dropped, List.append_nil, queryDateRows]

/-- The rows of a day have the root of its record, and they can be re-verified. -/
structure Covers (w : Host) (date : String) (stored : Value) (content : AuditContent) : Prop where
  root : stored.get? "merkle_root" = some (str (dayRoot A cal content.db date))
  opens : (w.reverifier al).isSome = true ∨ queryDateRows cal content.db date = []

/-- Every audit store that opens verifies, and every stored record still covers its day. -/
structure Anchored (dbPath anchorStorePath : Option String) (w : Host) : Prop where
  accepted : AnchorLogger.init w dbPath anchorStorePath = .ok al
  tables : ∀ content, w.postgres = .ok content → Untouched A content
  files : ∀ path content, w.connectFile path = some content → Untouched A content
  records : ∀ date stored, w.getAnchor al date = .ok (some stored) →
    ∃ content, w.readStore al = .content content ∧ Covers A cal al w date stored content

variable (dbPath anchorStorePath : Option String)

theorem fresh_anchored (getenv : String → Option String) (postgresSelected : Bool) (writable : String → Bool)
    (accepted : AnchorLogger.init (.fresh getenv postgresSelected writable) dbPath anchorStorePath = .ok al) :
    Anchored A cal al dbPath anchorStorePath (.fresh getenv postgresSelected writable) := by
  constructor
  · exact accepted
  · intro content present
    obtain rfl := Except.ok.inj present
    exact untouched_empty A
  · intro path content connects
    rw [Host.connectFile] at connects
    split at connects
    · obtain rfl := Option.some.inj connects
      exact untouched_empty A
    · contradiction
  · intro date stored found
    have none_ : (Host.fresh getenv postgresSelected writable).getAnchor al date = .ok none := by
      rw [Host.getAnchor]
      split
      · rfl
      · rcases al.anchorStore with _ | path <;> rfl
    rw [none_] at found
    cases found

theorem logTo_tables (w : Host) (call : LogCall) (pg : al.pg = true) :
    w.logTo A al call = { w with postgres := w.postgres.map (Host.logged A · call) } := if_pos pg

theorem logTo_file (w : Host) (call : LogCall) (path : String) (content : AuditContent)
    (file : al.pg = false) (located : al.dbPath = some path)
    (connects : w.connectFile path = some content) :
    w.logTo A al call = { w with
      files := fun other =>
        if other = path then .database (Host.logged A content call) else w.files other } := by
  rw [Host.logTo, file, located]
  dsimp only
  rw [connects]
  rfl

theorem logTo_readStore (w : Host) (call : LogCall) (content : AuditContent)
    (reads : w.readStore al = .content content) :
    (w.logTo A al call).readStore al = .content content ∨
      (w.logTo A al call).readStore al = .content (Host.logged A content call) := by
  rcases file : al.pg with _ | _
  · rcases located : al.dbPath with _ | path
    · rw [Host.readStore, file, located] at reads
      cases reads
    rcases connects : w.connectFile path with _ | stored
    · left
      rw [Host.logTo, file, located]
      dsimp only
      rw [connects]
      exact reads
    · right
      rw [Host.readStore, file, located] at reads
      change w.readFile path = .content content at reads
      have held := readFile_content w path content reads
      have same : stored = content := by
        rw [Host.connectFile, held] at connects
        split at connects
        · exact (Option.some.inj connects).symm
        · contradiction
      have absolute : (!path.startsWith "/") = false := by
        by_contra relative
        rw [Host.readFile, held] at reads
        simp [relative] at reads
      rw [logTo_file A al w call path stored file located connects, same, Host.readStore, file, located]
      simp [Host.readFile, absolute]
  · right
    rw [Host.readStore, file] at reads
    rcases present : w.postgres with exc | stored
    · rw [present] at reads
      cases reads
    · rw [present] at reads
      obtain rfl := StoreRead.content.inj reads
      rw [logTo_tables A al w call file, Host.readStore, file, present]
      rfl

theorem logTo_getAnchor (w : Host) (call : LogCall) (date : String) :
    (w.logTo A al call).getAnchor al date = w.getAnchor al date := by
  rw [Host.logTo]
  split
  · rfl
  split
  · rfl
  split <;> rfl

theorem logTo_accepted (w : Host) (call : LogCall) :
    AnchorLogger.init (w.logTo A al call) dbPath anchorStorePath =
      AnchorLogger.init w dbPath anchorStorePath := by
  rw [Host.logTo]
  split
  · rfl
  split
  · rfl
  split <;> rfl

theorem logTo_postgres (w : Host) (call : LogCall) :
    (w.logTo A al call).postgres = w.postgres ∨
      (w.logTo A al call).postgres = w.postgres.map (Host.logged A · call) := by
  rw [Host.logTo]
  split
  · exact .inr rfl
  split
  · exact .inl rfl
  split
  · exact .inl rfl
  · exact .inl rfl

theorem logTo_connectFile (w : Host) (call : LogCall) (path : String) :
    (w.logTo A al call).connectFile path = w.connectFile path ∨
      (w.logTo A al call).connectFile path = (w.connectFile path).map (Host.logged A · call) := by
  rw [Host.logTo]
  split
  · exact .inl rfl
  split
  · exact .inl rfl
  rename_i own located
  split
  · exact .inl rfl
  · rename_i stored opened
    by_cases same : path = own
    · subst same
      right
      rw [opened]
      have writes : w.writable path = true := by
        by_contra closed
        rw [Host.connectFile, if_neg closed] at opened
        contradiction
      simp [Host.connectFile, writes]
    · left
      simp [Host.connectFile, same]

theorem logTo_reverifier (w : Host) (call : LogCall) (opens : (w.reverifier al).isSome = true) :
    ((w.logTo A al call).reverifier al).isSome = true := by
  have backend : AuditLog.init (w.logTo A al call) al.dbPath = AuditLog.init w al.dbPath := by
    rw [Host.logTo]
    split
    · rfl
    split
    · rfl
    split <;> rfl
  rw [Host.reverifier] at opens ⊢
  rw [backend]
  rcases chosen : (AuditLog.init w al.dbPath).toOption with _ | log
  · rw [chosen] at opens
    contradiction
  rw [chosen, Option.bind_some, Host.connect] at opens
  rw [Option.bind_some, Host.connect]
  split
  · rename_i pg
    rw [if_pos pg] at opens
    rcases present : w.postgres with exc | content
    · rw [present] at opens
      contradiction
    · rcases logTo_postgres A al w call with same | grown
      · rw [same, present]
        rfl
      · rw [grown, present]
        rfl
  · rename_i file
    rw [if_neg file] at opens
    rcases located : log.dbPath with _ | path
    · rw [located] at opens
      contradiction
    · rw [located, Option.bind_some] at opens
      rw [Option.bind_some]
      rcases logTo_connectFile A al w call path with same | grown
      · rw [same]
        exact opens
      · rw [grown, Option.isSome_map]
        exact opens

theorem logTo_anchored (w : Host) (call : LogCall)
    (holds : Anchored A cal al dbPath anchorStorePath w)
    (allowed : timely A cal al w (.log call) = true) :
    Anchored A cal al dbPath anchorStorePath (w.logTo A al call) := by
  constructor
  · exact (logTo_accepted A al dbPath anchorStorePath w call).trans holds.accepted
  · intro content present
    rcases logTo_postgres A al w call with same | grown
    · exact holds.tables content (same.symm.trans present)
    · rw [grown] at present
      rcases before : w.postgres with exc | stored
      · rw [before] at present
        cases present
      · rw [before] at present
        obtain rfl := Except.ok.inj present
        exact untouched_logged A stored call (holds.tables stored before)
  · intro path content connects
    rcases logTo_connectFile A al w call path with same | grown
    · exact holds.files path content (same.symm.trans connects)
    · rw [grown, Option.map_eq_some_iff] at connects
      rcases connects with ⟨stored, before, rfl⟩
      exact untouched_logged A stored call (holds.files path stored before)
  · intro date stored found
    rw [logTo_getAnchor] at found
    rcases holds.records date stored found with ⟨content, reads, covers⟩
    have other : isRecorded A call = false ∨ cal.onDate date call.timestamp = false := by
      rw [timely, Bool.or_eq_true, Bool.not_eq_true', List.all_eq_true] at allowed
      refine allowed.imp id fun off => ?_
      simpa using off date (getAnchor_dates al w date stored found)
    have rows := queryDateRows_logged A cal content call date other
    have opens : ((w.logTo A al call).reverifier al).isSome = true ∨ queryDateRows cal content.db date = [] :=
      covers.opens.imp (logTo_reverifier A al w call) id
    rcases logTo_readStore A al w call content reads with same | grown
    · exact ⟨content, same, covers.root, opens⟩
    · refine ⟨_, grown, ?_, ?_⟩
      · rw [dayRoot, rows]
        exact covers.root
      · rw [rows]
        exact opens

theorem computeDailyAnchor_ok (w : Host) (date? : Option String) (now : Timestamp) (anchor : Anchor)
    (computed : w.computeDailyAnchor A cal al date? now = .ok anchor) :
    ∃ content, w.readStore al = .content content ∧
      anchor.merkleRoot = dayRoot A cal content.db anchor.date ∧
      anchor.date = date?.getD (cal.strftime now) := by
  rw [Host.computeDailyAnchor] at computed
  split at computed
  · contradiction
  split at computed
  · contradiction
  · contradiction
  · contradiction
  · rename_i content reads
    obtain rfl := Except.ok.inj computed
    exact ⟨content, reads, rfl, rfl⟩

theorem anchorTo_anchored (w : Host) (date? : Option String) (now : Timestamp)
    (holds : Anchored A cal al dbPath anchorStorePath w)
    (allowed : timely A cal al w (.anchor date? now) = true) :
    Anchored A cal al dbPath anchorStorePath (w.anchorTo A cal al date? now) := by
  rw [Host.anchorTo]
  rcases computed : w.computeDailyAnchor A cal al date? now with refusal | anchor
  · exact holds
  rcases computeDailyAnchor_ok A cal al w date? now anchor computed with ⟨content, reads, root, day⟩
  have opens : (w.reverifier al).isSome = true ∨ queryDateRows cal content.db anchor.date = [] := by
    rw [timely, Bool.or_eq_true, Host.dayEmpty, reads, ← day] at allowed
    exact allowed.imp id List.isEmpty_iff.mp
  have recorded : ∃ rows jsonl, w.recordAnchor al anchor =
      { w with anchorRows := rows, jsonl := jsonl } := by
    rw [Host.recordAnchor]
    split
    · split <;> exact ⟨_, _, rfl⟩
    · split <;> exact ⟨_, _, rfl⟩
  have records : ∀ date stored, (w.recordAnchor al anchor).getAnchor al date = .ok (some stored) →
      ∃ content, w.readStore al = .content content ∧ Covers A cal al w date stored content := by
    intro date stored found
    rcases getAnchor_record al w anchor date stored found with earlier | ⟨rfl, rfl⟩
    · exact holds.records date stored earlier
    · refine ⟨content, reads, ?_, opens⟩
      rw [← root]
      rfl
  rcases recorded with ⟨rows, jsonl, same⟩
  change Anchored A cal al dbPath anchorStorePath (w.recordAnchor al anchor)
  rw [same] at records ⊢
  refine ⟨holds.accepted, holds.tables, holds.files, fun date stored found => ?_⟩
  rcases records date stored found with ⟨covered, reads', covers⟩
  exact ⟨covered, reads', covers.root, covers.opens⟩

theorem step_anchored (w : Host) (event : AnchorEvent)
    (holds : Anchored A cal al dbPath anchorStorePath w)
    (allowed : timely A cal al w event = true) :
    Anchored A cal al dbPath anchorStorePath (w.step A cal al event) := by
  cases event with
  | log call => exact logTo_anchored A cal al dbPath anchorStorePath w call holds allowed
  | anchor date? now => exact anchorTo_anchored A cal al dbPath anchorStorePath w date? now holds allowed

/-- In what the re-verification opens, nothing is broken. -/
theorem anchored_reverifier (w : Host) (holds : Anchored A cal al dbPath anchorStorePath w)
    (content : AuditContent) (opened : w.reverifier al = some content) : Untouched A content := by
  rw [Host.reverifier, Option.bind_eq_some_iff] at opened
  rcases opened with ⟨log, -, connects⟩
  rw [Host.connect] at connects
  split at connects
  · rcases present : w.postgres with exc | stored
    · rw [present] at connects
      cases connects
    · rw [present] at connects
      obtain rfl := Option.some.inj connects
      exact holds.tables stored present
  · rcases located : log.dbPath with _ | path
    · rw [located] at connects
      cases connects
    · rw [located] at connects
      exact holds.files path content connects

theorem anchored_untampered (w : Host) (holds : Anchored A cal al dbPath anchorStorePath w)
    (date : String) (now : Timestamp) (verdict : AnchorVerdict)
    (given : w.verifyAnchor A cal al date now = .ok verdict) : verdict.tampered = false := by
  rcases except_bind_ok _ _ _ given with ⟨stored, loaded, given⟩
  rcases except_bind_ok _ _ _ given with ⟨root, rooted, given⟩
  rcases except_bind_ok _ _ _ given with ⟨live, computed, given⟩
  rcases except_bind_ok _ _ _ given with ⟨broken, listed, given⟩
  rcases stored with _ | record
  · rw [anchorVerdict] at given
    obtain rfl := Except.ok.inj given
    rfl
  rcases holds.records date record loaded with ⟨content, reads, ⟨held, opens⟩⟩
  rcases computeDailyAnchor_ok A cal al w (some date) now live computed with ⟨same, reads', fresh, day⟩
  have intact : broken = [] := by
    rcases brokenSessions_some A cal w al date content reads with ⟨others, found, members⟩
    rw [listed] at found
    obtain rfl := Except.ok.inj found
    refine List.eq_nil_iff_forall_not_mem.mpr fun sessionId seen => ?_
    rcases (members sessionId).mp seen with ⟨ofDay, unverified⟩
    rcases opens with opens | dayless
    · rcases Option.isSome_iff_exists.mp opens with ⟨opened, found⟩
      have untouched := anchored_reverifier A cal al dbPath anchorStorePath w holds opened found
      have fails := unverified opened found
      rw [untouched_verifies A opened untouched] at fails
      contradiction
    · rw [datedSessions, dayless] at ofDay
      cases ofDay
  rw [reads] at reads'
  obtain rfl := StoreRead.content.inj reads'
  rw [storedRoot, held] at rooted
  obtain rfl := Except.ok.inj rooted
  have equal : (str (dayRoot A cal content.db date)).pyEq (str live.merkleRoot) = true := by
    rw [fresh, day]
    exact (pyEq_str _ _).mpr rfl
  rw [anchorVerdict, intact, equal] at given
  obtain rfl := Except.ok.inj given
  rfl

end

/-- Runs that append nothing to a day with a stored anchor, and anchor no day whose rows cannot be re-verified,
never see a false tamper verdict. -/
theorem anchored_runs_untampered (A : Auditing) (cal : Calendar) (getenv : String → Option String)
    (postgresSelected : Bool) (writable : String → Bool) (dbPath anchorStorePath : Option String)
    (al : AnchorLogger)
    (accepted : AnchorLogger.init (.fresh getenv postgresSelected writable) dbPath anchorStorePath = .ok al)
    (events : List AnchorEvent)
    (guarded : Runs.Guarded (Host.step A cal al) (timely A cal al)
      (.fresh getenv postgresSelected writable) events = true) :
    ∀ count date now verdict,
      (Runs.run (Host.step A cal al) (.fresh getenv postgresSelected writable)
        (events.take count)).verifyAnchor A cal al date now = .ok verdict →
      verdict.tampered = false := by
  intro count date now verdict given
  rw [← List.take_append_drop count events, Runs.guarded_append, Bool.and_eq_true] at guarded
  have ends := Runs.run_invariant (Host.step A cal al) (Anchored A cal al dbPath anchorStorePath)
    (timely A cal al) (step_anchored A cal al dbPath anchorStorePath) (events.take count) _
    (fresh_anchored A cal al dbPath anchorStorePath getenv postgresSelected writable accepted) guarded.1
  exact anchored_untampered A cal al dbPath anchorStorePath _ ends date now verdict given

/-! A day is anchored before its first row is written. -/

def AnchorEvent.clock : AnchorEvent → Timestamp
  | .log call => call.timestamp
  | .anchor _ now => now

def Nondecreasing (cal : Calendar) (events : List AnchorEvent) : Prop :=
  events.Pairwise fun earlier later => ∀ s t, cal.seconds earlier.clock = some s →
    cal.seconds later.clock = some t → s ≤ t

def emptySha : String := "2e1cfa82b035c26cbbbdae632cea070514eb8b773f616aaeaf668e2f0be8f10d"

def emptyDayAuditing : Auditing :=
  { knownAuditing with
    sha256 := fun text => if text = "empty" then emptySha else knownAuditing.sha256 text }

def tablesLogger : AnchorLogger := { pg := true, dbPath := none, anchorStore := none }

def anchoredThenLogged : List AnchorEvent := [.anchor none loggedCall.timestamp, .log loggedCall]

def anchoredFirst : Host :=
  Runs.run (Host.step emptyDayAuditing newYear tablesLogger) (.fresh (fun _ => none) true fun _ => true)
    anchoredThenLogged

theorem anchoredFirst_tampered :
    (anchoredFirst.verifyAnchor emptyDayAuditing newYear tablesLogger "2026-01-01"
      loggedCall.timestamp).toOption.map AnchorVerdict.tampered = some true := by
  decide +kernel

theorem anchored_day_condemned :
    ¬∀ (A : Auditing) (cal : Calendar) (getenv : String → Option String) (postgresSelected : Bool)
        (writable : String → Bool) (dbPath anchorStorePath : Option String) (al : AnchorLogger),
      AnchorLogger.init (.fresh getenv postgresSelected writable) dbPath anchorStorePath = .ok al →
      ∀ events : List AnchorEvent, Nondecreasing cal events → ∀ count date now verdict,
        (Runs.run (Host.step A cal al) (.fresh getenv postgresSelected writable)
          (events.take count)).verifyAnchor A cal al date now = .ok verdict →
        verdict.tampered = false := by
  intro hold
  have ordered : Nondecreasing newYear anchoredThenLogged := by
    refine List.pairwise_pair.mpr fun s t first second => ?_
    change newYear.seconds loggedCall.timestamp = some s at first
    change newYear.seconds loggedCall.timestamp = some t at second
    have same := Option.some.inj (first.symm.trans second)
    exact same ▸ Rat.le_refl
  have clean := hold emptyDayAuditing newYear (fun _ => none) true (fun _ => true) none none tablesLogger rfl
    anchoredThenLogged ordered 2 "2026-01-01" loggedCall.timestamp
  rcases given : anchoredFirst.verifyAnchor emptyDayAuditing newYear tablesLogger "2026-01-01"
    loggedCall.timestamp with refusal | verdict
  · have tampered := anchoredFirst_tampered
    rw [given] at tampered
    cases tampered
  · have tampered := anchoredFirst_tampered
    rw [given] at tampered
    have claimed := clean verdict given
    rw [Option.some.inj tampered] at claimed
    cases claimed

def loggedThenAnchored : List AnchorEvent := [.log loggedCall, .anchor none loggedCall.timestamp]

def loggedFirst : Host :=
  Runs.run (Host.step emptyDayAuditing newYear tablesLogger) (.fresh (fun _ => none) true fun _ => true)
    (loggedThenAnchored.take 2)

theorem loggedFirst_verified :
    (loggedFirst.verifyAnchor emptyDayAuditing newYear tablesLogger "2026-01-01"
      loggedCall.timestamp).toOption.isSome = true := by
  decide +kernel

theorem logged_then_anchored_clean :
    ∃ verdict, loggedFirst.verifyAnchor emptyDayAuditing newYear tablesLogger "2026-01-01"
      loggedCall.timestamp = .ok verdict ∧ verdict.tampered = false := by
  have verified := loggedFirst_verified
  rcases given : loggedFirst.verifyAnchor emptyDayAuditing newYear tablesLogger "2026-01-01"
    loggedCall.timestamp with refusal | verdict
  · rw [given] at verified
    contradiction
  · refine ⟨verdict, rfl, ?_⟩
    exact anchored_runs_untampered emptyDayAuditing newYear (fun _ => none) true (fun _ => true) none none
      tablesLogger rfl loggedThenAnchored (by decide) 2 "2026-01-01" loggedCall.timestamp
      verdict given

end GenesisAgents
