import GenesisAgents.AuditTamper
import GenesisAgents.JsonLines
import GenesisAgents.Library.CsvText

/-! `export_session` of `audit.py`: what the two formats keep of the rows of a session. -/

namespace GenesisAgents.AuditExport

open Value JsonText

structure Exporting where
  unicode : Unicode
  numerals : Numerals
  /-- The float of a column. -/
  float : Timestamp → PyFloat

def columnNames : List String :=
  ["id", "session_id", "action_type", "tool_name", "inputs_json", "outputs_json", "cost_cents", "error",
   "timestamp", "prev_hash", "row_hash"]

variable (X : Exporting)

def columns (row : AuditRow) : List Value :=
  [int row.id, str row.sessionId, str row.actionType, str row.toolName, str row.inputsJson,
   str row.outputsJson, int row.costCents, str row.error, float (X.float row.timestamp),
   str row.prevHash, str row.rowHash]

/-- `dict(r)` -/
def rowItems (row : AuditRow) : List (String × Value) := columnNames.zip (columns X row)

/-- `get_session_rows` -/
def getSessionRows (db : AuditDb) (sessionId : String) : List Value :=
  (sessionRows db.rows sessionId).map fun row => dict (rowItems X row)

/-- What `csv.writer` writes for a value. -/
def csvField : Value → String
  | null => ""
  | v => v.text X.unicode

def csvRecord (row : AuditRow) : CsvText.Record := (columns X row).map fun v => (csvField X v).toList

def csvRecords (rows : List AuditRow) : List CsvText.Record :=
  columnNames.map String.toList :: rows.map (csvRecord X)

def jsonlLine (row : AuditRow) : Option String := dumps (dict (rowItems X row))

/-- `export_session`; `none` when `json.dumps` raises. -/
def exportSession (db : AuditDb) (sessionId fmt : String) : Option String :=
  let rows := sessionRows db.rows sessionId
  if fmt = "csv" then some (String.ofList (CsvText.write (csvRecords X rows)))
  else (rows.mapM (jsonlLine X)).map ("\n".intercalate ·)

theorem timestamp_eq (t t' : Timestamp) (same : t.repr = t'.repr) : t = t' := by
  cases t
  cases t'
  subst same
  rfl

/-- The timestamp of a row is a float that can be read back from its text. -/
structure Stamped (row : AuditRow) : Prop where
  repr : (X.float row.timestamp).repr = row.timestamp.repr
  genuine : Genuine X.numerals (X.float row.timestamp)

theorem stamped_session (db : AuditDb) (stamped : ∀ row ∈ db.rows, Stamped X row) (sessionId : String) :
    ∀ row ∈ sessionRows db.rows sessionId, Stamped X row := by
  intro row member
  rw [sessionRows, List.mem_insertionSort] at member
  exact stamped row (List.mem_of_mem_filter member)

/-- No two values of a column are written alike. -/
theorem csvRecord_eq_iff (row row' : AuditRow) (stamped : Stamped X row) (stamped' : Stamped X row') :
    csvRecord X row = csvRecord X row' ↔ columns X row = columns X row' := by
  refine ⟨fun same => ?_, fun same => by rw [csvRecord, same, csvRecord]⟩
  simp only [csvRecord, columns, List.map_cons, List.map_nil, csvField, text, Value.repr,
    List.cons.injEq, String.toList_inj, stamped.repr, stamped'.repr, and_true] at same
  obtain ⟨id, session, action, tool, inputs, outputs, cost, error, timestamp, prev, hash⟩ := same
  rw [columns, toString_inj _ _ id, session, action, tool, inputs, outputs, toString_inj _ _ cost,
    error, timestamp_eq _ _ timestamp, prev, hash, columns]

theorem rowItems_eq_iff (row row' : AuditRow) :
    rowItems X row = rowItems X row' ↔ columns X row = columns X row' := by
  refine ⟨fun same => ?_, fun same => by rw [rowItems, same, rowItems]⟩
  exact congrArg (List.map Prod.snd) same

theorem rowItems_loaded (row : AuditRow) (stamped : Stamped X row) :
    Loaded X.numerals (dict (rowItems X row)) := by
  have distinct : columnNames.Nodup := by decide
  refine ⟨distinct, ?_⟩
  simp [rowItems, columnNames, columns, LoadedItems, Loaded, stamped.genuine]

theorem jsonlLine_some (row : AuditRow) : ∃ line, jsonlLine X row = some line := by
  apply Option.isSome_iff_exists.mp
  rw [jsonlLine, dumps, dumpsWith_isSome]
  rfl

theorem csv_reads (rows : List AuditRow) :
    CsvText.read (CsvText.write (csvRecords X rows)) = some (csvRecords X rows) := by
  refine CsvText.read_write _ fun record member => ?_
  rcases List.mem_cons.mp member with rfl | member
  · exact List.cons_ne_nil _ _
  · obtain ⟨row, -, rfl⟩ := List.mem_map.mp member
    exact List.cons_ne_nil _ _

theorem jsonl_lines (rows : List AuditRow) (stamped : ∀ row ∈ rows, Stamped X row) : ∃ lines : List String,
    rows.mapM (jsonlLine X) = some lines ∧ (∀ line ∈ lines, '\n' ∉ line.toList) ∧
      lines.map (loads X.numerals) = rows.map fun row => some (dict (rowItems X row)) := by
  induction rows with
  | nil => exact ⟨[], rfl, fun _ member => absurd member List.not_mem_nil, rfl⟩
  | cons row rest later =>
    rw [List.forall_mem_cons] at stamped
    obtain ⟨lines, printed, unbroken, read⟩ := later stamped.2
    obtain ⟨line, encoded⟩ := jsonlLine_some X row
    have loaded := loads_print X.numerals standardStyle rfl standard_blank _
      (rowItems_loaded X row stamped.1) line (dumps_eq_print _ _ standard_prints _ line encoded)
    refine ⟨line :: lines, ?_, List.forall_mem_cons.mpr ⟨fun broken => ?_, unbroken⟩, ?_⟩
    · rw [List.mapM_cons, encoded, printed]
      rfl
    · have plain := JsonLines.line_newlines (rowItems X row) line encoded '\n' broken
      cases plain
    · rw [List.map_cons, List.map_cons, loaded, read]

theorem split_lines (lines : List String) (filled : lines ≠ []) (unbroken : ∀ line ∈ lines, '\n' ∉ line.toList) :
    ("\n".intercalate lines).toList.splitOn '\n' = lines.map String.toList := by
  rw [String.toList_intercalate]
  refine List.splitOn_intercalate '\n' (fun line member => ?_) fun empty => filled (List.map_eq_nil_iff.mp empty)
  obtain ⟨text, present, rfl⟩ := List.mem_map.mp member
  exact unbroken text present

theorem export_csv (db : AuditDb) (sessionId : String) : exportSession X db sessionId "csv" =
    some (String.ofList (CsvText.write (csvRecords X (sessionRows db.rows sessionId)))) := by
  rw [exportSession, if_pos rfl]

/-- Both exports can be read back: the CSV text as a header and the columns of every row, the JSONL text
line by line as what `get_session_rows` returns. -/
theorem export_reads (db : AuditDb) (stamped : ∀ row ∈ db.rows, Stamped X row) (sessionId fmt : String)
    (json : fmt ≠ "csv") :
    (∃ text, exportSession X db sessionId "csv" = some text ∧
      CsvText.read text.toList = some (csvRecords X (sessionRows db.rows sessionId))) ∧
    ∃ text, exportSession X db sessionId fmt = some text ∧ (sessionRows db.rows sessionId ≠ [] →
      (text.toList.splitOn '\n').map (fun line => loads X.numerals (String.ofList line)) =
        (getSessionRows X db sessionId).map some) := by
  refine ⟨⟨_, export_csv X db sessionId, ?_⟩, ?_⟩
  · rw [String.toList_ofList]
    exact csv_reads X _
  · obtain ⟨lines, printed, unbroken, read⟩ :=
      jsonl_lines X (sessionRows db.rows sessionId) (stamped_session X db stamped sessionId)
    rw [exportSession, if_neg json, printed]
    refine ⟨_, rfl, fun filled => ?_⟩
    have some_line : lines ≠ [] := by
      rintro rfl
      exact filled (List.map_eq_nil_iff.mp read.symm)
    rw [split_lines lines some_line unbroken, List.map_map, getSessionRows, List.map_map]
    simpa only [Function.comp_def, String.ofList_toList] using read

theorem halfSecond_plain : "0.5".toList ≠ [] ∧ ∀ c ∈ "0.5".toList, isFloatChar c = true := floatText_plain "0.5" rfl

def halfSecond : PyFloat := ⟨"0.5", some (mkRat (Int.ofNat 1) 2), halfSecond_plain⟩

def halfExporting : Exporting where
  unicode := { lower := id, printable := fun _ => true }
  numerals := { float := fun _ => halfSecond, int := fun _ => none }
  float _ := halfSecond

def quotedLog : AuditDb where
  nextId := 2
  rows := [{ id := 1, sessionId := "s", actionType := "tool_call", toolName := "web_search",
             inputsJson := "\x7b\x7d", outputsJson := "", costCents := 0, error := "no \"results\",\r\n",
             timestamp := ⟨"0.5", by decide⟩, prevHash := "", rowHash := "a", inputsDigest := none,
             outputsDigest := none, schemaVersion := 1 }]
  heads _ := none

theorem quotedLog_stamped : ∀ row ∈ quotedLog.rows, Stamped halfExporting row :=
  List.forall_mem_singleton.mpr ⟨rfl, .inr ⟨by decide, rfl⟩⟩

theorem export_reads_quoted : ∃ text, exportSession halfExporting quotedLog "s" "csv" = some text ∧
    CsvText.read text.toList = some (csvRecords halfExporting (sessionRows quotedLog.rows "s")) :=
  (export_reads halfExporting quotedLog quotedLog_stamped "s" "jsonl" (by decide)).1

theorem map_eq_iff {α β γ : Type} (f : α → β) (g : α → γ) (l : List α) : ∀ l' : List α,
    (∀ a ∈ l, ∀ b ∈ l', f a = f b ↔ g a = g b) → (l.map f = l'.map f ↔ l.map g = l'.map g) := by
  induction l with
  | nil =>
    intro l' _
    cases l' <;> simp
  | cons a l later =>
    intro l' same
    cases l' with
    | nil => simp
    | cons b l' =>
      have rest := later l' fun x left y right =>
        same x (List.mem_cons_of_mem a left) y (List.mem_cons_of_mem b right)
      rw [List.map_cons, List.map_cons, List.map_cons, List.map_cons, List.cons.injEq, List.cons.injEq,
        same a List.mem_cons_self b List.mem_cons_self, rest]

section

variable (db db' : AuditDb) (stamped : ∀ row ∈ db.rows, Stamped X row)
  (stamped' : ∀ row ∈ db'.rows, Stamped X row)

include stamped stamped'

theorem csv_eq_iff (sessionId sessionId' : String) :
    exportSession X db sessionId "csv" = exportSession X db' sessionId' "csv" ↔
      getSessionRows X db sessionId = getSessionRows X db' sessionId' := by
  have rows := map_eq_iff (csvRecord X) (fun row => dict (rowItems X row)) (sessionRows db.rows sessionId)
    (sessionRows db'.rows sessionId') fun row member row' member' => by
      rw [csvRecord_eq_iff X row row' (stamped_session X db stamped sessionId row member)
        (stamped_session X db' stamped' sessionId' row' member'), ← rowItems_eq_iff, Value.dict.injEq]
  rw [getSessionRows, getSessionRows, ← rows, export_csv, export_csv, Option.some.injEq]
  constructor
  · intro same
    have read := csv_reads X (sessionRows db.rows sessionId)
    rw [String.ofList_injective same, csv_reads] at read
    exact (List.cons.inj (Option.some.inj read)).2.symm
  · intro same
    rw [csvRecords, same, csvRecords]

omit stamped stamped' in
theorem export_jsonl (sessionId fmt : String) (json : fmt ≠ "csv") :
    exportSession X db sessionId fmt =
      ((getSessionRows X db sessionId).mapM dumps).map ("\n".intercalate ·) := by
  rw [exportSession, if_neg json, getSessionRows, List.mapM_map]
  rfl

omit stamped' in
/-- A text without lines is that of a session without rows. -/
theorem jsonl_empty (sessionId fmt : String) (json : fmt ≠ "csv")
    (empty : exportSession X db sessionId fmt = some "") : getSessionRows X db sessionId = [] := by
  obtain ⟨-, text, exported, reads⟩ := export_reads X db stamped sessionId fmt json
  rw [empty] at exported
  obtain rfl := Option.some.inj exported
  by_contra filled
  have read := reads fun none_there => filled (by rw [getSessionRows, none_there]; rfl)
  obtain ⟨first, rest, rows⟩ := List.exists_cons_of_ne_nil filled
  rw [rows] at read
  cases (List.cons.inj read).1

theorem jsonl_eq_iff (sessionId sessionId' fmt : String) (json : fmt ≠ "csv") :
    exportSession X db sessionId fmt = exportSession X db' sessionId' fmt ↔
      getSessionRows X db sessionId = getSessionRows X db' sessionId' := by
  refine ⟨fun same => ?_, fun same => by rw [export_jsonl X _ _ _ json, same, export_jsonl X _ _ _ json]⟩
  obtain ⟨-, text, exported, reads⟩ := export_reads X db stamped sessionId fmt json
  obtain ⟨-, text', exported', reads'⟩ := export_reads X db' stamped' sessionId' fmt json
  by_cases filled : getSessionRows X db sessionId = []
  · have empty : exportSession X db sessionId fmt = some "" := by
      rw [export_jsonl X _ _ _ json, filled]
      rfl
    rw [filled, jsonl_empty X db' stamped' sessionId' fmt json (same ▸ empty)]
  by_cases filled' : getSessionRows X db' sessionId' = []
  · have empty : exportSession X db' sessionId' fmt = some "" := by
      rw [export_jsonl X _ _ _ json, filled']
      rfl
    exact absurd (jsonl_empty X db stamped sessionId fmt json (same.trans empty)) filled
  rw [exported, exported'] at same
  obtain rfl := Option.some.inj same
  have both := (reads fun none_there => filled (by rw [getSessionRows, none_there]; rfl)).symm.trans
    (reads' fun none_there => filled' (by rw [getSessionRows, none_there]; rfl))
  exact List.map_injective_iff.mpr (Option.some_injective _) both

/-- Two sessions have one export, in either format, exactly when they have the same rows in what
`get_session_rows` returns. -/
theorem exports_agree (sessionId sessionId' fmt : String) :
    exportSession X db sessionId fmt = exportSession X db' sessionId' fmt ↔
      getSessionRows X db sessionId = getSessionRows X db' sessionId' := by
  by_cases csv : fmt = "csv"
  · rw [csv]
    exact csv_eq_iff X db db' stamped stamped' sessionId sessionId'
  · exact jsonl_eq_iff X db db' stamped stamped' sessionId sessionId' fmt csv

end

theorem exports_agree_quoted :
    exportSession halfExporting quotedLog "s" "csv" ≠ exportSession halfExporting AuditDb.empty "s" "csv" :=
  mt (exports_agree halfExporting quotedLog AuditDb.empty quotedLog_stamped
    (fun _ member => absurd member List.not_mem_nil) "s" "s" "csv").mp (List.cons_ne_nil _ _)

end GenesisAgents.AuditExport
