import Mathlib.Data.List.Basic

/-! Comma separated values: fields that hold a comma, a quote or a line break are quoted, and every record
ends in a line break. What was written is read back. -/

namespace CsvText

abbrev Field := List Char

abbrev Record := List Field

def special (c : Char) : Bool := c == ',' || c == '"' || c == '\r' || c == '\n'

def doubled : Field → List Char
  | [] => []
  | c :: rest => if c = '"' then '"' :: '"' :: doubled rest else c :: doubled rest

def writeField (field : Field) : List Char :=
  if field.any special then '"' :: (doubled field ++ ['"']) else field

/-- A record of one empty field is quoted, to be told from an empty line. -/
def writeRecord (record : Record) : List Char :=
  if record = [[]] then ['"', '"', '\r', '\n']
  else [','].intercalate (record.map writeField) ++ ['\r', '\n']

def write (records : List Record) : List Char := records.flatMap writeRecord

inductive Mode where
  /-- Outside of quotes. -/
  | plain
  | quoted
  /-- Behind a quote inside of quotes. -/
  | closing
  /-- Behind a carriage return outside of quotes. -/
  | ending
  deriving DecidableEq

/-- The records of a text, where `field` and `record` are what was read of the current ones, reversed. -/
@[simp] def scan : Mode → Field → List Field → List Char → Option (List Record)
  | mode, field, record, [] => if mode = .plain ∧ field = [] ∧ record = [] then some [] else none
  | .plain, field, record, c :: rest =>
    if c = ',' then scan .plain [] (field.reverse :: record) rest
    else if c = '\r' then scan .ending field record rest
    else if c = '"' ∧ field = [] then scan .quoted [] record rest
    else scan .plain (c :: field) record rest
  | .quoted, field, record, c :: rest =>
    if c = '"' then scan .closing field record rest else scan .quoted (c :: field) record rest
  | .closing, field, record, c :: rest =>
    if c = '"' then scan .quoted ('"' :: field) record rest
    else if c = ',' then scan .plain [] (field.reverse :: record) rest
    else if c = '\r' then scan .ending field record rest
    else none
  | .ending, field, record, c :: rest =>
    if c = '\n' then (scan .plain [] [] rest).map ((field.reverse :: record).reverse :: ·) else none

def read (text : List Char) : Option (List Record) := scan .plain [] [] text

theorem scan_plain (field : Field) (plain : field.any special = false) : ∀ before record rest,
    scan .plain before record (field ++ rest) = scan .plain (field.reverse ++ before) record rest := by
  induction field with
  | nil => exact fun _ _ _ => rfl
  | cons c field later =>
    intro before record rest
    rw [List.any_cons, Bool.or_eq_false_iff, special] at plain
    obtain ⟨⟨⟨⟨comma, quote⟩, cr⟩, -⟩, others⟩ := by
      simpa only [Bool.or_eq_false_iff, beq_eq_false_iff_ne] using plain
    rw [List.cons_append, scan, if_neg comma, if_neg cr, if_neg fun starts => quote starts.1, later others,
      List.reverse_cons, List.append_assoc]
    rfl

theorem scan_doubled (field : Field) : ∀ before record rest,
    scan .quoted before record (doubled field ++ '"' :: rest) =
      scan .closing (field.reverse ++ before) record rest := by
  induction field with
  | nil => exact fun _ _ _ => rfl
  | cons c field later =>
    intro before record rest
    rw [doubled]
    split
    · next quote =>
      subst quote
      rw [List.cons_append, List.cons_append, scan, if_pos rfl, scan, if_pos rfl, later,
        List.reverse_cons, List.append_assoc]
      rfl
    · next other =>
      rw [List.cons_append, scan, if_neg other, later, List.reverse_cons, List.append_assoc]
      rfl

theorem scan_field (field : Field) (record : List Field) (rest : List Char) :
    scan .plain [] record (writeField field ++ ',' :: rest) = scan .plain [] (field :: record) rest := by
  rw [writeField]
  split
  · rw [List.cons_append, List.append_assoc, scan, if_neg (by decide), if_neg (by decide),
      if_pos ⟨rfl, rfl⟩, List.singleton_append, scan_doubled, scan, if_neg (by decide), if_pos rfl,
      List.append_nil, List.reverse_reverse]
  · next plain =>
    rw [scan_plain field (Bool.eq_false_iff.mpr plain), scan, if_pos rfl, List.append_nil,
      List.reverse_reverse]

theorem scan_last (field : Field) (record : List Field) (rest : List Char) :
    scan .plain [] record (writeField field ++ '\r' :: '\n' :: rest) =
      (scan .plain [] [] rest).map ((field :: record).reverse :: ·) := by
  rw [writeField]
  split
  · rw [List.cons_append, List.append_assoc, scan, if_neg (by decide), if_neg (by decide),
      if_pos ⟨rfl, rfl⟩, List.singleton_append, scan_doubled, scan, if_neg (by decide),
      if_neg (by decide), if_pos rfl, scan, if_pos rfl, List.append_nil, List.reverse_reverse]
  · next plain =>
    rw [scan_plain field (Bool.eq_false_iff.mpr plain), scan, if_neg (by decide), if_pos rfl, scan,
      if_pos rfl, List.append_nil, List.reverse_reverse]

theorem scan_fields (fields : List Field) : ∀ field record rest,
    scan .plain [] record
        ([','].intercalate ((field :: fields).map writeField) ++ '\r' :: '\n' :: rest) =
      (scan .plain [] [] rest).map ((record.reverse ++ field :: fields) :: ·) := by
  induction fields with
  | nil =>
    intro field record rest
    rw [List.map_singleton, List.intercalate_singleton, scan_last, List.reverse_cons]
  | cons next fields later =>
    intro field record rest
    rw [List.map_cons, List.map_cons, List.intercalate_cons_cons, ← List.map_cons, List.append_assoc,
      List.append_assoc, List.singleton_append, scan_field, later, List.reverse_cons, List.append_assoc]
    rfl

theorem scan_record (record : Record) (filled : record ≠ []) (rest : List Char) :
    scan .plain [] [] (writeRecord record ++ rest) = (scan .plain [] [] rest).map (record :: ·) := by
  rw [writeRecord]
  split
  · next empty =>
    rw [empty]
    exact scan_doubled [] [] [] ('\r' :: '\n' :: rest)
  · obtain ⟨field, fields, rfl⟩ := List.exists_cons_of_ne_nil filled
    rw [List.append_assoc]
    exact scan_fields fields field [] rest

/-- What was written is read back, where no record is empty. -/
theorem read_write (records : List Record) (filled : ∀ record ∈ records, record ≠ []) :
    read (write records) = some records := by
  induction records with
  | nil => rfl
  | cons record rest later =>
    rw [List.forall_mem_cons] at filled
    have behind := later filled.2
    rw [read, write] at behind
    rw [read, write, List.flatMap_cons, scan_record record filled.1, behind]
    rfl

end CsvText
