import GenesisAgents.Anchors
import GenesisAgents.JsonLines
import Mathlib.Data.Fintype.EquivFin

/-! The JSONL file of the anchors as text: `record_anchor` appends to whatever a crash or another program left
there, and `get_anchor` reads it. -/

namespace GenesisAgents.JsonlStore

open Value JsonText JsonLines

/-- The bytes of the file: text in UTF-8, up to the end or up to bytes that are none. -/
structure StoreFile where
  text : List Char
  decodes : Bool

structure Interpreter where
  numerals : Numerals
  /-- `json.loads` raises what is no `JSONDecodeError`: an integer has more digits than `int` takes, or the
  brackets are nested deeper than the recursion limit. -/
  raises : String → Bool
  /-- The lines that a file which is no UTF-8 yields before `UnicodeDecodeError`; it is decoded in chunks. -/
  yielded : StoreFile → Nat

def linesOf : List Char → List (List Char)
  | [] => [[]]
  | c :: rest =>
    if isNewline c then [] :: linesOf rest
    else match linesOf rest with
      | [] => [[c]]
      | line :: lines => (c :: line) :: lines

inductive LineRead where
  /-- Blank or malformed. -/
  | skipped
  | raised
  | record (value : Value)

section

variable (I : Interpreter)

/-- What the loop of `get_anchor` makes of a line. -/
def readLine (line : List Char) : LineRead :=
  let line := strip (String.ofList line)
  if line = "" then .skipped
  else if I.raises line then .raised
  else match JsonLines.loads I.numerals line with
    | none => .skipped
    | some v => .record v

/-- `record.get("date") == date` -/
def dated (date : String) (record : Value) : Bool := (record.get "date").pyEq (str date)

def scan (date : String) : List (List Char) → Except AnchorRefusal (Option Value)
  | [] => .ok none
  | line :: rest =>
    match readLine I line with
    | .skipped => scan date rest
    | .raised => .error .badRecord
    | .record v =>
      -- what is no dict has no `get`
      if !v.isDict then .error .badRecord
      else if dated date v then .ok (some v)
      else scan date rest

/-- `get_anchor` -/
def getAnchor (file : StoreFile) (date : String) : Except AnchorRefusal (Option Value) :=
  if file.decodes then scan I date (linesOf file.text)
  else
    match scan I date ((linesOf file.text).take (I.yielded file)) with
    | .ok none => .error .badRecord
    | ended => ended

/-- A dict that `json.dumps` writes and `json.loads` reads back. -/
structure AnchorDict where
  entries : List (String × Value)
  loaded : Loaded I.numerals (dict entries)
  line : String
  encoded : dumpsWith .standard (dict entries) = some line
  taken : I.raises line = false

def AnchorDict.value {I : Interpreter} (anchor : AnchorDict I) : Value := dict anchor.entries

/-- `record_anchor`; after bytes that are no UTF-8 the text is not reached. -/
def recordAnchor (file : StoreFile) (anchor : AnchorDict I) : StoreFile :=
  if file.decodes then { file with text := file.text ++ (anchor.line.toList ++ ['\n']) } else file

def recordAll (file : StoreFile) (anchors : List (AnchorDict I)) : StoreFile :=
  anchors.foldl (recordAnchor I) file

def LineRead.dict? : LineRead → Option Value
  | .record v => if v.isDict then some v else none
  | _ => none

def recordsOf (lines : List (List Char)) : List Value := lines.filterMap fun line => (readLine I line).dict?

/-- The first record of a date: those that the file held come before those that were recorded. -/
def firstStored (file : StoreFile) (anchors : List (AnchorDict I)) (date : String) : Option Value :=
  (recordsOf I (linesOf file.text) ++ anchors.map AnchorDict.value).find? (dated date)

/-- After each of the recordings every date has its first record. -/
def Tolerates (file : StoreFile) (anchors : List (AnchorDict I)) : Prop :=
  ∀ count date, getAnchor I (recordAll I file (anchors.take count)) date =
    .ok (firstStored I file (anchors.take count) date)

def LineRead.passes : LineRead → Bool
  | .skipped => true
  | .raised => false
  | .record v => v.isDict

/-- The file is UTF-8, and no line makes the loop raise. -/
def Readable (file : StoreFile) : Prop :=
  file.decodes = true ∧ ∀ line ∈ linesOf file.text, (readLine I line).passes = true

def tornTail (file : StoreFile) : List Char := (linesOf file.text).getLastD []

def Shadowed (earlier : List Value) (record : Value) : Prop :=
  ∀ date, dated date record = true → earlier.any (dated date) = true

/-- Nothing is torn off, or the first recording runs into a line that `json.loads` refuses, and neither it nor
what was torn is the first record of its date. -/
def Apart (file : StoreFile) (anchors : List (AnchorDict I)) : Prop :=
  (tornTail file).all isSpace = true ∨
    ∀ first ∈ anchors.head?,
      I.raises (strip (String.ofList (tornTail file ++ first.line.toList))) = false ∧
        ∀ record ∈ recordsOf I [tornTail file] ++ [first.value],
          Shadowed (recordsOf I (linesOf file.text).dropLast) record

theorem linesOf_append (text : List Char) : ∃ front tail, linesOf text = front ++ [tail] ∧
    ∀ more line lines, linesOf more = line :: lines →
      linesOf (text ++ more) = front ++ (tail ++ line) :: lines := by
  induction text with
  | nil => exact ⟨[], [], rfl, fun more line lines same => same⟩
  | cons c text later =>
    rcases later with ⟨front, tail, split, continued⟩
    by_cases newline : isNewline c = true
    · refine ⟨[] :: front, tail, by rw [linesOf, if_pos newline, split]; rfl, fun more line lines same => ?_⟩
      rw [List.cons_append, linesOf, if_pos newline, continued more line lines same]
      rfl
    · cases front with
      | nil =>
        refine ⟨[], c :: tail, by rw [linesOf, if_neg newline, split]; rfl, fun more line lines same => ?_⟩
        rw [List.cons_append, linesOf, if_neg newline, continued more line lines same]
        rfl
      | cons head front =>
        refine ⟨(c :: head) :: front, tail, by rw [linesOf, if_neg newline, split]; rfl,
          fun more line lines same => ?_⟩
        rw [List.cons_append, linesOf, if_neg newline, continued more line lines same]
        rfl

theorem linesOf_line (line rest : List Char) (unbroken : ∀ c ∈ line, isNewline c = false) :
    linesOf (line ++ '\n' :: rest) = line :: linesOf rest := by
  induction line with
  | nil => rfl
  | cons c line later =>
    have plain := unbroken c List.mem_cons_self
    rw [List.cons_append, linesOf, if_neg (by rw [plain]; decide),
      later fun d member => unbroken d (List.mem_cons_of_mem c member)]

def added (anchors : List (AnchorDict I)) : List Char :=
  anchors.flatMap fun anchor => anchor.line.toList ++ ['\n']

theorem recordAll_text (file : StoreFile) (decodes : file.decodes = true) (anchors : List (AnchorDict I)) :
    recordAll I file anchors = { file with text := file.text ++ added I anchors } := by
  induction anchors generalizing file with
  | nil =>
    rw [added, List.flatMap_nil, List.append_nil]
    rfl
  | cons anchor anchors later =>
    have next := later (recordAnchor I file anchor) (by rw [recordAnchor, if_pos decodes]; exact decodes)
    rw [recordAll, List.foldl_cons]
    rw [recordAll] at next
    rw [next, recordAnchor, if_pos decodes, added, added, List.flatMap_cons, List.append_assoc]

theorem linesOf_added (anchors : List (AnchorDict I)) :
    linesOf (added I anchors) = anchors.map (fun anchor => anchor.line.toList) ++ [[]] := by
  induction anchors with
  | nil => rfl
  | cons anchor anchors later =>
    rw [added, List.flatMap_cons, List.append_assoc, List.singleton_append,
      linesOf_line _ _ (line_newlines anchor.entries anchor.line anchor.encoded)]
    rw [added] at later
    rw [later]
    rfl

/-- The lines after the recordings: the first one continues the last line of the file. -/
theorem linesOf_recorded (file : StoreFile) :
    linesOf file.text = (linesOf file.text).dropLast ++ [tornTail file] ∧
    ∀ (first : AnchorDict I) (anchors : List (AnchorDict I)),
      linesOf (file.text ++ added I (first :: anchors)) = (linesOf file.text).dropLast ++
        (tornTail file ++ first.line.toList) :: (anchors.map (fun anchor => anchor.line.toList) ++ [[]]) := by
  rcases linesOf_append file.text with ⟨front, tail, split, continued⟩
  have torn : tornTail file = tail := by rw [tornTail, split, List.getLastD_concat]
  rw [torn, split, List.dropLast_concat]
  exact ⟨rfl, fun first anchors => continued _ _ _ (linesOf_added I (first :: anchors))⟩

theorem strip_line (t : List Char) (anchor : AnchorDict I) :
    strip (String.ofList (t ++ anchor.line.toList)) =
      String.ofList (t.dropWhile isSpace ++ anchor.line.toList) := by
  rcases line_shape anchor.entries anchor.line anchor.encoded with ⟨inner, shape⟩
  have front : (t ++ anchor.line.toList).dropWhile isSpace = t.dropWhile isSpace ++ anchor.line.toList := by
    rw [List.dropWhile_append]
    split
    · rename_i blank
      rw [List.isEmpty_iff.mp blank, List.nil_append, shape, List.dropWhile_cons_of_neg (by decide)]
    · rfl
  have back : (t.dropWhile isSpace ++ anchor.line.toList).reverse.dropWhile isSpace =
      (t.dropWhile isSpace ++ anchor.line.toList).reverse := by
    rw [shape, ← List.cons_append, ← List.append_assoc, List.reverse_concat,
      List.dropWhile_cons_of_neg (by decide)]
  rw [strip, String.toList_ofList, front, back, List.reverse_reverse]

theorem strip_blank (t : List Char) (blank : t.all isSpace = true) : strip (String.ofList t) = "" := by
  have nothing : t.dropWhile isSpace = [] := by
    rw [List.dropWhile_eq_nil_iff]
    exact List.all_eq_true.mp blank
  rw [strip, String.toList_ofList, nothing]
  rfl

theorem readLine_blank (t : List Char) (blank : t.all isSpace = true) : readLine I t = .skipped := by
  rw [readLine, strip_blank t blank]
  rfl

theorem behind_ne_empty (t : List Char) (anchor : AnchorDict I) :
    String.ofList (t ++ anchor.line.toList) ≠ "" := by
  intro empty
  rcases line_shape anchor.entries anchor.line anchor.encoded with ⟨inner, shape⟩
  have letters := congrArg String.toList empty
  rw [String.toList_ofList, shape] at letters
  simp at letters

theorem readLine_line (t : List Char) (blank : t.all isSpace = true) (anchor : AnchorDict I) :
    readLine I (t ++ anchor.line.toList) = .record anchor.value := by
  have nothing : t.dropWhile isSpace = [] := by
    rw [List.dropWhile_eq_nil_iff]
    exact List.all_eq_true.mp blank
  have filled := behind_ne_empty I [] anchor
  rw [List.nil_append, String.ofList_toList] at filled
  rw [readLine, strip_line, nothing, List.nil_append, String.ofList_toList]
  rw [if_neg filled, anchor.taken, if_neg (by decide),
    loads_line I.numerals anchor.entries anchor.loaded anchor.line anchor.encoded]
  rfl

theorem readLine_torn (t : List Char) (torn : ¬t.all isSpace = true) (anchor : AnchorDict I) :
    readLine I (t ++ anchor.line.toList) =
      if I.raises (strip (String.ofList (t ++ anchor.line.toList))) then .raised else .skipped := by
  have filled : skip (t.dropWhile isSpace) ≠ [] := by
    rcases left : t.dropWhile isSpace with _ | ⟨c, rest⟩
    · rw [List.dropWhile_eq_nil_iff] at left
      exact absurd (List.all_eq_true.mpr left) torn
    · have solid : isSpace c = false := by
        have head := List.head_dropWhile_not isSpace (l := t) (by rw [left]; exact List.cons_ne_nil c rest)
        simpa only [left, List.head_cons] using head
      have unblank : isBlank c = false := by
        by_contra blank
        have listed : c ∈ blanks := by simpa [isBlank] using blank
        have spaces : ∀ d ∈ blanks, isSpace d = true :=
          List.all_eq_true.mp (by decide : blanks.all isSpace = true)
        rw [spaces c listed] at solid
        cases solid
      rw [skip_cons c rest unblank]
      exact List.cons_ne_nil c rest
  rw [readLine, strip_line, if_neg (behind_ne_empty I _ anchor),
    loads_behind I.numerals anchor.entries anchor.loaded anchor.line anchor.encoded _ filled]

theorem recordsOf_append (front back : List (List Char)) :
    recordsOf I (front ++ back) = recordsOf I front ++ recordsOf I back := List.filterMap_append

/-- Where the loop gets past every line, it finds the first record of the date. -/
theorem scan_passed (date : String) (lines : List (List Char))
    (passed : ∀ line ∈ lines, (readLine I line).passes = true) :
    scan I date lines = .ok ((recordsOf I lines).find? (dated date)) := by
  induction lines with
  | nil => rfl
  | cons line lines later =>
    have head := passed line List.mem_cons_self
    have tail := later fun other member => passed other (List.mem_cons_of_mem line member)
    rw [scan, recordsOf]
    rcases read : readLine I line with _ | _ | v
    · rw [List.filterMap_cons_none (by rw [read]; rfl)]
      exact tail
    · rw [read] at head
      cases head
    · rw [read] at head
      have entered : v.isDict = true := head
      rw [List.filterMap_cons_some (by rw [read, LineRead.dict?, if_pos entered]), List.find?_cons]
      dsimp only
      rw [entered]
      cases found : dated date v
      · exact tail
      · rfl

/-- Past the records of other dates the loop comes to a line at which it raises. -/
theorem scan_raises (date : String) (lines : List (List Char))
    (missing : ∀ v ∈ recordsOf I lines, dated date v = false)
    (stops : ∃ line ∈ lines, (readLine I line).passes = false) : scan I date lines = .error .badRecord := by
  induction lines with
  | nil =>
    rcases stops with ⟨line, member, -⟩
    cases member
  | cons line lines later =>
    rw [scan]
    rcases read : readLine I line with _ | _ | v
    · have rest : recordsOf I (line :: lines) = recordsOf I lines :=
        List.filterMap_cons_none (by rw [read]; rfl)
      rw [rest] at missing
      refine later missing ?_
      rcases stops with ⟨other, member, raises⟩
      rcases List.mem_cons.mp member with rfl | member
      · rw [read] at raises
        cases raises
      · exact ⟨other, member, raises⟩
    · rfl
    · dsimp only
      rcases entered : v.isDict with _ | _
      · rfl
      · have rest : recordsOf I (line :: lines) = v :: recordsOf I lines :=
          List.filterMap_cons_some (by rw [read, LineRead.dict?, if_pos entered])
        rw [rest, List.forall_mem_cons] at missing
        rw [missing.1]
        refine later missing.2 ?_
        rcases stops with ⟨other, member, raises⟩
        rcases List.mem_cons.mp member with rfl | member
        · rw [read, LineRead.passes, entered] at raises
          cases raises
        · exact ⟨other, member, raises⟩

theorem exists_missing (records : List Value) : ∃ date, ∀ v ∈ records, dated date v = false := by
  have name (v : Value) : ∃ text, ∀ date, dated date v = true → date = text := by
    by_cases found : ∃ date, dated date v = true
    · rcases found with ⟨text, same⟩
      refine ⟨text, fun date other => ?_⟩
      rw [dated, pyEq_str] at same other
      rw [same] at other
      exact (Value.str.inj other).symm
    · exact ⟨"", fun date same => absurd ⟨date, same⟩ found⟩
  choose text unique using name
  rcases Infinite.exists_notMem_finset (records.map text).toFinset with ⟨date, fresh⟩
  refine ⟨date, fun v member => ?_⟩
  rw [← Bool.not_eq_true]
  intro same
  rw [List.mem_toFinset] at fresh
  exact fresh (unique v date same ▸ List.mem_map_of_mem member)

theorem getAnchor_readable (file : StoreFile) (readable : Readable I file) (date : String) :
    getAnchor I file date = .ok ((recordsOf I (linesOf file.text)).find? (dated date)) := by
  rw [getAnchor, if_pos readable.1, scan_passed I date _ readable.2]

theorem getAnchor_unreadable (file : StoreFile) (unreadable : ¬Readable I file) :
    ∃ date, getAnchor I file date = .error .badRecord := by
  rcases exists_missing (recordsOf I (linesOf file.text)) with ⟨date, missing⟩
  refine ⟨date, ?_⟩
  rcases decodes : file.decodes with _ | _
  · have before (v : Value) (member : v ∈ recordsOf I ((linesOf file.text).take (I.yielded file))) :
        dated date v = false := missing v (((List.take_sublist _ _).filterMap _).subset member)
    rw [getAnchor, decodes, if_neg (by decide)]
    by_cases passed : ∀ line ∈ (linesOf file.text).take (I.yielded file), (readLine I line).passes = true
    · rw [scan_passed I date _ passed, List.find?_eq_none.mpr fun v member => by
        rw [before v member]
        decide]
    · simp only [not_forall, exists_prop, Bool.not_eq_true] at passed
      rw [scan_raises I date _ before passed]
  · have stops : ∃ line ∈ linesOf file.text, (readLine I line).passes = false := by
      by_contra missing
      simp only [not_exists, not_and, Bool.not_eq_false] at missing
      exact unreadable ⟨decodes, missing⟩
    rw [getAnchor, decodes, if_pos rfl, scan_raises I date _ missing stops]

theorem readable_of_answers (file : StoreFile) (answer : String → Option Value)
    (answers : ∀ date, getAnchor I file date = .ok (answer date)) : Readable I file := by
  by_contra unreadable
  rcases getAnchor_unreadable I file unreadable with ⟨date, raises⟩
  rw [answers date] at raises
  cases raises

theorem readLine_own (anchor : AnchorDict I) : readLine I anchor.line.toList = .record anchor.value := by
  have own := readLine_line I [] rfl anchor
  rwa [List.nil_append] at own

theorem recordsOf_one (line : List Char) : recordsOf I [line] = (readLine I line).dict?.toList := by
  rw [recordsOf, List.filterMap_cons, List.filterMap_nil]
  cases (readLine I line).dict? <;> rfl

theorem recordsOf_own (anchors : List (AnchorDict I)) :
    recordsOf I (anchors.map (fun anchor => anchor.line.toList) ++ [[]]) = anchors.map AnchorDict.value := by
  induction anchors with
  | nil =>
    rw [List.map_nil, List.nil_append, recordsOf_one, readLine_blank I [] rfl]
    rfl
  | cons anchor anchors later =>
    rw [List.map_cons, List.cons_append, ← List.singleton_append, recordsOf_append, later, recordsOf_one,
      readLine_own]
    rfl

/-- The lines of the file after the recordings, and the records among them. -/
theorem recorded_lines (file : StoreFile) (readable : Readable I file) (first : AnchorDict I)
    (anchors : List (AnchorDict I))
    (passed : (readLine I (tornTail file ++ first.line.toList)).passes = true) :
    Readable I (recordAll I file (first :: anchors)) ∧
      recordsOf I (linesOf (recordAll I file (first :: anchors)).text) =
        recordsOf I (linesOf file.text).dropLast ++ (recordsOf I [tornTail file ++ first.line.toList] ++
          anchors.map AnchorDict.value) := by
  have text := recordAll_text I file readable.1 (first :: anchors)
  have lines := (linesOf_recorded I file).2 first anchors
  rw [text]
  refine ⟨⟨readable.1, fun line member => ?_⟩, ?_⟩
  · dsimp only at member
    rw [lines, List.mem_append, List.mem_cons, List.mem_append, List.mem_map, List.mem_singleton] at member
    rcases member with front | merged | ⟨anchor, -, own⟩ | last
    · exact readable.2 line (List.mem_of_mem_dropLast front)
    · rw [merged]
      exact passed
    · rw [← own, readLine_own I anchor]
      exact rfl
    · rw [last, readLine_blank I [] rfl]
      trivial
  · dsimp only
    rw [lines, recordsOf_append, ← List.singleton_append, recordsOf_append, recordsOf_own]

theorem find_shadowed (date : String) (earlier hidden later : List Value)
    (shadowed : ∀ record ∈ hidden, Shadowed earlier record) :
    (earlier ++ (hidden ++ later)).find? (dated date) = (earlier ++ later).find? (dated date) := by
  rw [List.find?_append, List.find?_append, List.find?_append]
  rcases front : earlier.find? (dated date) with _ | v
  · have absent : hidden.find? (dated date) = none := by
      rw [List.find?_eq_none]
      intro record member same
      have found := shadowed record member date same
      rw [List.any_eq_true] at found
      rcases found with ⟨u, inside, dated_⟩
      exact List.find?_eq_none.mp front u inside dated_
    rw [absent, Option.none_or]
  · rfl

/-- The store tolerates the damage exactly when the file can be read and nothing runs into a torn line. -/
theorem tolerates_iff (file : StoreFile) (anchors : List (AnchorDict I)) :
    Tolerates I file anchors ↔ Readable I file ∧ Apart I file anchors := by
  have split : recordsOf I (linesOf file.text) =
      recordsOf I (linesOf file.text).dropLast ++ recordsOf I [tornTail file] := by
    rw [← recordsOf_append, ← (linesOf_recorded I file).1]
  constructor
  · intro tolerates
    have readable : Readable I file := by
      refine readable_of_answers I file (firstStored I file []) fun date => ?_
      have start := tolerates 0 date
      rwa [List.take_zero] at start
    refine ⟨readable, or_iff_not_imp_left.mpr fun torn first head => ?_⟩
    obtain ⟨rest, rfl⟩ : ∃ rest, anchors = first :: rest := List.head?_eq_some_iff.mp head
    have once (date : String) := tolerates 1 date
    simp only [List.take_succ_cons, List.take_zero] at once
    have after := readable_of_answers I _ (firstStored I file [first]) once
    have merged := readLine_torn I (tornTail file) torn first
    have accepted : I.raises (strip (String.ofList (tornTail file ++ first.line.toList))) = false := by
      rw [← Bool.not_eq_true]
      intro raises
      rw [if_pos raises] at merged
      have member : tornTail file ++ first.line.toList ∈ linesOf (recordAll I file [first]).text := by
        rw [recordAll_text I file readable.1, (linesOf_recorded I file).2 first []]
        exact List.mem_append_right _ List.mem_cons_self
      have passed := after.2 _ member
      rw [merged] at passed
      cases passed
    refine ⟨accepted, fun record member date same => ?_⟩
    rw [accepted, if_neg (by decide)] at merged
    have lines := recorded_lines I file readable first [] (by rw [merged]; trivial)
    have lost : recordsOf I [tornTail file ++ first.line.toList] = [] :=
      List.filterMap_cons_none (by rw [merged]; rfl)
    have found := once date
    rw [getAnchor_readable I _ lines.1, lines.2, lost, List.map_nil, List.append_nil, List.append_nil,
      firstStored, split, List.append_assoc, List.find?_append] at found
    by_contra unseen
    have front : (recordsOf I (linesOf file.text).dropLast).find? (dated date) = none := by
      rw [List.find?_eq_none]
      intro u inside dated_
      exact unseen (List.any_eq_true.mpr ⟨u, inside, dated_⟩)
    rw [front, Option.none_or] at found
    have nothing := List.find?_eq_none.mp (Except.ok.inj found).symm record member
    exact nothing same
  · rintro ⟨readable, apart⟩ count date
    rcases taken : anchors.take count with _ | ⟨first, rest⟩
    · rw [firstStored, List.map_nil, List.append_nil]
      exact getAnchor_readable I file readable date
    rw [firstStored, List.map_cons, split]
    have head : anchors.head? = some first := by
      cases anchors with
      | nil => rw [List.take_nil] at taken; cases taken
      | cons a anchors =>
        cases count with
        | zero => cases taken
        | succ count => rw [List.take_succ_cons] at taken; rw [(List.cons.inj taken).1]; rfl
    by_cases torn : (tornTail file).all isSpace = true
    · have own := readLine_line I (tornTail file) torn first
      have lines := recorded_lines I file readable first rest (by rw [own]; rfl)
      have kept : recordsOf I [tornTail file ++ first.line.toList] = [first.value] :=
        List.filterMap_cons_some (by rw [own]; rfl)
      have blank : recordsOf I [tornTail file] = [] :=
        List.filterMap_cons_none (by rw [readLine_blank I _ torn]; rfl)
      rw [getAnchor_readable I _ lines.1, lines.2, kept, blank, List.append_nil]
      rfl
    · rcases apart.resolve_left torn first head with ⟨accepted, shadowed⟩
      have merged := readLine_torn I (tornTail file) torn first
      rw [accepted, if_neg (by decide)] at merged
      have lines := recorded_lines I file readable first rest (by rw [merged]; trivial)
      have lost : recordsOf I [tornTail file ++ first.line.toList] = [] :=
        List.filterMap_cons_none (by rw [merged]; rfl)
      have hidden := find_shadowed date _ _ (rest.map AnchorDict.value) shadowed
      rw [List.append_assoc, List.singleton_append] at hidden
      rw [getAnchor_readable I _ lines.1, lines.2, lost, List.nil_append, List.append_assoc, hidden]

/-! The records of `compute_daily_anchor`, and the store of the loggers. -/

theorem anchorValue_loaded (N : Numerals) (anchor : Anchor) : Loaded N anchor.value := by
  have texts : LoadedList N (anchor.leafHashes.map str) := by
    rw [loadedList_iff]
    intro x member
    rcases List.mem_map.mp member with ⟨hash, -, rfl⟩
    trivial
  refine ⟨?_, trivial, trivial, trivial, texts, trivial, trivial, trivial⟩
  simp only [List.map_cons, List.map_nil]
  decide

def anchorText (anchor : Anchor) : String := (dumpsWith .standard anchor.value).getD ""

theorem anchorText_encoded (anchor : Anchor) :
    dumpsWith .standard anchor.value = some (anchorText anchor) := by
  have texts : jsonableList (anchor.leafHashes.map str) = true := by
    induction anchor.leafHashes with
    | nil => rfl
    | cons hash hashes later => exact later
  have encodes : anchor.value.jsonable = true := by
    simp [Anchor.value, jsonable, jsonableItems, texts]
  rw [← dumpsWith_isSome .standard] at encodes
  obtain ⟨text, encoded⟩ := Option.isSome_iff_exists.mp encodes
  rw [anchorText, encoded]
  rfl

def ofAnchor (anchor : Anchor) (taken : I.raises (anchorText anchor) = false) : AnchorDict I where
  entries := [("date", str anchor.date), ("session_count", int anchor.sessionCount),
    ("action_count", int anchor.actionCount), ("leaf_hashes", list (anchor.leafHashes.map str)),
    ("merkle_root", str anchor.merkleRoot), ("computed_at", str anchor.computedAt)]
  loaded := anchorValue_loaded I.numerals anchor
  line := anchorText anchor
  encoded := anchorText_encoded anchor
  taken := taken

end

def interpreter : Interpreter where
  numerals := { float := fun _ => nan, int := fun _ => none }
  raises _ := false
  yielded _ := 0

def tornFile : StoreFile := { text := "\x7b\"date\": \"2026-01-01\"".toList, decodes := true }

def nextDay : Anchor :=
  { date := "2026-01-02", sessionCount := 0, actionCount := 0, leafHashes := [], merkleRoot := "root"
    computedAt := "2026-01-03T00:00:00+00:00" }

/-- The anchor of the next day is lost. -/
theorem torn_line_loses : ¬Tolerates interpreter tornFile [ofAnchor interpreter nextDay rfl] := by
  intro tolerates
  rcases (tolerates_iff interpreter tornFile _).mp tolerates with ⟨-, blank | shadowed⟩
  · exact absurd blank (by decide)
  · have alone : (linesOf tornFile.text).dropLast = [] := by decide
    have found := (shadowed _ rfl).2 _ (List.mem_append_right _ List.mem_cons_self) "2026-01-02"
      ((pyEq_str _ _).mpr rfl)
    rw [alone] at found
    cases found

end GenesisAgents.JsonlStore
