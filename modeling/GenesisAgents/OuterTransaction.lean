import GenesisAgents.Library.SqlLexer
import GenesisAgents.TransactionStrip

/-! What `strip_outer_transaction` leaves of a migration file, statement by statement, as PostgreSQL
reads it. -/

namespace GenesisAgents

open SqlLexer (Token Statement Lexer Mode statements statementsFrom run start)

def lowered : Token → Token
  | .word text => .word (text.map Char.toLower)
  | token => token

def leadsWith (st : Statement) (words : List String) : Bool :=
  decide ((st.take words.length).map lowered = words.map fun word => Token.word word.toList)

def opensTransaction (st : Statement) : Bool :=
  leadsWith st ["begin"] || leadsWith st ["start", "transaction"]

def closesTransaction (st : Statement) : Bool := leadsWith st ["commit"] || leadsWith st ["end"]

def controlsTransaction (st : Statement) : Bool :=
  opensTransaction st || closesTransaction st || leadsWith st ["rollback"] || leadsWith st ["abort"] ||
    leadsWith st ["savepoint"] || leadsWith st ["release"] || leadsWith st ["prepare", "transaction"]

section

variable (alnum : Char → Bool)

/-- No statement of a returned body controls the transaction, and its statements are those of the file
without an outer opening and closing statement. -/
def LeavesNoControl (sql : List Char) : Prop :=
  ∀ body, stripOuterTransaction alnum sql = .ok body →
    (∀ st ∈ statements body.toList, controlsTransaction st = false) ∧
    (statements body.toList = statements sql ∨ ∃ first last, opensTransaction first = true ∧
      closesTransaction last = true ∧ statements sql = first :: (statements body.toList ++ [last]))

inductive Outer where
  | bare
  | unclosed
  | wrapped (before opening rest front closing : List Char)

def outer (sql : List Char) : Outer :=
  match leadingBegin (stripSpace sql) with
  | none => .bare
  | some (before, opening, rest) =>
    match trailingCommit (stripSpace (before ++ rest)) with
    | none => .unclosed
    | some (front, closing) => .wrapped before opening rest front closing

def scanned (text : List Char) : Bool := (innerTxnControl alnum none (withoutComments text)).isSome

/-- The file is refused: it has no closing statement, or the search reports a keyword. -/
def Raises (sql : List Char) : Prop :=
  match outer sql with
  | .bare => scanned alnum (stripSpace sql) = true
  | .unclosed => True
  | .wrapped _ _ _ front _ => scanned alnum (stripSpace front) = true

end

/-- Python strips no more at the ends of the text than PostgreSQL skips. -/
def plainEnds (text : List Char) : Prop :=
  ∃ lead trail, text = lead ++ (stripSpace text ++ trail) ∧
    (∀ c ∈ lead, SqlLexer.isSpace c = true) ∧ ∀ c ∈ trail, SqlLexer.isSpace c = true

/-- What the source cuts off is one statement on either side. -/
structure CutsStatements (sql before opening rest front closing : List Char) : Prop where
  ends : plainEnds sql
  joined : plainEnds (before ++ rest)
  inner : plainEnds front
  comments : run start before = (start, [])
  opens : ∃ first, run start opening = (start, [first]) ∧ opensTransaction first = true
  boundary : (run start front).1 = start
  closes : ∃ last, run start closing = (start, [last]) ∧ closesTransaction last = true

def Aligned (sql : List Char) : Prop :=
  match outer sql with
  | .bare => plainEnds sql
  | .unclosed => True
  | .wrapped before opening rest front closing => CutsStatements sql before opening rest front closing

def innerStatements (sql : List Char) : List Statement :=
  match outer sql with
  | .wrapped _ _ _ _ _ => (statements sql).tail.dropLast
  | _ => statements sql

def Quiet (sql : List Char) : Prop := ∀ st ∈ innerStatements sql, controlsTransaction st = false

theorem statements_stripSpace (text : List Char) (plain : plainEnds text) :
    statements (stripSpace text) = statements text := by
  rcases plain with ⟨lead, trail, split, leads, trails⟩
  calc statements (stripSpace text) = statements (stripSpace text ++ trail) :=
        (SqlLexer.statementsFrom_append_spaces start _ trail trails).symm
    _ = statements (lead ++ (stripSpace text ++ trail)) :=
        (SqlLexer.statements_spaces_append lead _ leads).symm
    _ = statements text := by rw [← split]

theorem refuseControl_ok (alnum : Char → Bool) (body : List Char) (returned : String) :
    refuseControl alnum body = .ok returned ↔
      scanned alnum body = false ∧ String.ofList body = returned := by
  unfold refuseControl scanned
  cases innerTxnControl alnum none (withoutComments body) <;> simp

/-- What is returned is a stripped part of the file in which the search reports nothing. -/
theorem returned_cases (alnum : Char → Bool) (sql : List Char) (body : String) :
    stripOuterTransaction alnum sql = .ok body ↔ ¬Raises alnum sql ∧
      match outer sql with
      | .bare => body.toList = stripSpace sql
      | .unclosed => False
      | .wrapped _ _ _ front _ => body.toList = stripSpace front := by
  have asList (text : List Char) : String.ofList text = body ↔ body.toList = text := by
    constructor
    · rintro rfl
      exact String.toList_ofList
    · intro same
      rw [← same, String.ofList_toList]
  unfold stripOuterTransaction Raises outer
  cases leadingBegin (stripSpace sql) with
  | none => simp [refuseControl_ok, asList]
  | some parts =>
    rcases parts with ⟨before, opening, rest⟩
    cases closed : trailingCommit (stripSpace (before ++ rest)) with
    | none => simp [closed]
    | some ends => simp [closed, refuseControl_ok, asList]

theorem outer_wrapped (sql before opening rest front closing : List Char)
    (divided : outer sql = .wrapped before opening rest front closing) :
    leadingBegin (stripSpace sql) = some (before, opening, rest) ∧
      stripSpace sql = before ++ (opening ++ rest) ∧
      stripSpace (before ++ rest) = front ++ closing ∧ closesAt closing = true := by
  unfold outer at divided
  split at divided
  case h_1 => contradiction
  case h_2 before' opening' rest' opened =>
    split at divided
    case h_1 => contradiction
    case h_2 front' closing' closed =>
      rcases Outer.wrapped.inj divided with ⟨rfl, rfl, rfl, rfl, rfl⟩
      rcases trailingCommit_spec _ _ _ closed with ⟨whole, closes⟩
      rcases leadingBegin_spec _ _ _ _ opened with ⟨words, gap, -, -, comments, -⟩
      have joined := leadingComments_spec false (stripSpace sql)
      rw [comments] at joined
      exact ⟨opened, joined.symm, whole, closes⟩

theorem stripSpace_subset (text : List Char) : stripSpace text ⊆ text := by
  rcases stripSpace_spec text with ⟨lead, trail, split, -, -⟩
  intro c member
  rw [split]
  exact List.mem_append_right _ (List.mem_append_left _ member)

theorem outer_subset (sql before opening rest front closing : List Char)
    (divided : outer sql = .wrapped before opening rest front closing) :
    before ⊆ sql ∧ opening ⊆ sql ∧ rest ⊆ sql ∧ front ⊆ sql ∧ closing ⊆ sql := by
  rcases outer_wrapped _ _ _ _ _ _ divided with ⟨-, whole, inner, -⟩
  have outside : before ++ (opening ++ rest) ⊆ sql := whole ▸ stripSpace_subset sql
  rw [List.append_subset, List.append_subset] at outside
  have inside : front ++ closing ⊆ before ++ rest := inner ▸ stripSpace_subset (before ++ rest)
  have joined : before ++ rest ⊆ sql := List.append_subset.mpr ⟨outside.1, outside.2.2⟩
  have ends := List.append_subset.mp (List.Subset.trans inside joined)
  exact ⟨outside.1, outside.2.1, outside.2.2, ends.1, ends.2⟩

/-- The statements of a file that is opened and closed, read at the places where the source cuts it. -/
theorem statements_wrapped (sql before opening rest front closing : List Char) (first : Statement)
    (divided : outer sql = .wrapped before opening rest front closing) (ends : plainEnds sql)
    (joined : plainEnds (before ++ rest)) (comments : run start before = (start, []))
    (opens : run start opening = (start, [first])) :
    statements sql = first :: ((run start front).2 ++ statementsFrom (run start front).1 closing) := by
  rcases outer_wrapped _ _ _ _ _ _ divided with ⟨-, whole, inner, -⟩
  have opened : statements (opening ++ rest) = first :: statements rest := by
    rw [SqlLexer.statements_append opening rest (by rw [opens]), opens]
    rfl
  have skipped (text : List Char) : statements (before ++ text) = statements text := by
    rw [SqlLexer.statements_append before text (by rw [comments]), comments]
    rfl
  calc statements sql = statements (before ++ (opening ++ rest)) := by
        rw [← whole, statements_stripSpace sql ends]
    _ = first :: statements rest := (skipped _).trans opened
    _ = first :: statements (front ++ closing) := by
        rw [← inner, statements_stripSpace _ joined, skipped]
    _ = first :: ((run start front).2 ++ statementsFrom (run start front).1 closing) := by
        rw [statements, SqlLexer.statementsFrom_append]

theorem statements_cut (sql before opening rest front closing : List Char)
    (divided : outer sql = .wrapped before opening rest front closing)
    (cuts : CutsStatements sql before opening rest front closing) :
    ∃ first last, opensTransaction first = true ∧ closesTransaction last = true ∧
      statements sql = first :: (statements (stripSpace front) ++ [last]) := by
  rcases cuts.opens with ⟨first, opened, opens⟩
  rcases cuts.closes with ⟨last, closed, closes⟩
  refine ⟨first, last, opens, closes, ?_⟩
  have body : statements (stripSpace front) = (run start front).2 := by
    rw [statements_stripSpace front cuts.inner, statements, statementsFrom, cuts.boundary]
    exact List.append_nil _
  have ending : statementsFrom (run start front).1 closing = [last] := by
    rw [cuts.boundary, statementsFrom, closed]
    rfl
  rw [statements_wrapped sql before opening rest front closing first divided cuts.ends cuts.joined
    cuts.comments opened, body, ending]

theorem leavesNoControl_of_aligned (alnum : Char → Bool) (sql : List Char) (aligned : Aligned sql)
    (quiet : Quiet sql) : LeavesNoControl alnum sql := by
  intro body returned
  rcases (returned_cases alnum sql body).mp returned with ⟨-, kept⟩
  unfold Aligned at aligned
  unfold Quiet innerStatements at quiet
  cases divided : outer sql with
  | bare =>
    rw [divided] at kept aligned quiet
    have same : statements body.toList = statements sql :=
      (congrArg statements kept).trans (statements_stripSpace sql aligned)
    exact ⟨fun st member => quiet st (same ▸ member), Or.inl same⟩
  | unclosed => simp [divided] at kept
  | wrapped before opening rest front closing =>
    rw [divided] at kept aligned quiet
    rcases statements_cut _ _ _ _ _ _ divided aligned with ⟨first, last, opens, closes, split⟩
    rw [← kept] at split
    refine ⟨?_, Or.inr ⟨first, last, opens, closes, split⟩⟩
    intro st member
    apply quiet st
    rw [split, List.tail_cons, List.dropLast_concat]
    exact member

/-! Texts whose white space and letters are the same to the patterns and to PostgreSQL. -/

/-- No white space that PostgreSQL does not know, and no letter outside ASCII that `re.IGNORECASE` takes
for one inside. -/
def plainChar (c : Char) : Bool :=
  (!Value.isSpace c || SqlLexer.isSpace c) && c != 'ı' && c != 'İ' && c != 'ſ' && c.toNat != 0x212A

def Plain (text : List Char) : Prop := ∀ c ∈ text, plainChar c = true

theorem Plain.space {c : Char} (plain : plainChar c = true) (blank : Value.isSpace c = true) :
    SqlLexer.isSpace c = true := by
  simp only [plainChar, Bool.and_eq_true, blank, Bool.not_true, Bool.false_or] at plain
  exact plain.1.1.1.1

theorem toLower_of_ignoringCase (letter c : Char) (plain : plainChar c = true)
    (same : ignoringCase letter c = true) : c.toLower = letter := by
  simp only [plainChar, Bool.and_eq_true, bne_iff_ne, ne_eq] at plain
  simpa [ignoringCase, plain] using same

theorem Plain.ends (text : List Char) (plain : Plain text) : plainEnds text := by
  rcases stripSpace_spec text with ⟨lead, trail, split, leads, trails⟩
  refine ⟨lead, trail, split, ?_, ?_⟩
  · intro c member
    exact Plain.space (plain c (split ▸ List.mem_append_left _ member)) (leads c member)
  · intro c member
    exact Plain.space (plain c (split ▸ List.mem_append_right _ (List.mem_append_right _ member)))
      (trails c member)

theorem Plain.stripSpace (text : List Char) (plain : Plain text) : Plain (stripSpace text) :=
  fun c member => plain c (stripSpace_subset text member)

theorem Plain.left {front rest : List Char} (plain : Plain (front ++ rest)) : Plain front :=
  fun c member => plain c (List.mem_append_left _ member)

theorem Plain.right {front rest : List Char} (plain : Plain (front ++ rest)) : Plain rest :=
  fun c member => plain c (List.mem_append_right _ member)

theorem Spells.lower {word found : List Char} (spelled : Spells word found) (plain : Plain found) :
    found.map Char.toLower = word := by
  induction spelled with
  | nil => rfl
  | cons same _ later =>
    rw [List.map_cons, toLower_of_ignoringCase _ _ (plain _ List.mem_cons_self) same,
      later fun c member => plain c (List.mem_cons_of_mem _ member)]

theorem isAlpha_of_toLower (c : Char) (letter : c.toLower.isAlpha = true) : c.isAlpha = true := by
  by_cases upper : c.isUpper = true
  · change (c.isUpper || c.isLower) = true
    rw [upper, Bool.true_or]
  · have small : ¬(c.val ≥ 'A'.val ∧ c.val ≤ 'Z'.val) := fun capital => upper (decide_eq_true capital)
    have same : c.toLower = c := dif_neg small
    rwa [same] at letter

theorem Spells.isAlpha {word found : List Char} (spelled : Spells word found) (plain : Plain found)
    (letters : word.all Char.isAlpha = true) : ∀ c ∈ found, c.isAlpha = true := by
  intro c member
  apply isAlpha_of_toLower
  apply List.all_eq_true.mp letters
  rw [← spelled.lower plain]
  exact List.mem_map_of_mem member

theorem run_spelled (current : Statement) (word found : List Char) (spelled : Spells word found)
    (plain : Plain found) (letters : word.all Char.isAlpha = true) (nonempty : word ≠ []) :
    run ⟨current, .code⟩ found = (⟨current, .word found⟩, []) := by
  have alphabetic := spelled.isAlpha plain letters
  cases found with
  | nil => exact absurd (spelled.lower plain).symm nonempty
  | cons c found =>
    apply SqlLexer.run_word
    · simp [SqlLexer.startsWord, alphabetic c List.mem_cons_self]
    · intro other member
      simp [SqlLexer.inTag, SqlLexer.startsWord, alphabetic other (List.mem_cons_of_mem _ member)]

/-- Every carriage return is followed by a line feed: PostgreSQL ends a line comment at either. -/
def pairedReturns : List Char → Bool
  | [] => true
  | c :: rest => (c != '\r' || rest.head? == some '\n') && pairedReturns rest

theorem run_leadingComments (inside : Bool) (text : List Char) (plain : Plain text)
    (paired : pairedReturns (leadingComments inside text).1 = true)
    (follows : (leadingComments inside text).2 ≠ []) :
    run ⟨[], if inside then .lineComment else .code⟩ (leadingComments inside text).1 = (start, []) := by
  fun_induction leadingComments inside text with
  | case1 c rest later =>
    rcases Bool.and_eq_true_iff.mp paired with ⟨next, pairs⟩
    have tail := later (fun other member => plain other (List.mem_cons_of_mem _ member)) pairs follows
    by_cases broken : c = '\n'
    · subst broken
      have ends : SqlLexer.step ⟨[], .lineComment⟩ '\n' = (start, []) := rfl
      have read : run start (leadingComments false rest).1 = (start, []) := tail
      simp only [if_true, run, ends, bne_self_eq_false, read, List.append_nil]
    have inLine : (c != '\n') = true := bne_iff_ne.mpr broken
    simp only [inLine, if_true] at tail next ⊢
    by_cases returned : c = '\r'
    · subst returned
      -- PostgreSQL has left the comment, and skips the line feed that ends it for the pattern
      have fed : (leadingComments true rest).1.head? = some '\n' := by simpa using next
      have same : run start (leadingComments true rest).1 =
          run ⟨[], .lineComment⟩ (leadingComments true rest).1 := by
        cases skipped : (leadingComments true rest).1 with
        | nil => simp [skipped] at fed
        | cons d more =>
          obtain rfl : d = '\n' := by simpa [skipped] using fed
          rfl
      have ends : SqlLexer.step ⟨[], .lineComment⟩ '\r' = (start, []) := rfl
      simp only [run, ends, same, tail, List.append_nil]
    · have stays : SqlLexer.step ⟨[], .lineComment⟩ c = (⟨[], .lineComment⟩, []) := by
        simp [SqlLexer.step, SqlLexer.advance, SqlLexer.isNewline, broken, returned]
      simp only [run, stays, tail, List.append_nil]
  | case2 rest later =>
    have pairs : pairedReturns (leadingComments true rest).1 = true := by
      simpa [pairedReturns] using paired
    have tail := later (fun other member => plain other (by simp [member])) pairs follows
    rw [if_pos rfl] at tail
    have dashed : run start ['-', '-'] = (⟨[], .lineComment⟩, []) := by decide
    have split := SqlLexer.run_append start ['-', '-'] (leadingComments true rest).1
    rw [dashed] at split
    exact split.trans (by rw [tail]; rfl)
  | case3 c rest undashed blank later =>
    have tail : run start (leadingComments false rest).1 = (start, []) :=
      later (fun other member => plain other (List.mem_cons_of_mem _ member))
        (Bool.and_eq_true_iff.mp paired).2 follows
    have skipped : run start [c] = (start, []) := SqlLexer.run_code_spaces [] [c] fun other member =>
      List.mem_singleton.mp member ▸ Plain.space (plain c List.mem_cons_self) blank
    have split := SqlLexer.run_append start [c] (leadingComments false rest).1
    rw [skipped] at split
    exact split.trans (by rw [tail]; rfl)
  | case4 c rest undashed solid => rfl
  | case5 inside => exact absurd rfl follows

theorem run_opening (body before opening rest : List Char)
    (matched : leadingBegin body = some (before, opening, rest)) (plain : Plain opening) :
    ∃ first, run start opening = (start, [first]) ∧ opensTransaction first = true := by
  rcases leadingBegin_spec _ _ _ _ matched with ⟨words, gap, rfl, blanks, -, named⟩
  have spaces : ∀ c ∈ gap, SqlLexer.isSpace c = true := fun c member =>
    Plain.space (plain.right.left c member) (blanks c member)
  rcases named with begun | ⟨text, rest, started⟩
  · refine ⟨[.word words], ?_, ?_⟩
    · rw [start, SqlLexer.run_append, run_spelled [] _ words begun plain.left (by decide) (by decide),
        SqlLexer.run_word_end [] words gap spaces]
      rfl
    · simp [opensTransaction, leadsWith, lowered, begun.lower plain.left]
  · obtain ⟨-, first, gap', second, rfl, parted, blanks', spelled, spelled'⟩ :=
      startTransaction_spec _ _ _ started
    have spaces' : ∀ c ∈ gap', SqlLexer.isSpace c = true := fun c member =>
      Plain.space (plain.left.left.right c member) (blanks' c member)
    have lower := spelled.lower plain.left.left.left
    have lower' := spelled'.lower plain.left.right
    refine ⟨[.word first, .word second], ?_, ?_⟩
    · cases gap' with
      | nil => contradiction
      | cons c gap' =>
        rw [start, List.append_assoc, List.append_assoc, SqlLexer.run_append,
          run_spelled [] _ first spelled plain.left.left.left (by decide) (by decide),
          SqlLexer.run_append, SqlLexer.run_word_spaces [] first c gap' spaces', SqlLexer.run_append,
          run_spelled _ _ second spelled' plain.left.right (by decide) (by decide),
          SqlLexer.run_word_end _ second gap spaces]
        rfl
    · simp [opensTransaction, leadsWith, lowered, lower, lower']

theorem closing_spec (closing : List Char) (closes : closesAt closing = true) (plain : Plain closing) :
    ∃ word gap tail, closing = word ++ (gap ++ ';' :: tail) ∧
      (∀ c ∈ gap ++ tail, SqlLexer.isSpace c = true) ∧ (∀ c ∈ word, c.isAlpha = true) ∧
      run start word = (⟨[], .word word⟩, []) ∧ closesTransaction [.word word] = true := by
  rcases closesAt_spec closing closes with ⟨word, gap, tail, rfl, blanks, named⟩
  refine ⟨word, gap, tail, rfl, ?_, ?_⟩
  · intro c member
    refine Plain.space (plain.right c ?_) (blanks c member)
    rcases List.mem_append.mp member with before | after
    · exact List.mem_append_left _ before
    · exact List.mem_append_right _ (List.mem_cons_of_mem _ after)
  · rcases named with spelled | spelled
    · refine ⟨spelled.isAlpha plain.left (by decide),
        run_spelled [] _ word spelled plain.left (by decide) (by decide), ?_⟩
      simp [closesTransaction, leadsWith, lowered, spelled.lower plain.left]
    · refine ⟨spelled.isAlpha plain.left (by decide),
        run_spelled [] _ word spelled plain.left (by decide) (by decide), ?_⟩
      simp [closesTransaction, leadsWith, lowered, spelled.lower plain.left]

theorem run_closing (closing : List Char) (closes : closesAt closing = true) (plain : Plain closing) :
    ∃ last, run start closing = (start, [last]) ∧ closesTransaction last = true := by
  rcases closing_spec closing closes plain with ⟨word, gap, tail, rfl, spaces, -, read, named⟩
  refine ⟨[.word word], ?_, named⟩
  have regrouped : word ++ (gap ++ ';' :: tail) = word ++ ((gap ++ [';']) ++ tail) := by simp
  have ending := SqlLexer.run_code_spaces [] tail fun c member =>
    spaces c (List.mem_append_right _ member)
  rw [regrouped, SqlLexer.run_append, read, SqlLexer.run_append, SqlLexer.run_word_end [] word gap
    fun c member => spaces c (List.mem_append_left _ member)]
  simp only [start, ending, List.nil_append, List.append_nil]

/-- Elsewhere than at the start of a statement, the closing keyword adds no statement. -/
theorem length_closing (l : Lexer) (closing : List Char) (closes : closesAt closing = true)
    (plain : Plain closing) (elsewhere : l ≠ start) :
    (statementsFrom l closing).length = (SqlLexer.finish l).length := by
  rcases closing_spec closing closes plain with ⟨word, gap, tail, rfl, spaces, letters, -, -⟩
  apply SqlLexer.length_statementsFrom_word l word gap tail _ spaces elsewhere
  intro c member
  simp [SqlLexer.inTag, SqlLexer.startsWord, letters c member]

theorem Plain.pieces {sql before opening rest front closing : List Char} (plain : Plain sql)
    (divided : outer sql = .wrapped before opening rest front closing) :
    Plain before ∧ Plain opening ∧ Plain rest ∧ Plain front ∧ Plain closing := by
  rcases outer_subset _ _ _ _ _ _ divided with ⟨inBefore, inOpening, inRest, inFront, inClosing⟩
  exact ⟨fun c member => plain c (inBefore member), fun c member => plain c (inOpening member),
    fun c member => plain c (inRest member), fun c member => plain c (inFront member),
    fun c member => plain c (inClosing member)⟩

/-- The file has no foreign white space or letters, and in the comments before an opening statement
carriage returns stand before line feeds only. -/
structure Ordinary (sql : List Char) : Prop where
  plain : Plain sql
  returns : ∀ before opening rest, leadingBegin (stripSpace sql) =
    some (before, opening, rest) → pairedReturns before = true

theorem Ordinary.comments {sql before opening rest front closing : List Char} (ordinary : Ordinary sql)
    (divided : outer sql = .wrapped before opening rest front closing) :
    run start before = (start, []) := by
  rcases outer_wrapped _ _ _ _ _ _ divided with ⟨opened, -, -, -⟩
  have paired := ordinary.returns _ _ _ opened
  rcases leadingBegin_spec _ _ _ _ opened with ⟨words, gap, rfl, -, comments, -⟩
  have read := run_leadingComments false (stripSpace sql) ordinary.plain.stripSpace
  rw [comments] at read
  exact read paired (by simp)

/-- Of the cuts in an ordinary file, only the closing one can fall elsewhere than between statements. -/
theorem cutsStatements_of_boundary (sql before opening rest front closing : List Char)
    (divided : outer sql = .wrapped before opening rest front closing) (ordinary : Ordinary sql)
    (boundary : (run start front).1 = start) :
    CutsStatements sql before opening rest front closing := by
  rcases outer_wrapped _ _ _ _ _ _ divided with ⟨opened, -, -, closes⟩
  rcases ordinary.plain.pieces divided with ⟨plainBefore, plainOpening, plainRest, plainFront, plainClosing⟩
  exact {
    ends := ordinary.plain.ends
    joined := Plain.ends _ fun c member =>
      (List.mem_append.mp member).elim (plainBefore c) (plainRest c)
    inner := plainFront.ends
    comments := ordinary.comments divided
    opens := run_opening _ _ _ _ opened plainOpening
    boundary := boundary
    closes := run_closing closing closes plainClosing }

/-- The converse, on ordinary files: what is returned shows where the cuts fell. -/
theorem aligned_of_leavesNoControl (alnum : Char → Bool) (sql : List Char) (ordinary : Ordinary sql)
    (unrefused : ¬Raises alnum sql) (clean : LeavesNoControl alnum sql) :
    Aligned sql ∧ Quiet sql := by
  unfold Aligned Quiet innerStatements
  cases divided : outer sql with
  | bare =>
    have returned := (returned_cases alnum sql (String.ofList (stripSpace sql))).mpr
      ⟨unrefused, by rw [divided]; exact String.toList_ofList⟩
    rcases clean _ returned with ⟨quiet, -⟩
    rw [String.toList_ofList, statements_stripSpace sql ordinary.plain.ends] at quiet
    exact ⟨ordinary.plain.ends, quiet⟩
  | unclosed => exact absurd (by simp [Raises, divided]) unrefused
  | wrapped before opening rest front closing =>
    have returned := (returned_cases alnum sql (String.ofList (stripSpace front))).mpr
      ⟨unrefused, by rw [divided]; exact String.toList_ofList⟩
    rcases clean _ returned with ⟨quiet, same⟩
    rw [String.toList_ofList] at quiet same
    rcases outer_wrapped _ _ _ _ _ _ divided with ⟨opened, -, -, closes⟩
    obtain ⟨plainBefore, plainOpening, plainRest, plainFront, plainClosing⟩ := ordinary.plain.pieces divided
    have joined : plainEnds (before ++ rest) := Plain.ends _ fun c member =>
      (List.mem_append.mp member).elim (plainBefore c) (plainRest c)
    rcases run_opening _ _ _ _ opened plainOpening with ⟨first, read, opens⟩
    have whole := statements_wrapped sql before opening rest front closing first divided
      ordinary.plain.ends joined (ordinary.comments divided) read
    have body : statements (stripSpace front) = (run start front).2 ++ SqlLexer.finish (run start front).1 :=
      statements_stripSpace front plainFront.ends
    have boundary : (run start front).1 = start := by
      by_contra elsewhere
      have lengths := length_closing _ closing closes plainClosing elsewhere
      rcases same with same | ⟨first', last, -, -, same⟩
      · have counted := congrArg List.length same
        rw [whole, body] at counted
        simp only [List.length_append, List.length_cons] at counted
        omega
      · have counted := congrArg List.length same
        rw [whole, body] at counted
        simp only [List.length_append, List.length_cons, List.length_nil] at counted
        omega
    have cuts := cutsStatements_of_boundary sql before opening rest front closing divided
      ordinary boundary
    refine ⟨cuts, ?_⟩
    rcases statements_cut _ _ _ _ _ _ divided cuts with ⟨first', last, -, -, split⟩
    rw [split, List.tail_cons, List.dropLast_concat]
    exact quiet

theorem leavesNoControl_of_raises (alnum : Char → Bool) (sql : List Char) (raises : Raises alnum sql) :
    LeavesNoControl alnum sql := by
  intro body returned
  exact absurd raises ((returned_cases alnum sql body).mp returned).1

/-- The body is free of transaction control where the file is refused, or where the cuts fall between
statements and no other statement of the file is transaction control. On ordinary files it is so
nowhere else. -/
theorem leavesNoControl_iff (alnum : Char → Bool) (sql : List Char) :
    (Raises alnum sql ∨ (Aligned sql ∧ Quiet sql) → LeavesNoControl alnum sql) ∧
      (Ordinary sql → (LeavesNoControl alnum sql ↔ Raises alnum sql ∨ (Aligned sql ∧ Quiet sql))) := by
  have sufficient : Raises alnum sql ∨ (Aligned sql ∧ Quiet sql) → LeavesNoControl alnum sql := by
    rintro (raises | ⟨aligned, quiet⟩)
    · exact leavesNoControl_of_raises alnum sql raises
    · exact leavesNoControl_of_aligned alnum sql aligned quiet
  refine ⟨sufficient, fun ordinary => ⟨fun clean => ?_, sufficient⟩⟩
  by_cases raises : Raises alnum sql
  · exact Or.inl raises
  · exact Or.inr (aligned_of_leavesNoControl alnum sql ordinary raises clean)

/-- The search does not know `END`; a marker inside a string hides what follows it; and a name that ends
in a closing keyword is cut. -/
theorem control_left_in_body :
    ¬LeavesNoControl (fun _ => false) "SELECT 1;\nEND;".toList ∧
    ¬LeavesNoControl (fun _ => false) "SELECT '/*'; COMMIT; SELECT '*/';".toList ∧
    ¬LeavesNoControl (fun _ => false) "BEGIN; SELECT 1; SELECT * FROM weekend;".toList := by
  refine ⟨?_, ?_, ?_⟩
  · intro clean
    have quiet := (clean "SELECT 1;\nEND;" (by decide)).1 [.word "END".toList] (by decide)
    exact absurd quiet (by decide)
  · intro clean
    have quiet := (clean "SELECT '/*'; COMMIT; SELECT '*/';" (by decide)).1
      [.word "COMMIT".toList] (by decide)
    exact absurd quiet (by decide)
  · intro clean
    have same := (clean "SELECT 1; SELECT * FROM week" (by decide)).2
    rcases same with same | ⟨first, last, -, closes, same⟩
    · exact absurd same (by decide)
    · have lengths := congrArg List.length same
      rw [List.length_cons, List.length_append, List.length_singleton] at lengths
      exact absurd lengths (by decide)

end GenesisAgents
