import GenesisAgents.Library.SqlWords
import GenesisAgents.OuterTransaction

/-! What the search of `strip_outer_transaction` finds in a file without quotes, comments and dollar
signs: every statement that begins with one of its keywords. -/

namespace GenesisAgents

open SqlLexer (Token Statement statements marks Unmarked)
open Value (isSpace)

theorem not_isSpace_of_isAlpha (c : Char) (alpha : c.isAlpha = true) : isSpace c = false := by
  have letter : (65 ≤ c.toNat ∧ c.toNat ≤ 90) ∨ (97 ≤ c.toNat ∧ c.toNat ≤ 122) := by
    have cases : (c.isUpper || c.isLower) = true := alpha
    rcases Bool.or_eq_true _ _ ▸ cases with upper | lower
    · have bounds : c.val ≥ 'A'.val ∧ c.val ≤ 'Z'.val := of_decide_eq_true upper
      exact Or.inl ⟨UInt32.le_iff_toNat_le.mp bounds.1, UInt32.le_iff_toNat_le.mp bounds.2⟩
    · have bounds : c.val ≥ 'a'.val ∧ c.val ≤ 'z'.val :=
        (Bool.and_eq_true_iff.mp lower).imp of_decide_eq_true of_decide_eq_true
      exact Or.inr ⟨UInt32.le_iff_toNat_le.mp bounds.1, UInt32.le_iff_toNat_le.mp bounds.2⟩
  by_contra blank
  have spaces : isSpace c = true := by simpa using blank
  simp only [isSpace, Bool.or_eq_true, Bool.and_eq_true, decide_eq_true_eq, beq_iff_eq] at spaces
  omega

theorem ignoringCase_of_isAlpha (letter c : Char) (alpha : c.isAlpha = true) :
    ignoringCase letter c = (c.toLower == letter) := by
  have foreign (other : Char) (unlettered : other.isAlpha = false) : c ≠ other := by
    rintro rfl
    rw [unlettered] at alpha
    contradiction
  have dotless : (c == 'ı') = false := beq_false_of_ne (foreign 'ı' (by decide))
  have dotted : (c == 'İ') = false := beq_false_of_ne (foreign 'İ' (by decide))
  have long : (c == 'ſ') = false := beq_false_of_ne (foreign 'ſ' (by decide))
  have kelvin : (c.toNat == 0x212A) = false := beq_false_of_ne fun code =>
    foreign (Char.ofNat 0x212A) (by decide) (Char.toNat_inj.mp code)
  simp only [ignoringCase, dotless, dotted, long, kelvin, Bool.or_false, Bool.and_false]

theorem keyword_lower (word found rest : List Char) (alpha : found.all Char.isAlpha = true)
    (same : found.map Char.toLower = word) : keyword word (found ++ rest) = some (found, rest) := by
  induction found generalizing word with
  | nil =>
    subst same
    rfl
  | cons c found later =>
    subst same
    rw [List.all_cons, Bool.and_eq_true] at alpha
    simp [keyword, ignoringCase_of_isAlpha _ c alpha.1, later _ alpha.2 rfl]

theorem keyword_apart (word found rest : List Char) (alpha : found.all Char.isAlpha = true)
    (apart : ¬word <+: found.map Char.toLower ∧ ¬found.map Char.toLower <+: word) :
    keyword word (found ++ rest) = none := by
  induction word generalizing found with
  | nil => exact absurd List.nil_prefix apart.1
  | cons letter word later =>
    cases found with
    | nil => exact absurd List.nil_prefix apart.2
    | cons c found =>
      rw [List.all_cons, Bool.and_eq_true] at alpha
      rw [List.cons_append, keyword, ignoringCase_of_isAlpha letter c alpha.1]
      split
      case isTrue same =>
        rw [List.map_cons, eq_of_beq same, List.prefix_cons_inj, List.prefix_cons_inj] at apart
        rw [later found alpha.2 apart]
        rfl
      case isFalse => rfl

theorem startTransaction_lower (first gap second rest : List Char) (parted : gap ≠ [])
    (blanks : ∀ c ∈ gap, isSpace c = true) (alpha : first.all Char.isAlpha = true)
    (alpha' : second.all Char.isAlpha = true) (starts : first.map Char.toLower = "start".toList)
    (transaction : second.map Char.toLower = "transaction".toList) :
    startTransaction (first ++ (gap ++ (second ++ rest))) = some (first ++ gap ++ second, rest) := by
  have solid : (second ++ rest).takeWhile isSpace = [] ∧
      (second ++ rest).dropWhile isSpace = second ++ rest := by
    cases second with
    | nil => exact absurd transaction (by decide)
    | cons c second =>
      rw [List.all_cons, Bool.and_eq_true] at alpha'
      simp [not_isSpace_of_isAlpha c alpha'.1]
  have taken : (gap ++ (second ++ rest)).takeWhile isSpace = gap := by
    rw [List.takeWhile_append_of_pos blanks, solid.1, List.append_nil]
  have dropped : (gap ++ (second ++ rest)).dropWhile isSpace = second ++ rest := by
    rw [List.dropWhile_append_of_pos blanks, solid.2]
  simp only [startTransaction, keyword_lower _ first _ alpha starts, taken, dropped, if_neg parted,
    keyword_lower _ second rest alpha' transaction, Option.map_some]

/-- The keywords of `_INNER_TXN_CONTROL`. -/
def searched : List (List String) :=
  [["begin"], ["commit"], ["rollback"], ["savepoint"], ["start", "transaction"]]

theorem subEmpty_of_zero (length : List Char → Nat) (text : List Char)
    (zero : ∀ c ∈ text, ∀ rest, length (c :: rest) = 0) : subEmpty length 0 text = text := by
  induction text with
  | nil => rfl
  | cons c rest later =>
    rw [subEmpty, zero c List.mem_cons_self rest]
    dsimp only
    rw [later fun other member => zero other (List.mem_cons_of_mem _ member)]

theorem withoutComments_unmarked (text : List Char) (unmarked : Unmarked text) :
    withoutComments text = text := by
  have apart (c mark : Char) (member : c ∈ text) (isMark : mark ∈ marks) : c ≠ mark :=
    fun same => unmarked c member (same ▸ isMark)
  have line : ∀ c ∈ text, ∀ rest, lineComment (c :: rest) = 0 := by
    intro c member rest
    have dash := apart c '-' member (by decide)
    unfold lineComment
    split <;> simp_all
  have block : ∀ c ∈ text, ∀ rest, blockComment (c :: rest) = 0 := by
    intro c member rest
    have slash := apart c '/' member (by decide)
    unfold blockComment
    split <;> simp_all
  have dollar : ∀ c ∈ text, ∀ rest, dollarQuoted (c :: rest) = 0 := by
    intro c member rest
    have sign := apart c '$' member (by decide)
    unfold dollarQuoted
    split <;> simp_all
  rw [withoutComments, subEmpty_of_zero _ _ block, subEmpty_of_zero _ _ dollar,
    subEmpty_of_zero _ _ line]

/-- A match between two characters of another kind is found, unless one before it is. -/
theorem innerTxnControl_isSome (alnum : Char → Bool) (before : Option Char)
    (front text found after : List Char) (nonempty : text ≠ [])
    (matched : controlAt text = some (found, after))
    (opens : ∀ c ∈ (before.toList ++ front).getLast?, wordOrDot alnum c = false)
    (closes : ∀ c ∈ after.head?, wordOrDot alnum c = false) :
    (innerTxnControl alnum before (front ++ text)).isSome = true := by
  have following : (after.head?.any (wordOrDot alnum)) = false := by
    cases next : after.head? with
    | none => rfl
    | some c => exact closes c next
  induction front generalizing before with
  | nil =>
    cases text with
    | nil => contradiction
    | cons c text =>
      have preceding : (before.any (wordOrDot alnum)) = false := by
        cases before with
        | none => rfl
        | some c => exact opens c rfl
      rw [List.nil_append, innerTxnControl, matched]
      simp [preceding, following]
  | cons d front later =>
    have further := later (some d) (by simpa [List.getLast?_append] using opens)
    rw [List.cons_append, innerTxnControl]
    split
    case h_1 => exact further
    case h_2 =>
      split
      case isTrue => exact further
      case isFalse => rfl

theorem wordOrDot_space (alnum : Char → Bool) (c : Char) (blank : SqlLexer.isSpace c = true) :
    wordOrDot alnum c = false := by
  rcases SqlLexer.space_cases c blank with rfl | rfl | rfl | rfl | rfl | rfl <;> rfl

theorem space_of_space (c : Char) (blank : SqlLexer.isSpace c = true) : isSpace c = true := by
  rcases SqlLexer.space_cases c blank with rfl | rfl | rfl | rfl | rfl | rfl <;> decide

theorem wordOrDot_outside (alnum : Char → Bool) (c : Char) (outside : SqlLexer.inTag c = false)
    (undotted : c ≠ '.') : wordOrDot alnum c = false := by
  simp only [SqlLexer.inTag, SqlLexer.startsWord, Bool.or_eq_false_iff] at outside
  have unlettered : c.isAlphanum = false := by
    change (c.isAlpha || c.isDigit) = false
    rw [outside.1.1.1, outside.2]
    rfl
  simp only [wordOrDot, unlettered, outside.1.1.2, outside.1.2, beq_false_of_ne undotted,
    Bool.or_false, Bool.false_and]

/-! Statements that begin with a keyword. -/

theorem lowered_word (token : Token) (text : List Char) (same : lowered token = .word text) :
    ∃ word, token = .word word ∧ word.map Char.toLower = text := by
  cases token with
  | word word => exact ⟨word, rfl, Token.word.inj same⟩
  | _ => contradiction

theorem leadsWith_cons (st : Statement) (name : String) (names : List String)
    (leads : leadsWith st (name :: names) = true) :
    ∃ word rest, st = .word word :: rest ∧ word.map Char.toLower = name.toList ∧
      leadsWith rest names = true := by
  have same := of_decide_eq_true leads
  cases st with
  | nil => simp at same
  | cons token rest =>
    rw [List.length_cons, List.take_succ_cons, List.map_cons, List.map_cons, List.cons.injEq] at same
    rcases lowered_word token _ same.1 with ⟨word, rfl, lower⟩
    exact ⟨word, rest, rfl, lower, decide_eq_true same.2⟩

theorem all_isAlpha_of_lower (found name : List Char) (same : found.map Char.toLower = name)
    (letters : name.all Char.isAlpha = true) : found.all Char.isAlpha = true := by
  rw [List.all_eq_true] at letters ⊢
  intro c member
  apply isAlpha_of_toLower
  apply letters
  rw [← same]
  exact List.mem_map_of_mem member

theorem controlAt_keyword (name : String) (found rest : List Char)
    (known : name = "begin" ∨ name = "commit" ∨ name = "rollback" ∨ name = "savepoint")
    (same : found.map Char.toLower = name.toList) : controlAt (found ++ rest) = some (found, rest) := by
  have letters : name.toList.all Char.isAlpha = true := by
    rcases known with rfl | rfl | rfl | rfl <;> decide
  have alpha := all_isAlpha_of_lower found _ same letters
  have apart (other : String) (distinct : ¬other.toList <+: name.toList ∧ ¬name.toList <+: other.toList) :
      keyword other.toList (found ++ rest) = none := by
    rw [← same] at distinct
    exact keyword_apart _ found rest alpha distinct
  have matched := keyword_lower _ found rest alpha same
  rcases known with rfl | rfl | rfl | rfl
  · simp only [controlAt, matched]
    rfl
  · simp only [controlAt, matched, apart "begin" (by decide)]
    rfl
  · simp only [controlAt, matched, apart "begin" (by decide), apart "commit" (by decide)]
    rfl
  · simp only [controlAt, matched, apart "begin" (by decide), apart "commit" (by decide),
      apart "rollback" (by decide)]
    rfl

theorem controlAt_startTransaction (first gap second rest : List Char) (parted : gap ≠ [])
    (blanks : ∀ c ∈ gap, isSpace c = true) (starts : first.map Char.toLower = "start".toList)
    (transaction : second.map Char.toLower = "transaction".toList) :
    controlAt (first ++ (gap ++ (second ++ rest))) = some (first ++ gap ++ second, rest) := by
  have alpha := all_isAlpha_of_lower first _ starts (by decide)
  have alpha' := all_isAlpha_of_lower second _ transaction (by decide)
  have apart (other : String)
      (distinct : ¬other.toList <+: "start".toList ∧ ¬"start".toList <+: other.toList) :
      keyword other.toList (first ++ (gap ++ (second ++ rest))) = none := by
    rw [← starts] at distinct
    exact keyword_apart _ first _ alpha distinct
  simp only [controlAt, apart "begin" (by decide), apart "commit" (by decide),
    apart "rollback" (by decide), apart "savepoint" (by decide),
    startTransaction_lower first gap second rest parted blanks alpha alpha' starts transaction]
  rfl

theorem behind_words (alnum : Char → Bool) (rest after : List Char) (unmarked : Unmarked rest)
    (free : ';' ∉ rest) (outside : ∀ c ∈ rest.head?, SqlLexer.inTag c = false)
    (undotted : (SqlLexer.tokens rest).head? ≠ some (.symbol '.')) (ended : ∀ c ∈ after.head?, c = ';') :
    ∀ c ∈ (rest ++ after).head?, wordOrDot alnum c = false := by
  intro c next
  cases rest with
  | nil =>
    obtain rfl := ended c next
    rfl
  | cons d rest =>
    obtain rfl : d = c := Option.some.inj next
    have untagged := outside d rfl
    apply wordOrDot_outside alnum d untagged
    rintro rfl
    rw [SqlLexer.tokens_cons '.' rest unmarked free (by decide), if_neg (by decide),
      if_neg (by decide)] at undotted
    exact undotted rfl

theorem before_words (alnum : Char → Bool) (before gap : List Char)
    (opens : ∀ c ∈ before.getLast?, c = ';') (blanks : ∀ c ∈ gap, SqlLexer.isSpace c = true) :
    ∀ c ∈ (before ++ gap).getLast?, wordOrDot alnum c = false := by
  intro c last
  cases gap with
  | nil =>
    rw [List.append_nil] at last
    obtain rfl := opens c last
    rfl
  | cons d gap =>
    apply wordOrDot_space
    apply blanks
    apply List.mem_of_getLast?
    simpa [List.getLast?_append] using last

theorem match_of_leadsWith (part : List Char) (unmarked : Unmarked part) (free : ';' ∉ part)
    (words : List String) (known : words ∈ searched) (leads : leadsWith (SqlLexer.tokens part) words = true) :
    ∃ gap found rest, part = gap ++ (found ++ rest) ∧ found ≠ [] ∧
      (∀ c ∈ gap, SqlLexer.isSpace c = true) ∧ (∀ c ∈ rest.head?, SqlLexer.inTag c = false) ∧
      SqlLexer.tokens rest = (SqlLexer.tokens part).drop words.length ∧
      ∀ tail, controlAt (found ++ (rest ++ tail)) = some (found, rest ++ tail) := by
  cases words with
  | nil => simp [searched] at known
  | cons name names =>
    rcases leadsWith_cons _ _ _ leads with ⟨word, ts, read, lower, leads'⟩
    obtain ⟨gap, after, split, blanks, outside, tail⟩ :=
      SqlLexer.tokens_word part unmarked free word ts read
    have inAfter : ∀ c ∈ after, c ∈ part := fun c within =>
      split ▸ List.mem_append_right _ (List.mem_append_right _ within)
    cases names with
    | nil =>
      have single : name = "begin" ∨ name = "commit" ∨ name = "rollback" ∨ name = "savepoint" := by
        simpa [searched] using known
      refine ⟨gap, word, after, split, ?_, blanks, outside, by rw [read, tail]; rfl, fun more => ?_⟩
      · rintro rfl
        rcases single with rfl | rfl | rfl | rfl <;> exact absurd lower (by decide)
      · exact controlAt_keyword name word (after ++ more) single lower
    | cons name' names =>
      have pair : name = "start" ∧ name' = "transaction" ∧ names = [] := by
        simpa [searched] using known
      rcases pair with ⟨rfl, rfl, rfl⟩
      rcases leadsWith_cons _ _ _ leads' with ⟨second, ts', rfl, lower', -⟩
      obtain ⟨gap', after', split', blanks', outside', tail'⟩ := SqlLexer.tokens_word after
        (fun c within => unmarked c (inAfter c within)) (fun within => free (inAfter _ within)) second
        ts' tail
      have parted : gap' ≠ [] := by
        rintro rfl
        cases second with
        | nil => exact absurd lower' (by decide)
        | cons c second =>
          have alpha := all_isAlpha_of_lower _ _ lower' (by decide)
          rw [List.all_cons, Bool.and_eq_true] at alpha
          have untagged := outside c (by rw [split']; rfl)
          simp [SqlLexer.inTag, SqlLexer.startsWord, alpha.1] at untagged
      refine ⟨gap, word ++ gap' ++ second, after', ?_, ?_, blanks, outside', by rw [read, tail']; rfl,
        fun more => ?_⟩
      · rw [split, split']
        simp
      · simp [parted]
      · have matched := controlAt_startTransaction word gap' second (after' ++ more) parted
          (fun c within => space_of_space c (blanks' c within)) lower lower'
        rw [← matched]
        simp only [List.append_assoc]

/-- The search reports a keyword where a statement begins with one of its keywords. -/
theorem scanned_of_statement (alnum : Char → Bool) (text : List Char) (unmarked : Unmarked text)
    (st : Statement) (member : st ∈ statements text) (words : List String) (known : words ∈ searched)
    (leads : leadsWith st words = true) (undotted : st[words.length]? ≠ some (.symbol '.')) :
    scanned alnum text = true := by
  obtain ⟨before, part, after, whole, free, rfl, opens, closes⟩ :=
    SqlLexer.statement_split text unmarked st member
  have inPart : Unmarked part := fun c within =>
    unmarked c (whole ▸ List.mem_append_right _ (List.mem_append_left _ within))
  obtain ⟨gap, found, rest, split, present, blanks, outside, tail, matched⟩ :=
    match_of_leadsWith part inPart free words known leads
  have inRest : ∀ c ∈ rest, c ∈ part := fun c within =>
    split ▸ List.mem_append_right _ (List.mem_append_right _ within)
  have undotted' : (SqlLexer.tokens rest).head? ≠ some (.symbol '.') := by
    rw [tail, List.head?_drop]
    exact undotted
  have regrouped : text = (before ++ gap) ++ (found ++ (rest ++ after)) := by
    rw [whole, split]
    simp only [List.append_assoc]
  rw [scanned, withoutComments_unmarked text unmarked, regrouped]
  apply innerTxnControl_isSome alnum none (before ++ gap) _ found (rest ++ after)
  · simp [present]
  · exact matched after
  · exact before_words alnum before gap opens blanks
  · exact behind_words alnum rest after (fun c within => inPart c (inRest c within))
      (fun within => free (inRest _ within)) outside undotted' closes

def unsearched : List (List String) := [["end"], ["abort"], ["release"], ["prepare", "transaction"]]

/-- The statement controls the transaction, and the search passes it by. -/
def escapesSearch (st : Statement) : Bool :=
  unsearched.any (leadsWith st) ||
    searched.any fun words => leadsWith st words && decide (st[words.length]? = some (.symbol '.'))

theorem controlsTransaction_eq (st : Statement) :
    controlsTransaction st = (searched ++ unsearched).any (leadsWith st) := by
  simp only [controlsTransaction, opensTransaction, closesTransaction, searched, unsearched,
    List.cons_append, List.nil_append, List.any_cons, List.any_nil, Bool.or_false]
  ac_rfl

theorem controls_of_escapes (st : Statement) (escapes : escapesSearch st = true) :
    controlsTransaction st = true := by
  rw [controlsTransaction_eq, List.any_eq_true]
  rcases Bool.or_eq_true_iff.mp escapes with unknown | dotted
  · rcases List.any_eq_true.mp unknown with ⟨words, member, leads⟩
    exact ⟨words, List.mem_append_right _ member, leads⟩
  · rcases List.any_eq_true.mp dotted with ⟨words, member, leads⟩
    exact ⟨words, List.mem_append_left _ member, (Bool.and_eq_true_iff.mp leads).1⟩

theorem scanned_of_controls (alnum : Char → Bool) (text : List Char) (unmarked : Unmarked text)
    (st : Statement) (member : st ∈ statements text) (controls : controlsTransaction st = true)
    (seen : escapesSearch st = false) : scanned alnum text = true := by
  rcases Bool.or_eq_false_iff.mp seen with ⟨known, unknown⟩
  rcases List.any_eq_true.mp (controlsTransaction_eq st ▸ controls) with ⟨words, listed, leads⟩
  rcases List.mem_append.mp listed with searches | skips
  · apply scanned_of_statement alnum text unmarked st member words searches leads
    intro dotted
    have missed := List.any_eq_false.mp unknown words searches
    simp [leads, dotted] at missed
  · exact absurd leads (List.any_eq_false.mp known words skips)

theorem innerStatements_aligned (alnum : Char → Bool) (sql : List Char) (aligned : Aligned sql)
    (passed : ¬Raises alnum sql) :
    ∃ text, text ⊆ sql ∧ innerStatements sql = statements text ∧ scanned alnum text = false := by
  unfold Aligned at aligned
  unfold Raises at passed
  unfold innerStatements
  cases divided : outer sql with
  | bare =>
    rw [divided] at aligned passed
    exact ⟨stripSpace sql, stripSpace_subset sql, (statements_stripSpace sql aligned).symm,
      Bool.not_eq_true _ ▸ passed⟩
  | unclosed => simp [divided] at passed
  | wrapped before opening rest front closing =>
    rw [divided] at aligned passed
    rcases statements_cut _ _ _ _ _ _ divided aligned with ⟨first, last, -, -, split⟩
    rcases outer_subset _ _ _ _ _ _ divided with ⟨-, -, -, inFront, -⟩
    refine ⟨stripSpace front, List.Subset.trans (stripSpace_subset front) inFront, ?_,
      Bool.not_eq_true _ ▸ passed⟩
    dsimp only
    rw [split, List.tail_cons, List.dropLast_concat]

end GenesisAgents
