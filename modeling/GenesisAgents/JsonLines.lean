import GenesisAgents.ResultSummary
import GenesisAgents.Library.JsonBehind

/-! `json.loads` of the lines of a file, which may hold anything, and the line that `json.dumps` makes of a
dict. -/

namespace GenesisAgents.JsonLines

open Value JsonText

/-! `json.loads` of any text: U+FFFD stands for half a surrogate pair, which is no `Char`. -/

def replacement : Char := Char.ofNat 0xFFFD

def readLow (high : Nat) (rest : List Char) : Option (Char × List Char) :=
  match rest with
  | [] => none
  | '\\' :: [] => none
  | '\\' :: 'u' :: more =>
    match decodeUnit more with
    | none => none
    | some (low, after) =>
      if 56320 ≤ low ∧ low < 57344 then
        some (Char.ofNat (65536 + (high - 55296) * 1024 + (low - 56320)), after)
      else some (replacement, rest)
  | _ => some (replacement, rest)

/-- What follows `\u`. -/
def readUnit (s : List Char) : Option (Char × List Char) :=
  match decodeUnit s with
  | none => none
  | some (unit, rest) =>
    if 55296 ≤ unit ∧ unit < 56320 then readLow unit rest
    else if 56320 ≤ unit ∧ unit < 57344 then some (replacement, rest)
    else some (Char.ofNat unit, rest)

def readChar : List Char → Option (Char × List Char)
  | [] => none
  | '\\' :: [] => none
  | '\\' :: c :: rest =>
    if c = 'u' then readUnit rest else (backslash.lookup c).map fun c => (c, rest)
  | c :: rest => if c = '"' ∨ c.toNat < 32 then none else some (c, rest)

/-- `json.loads`; `none` is its `JSONDecodeError`. -/
def loads (N : Numerals) (text : String) : Option Value := (readText readChar text.toList).bind (ofJson N)

theorem readUnit_of_readUnicode (s rest : List Char) (c : Char) (reads : readUnicode s = some (c, rest)) :
    readUnit s = some (c, rest) := by
  rw [readUnicode] at reads
  rw [readUnit]
  rcases first : decodeUnit s with _ | ⟨unit, after⟩
  · rw [first] at reads
    cases reads
  rw [first] at reads
  dsimp only at reads ⊢
  split at reads
  · rename_i high
    rw [if_pos high]
    split at reads
    · rename_i more
      rw [readLow]
      rcases second : decodeUnit more with _ | ⟨low, last⟩
      · rw [second] at reads
        cases reads
      rw [second] at reads
      dsimp only at reads ⊢
      split at reads
      · rename_i isLow
        rw [if_pos isLow]
        exact reads
      · cases reads
    · cases reads
  · rename_i notHigh
    rw [if_neg notHigh]
    split at reads
    · cases reads
    · rename_i notLow
      rw [if_neg notLow]
      exact reads

theorem readChar_of_readStrict (s rest : List Char) (c : Char) (reads : readStrict s = some (c, rest)) :
    readChar s = some (c, rest) := by
  cases s with
  | nil => cases reads
  | cons d s =>
    by_cases slash : d = '\\'
    · subst slash
      cases s with
      | nil => cases reads
      | cons e s =>
        rw [readStrict] at reads
        rw [readChar]
        split at reads
        · rename_i unicode
          rw [if_pos unicode]
          exact readUnit_of_readUnicode s rest c reads
        · rename_i escape
          rw [if_neg escape]
          exact reads
    · rw [readStrict] at reads
      · rw [readChar]
        · exact reads
        · exact fun same => absurd same slash
        · exact fun _ _ same => absurd same slash
      · exact fun same => absurd same slash
      · exact fun _ _ same => absurd same slash

/-- `ensure_ascii=True` -/
def escaping : Escaping where
  escape := escapeChar true
  read := readChar
  read_escape c rest := readChar_of_readStrict _ _ _ (readStrict_escapeChar true c rest)
  read_quote _ := rfl

def lineStyle : Style := ⟨escaping, [' '], [' ']⟩

theorem line_prints : JsonStyle.standard.Prints lineStyle := ⟨rfl, rfl, rfl⟩

theorem line_blank : lineStyle.Blank where
  item := List.forall_mem_singleton.mpr rfl
  key := List.forall_mem_singleton.mpr rfl

theorem readLow_append (high : Nat) (s t rest : List Char) (c : Char)
    (reads : readLow high s = some (c, rest)) : readLow high (s ++ t) = some (c, rest ++ t) := by
  unfold readLow at reads
  split at reads
  · cases reads
  · cases reads
  · rename_i more
    rw [List.cons_append, List.cons_append, readLow]
    rcases second : decodeUnit more with _ | ⟨low, after⟩
    · rw [second] at reads
      cases reads
    rw [second] at reads
    rw [decodeUnit_append more t after low second]
    dsimp only at reads ⊢
    split at reads
    · rename_i isLow
      obtain ⟨rfl, rfl⟩ := Prod.mk.inj (Option.some.inj reads)
      rw [if_pos isLow]
    · rename_i notLow
      obtain ⟨rfl, rfl⟩ := Prod.mk.inj (Option.some.inj reads)
      rw [if_neg notLow]
      rfl
  · rename_i filled lone pair
    obtain ⟨rfl, rfl⟩ := Prod.mk.inj (Option.some.inj reads)
    unfold readLow
    split
    · rename_i same
      exact absurd (List.append_eq_nil_iff.mp same).1 filled
    · rename_i same
      rcases List.append_eq_singleton_iff.mp same with ⟨empty, -⟩ | ⟨whole, -⟩
      · exact absurd empty filled
      · exact absurd whole lone
    · rename_i more same
      rcases s with _ | ⟨d, _ | ⟨e, s⟩⟩
      · exact absurd rfl filled
      · exact absurd (by rw [(List.cons.inj same).1]) lone
      · obtain ⟨rfl, rest⟩ := List.cons.inj same
        obtain ⟨rfl, -⟩ := List.cons.inj rest
        exact absurd rfl (pair s)
    · rfl

theorem readUnit_append (s t rest : List Char) (c : Char) (reads : readUnit s = some (c, rest)) :
    readUnit (s ++ t) = some (c, rest ++ t) := by
  rw [readUnit] at reads ⊢
  rcases first : decodeUnit s with _ | ⟨unit, after⟩
  · rw [first] at reads
    cases reads
  rw [first] at reads
  rw [decodeUnit_append s t after unit first]
  dsimp only at reads ⊢
  split at reads
  · rename_i high
    rw [if_pos high]
    exact readLow_append unit after t rest c reads
  · rename_i notHigh
    rw [if_neg notHigh]
    split at reads
    · rename_i low
      obtain ⟨rfl, rfl⟩ := Prod.mk.inj (Option.some.inj reads)
      rw [if_pos low]
    · rename_i notLow
      obtain ⟨rfl, rfl⟩ := Prod.mk.inj (Option.some.inj reads)
      rw [if_neg notLow]

/-- A character at the head of a text: an escape, or one that stands for itself. -/
theorem readChar_cases (s rest : List Char) (c : Char) (reads : readChar s = some (c, rest)) :
    (∃ after, s = '\\' :: 'u' :: after ∧ readUnit after = some (c, rest)) ∨
      (∃ e, e ≠ 'u' ∧ s = '\\' :: e :: rest ∧ backslash.lookup e = some c) ∨
      (s = c :: rest ∧ c ≠ '\\' ∧ ¬(c = '"' ∨ c.toNat < 32)) := by
  cases s with
  | nil => cases reads
  | cons d s =>
    by_cases slash : d = '\\'
    · subst slash
      cases s with
      | nil => cases reads
      | cons e s =>
        rw [readChar] at reads
        split at reads
        · rename_i unicode
          exact .inl ⟨s, by rw [unicode], reads⟩
        · rename_i escape
          rcases Option.map_eq_some_iff.mp reads with ⟨f, found, same⟩
          obtain ⟨rfl, rfl⟩ := Prod.mk.inj same
          exact .inr (.inl ⟨e, escape, rfl, found⟩)
    · rw [readChar] at reads
      · split at reads
        · cases reads
        · rename_i plain
          obtain ⟨rfl, rfl⟩ := Prod.mk.inj (Option.some.inj reads)
          exact .inr (.inr ⟨rfl, slash, plain⟩)
      · exact fun same => absurd same slash
      · exact fun _ _ same => absurd same slash

theorem readChar_forward : Forward readChar where
  nil := rfl
  append s c rest t reads := by
    rcases readChar_cases s rest c reads with ⟨after, rfl, unit⟩ | ⟨e, other, rfl, found⟩ |
      ⟨rfl, slash, plain⟩
    · rw [List.cons_append, List.cons_append, readChar, if_pos rfl]
      exact readUnit_append after t rest c unit
    · rw [List.cons_append, List.cons_append, readChar, if_neg other, found]
      rfl
    · rw [List.cons_append, readChar, if_neg plain]
      · exact fun same => absurd same slash
      · exact fun _ _ same => absurd same slash

theorem decodeUnit_takes (s rest : List Char) (unit : Nat) (reads : decodeUnit s = some (unit, rest)) :
    ∃ e, s = e ++ rest ∧ '\x7b' ∉ e := by
  unfold decodeUnit at reads
  split at reads
  · rename_i a b c d after
    split at reads
    · rename_i first second third fourth
      obtain ⟨-, rfl⟩ := Prod.mk.inj (Option.some.inj reads)
      refine ⟨[a, b, c, d], rfl, ?_⟩
      simp only [List.mem_cons, List.not_mem_nil, or_false]
      rintro (rfl | rfl | rfl | rfl)
      · cases first
      · cases second
      · cases third
      · cases fourth
    · cases reads
  · cases reads

theorem readLow_takes (high : Nat) (s rest : List Char) (c : Char) (reads : readLow high s = some (c, rest)) :
    ∃ e, s = e ++ rest ∧ '\x7b' ∉ e := by
  unfold readLow at reads
  split at reads
  · cases reads
  · cases reads
  · rename_i more
    rcases second : decodeUnit more with _ | ⟨low, after⟩
    · rw [second] at reads
      cases reads
    rw [second] at reads
    dsimp only at reads
    split at reads
    · obtain ⟨-, rfl⟩ := Prod.mk.inj (Option.some.inj reads)
      rcases decodeUnit_takes more after low second with ⟨e, rfl, unopened⟩
      exact ⟨'\\' :: 'u' :: e, rfl, by simp [unopened]⟩
    · obtain ⟨-, rfl⟩ := Prod.mk.inj (Option.some.inj reads)
      exact ⟨[], rfl, List.not_mem_nil⟩
  · obtain ⟨-, rfl⟩ := Prod.mk.inj (Option.some.inj reads)
    exact ⟨[], rfl, List.not_mem_nil⟩

theorem readChar_takes : TakesEscapes readChar := by
  intro s c rest reads
  rcases readChar_cases s rest c reads with ⟨after, rfl, unit⟩ | ⟨e, -, rfl, found⟩ | ⟨rfl, slash, plain⟩
  · right
    rw [readUnit] at unit
    rcases first : decodeUnit after with _ | ⟨n, left⟩
    · rw [first] at unit
      cases unit
    rw [first] at unit
    dsimp only at unit
    rcases decodeUnit_takes after left n first with ⟨e, rfl, unopened⟩
    split at unit
    · rcases readLow_takes n left rest c unit with ⟨more, rfl, unopened'⟩
      exact ⟨'u' :: (e ++ more), by simp, by simp [unopened, unopened']⟩
    · split at unit
      · obtain ⟨-, rfl⟩ := Prod.mk.inj (Option.some.inj unit)
        exact ⟨'u' :: e, rfl, by simp [unopened]⟩
      · obtain ⟨-, rfl⟩ := Prod.mk.inj (Option.some.inj unit)
        exact ⟨'u' :: e, rfl, by simp [unopened]⟩
  · refine .inr ⟨[e], rfl, ?_⟩
    rintro member
    obtain rfl := List.mem_singleton.mp member
    cases found
  · exact .inl ⟨rfl, fun quote => plain (.inl quote), slash⟩

/-! What `json.dumps` writes of a string. -/

theorem hexDigits_plain (width n : Nat) (c : Char) (member : c ∈ hexDigits width n) :
    c ∈ "0123456789abcdef".toList := by
  induction width generalizing n with
  | zero => cases member
  | succ width later =>
    rw [hexDigits, List.mem_append, List.mem_singleton] at member
    rcases member with front | rfl
    · exact later _ front
    · have digit : ∀ d < 16, hexDigit d ∈ "0123456789abcdef".toList := by decide
      exact digit _ (Nat.mod_lt _ (by decide))

theorem unicodeEscape_quoted (unit : Nat) (s : List Char) (rest : Quoted true s) :
    Quoted true (unicodeEscape unit ++ s) := by
  have digits (c : Char) (member : c ∈ hexDigits 4 unit) : c ≠ '"' ∧ c ≠ '\\' := by
    have table : "0123456789abcdef".toList.all fun d => d != '"' && d != '\\' := by decide
    have listed : ∀ d ∈ "0123456789abcdef".toList, d ≠ '"' ∧ d ≠ '\\' := fun d member => by
      simpa using List.all_eq_true.mp table d member
    exact listed c (hexDigits_plain 4 unit c member)
  exact .escape (quoted_plain true _ s digits rest)

theorem line_open : lineStyle.KeepsOpen := by
  intro c
  apply escapeChar_cases true c fun text => ∀ s, Quoted true s → Quoted true (text ++ s)
  · intro e _ s rest
    exact .escape rest
  · intro _ _ s rest
    exact unicodeEscape_quoted c.toNat s rest
  · intro quote slash _ s rest
    exact .plain quote slash rest
  · intro high low _ _ _ s rest
    rw [List.append_assoc]
    exact unicodeEscape_quoted high _ (unicodeEscape_quoted low s rest)

/-- A break in text mode. A CR with a LF gives one blank line more, and blank lines are skipped. -/
def isNewline (c : Char) : Bool := c = '\n' || c = '\r'

theorem unbroken_of_all (text : List Char) (checked : (text.all fun c => !isNewline c) = true) :
    ∀ d ∈ text, isNewline d = false := fun d member => by
  simpa using List.all_eq_true.mp checked d member

theorem unicodeEscape_unbroken (unit : Nat) (c : Char) (member : c ∈ unicodeEscape unit) :
    isNewline c = false := by
  have listed := unbroken_of_all ('\\' :: 'u' :: "0123456789abcdef".toList) (by decide)
  rcases List.mem_cons.mp member with rfl | inside
  · decide
  rcases List.mem_cons.mp inside with rfl | digit
  · decide
  · exact listed c (List.mem_cons_of_mem _ (List.mem_cons_of_mem _ (hexDigits_plain 4 unit c digit)))

theorem line_unbroken : lineStyle.Writes fun c => isNewline c = false where
  marks := unbroken_of_all _ (by decide)
  itemPad := unbroken_of_all _ (by decide)
  keyPad := unbroken_of_all _ (by decide)
  escape c := by
    apply escapeChar_cases true c fun text => ∀ d ∈ text, isNewline d = false
    · intro e listed
      simp only [shortEscapes, List.mem_cons, Prod.mk.injEq, List.not_mem_nil, or_false] at listed
      rcases listed with ⟨rfl, -⟩ | ⟨rfl, -⟩ | ⟨rfl, -⟩ | ⟨rfl, -⟩ | ⟨rfl, -⟩ | ⟨rfl, -⟩ | ⟨rfl, -⟩ <;>
        exact unbroken_of_all _ (by decide)
    · exact fun _ _ => unicodeEscape_unbroken c.toNat
    · intro _ _ printed d member
      obtain rfl := List.mem_singleton.mp member
      rw [isNewline, Bool.or_eq_false_iff]
      constructor <;> rw [decide_eq_false_iff_not] <;> rintro rfl <;> exact absurd printed (by decide)
    · intro high low _ _ _ d member
      rcases List.mem_append.mp member with front | back
      · exact unicodeEscape_unbroken high d front
      · exact unicodeEscape_unbroken low d back
  literal c literal := by
    rw [isNewline, Bool.or_eq_false_iff]
    constructor <;> rw [decide_eq_false_iff_not] <;> rintro rfl <;> exact absurd literal (by decide)

/-! The characters of the words that are values. -/

def isNumeral (c : Char) : Bool := c.isDigit || ['+', '-', '.', 'e', 'E'].contains c

section

variable (c : Char) (foreign : isNumeral c = false)

include foreign

theorem foreign_ne (d : Char) (numeral : isNumeral d = true) : c ≠ d := by
  rintro rfl
  rw [foreign] at numeral
  cases numeral

theorem mem_unsigned (w : List Char) (member : c ∈ w) : c ∈ unsigned w := by
  have sign := foreign_ne c foreign '-' rfl
  unfold unsigned
  split
  · exact (List.mem_cons.mp member).resolve_left sign
  · exact member

theorem mem_afterDigits (w rest : List Char) (reads : afterDigits w = some rest) (member : c ∈ w) :
    c ∈ rest := by
  have letter : c.isDigit = false := by
    rw [isNumeral, Bool.or_eq_false_iff] at foreign
    exact foreign.1
  cases w with
  | nil => cases member
  | cons d w =>
    rw [afterDigits] at reads
    split at reads
    · rename_i digit
      obtain rfl := Option.some.inj reads
      rcases List.mem_cons.mp member with rfl | inside
      · rw [letter] at digit
        cases digit
      · rw [← List.takeWhile_append_dropWhile (p := Char.isDigit) (l := w), List.mem_append] at inside
        refine inside.resolve_left fun taken => ?_
        rw [List.mem_takeWhile_imp taken] at letter
        cases letter
    · cases reads

theorem mem_afterInteger (w rest : List Char) (reads : afterInteger w = some rest) (member : c ∈ w) :
    c ∈ rest := by
  have zero := foreign_ne c foreign '0' rfl
  unfold afterInteger at reads
  split at reads
  · obtain rfl := Option.some.inj reads
    exact (List.mem_cons.mp member).resolve_left zero
  · exact mem_afterDigits c foreign w rest reads member

theorem mem_afterFraction (w rest : List Char) (reads : afterFraction w = some rest) (member : c ∈ w) :
    c ∈ rest := by
  have point := foreign_ne c foreign '.' rfl
  unfold afterFraction at reads
  split at reads
  · exact mem_afterDigits c foreign _ rest reads ((List.mem_cons.mp member).resolve_left point)
  · obtain rfl := Option.some.inj reads
    exact member

theorem mem_afterExponent (w rest : List Char) (reads : afterExponent w = some rest) (member : c ∈ w) :
    c ∈ rest := by
  have small := foreign_ne c foreign 'e' rfl
  have capital := foreign_ne c foreign 'E' rfl
  have plus := foreign_ne c foreign '+' rfl
  cases w with
  | nil => cases member
  | cons d w =>
    rw [afterExponent] at reads
    split at reads
    · rename_i exponent
      have inside : c ∈ w := (List.mem_cons.mp member).resolve_left fun same => by
        rcases exponent with rfl | rfl
        · exact small same
        · exact capital same
      refine mem_afterDigits c foreign _ rest reads ?_
      split
      · rename_i signed
        obtain ⟨w', rfl⟩ := List.head?_eq_some_iff.mp signed
        exact (List.mem_cons.mp inside).resolve_left plus
      · exact mem_unsigned c foreign w inside
    · obtain rfl := Option.some.inj reads
      exact member

theorem foreign_integer (w : String) (number : isInteger w = true) : c ∉ w.toList := by
  intro member
  have signed := mem_unsigned c foreign w.toList member
  exact List.not_mem_nil (mem_afterInteger c foreign _ [] (of_decide_eq_true number) signed)

theorem foreign_float (w : String) (number : isFloat w = true) : c ∉ w.toList := by
  intro member
  have signed := mem_unsigned c foreign w.toList member
  rw [isFloat, Bool.and_eq_true, decide_eq_true_eq] at number
  rcases Option.bind_eq_some_iff.mp number.2 with ⟨rest, integral, more⟩
  rcases Option.bind_eq_some_iff.mp more with ⟨rest', fraction, last⟩
  have inside := mem_afterInteger c foreign _ rest integral signed
  have after := mem_afterFraction c foreign rest rest' fraction inside
  exact List.not_mem_nil (mem_afterExponent c foreign rest' [] last after)

end

/-- A word that `json.loads` takes for a value. -/
def IsLiteral (w : List Char) : Prop :=
  String.ofList w ∈ constants.map Prod.fst ∨ isInteger (String.ofList w) = true ∨
    isFloat (String.ofList w) = true

theorem literal_of_ofWord (N : Numerals) (w : List Char) (v : Value)
    (reads : ofWord N (String.ofList w) = some v) : IsLiteral w := by
  rw [ofWord] at reads
  rcases found : constants.lookup (String.ofList w) with _ | constant
  · rw [found] at reads
    dsimp only at reads
    split at reads
    · rename_i number
      exact .inr (.inl number)
    · split at reads
      · rename_i number
        exact .inr (.inr number)
      · cases reads
  · exact .inl (List.mem_map_of_mem (constant_mem _ constant found))

def isMark (c : Char) : Bool := ['"', '\\', '\x7b', '\x7d'].contains c

theorem literal_unmarked (w : List Char) (literal : IsLiteral w) (c : Char) (member : c ∈ w) :
    isMark c = false := by
  rw [← Bool.not_eq_true]
  intro mark
  have listed : c ∈ ['"', '\\', '\x7b', '\x7d'] := by simpa [isMark] using mark
  have foreign : isNumeral c = false := by
    have table : ['"', '\\', '\x7b', '\x7d'].all (!isNumeral ·) := by decide
    have apart : ∀ d ∈ ['"', '\\', '\x7b', '\x7d'], isNumeral d = false := fun d member => by
      simpa using List.all_eq_true.mp table d member
    exact apart c listed
  rcases literal with constant | number | number
  · have plain : (constants.map Prod.fst).all (fun name => name.toList.all fun d => !isMark d) = true := by
      decide
    have letters := List.all_eq_true.mp plain _ constant
    rw [String.toList_ofList] at letters
    have letter := List.all_eq_true.mp letters c member
    rw [mark] at letter
    cases letter
  · exact foreign_integer c foreign _ number (by rwa [String.toList_ofList])
  · exact foreign_float c foreign _ number (by rwa [String.toList_ofList])

mutual
theorem ofJson_named (N : Numerals) : ∀ (j : Json) (v : Value), ofJson N j = some v → j.Named IsLiteral
  | .word w, v, reads => by
      rw [ofJson] at reads
      exact literal_of_ofWord N w v reads
  | .string _, _, _ => trivial
  | .array items, v, reads => by
      rw [ofJson] at reads
      rcases Option.map_eq_some_iff.mp reads with ⟨vs, found, -⟩
      exact ofItems_named N items vs found
  | .object members, v, reads => by
      rw [ofJson] at reads
      rcases Option.map_eq_some_iff.mp reads with ⟨kvs, found, -⟩
      exact ofMembers_named N members kvs found
theorem ofItems_named (N : Numerals) : ∀ (items : List Json) (vs : List Value),
    ofItems N items = some vs → NamedItems IsLiteral items
  | [], _, _ => trivial
  | x :: xs, vs, reads => by
      rw [ofItems] at reads
      split at reads
      · rename_i v vs' head tail
        exact ⟨ofJson_named N x v head, ofItems_named N xs vs' tail⟩
      · cases reads
theorem ofMembers_named (N : Numerals) : ∀ (members : List (List Char × Json))
    (kvs : List (String × Value)), ofMembers N members = some kvs → NamedMembers IsLiteral members
  | [], _, _ => trivial
  | (k, x) :: rest, kvs, reads => by
      rw [ofMembers] at reads
      split at reads
      · rename_i v kvs' head tail
        exact ⟨ofJson_named N x v head, ofMembers_named N rest kvs' tail⟩
      · cases reads
end

section

variable (N : Numerals) (entries : List (String × Value)) (loaded : Loaded N (dict entries)) (line : String)
  (encoded : dumpsWith .standard (dict entries) = some line)

include encoded in
theorem line_printed : line.toList = print lineStyle (toJson (dict entries)) :=
  dumps_eq_print _ _ line_prints _ line encoded

include encoded in
theorem line_shape : ∃ inner, line.toList = '\x7b' :: (inner ++ ['\x7d']) := by
  rw [line_printed entries line encoded, toJson, print_object]
  exact ⟨_, rfl⟩

include encoded in
theorem line_newlines (c : Char) (member : c ∈ line.toList) : isNewline c = false := by
  rw [line_printed entries line encoded] at member
  exact print_writes line_unbroken _ (toJson_solid _) c member

include loaded encoded

theorem loads_line : loads N line = some (dict entries) := by
  have read := readText_print lineStyle line_blank (toJson (dict entries)) (toJson_solid _)
  rw [← line_printed entries line encoded] at read
  change readText readChar line.toList = _ at read
  rw [loads, read, Option.bind_some, ofJson_toJson N _ loaded]

/-- Behind text that is not blank, the line is no JSON. -/
theorem loads_behind (t : List Char) (filled : skip t ≠ []) :
    loads N (String.ofList (t ++ line.toList)) = none := by
  rw [loads, String.toList_ofList]
  rcases read : readText readChar (t ++ line.toList) with _ | j
  · rfl
  rcases value : ofJson N j with _ | v
  · rw [Option.bind_some, value]
  have unescaped (w : List Char) (literal : IsLiteral w) : Unescaped w := fun member => by
    have unmarked := literal_unmarked w literal _ member
    cases unmarked
  have named := ofJson_named N _ _ (ofJson_toJson N _ loaded)
  have plain := named_mono IsLiteral Unescaped unescaped _ named
  have solid := toJson_solid (dict entries)
  rw [line_printed entries line encoded] at read
  rw [toJson] at read plain solid
  have escaped := readText_behind lineStyle line_blank line_open readChar_forward readChar_takes _ solid plain
    t filled j read
  exact absurd (named_mono IsLiteral Unescaped unescaped j (ofJson_named N j v value)) escaped

end

end GenesisAgents.JsonLines
