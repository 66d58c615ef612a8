import Mathlib.Data.List.Basic

/-! The lexical rules of PostgreSQL, read one character at a time: string literals, escape strings,
quoted identifiers, dollar quotes, line comments and nested block comments. A `;` outside all of
these ends a statement. -/

namespace SqlLexer

inductive Token where
  | word (text : List Char)
  | number (text : List Char)
  | quoted (text : List Char)
  | string (text : List Char)
  | dollar (text : List Char)
  /-- Operators stand character by character. -/
  | symbol (c : Char)
  /-- A literal or a comment that the text ends in. -/
  | unfinished
  deriving DecidableEq

abbrev Statement := List Token

def isNewline (c : Char) : Bool := c == '\n' || c == '\r'

def isSpace (c : Char) : Bool := isNewline c || c == ' ' || c == '\t' || c.toNat == 11 || c.toNat == 12

/-- A letter, `_` or anything outside ASCII. -/
def startsWord (c : Char) : Bool := c.isAlpha || c == '_' || 128 ≤ c.toNat

def inTag (c : Char) : Bool := startsWord c || c.isDigit

def inWord (c : Char) : Bool := inTag c || c == '$'

inductive Quoting where
  | standard
  /-- `E'…'` -/
  | escapes
  deriving DecidableEq

/-- What has been read since a closing quote: past a line break, another quote continues the
string. -/
inductive Gap where
  | touching
  | blank (newline : Bool)
  | dash
  | comment
  deriving DecidableEq

inductive Mode where
  | code
  | word (text : List Char)
  | number (text : List Char)
  | dash
  | slash
  | lineComment
  | blockComment (depth : Nat) (last : Char)
  | string (quoting : Quoting) (text : List Char)
  | escape (text : List Char)
  | stringEnd (quoting : Quoting) (text : List Char) (gap : Gap)
  | quoted (text : List Char)
  | quotedEnd (text : List Char)
  | dollarTag (tag : List Char)
  /-- `candidate` is what follows the last `$`. -/
  | dollarBody (tag text : List Char) (candidate : Option (List Char))
  | dollarEnd (text : List Char)
  deriving DecidableEq

/-- The tokens a mode stands for when nothing more belongs to it. -/
def Mode.pending : Mode → List Token
  | code => []
  | word text => [.word text]
  | number text => [.number text]
  | dash => [.symbol '-']
  | slash => [.symbol '/']
  | lineComment => []
  | blockComment _ _ => [.unfinished]
  | string _ _ => [.unfinished]
  | escape _ => [.unfinished]
  | stringEnd _ text .dash => [.string text, .symbol '-']
  | stringEnd _ text _ => [.string text]
  | quoted _ => [.unfinished]
  | quotedEnd text => [.quoted text]
  | dollarTag [] => [.symbol '$']
  | dollarTag tag => [.symbol '$', .word tag]
  | dollarBody _ _ _ => [.unfinished]
  | dollarEnd text => [.dollar text]

structure Lexer where
  /-- The finished tokens of the statement being read. -/
  current : Statement
  mode : Mode
  deriving DecidableEq

def start : Lexer := ⟨[], .code⟩

def escapePrefix (text : List Char) : Bool := text == ['e'] || text == ['E']

def afterQuote (quoting : Quoting) (text : List Char) (gap : Gap) (c : Char) : Option Mode :=
  match gap with
  | .touching =>
    if c = '\'' then some (.string quoting (text ++ [c]))
    else if c = '-' then some (.stringEnd quoting text .dash)
    else if isSpace c then some (.stringEnd quoting text (.blank (isNewline c)))
    else none
  | .blank newline =>
    if c = '\'' ∧ newline then some (.string quoting text)
    else if c = '-' then some (.stringEnd quoting text .dash)
    else if isSpace c then some (.stringEnd quoting text (.blank (newline || isNewline c)))
    else none
  | .dash => if c = '-' then some (.stringEnd quoting text .comment) else none
  | .comment =>
    if isNewline c then some (.stringEnd quoting text (.blank true))
    else some (.stringEnd quoting text .comment)

def afterDollar (tag text : List Char) (candidate : Option (List Char)) (c : Char) : Mode :=
  match candidate with
  | none => if c = '$' then .dollarBody tag text (some []) else .dollarBody tag (text ++ [c]) none
  | some read =>
    if c ≠ '$' then .dollarBody tag text (some (read ++ [c]))
    else if read = tag then .dollarEnd text
    else .dollarBody tag (text ++ '$' :: read) (some [])

/-- How a character carries on what is being read; `none` where a new token begins with it. -/
def advance (l : Lexer) (c : Char) : Option Lexer :=
  match l.mode with
  | .code | .dollarEnd _ => none
  | .word text =>
    if inWord c then some ⟨l.current, .word (text ++ [c])⟩
    else if c = '\'' ∧ escapePrefix text then some ⟨l.current, .string .escapes []⟩
    else none
  | .number text => if inTag c then some ⟨l.current, .number (text ++ [c])⟩ else none
  | .dash => if c = '-' then some ⟨l.current, .lineComment⟩ else none
  | .slash => if c = '*' then some ⟨l.current, .blockComment 0 ' '⟩ else none
  | .lineComment => some ⟨l.current, if isNewline c then .code else .lineComment⟩
  | .blockComment depth last =>
    if last = '*' ∧ c = '/' then
      match depth with
      | 0 => some ⟨l.current, .code⟩
      | depth + 1 => some ⟨l.current, .blockComment depth ' '⟩
    else if last = '/' ∧ c = '*' then some ⟨l.current, .blockComment (depth + 1) ' '⟩
    else some ⟨l.current, .blockComment depth c⟩
  | .string quoting text =>
    if c = '\'' then some ⟨l.current, .stringEnd quoting text .touching⟩
    else if c = '\\' ∧ quoting = .escapes then some ⟨l.current, .escape text⟩
    else some ⟨l.current, .string quoting (text ++ [c])⟩
  | .escape text => some ⟨l.current, .string .escapes (text ++ ['\\', c])⟩
  | .stringEnd quoting text gap => (afterQuote quoting text gap c).map (⟨l.current, ·⟩)
  | .quoted text =>
    if c = '"' then some ⟨l.current, .quotedEnd text⟩ else some ⟨l.current, .quoted (text ++ [c])⟩
  | .quotedEnd text => if c = '"' then some ⟨l.current, .quoted (text ++ [c])⟩ else none
  | .dollarTag tag =>
    if c = '$' then some ⟨l.current, .dollarBody tag [] none⟩
    else if startsWord c ∨ (tag ≠ [] ∧ c.isDigit) then some ⟨l.current, .dollarTag (tag ++ [c])⟩
    -- no dollar quote: the `$` stands alone and `tag` is a word
    else if c = '\'' ∧ escapePrefix tag then
      some ⟨l.current ++ [.symbol '$'], .string .escapes []⟩
    else none
  | .dollarBody tag text candidate => some ⟨l.current, afterDollar tag text candidate c⟩

def fresh (current : Statement) (c : Char) : Lexer :=
  if isSpace c then ⟨current, .code⟩
  else if startsWord c then ⟨current, .word [c]⟩
  else if c.isDigit then ⟨current, .number [c]⟩
  else match c with
    | '-' => ⟨current, .dash⟩
    | '/' => ⟨current, .slash⟩
    | '\'' => ⟨current, .string .standard []⟩
    | '"' => ⟨current, .quoted []⟩
    | '$' => ⟨current, .dollarTag []⟩
    | c => ⟨current ++ [.symbol c], .code⟩

def ended (current : Statement) : List Statement := if current = [] then [] else [current]

/-- The lexer after a character, with the statement the character ends. -/
def step (l : Lexer) (c : Char) : Lexer × List Statement :=
  match advance l c with
  | some l' => (l', [])
  | none =>
    if c = ';' then (start, ended (l.current ++ l.mode.pending))
    else (fresh (l.current ++ l.mode.pending) c, [])

def run (l : Lexer) : List Char → Lexer × List Statement
  | [] => (l, [])
  | c :: rest => ((run (step l c).1 rest).1, (step l c).2 ++ (run (step l c).1 rest).2)

def finish (l : Lexer) : List Statement := ended (l.current ++ l.mode.pending)

def statementsFrom (l : Lexer) (text : List Char) : List Statement :=
  (run l text).2 ++ finish (run l text).1

def statements (text : List Char) : List Statement := statementsFrom start text

theorem run_append (l : Lexer) (front rest : List Char) :
    run l (front ++ rest) =
      ((run (run l front).1 rest).1, (run l front).2 ++ (run (run l front).1 rest).2) := by
  induction front generalizing l with
  | nil => rfl
  | cons c front later =>
    rw [List.cons_append, run, run, later]
    simp only [List.append_assoc]

theorem space_cases (c : Char) (blank : isSpace c = true) :
    c = '\n' ∨ c = '\r' ∨ c = ' ' ∨ c = '\t' ∨ c = '\x0b' ∨ c = '\x0c' := by
  simp only [isSpace, isNewline, Bool.or_eq_true, beq_iff_eq] at blank
  rcases blank with ((((rfl | rfl) | rfl) | rfl) | code) | code
  · simp
  · simp
  · simp
  · simp
  · have same : c = '\x0b' := Char.ext (UInt32.toNat_inj.mp code)
    simp [same]
  · have same : c = '\x0c' := Char.ext (UInt32.toNat_inj.mp code)
    simp [same]

theorem not_inWord_of_space (c : Char) (blank : isSpace c = true) : inWord c = false := by
  rcases space_cases c blank with rfl | rfl | rfl | rfl | rfl | rfl <;> decide

theorem not_inTag_of_space (c : Char) (blank : isSpace c = true) : inTag c = false := by
  rcases space_cases c blank with rfl | rfl | rfl | rfl | rfl | rfl <;> decide

theorem ne_of_space (c solid : Char) (blank : isSpace c = true) (other : isSpace solid = false) :
    c ≠ solid := by
  rintro rfl
  rw [other] at blank
  contradiction

def marks : List Char := ['\'', '"', '-', '*', '/', '$']

theorem advance_ordinary (l l' : Lexer) (c : Char) (ordinary : c ∉ marks)
    (carried : advance l c = some l') :
    l'.current = l.current ∧
      (l'.mode.pending = l.mode.pending ∨ (inWord c = true ∧ l'.mode.pending ≠ [])) := by
  simp only [marks, List.mem_cons, List.not_mem_nil, or_false, not_or] at ordinary
  rcases ordinary with ⟨quote, double, minus, star, slash, dollar⟩
  rcases l with ⟨current, mode⟩
  cases mode with
  | code => simp [advance] at carried
  | dash => simp [advance, minus] at carried
  | slash => simp [advance, star] at carried
  | quotedEnd text => simp [advance, double] at carried
  | dollarEnd text => simp [advance] at carried
  | word text =>
    simp only [advance, quote, false_and, if_false] at carried
    split at carried
    case isTrue inside =>
      obtain rfl := Option.some.inj carried
      exact ⟨rfl, Or.inr ⟨inside, List.cons_ne_nil _ _⟩⟩
    case isFalse => contradiction
  | number text =>
    simp only [advance] at carried
    split at carried
    case isTrue inside =>
      obtain rfl := Option.some.inj carried
      exact ⟨rfl, Or.inr ⟨by simp [inWord, inside], List.cons_ne_nil _ _⟩⟩
    case isFalse => contradiction
  | lineComment =>
    obtain rfl := Option.some.inj carried
    cases isNewline c <;> exact ⟨rfl, Or.inl rfl⟩
  | blockComment depth last =>
    simp only [advance, slash, star, and_false, if_false, Option.some.injEq] at carried
    subst carried
    exact ⟨rfl, Or.inl rfl⟩
  | string quoting text =>
    simp only [advance, quote, if_false] at carried
    split at carried
    all_goals
      obtain rfl := Option.some.inj carried
      exact ⟨rfl, Or.inl rfl⟩
  | escape text =>
    obtain rfl := Option.some.inj carried
    exact ⟨rfl, Or.inl rfl⟩
  | stringEnd quoting text gap =>
    rcases Option.map_eq_some_iff.mp carried with ⟨mode, followed, rfl⟩
    refine ⟨rfl, Or.inl ?_⟩
    cases gap with
    | touching =>
      simp only [afterQuote, quote, minus, if_false] at followed
      split at followed
      case isTrue =>
        obtain rfl := Option.some.inj followed
        rfl
      case isFalse => contradiction
    | blank newline =>
      simp only [afterQuote, quote, minus, false_and, if_false] at followed
      split at followed
      case isTrue =>
        obtain rfl := Option.some.inj followed
        rfl
      case isFalse => contradiction
    | dash => simp [afterQuote, minus] at followed
    | comment =>
      simp only [afterQuote] at followed
      split at followed
      all_goals
        obtain rfl := Option.some.inj followed
        rfl
  | quoted text =>
    simp only [advance, double, if_false, Option.some.injEq] at carried
    subst carried
    exact ⟨rfl, Or.inl rfl⟩
  | dollarTag tag =>
    simp only [advance, dollar, quote, false_and, if_false] at carried
    split at carried
    case isTrue inside =>
      obtain rfl := Option.some.inj carried
      have tagged : inWord c = true := by
        rcases inside with letter | ⟨-, digit⟩
        · simp [inWord, inTag, letter]
        · simp [inWord, inTag, digit]
      exact ⟨rfl, Or.inr ⟨tagged, by cases tag <;> simp [Mode.pending]⟩⟩
    case isFalse => contradiction
  | dollarBody tag text candidate =>
    obtain rfl := Option.some.inj carried
    refine ⟨rfl, Or.inl ?_⟩
    cases candidate with
    | none => simp [afterDollar, dollar, Mode.pending]
    | some read => simp [afterDollar, dollar, Mode.pending]

theorem not_mark_of_space (c : Char) (blank : isSpace c = true) : c ∉ marks := by
  rcases space_cases c blank with rfl | rfl | rfl | rfl | rfl | rfl <;> decide

theorem advance_space (l l' : Lexer) (c : Char) (blank : isSpace c = true)
    (carried : advance l c = some l') :
    l'.current ++ l'.mode.pending = l.current ++ l.mode.pending := by
  rcases advance_ordinary l l' c (not_mark_of_space c blank) carried with ⟨current, same | ⟨inside, -⟩⟩
  · rw [current, same]
  · rw [not_inWord_of_space c blank] at inside
    contradiction

theorem finish_space (l : Lexer) (c : Char) (blank : isSpace c = true) :
    (step l c).2 = [] ∧ finish (step l c).1 = finish l := by
  unfold step
  cases carried : advance l c with
  | some l' => exact ⟨rfl, congrArg ended (advance_space l l' c blank carried)⟩
  | none =>
    have solid := ne_of_space c ';' blank (by decide)
    simp [solid, fresh, blank, finish, Mode.pending]

theorem run_code_spaces (current : Statement) (gap : List Char)
    (blanks : ∀ c ∈ gap, isSpace c = true) : run ⟨current, .code⟩ gap = (⟨current, .code⟩, []) := by
  induction gap with
  | nil => rfl
  | cons c gap later =>
    have blank := blanks c List.mem_cons_self
    have solid := ne_of_space c ';' blank (by decide)
    have stays : step ⟨current, .code⟩ c = (⟨current, .code⟩, []) := by
      simp [step, advance, solid, fresh, blank, Mode.pending]
    rw [run, stays, later fun other inside => blanks other (List.mem_cons_of_mem _ inside)]
    rfl

theorem run_spaces (l : Lexer) (gap : List Char) (blanks : ∀ c ∈ gap, isSpace c = true) :
    (run l gap).2 = [] ∧ finish (run l gap).1 = finish l := by
  induction gap generalizing l with
  | nil => exact ⟨rfl, rfl⟩
  | cons c gap later =>
    rcases finish_space l c (blanks c List.mem_cons_self) with ⟨silent, same⟩
    obtain ⟨silent', same'⟩ := later (step l c).1 fun other inside =>
      blanks other (List.mem_cons_of_mem _ inside)
    exact ⟨by rw [run, silent, silent']; rfl, same'.trans same⟩

theorem statementsFrom_append (l : Lexer) (front rest : List Char) :
    statementsFrom l (front ++ rest) = (run l front).2 ++ statementsFrom (run l front).1 rest := by
  simp only [statementsFrom, run_append, List.append_assoc]

/-- From a statement boundary on, a text is read as if it began there. -/
theorem statements_append (front rest : List Char) (boundary : (run start front).1 = start) :
    statements (front ++ rest) = (run start front).2 ++ statements rest := by
  rw [statements, statementsFrom_append, boundary]
  rfl

theorem statements_spaces_append (gap text : List Char) (blanks : ∀ c ∈ gap, isSpace c = true) :
    statements (gap ++ text) = statements text := by
  have skipped : run start gap = (start, []) := run_code_spaces [] gap blanks
  rw [statements_append gap text (by rw [skipped]), skipped]
  rfl

theorem statementsFrom_append_spaces (l : Lexer) (text gap : List Char)
    (blanks : ∀ c ∈ gap, isSpace c = true) :
    statementsFrom l (text ++ gap) = statementsFrom l text := by
  rcases run_spaces (run l text).1 gap blanks with ⟨silent, same⟩
  rw [statementsFrom_append, statementsFrom, silent, same]
  rfl

/-! One word after another, up to the `;`. -/

theorem ne_of_inTag (c solid : Char) (inside : inTag c = true) (other : inTag solid = false) :
    c ≠ solid := by
  rintro rfl
  rw [other] at inside
  contradiction

theorem not_space_of_inTag (c : Char) (inside : inTag c = true) : isSpace c = false := by
  by_contra blank
  rw [not_inTag_of_space c (Bool.not_eq_false _ ▸ blank)] at inside
  contradiction

theorem run_inWord (current : Statement) (text rest : List Char)
    (inside : ∀ c ∈ rest, inTag c = true) :
    run ⟨current, .word text⟩ rest = (⟨current, .word (text ++ rest)⟩, []) := by
  induction rest generalizing text with
  | nil => simp [run]
  | cons c rest later =>
    have first : inWord c = true := by simp [inWord, inside c List.mem_cons_self]
    have carried : step ⟨current, .word text⟩ c = (⟨current, .word (text ++ [c])⟩, []) := by
      simp [step, advance, first]
    rw [run, carried, later _ fun other within => inside other (List.mem_cons_of_mem _ within)]
    simp

theorem run_word (current : Statement) (c : Char) (rest : List Char) (letter : startsWord c = true)
    (inside : ∀ c ∈ rest, inTag c = true) :
    run ⟨current, .code⟩ (c :: rest) = (⟨current, .word (c :: rest)⟩, []) := by
  have first : inTag c = true := by simp [inTag, letter]
  have entered : step ⟨current, .code⟩ c = (⟨current, .word [c]⟩, []) := by
    have solid := ne_of_inTag c ';' first (by decide)
    have visible := not_space_of_inTag c first
    simp [step, advance, solid, fresh, visible, letter, Mode.pending]
  rw [run, entered, run_inWord current [c] rest inside]
  rfl

theorem run_word_spaces (current : Statement) (text : List Char) (c : Char) (gap : List Char)
    (blanks : ∀ other ∈ c :: gap, isSpace other = true) :
    run ⟨current, .word text⟩ (c :: gap) = (⟨current ++ [.word text], .code⟩, []) := by
  have blank := blanks c List.mem_cons_self
  have completed : step ⟨current, .word text⟩ c = (⟨current ++ [.word text], .code⟩, []) := by
    have solid := ne_of_space c ';' blank (by decide)
    have plain := ne_of_space c '\'' blank (by decide)
    simp [step, advance, not_inWord_of_space c blank, plain, solid, fresh, blank, Mode.pending]
  rw [run, completed, run_code_spaces _ gap fun other inside =>
    blanks other (List.mem_cons_of_mem _ inside)]
  rfl

theorem run_code_semicolon (current : Statement) :
    run ⟨current, .code⟩ [';'] = (start, ended current) := by
  simp [run, step, advance, Mode.pending]

theorem run_word_end (current : Statement) (text gap : List Char)
    (blanks : ∀ c ∈ gap, isSpace c = true) :
    run ⟨current, .word text⟩ (gap ++ [';']) = (start, [current ++ [.word text]]) := by
  cases gap with
  | nil =>
    have noWord : inWord ';' = false := by decide
    simp [run, step, advance, noWord, ended, Mode.pending]
  | cons c gap =>
    rw [run_append, run_word_spaces current text c gap blanks, run_code_semicolon]
    simp [ended]

/-! A word and a `;` add a statement only at a statement boundary. -/

theorem not_mark_of_inTag (c : Char) (inside : inTag c = true) : c ∉ marks := by
  intro mark
  have none : marks.all (fun mark => !inTag mark) = true := by decide
  rw [List.all_eq_true] at none
  simpa [inside] using none c mark

theorem finish_ne_nil (l : Lexer) : finish l ≠ [] ↔ l.current ++ l.mode.pending ≠ [] := by
  unfold finish ended
  split_ifs with empty
  · simp [empty]
  · simp [empty]

theorem advance_pending (l l' : Lexer) (c : Char) (ordinary : c ∉ marks) (pending : finish l ≠ [])
    (carried : advance l c = some l') : finish l' ≠ [] := by
  rw [finish_ne_nil] at pending ⊢
  rcases advance_ordinary l l' c ordinary carried with ⟨current, same | ⟨-, present⟩⟩
  · rw [current, same]
    exact pending
  · exact fun empty => present (List.append_eq_nil_iff.mp empty).2

theorem finish_fresh (current : Statement) (c : Char) (present : current ≠ []) :
    finish (fresh current c) ≠ [] := by
  have kept : (fresh current c).current ≠ [] := by
    unfold fresh
    split_ifs
    · exact present
    · exact present
    · exact present
    · split
      all_goals simp [present]
  simp [finish, ended, kept]

theorem step_pending (l : Lexer) (c : Char) (ordinary : inTag c = true ∨ isSpace c = true)
    (pending : finish l ≠ []) : (step l c).2 = [] ∧ finish (step l c).1 ≠ [] := by
  have plain : c ∉ marks ∧ c ≠ ';' := by
    rcases ordinary with inside | blank
    · exact ⟨not_mark_of_inTag c inside, ne_of_inTag c ';' inside (by decide)⟩
    · exact ⟨not_mark_of_space c blank, ne_of_space c ';' blank (by decide)⟩
  unfold step
  cases carried : advance l c with
  | some l' =>
    exact ⟨rfl, advance_pending l l' c plain.1 pending carried⟩
  | none =>
    simp only [plain.2, if_false]
    exact ⟨trivial, finish_fresh _ c ((finish_ne_nil l).mp pending)⟩

theorem step_pending_semicolon (l : Lexer) (pending : finish l ≠ []) :
    (statementsFrom l [';']).length = 1 := by
  unfold statementsFrom run step
  cases carried : advance l ';' with
  | some l' =>
    have still := advance_pending l l' ';' (by decide) pending carried
    have tokens := (finish_ne_nil l').mp still
    simp [run, finish, ended, tokens]
  | none =>
    have tokens := (finish_ne_nil l).mp pending
    simp only [run, if_true, ended, if_neg tokens]
    rfl

theorem run_pending (l : Lexer) (text : List Char)
    (ordinary : ∀ c ∈ text, inTag c = true ∨ isSpace c = true) (pending : finish l ≠ []) :
    (run l text).2 = [] ∧ finish (run l text).1 ≠ [] := by
  induction text generalizing l with
  | nil => exact ⟨rfl, pending⟩
  | cons c text later =>
    rcases step_pending l c (ordinary c List.mem_cons_self) pending with ⟨silent, still⟩
    obtain ⟨silent', still'⟩ := later (step l c).1
      (fun other inside => ordinary other (List.mem_cons_of_mem _ inside)) still
    exact ⟨by rw [run, silent, silent']; rfl, still'⟩

theorem idle_cases (l : Lexer) (nothing : finish l = []) : l = start ∨ l = ⟨[], .lineComment⟩ := by
  have none : ¬l.current ++ l.mode.pending ≠ [] := mt (finish_ne_nil l).mpr (not_not.mpr nothing)
  rcases l with ⟨current, mode⟩
  rcases List.append_eq_nil_iff.mp (not_not.mp none) with ⟨rfl, silent⟩
  cases mode with
  | code => exact Or.inl rfl
  | lineComment => exact Or.inr rfl
  | stringEnd quoting text gap => cases gap <;> simp [Mode.pending] at silent
  | dollarTag tag => cases tag <;> simp [Mode.pending] at silent
  | _ => simp [Mode.pending] at silent

theorem run_idle (l : Lexer) (text : List Char) (idle : l = start ∨ l = ⟨[], .lineComment⟩)
    (blanks : ∀ c ∈ text, isSpace c = true ∨ c = ';') : statementsFrom l text = [] := by
  induction text generalizing l with
  | nil => rcases idle with rfl | rfl <;> rfl
  | cons c text later =>
    have stays : (step l c).2 = [] ∧ ((step l c).1 = start ∨ (step l c).1 = ⟨[], .lineComment⟩) := by
      rcases idle with rfl | rfl
      · rcases blanks c List.mem_cons_self with blank | rfl
        · have solid := ne_of_space c ';' blank (by decide)
          simp [step, advance, start, solid, fresh, blank, Mode.pending]
        · exact ⟨rfl, Or.inl rfl⟩
      · cases broken : isNewline c <;> simp [step, advance, broken, start]
    have rest := later (step l c).1 stays.2 fun other inside =>
      blanks other (List.mem_cons_of_mem _ inside)
    have split := statementsFrom_append l [c] text
    rw [List.singleton_append] at split
    rw [split, run, run, stays.1, rest]
    rfl

theorem run_lineComment (current : Statement) (text : List Char)
    (inLine : ∀ c ∈ text, isNewline c = false) :
    run ⟨current, .lineComment⟩ text = (⟨current, .lineComment⟩, []) := by
  induction text with
  | nil => rfl
  | cons c text later =>
    have stays : step ⟨current, .lineComment⟩ c = (⟨current, .lineComment⟩, []) := by
      simp [step, advance, inLine c List.mem_cons_self]
    rw [run, stays, later fun other inside => inLine other (List.mem_cons_of_mem _ inside)]
    rfl

/-- A word and a `;` that do not begin where a statement does add none to those before. -/
theorem length_statementsFrom_word (l : Lexer) (word gap tail : List Char)
    (inside : ∀ c ∈ word, inTag c = true) (blanks : ∀ c ∈ gap ++ tail, isSpace c = true)
    (elsewhere : l ≠ start) :
    (statementsFrom l (word ++ (gap ++ ';' :: tail))).length = (finish l).length := by
  by_cases nothing : finish l = []
  · obtain rfl := (idle_cases l nothing).resolve_left elsewhere
    have inLine : ∀ c ∈ word, isNewline c = false := by
      intro c member
      have visible := not_space_of_inTag c (inside c member)
      simp only [isSpace, Bool.or_eq_false_iff] at visible
      exact visible.1.1.1.1
    have ending := run_idle ⟨[], .lineComment⟩ (gap ++ ';' :: tail) (Or.inr rfl) (by
      intro c member
      rcases List.mem_append.mp member with before | after
      · exact Or.inl (blanks c (List.mem_append_left _ before))
      · rcases List.mem_cons.mp after with rfl | after
        · exact Or.inr rfl
        · exact Or.inl (blanks c (List.mem_append_right _ after)))
    rw [statementsFrom_append, run_lineComment [] word inLine, ending, nothing]
    rfl
  · have ordinary : ∀ c ∈ word ++ gap, inTag c = true ∨ isSpace c = true := by
      intro c member
      rcases List.mem_append.mp member with letter | blank
      · exact Or.inl (inside c letter)
      · exact Or.inr (blanks c (List.mem_append_left _ blank))
    rcases run_pending l (word ++ gap) ordinary nothing with ⟨silent, still⟩
    have regrouped : word ++ (gap ++ ';' :: tail) = (word ++ gap ++ [';']) ++ tail := by simp
    have one : (finish l).length = 1 := by
      have tokens := (finish_ne_nil l).mp nothing
      simp [finish, ended, tokens]
    rw [regrouped, statementsFrom_append_spaces l _ tail fun c member =>
      blanks c (List.mem_append_right _ member), statementsFrom_append, silent, List.nil_append,
      step_pending_semicolon _ still, one]

end SqlLexer
