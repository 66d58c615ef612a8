import GenesisAgents.Value
import Mathlib.Data.List.TakeWhile
import Mathlib.Data.Option.Basic

/-! `strip_outer_transaction` of `migrations/runner.py`: a migration file's own outer `BEGIN;` and
`COMMIT;` are cut off, and the rest is searched for further transaction control. -/

namespace GenesisAgents

open Value (isSpace)

/-- `str.strip` -/
def stripSpace (text : List Char) : List Char :=
  ((text.dropWhile isSpace).reverse.dropWhile isSpace).reverse

/-- A lower-case letter of a pattern under `re.IGNORECASE`, which takes `ı` and `İ` for `i`, `ſ` for
`s` and the Kelvin sign for `k`. -/
def ignoringCase (letter c : Char) : Bool :=
  c.toLower == letter || (letter == 'i' && (c == 'ı' || c == 'İ')) ||
    (letter == 's' && c == 'ſ') || (letter == 'k' && c.toNat == 0x212A)

/-- A word of a pattern at the head of a text: what it matches, and what follows. -/
def keyword : List Char → List Char → Option (List Char × List Char)
  | [], text => some ([], text)
  | letter :: word, c :: text =>
    if ignoringCase letter c then (keyword word text).map fun (found, rest) => (c :: found, rest)
    else none
  | _ :: _, [] => none

/-- `START\s+TRANSACTION` -/
def startTransaction (text : List Char) : Option (List Char × List Char) :=
  match keyword "start".toList text with
  | none => none
  | some (start, text) =>
    if text.takeWhile isSpace = [] then none
    else (keyword "transaction".toList (text.dropWhile isSpace)).map fun (transaction, rest) =>
      (start ++ text.takeWhile isSpace ++ transaction, rest)

/-- `\s*;` -/
def semicolon (text : List Char) : Option (List Char × List Char) :=
  match text.dropWhile isSpace with
  | ';' :: rest => some (text.takeWhile isSpace ++ [';'], rest)
  | _ => none

/-- `(?:\s*--[^\n]*\n)*\s*`: what is skipped, and what follows. -/
def leadingComments : Bool → List Char → List Char × List Char
  | true, c :: rest =>
    (c :: (leadingComments (c != '\n') rest).1, (leadingComments (c != '\n') rest).2)
  | false, '-' :: '-' :: rest =>
    ('-' :: '-' :: (leadingComments true rest).1, (leadingComments true rest).2)
  | false, c :: rest =>
    if isSpace c then (c :: (leadingComments false rest).1, (leadingComments false rest).2)
    else ([], c :: rest)
  | _, [] => ([], [])

/-- `_LEADING_BEGIN`: what stands before the opening statement, the statement, and the rest. -/
def leadingBegin (body : List Char) : Option (List Char × List Char × List Char) :=
  let (before, text) := leadingComments false body
  match keyword "begin".toList text <|> startTransaction text with
  | none => none
  | some (opening, text) =>
    (semicolon text).map fun (close, rest) => (before, opening ++ close, rest)

/-- `(COMMIT|END)\s*;\s*\Z` at the head of a text. -/
def closesAt (text : List Char) : Bool :=
  match keyword "commit".toList text <|> keyword "end".toList text with
  | none => false
  | some (_, text) =>
    match semicolon text with
    | none => false
    | some (_, rest) => rest.all isSpace

/-- `_TRAILING_COMMIT`: the text before the closing statement, and the statement. -/
def trailingCommit : List Char → Option (List Char × List Char)
  | [] => none
  | c :: rest =>
    if closesAt (c :: rest) then some ([], c :: rest)
    else (trailingCommit rest).map fun (front, closing) => (c :: front, closing)

/-! `_without_comments` -/

/-- `pattern.sub("", text)`, where `length` is that of the match at the head of a text, 0 if there is
none. The number is that of the characters still to be skipped. -/
def subEmpty (length : List Char → Nat) : Nat → List Char → List Char
  | _, [] => []
  | skip + 1, _ :: rest => subEmpty length skip rest
  | 0, c :: rest =>
    match length (c :: rest) with
    | 0 => c :: subEmpty length 0 rest
    | skip + 1 => subEmpty length skip rest

def lengthThrough (markers : List (List Char)) : List Char → Option Nat
  | [] => none
  | c :: rest =>
    match markers.find? (·.isPrefixOf (c :: rest)) with
    | some marker => some marker.length
    | none => (lengthThrough markers rest).map (· + 1)

/-- `--[^\n]*` -/
def lineComment : List Char → Nat
  | '-' :: '-' :: rest => 2 + (rest.takeWhile (· != '\n')).length
  | _ => 0

/-- `/\*.*?\*/` -/
def blockComment : List Char → Nat
  | '/' :: '*' :: rest => ((lengthThrough ["*/".toList] rest).map (2 + ·)).getD 0
  | _ => 0

/-- `([A-Za-z_][A-Za-z0-9_]*)?` -/
def quoteTag (text : List Char) : List Char :=
  match text with
  | c :: _ => if c.isAlpha || c == '_' then text.takeWhile fun c => c.isAlphanum || c == '_' else []
  | [] => []

/-- `\$([A-Za-z_][A-Za-z0-9_]*)?\$.*?\$\1?\$` -/
def dollarQuoted : List Char → Nat
  | '$' :: text =>
    match text.drop (quoteTag text).length with
    | '$' :: inside =>
      ((lengthThrough ['$' :: quoteTag text ++ ['$'], "$$".toList] inside).map
        ((quoteTag text).length + 2 + ·)).getD 0
    | _ => 0
  | _ => 0

def withoutComments (sql : List Char) : List Char :=
  subEmpty lineComment 0 (subEmpty dollarQuoted 0 (subEmpty blockComment 0 sql))

/-! The search for inner transaction control. -/

section

-- `str.isalnum` outside ASCII
variable (alnum : Char → Bool)

/-- `[\w.]` -/
def wordOrDot (c : Char) : Bool :=
  c.isAlphanum || c == '_' || c == '.' || (128 ≤ c.toNat && alnum c)

/-- The alternatives of `_INNER_TXN_CONTROL` at the head of a text. -/
def controlAt (text : List Char) : Option (List Char × List Char) :=
  keyword "begin".toList text <|> keyword "commit".toList text <|>
    keyword "rollback".toList text <|> keyword "savepoint".toList text <|> startTransaction text

/-- `_INNER_TXN_CONTROL.search`, from the character before the text on. -/
def innerTxnControl : Option Char → List Char → Option (List Char)
  | _, [] => none
  | before, c :: rest =>
    match controlAt (c :: rest) with
    | none => innerTxnControl (some c) rest
    | some (found, after) =>
      if before.any (wordOrDot alnum) || after.head?.any (wordOrDot alnum) then
        innerTxnControl (some c) rest
      else some found

/-- `str.upper`, of the characters the search can find. -/
def upper (c : Char) : Char := if c = 'ı' then 'I' else if c = 'ſ' then 'S' else c.toUpper

def refuseControl (body : List Char) : Except String String :=
  match innerTxnControl alnum none (withoutComments body) with
  | some leftover => .error <|
    "migration contains transaction control (" ++ String.ofList (leftover.map upper) ++
      ") inside its body; the runner must own the transaction so the ledger row and the DDL commit together"
  | none => .ok (String.ofList body)

/-- `strip_outer_transaction`; an error is the text of a `MigrationError`. -/
def stripOuterTransaction (sql : List Char) : Except String String :=
  match leadingBegin (stripSpace sql) with
  | none => refuseControl alnum (stripSpace sql)
  | some (before, _, rest) =>
    match trailingCommit (stripSpace (before ++ rest)) with
    | none => .error "migration opens a transaction it never commits"
    | some (front, _) => refuseControl alnum (stripSpace front)

end

def Spells (word found : List Char) : Prop :=
  List.Forall₂ (fun letter c => ignoringCase letter c = true) word found

theorem keyword_spec (word text found rest : List Char)
    (matched : keyword word text = some (found, rest)) : text = found ++ rest ∧ Spells word found := by
  induction word generalizing text found with
  | nil =>
    rcases Prod.mk.inj (Option.some.inj matched) with ⟨rfl, rfl⟩
    exact ⟨rfl, List.Forall₂.nil⟩
  | cons letter word later =>
    cases text with
    | nil => simp [keyword] at matched
    | cons c text =>
      rw [keyword] at matched
      split at matched
      case isTrue same =>
        rcases Option.map_eq_some_iff.mp matched with ⟨⟨found', rest'⟩, inner, pair⟩
        rcases Prod.mk.inj pair with ⟨rfl, rfl⟩
        rcases later text found' inner with ⟨rfl, letters⟩
        exact ⟨rfl, List.Forall₂.cons same letters⟩
      case isFalse => contradiction

theorem takeWhile_space (text : List Char) : ∀ c ∈ text.takeWhile isSpace, isSpace c = true :=
  fun _ member => List.mem_takeWhile_imp member

theorem semicolon_spec (text found rest : List Char) (matched : semicolon text = some (found, rest)) :
    ∃ gap, found = gap ++ [';'] ∧ text = gap ++ ';' :: rest ∧ ∀ c ∈ gap, isSpace c = true := by
  unfold semicolon at matched
  split at matched
  case h_1 rest' follows =>
    rcases Prod.mk.inj (Option.some.inj matched) with ⟨rfl, rfl⟩
    refine ⟨text.takeWhile isSpace, rfl, ?_, takeWhile_space text⟩
    rw [← follows, List.takeWhile_append_dropWhile]
  case h_2 => contradiction

theorem startTransaction_spec (text found rest : List Char)
    (matched : startTransaction text = some (found, rest)) :
    text = found ++ rest ∧ ∃ first gap second, found = first ++ gap ++ second ∧ gap ≠ [] ∧
      (∀ c ∈ gap, isSpace c = true) ∧ Spells "start".toList first ∧
      Spells "transaction".toList second := by
  unfold startTransaction at matched
  split at matched
  case h_1 => contradiction
  case h_2 first text' started =>
    rcases keyword_spec _ _ _ _ started with ⟨rfl, spelled⟩
    split at matched
    case isTrue => contradiction
    case isFalse parted =>
      rcases Option.map_eq_some_iff.mp matched with ⟨⟨second, rest'⟩, continued, pair⟩
      rcases keyword_spec _ _ _ _ continued with ⟨follows, spelled'⟩
      rcases Prod.mk.inj pair with ⟨rfl, rfl⟩
      refine ⟨?_, first, text'.takeWhile isSpace, second, rfl, parted, takeWhile_space text', spelled,
        spelled'⟩
      calc first ++ text' = first ++ (text'.takeWhile isSpace ++ text'.dropWhile isSpace) := by
            rw [List.takeWhile_append_dropWhile]
        _ = first ++ text'.takeWhile isSpace ++ second ++ rest' := by
            rw [follows]
            simp only [List.append_assoc]

theorem leadingComments_spec (inside : Bool) (text : List Char) :
    (leadingComments inside text).1 ++ (leadingComments inside text).2 = text := by
  fun_induction leadingComments inside text <;> simp_all

theorem leadingBegin_spec (body before opening rest : List Char)
    (matched : leadingBegin body = some (before, opening, rest)) :
    ∃ words gap, opening = words ++ (gap ++ [';']) ∧ (∀ c ∈ gap, isSpace c = true) ∧
      leadingComments false body = (before, opening ++ rest) ∧
      (Spells "begin".toList words ∨ ∃ text rest, startTransaction text = some (words, rest)) := by
  unfold leadingBegin at matched
  dsimp only at matched
  split at matched
  case h_1 => contradiction
  case h_2 words text named =>
    rcases Option.map_eq_some_iff.mp matched with ⟨⟨close, rest'⟩, closed, pair⟩
    rcases Prod.mk.inj pair with ⟨first, same⟩
    rcases Prod.mk.inj same with ⟨rfl, rfl⟩
    rcases semicolon_spec _ _ _ closed with ⟨gap, rfl, rfl, blanks⟩
    refine ⟨words, gap, rfl, blanks, ?_, ?_⟩
    · refine Prod.ext first ?_
      have joined : (leadingComments false body).2 = words ++ (gap ++ ';' :: rest') := by
        rcases (Option.orElse_eq_some _ _ _).mp named with begun | ⟨-, started⟩
        · exact (keyword_spec _ _ _ _ begun).1
        · exact (startTransaction_spec _ _ _ started).1
      rw [joined]
      simp
    · rcases (Option.orElse_eq_some _ _ _).mp named with begun | ⟨-, started⟩
      · exact Or.inl (keyword_spec _ _ _ _ begun).2
      · exact Or.inr ⟨_, _, started⟩

theorem closesAt_spec (text : List Char) (closes : closesAt text = true) :
    ∃ word gap tail, text = word ++ (gap ++ ';' :: tail) ∧ (∀ c ∈ gap ++ tail, isSpace c = true) ∧
      (Spells "commit".toList word ∨ Spells "end".toList word) := by
  unfold closesAt at closes
  split at closes
  case h_1 => contradiction
  case h_2 word rest named =>
    split at closes
    case h_1 => contradiction
    case h_2 close tail closed =>
      rcases semicolon_spec _ _ _ closed with ⟨gap, rfl, rfl, blanks⟩
      have ends := List.all_eq_true.mp closes
      have spaces : ∀ c ∈ gap ++ tail, isSpace c = true := by
        intro c member
        rcases List.mem_append.mp member with before | after
        · exact blanks c before
        · exact ends c after
      rcases (Option.orElse_eq_some _ _ _).mp named with commits | ⟨-, ended⟩
      · rcases keyword_spec _ _ _ _ commits with ⟨same, spelled⟩
        exact ⟨word, gap, tail, same, spaces, Or.inl spelled⟩
      · rcases keyword_spec _ _ _ _ ended with ⟨same, spelled⟩
        exact ⟨word, gap, tail, same, spaces, Or.inr spelled⟩

theorem trailingCommit_spec (body front closing : List Char)
    (matched : trailingCommit body = some (front, closing)) :
    body = front ++ closing ∧ closesAt closing = true := by
  induction body generalizing front with
  | nil => simp [trailingCommit] at matched
  | cons c rest later =>
    rw [trailingCommit] at matched
    split at matched
    case isTrue closes =>
      rcases Prod.mk.inj (Option.some.inj matched) with ⟨rfl, rfl⟩
      exact ⟨rfl, closes⟩
    case isFalse =>
      rcases Option.map_eq_some_iff.mp matched with ⟨⟨front', closing'⟩, inner, pair⟩
      rcases Prod.mk.inj pair with ⟨rfl, rfl⟩
      rcases later front' inner with ⟨rfl, closes⟩
      exact ⟨rfl, closes⟩

theorem stripSpace_spec (text : List Char) : ∃ lead trail, text = lead ++ (stripSpace text ++ trail) ∧
    (∀ c ∈ lead, isSpace c = true) ∧ ∀ c ∈ trail, isSpace c = true := by
  let inner := text.dropWhile isSpace
  refine ⟨text.takeWhile isSpace, (inner.reverse.takeWhile isSpace).reverse, ?_, ?_, ?_⟩
  · have ends : stripSpace text ++ (inner.reverse.takeWhile isSpace).reverse = inner := by
      rw [stripSpace, ← List.reverse_append, List.takeWhile_append_dropWhile, List.reverse_reverse]
    rw [ends, List.takeWhile_append_dropWhile]
  · exact takeWhile_space text
  · intro c member
    exact takeWhile_space inner.reverse c (List.mem_reverse.mp member)

end GenesisAgents
