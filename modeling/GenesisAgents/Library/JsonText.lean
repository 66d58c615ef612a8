import Mathlib.Data.List.Basic

/-! JSON texts: a printed value can be told from every other, whatever follows it. Literals are kept
as the words they are written in. -/

namespace JsonText

inductive Json where
  /-- `null`, `true`, `false` or a number -/
  | word (text : List Char)
  | string (chars : List Char)
  | array (items : List Json)
  | object (members : List (List Char × Json))

/-- How the characters of a string are written: a code that can be read back one by one, and in
which the closing quote stands for itself. -/
structure Escaping where
  escape : Char → List Char
  read : List Char → Option (Char × List Char)
  read_escape : ∀ c rest, read (escape c ++ rest) = some (c, rest)
  read_quote : ∀ rest, read ('"' :: rest) = none

structure Style where
  escaping : Escaping
  itemPad : List Char
  keyPad : List Char

def wordStops : List Char := [',', ']', '\x7d', '"', '[', '\x7b']

def isWordChar (c : Char) : Bool := !wordStops.contains c

def Word (text : List Char) : Prop := text ≠ [] ∧ ∀ c ∈ text, isWordChar c = true

mutual
def Json.Plain : Json → Prop
  | .word text => Word text
  | .string _ => True
  | .array items => PlainItems items
  | .object members => PlainMembers members
def PlainItems : List Json → Prop
  | [] => True
  | x :: xs => x.Plain ∧ PlainItems xs
def PlainMembers : List (List Char × Json) → Prop
  | [] => True
  | (_, x) :: rest => x.Plain ∧ PlainMembers rest
end

section

variable (style : Style)

def quote (chars : List Char) : List Char := '"' :: chars.flatMap style.escaping.escape ++ ['"']

mutual
def print : Json → List Char
  | .word text => text
  | .string chars => quote style chars
  | .array [] => ['[', ']']
  | .array (x :: xs) => '[' :: print x ++ printItems xs
  | .object [] => ['\x7b', '\x7d']
  | .object ((k, x) :: rest) =>
    '\x7b' :: quote style k ++ ':' :: style.keyPad ++ print x ++ printMembers rest
def printItems : List Json → List Char
  | [] => [']']
  | x :: xs => ',' :: style.itemPad ++ print x ++ printItems xs
def printMembers : List (List Char × Json) → List Char
  | [] => ['\x7d']
  | (k, x) :: rest =>
    ',' :: style.itemPad ++ quote style k ++ ':' :: style.keyPad ++ print x ++ printMembers rest
end

theorem escape_unique : ∀ cs cs' r r' : List Char,
    cs.flatMap style.escaping.escape ++ '"' :: r = cs'.flatMap style.escaping.escape ++ '"' :: r' →
      cs = cs' ∧ r = r' := by
  have reads (c : Char) (cs r : List Char) :
      style.escaping.read ((c :: cs).flatMap style.escaping.escape ++ '"' :: r) =
        some (c, cs.flatMap style.escaping.escape ++ '"' :: r) := by
    rw [List.flatMap_cons, List.append_assoc]
    exact style.escaping.read_escape c _
  have ends (r : List Char) :
      style.escaping.read (([] : List Char).flatMap style.escaping.escape ++ '"' :: r) = none :=
    style.escaping.read_quote r
  intro cs
  induction cs with
  | nil =>
    intro cs' r r' same
    cases cs' with
    | nil => exact ⟨rfl, (List.cons.inj same).2⟩
    | cons c' cs' =>
      have both := congrArg style.escaping.read same
      rw [ends, reads] at both
      contradiction
  | cons c cs later =>
    intro cs' r r' same
    have both := congrArg style.escaping.read same
    cases cs' with
    | nil =>
      rw [ends, reads] at both
      contradiction
    | cons c' cs' =>
      rw [reads, reads] at both
      have parts := Prod.mk.inj (Option.some.inj both)
      have tails := later cs' r r' parts.2
      exact ⟨by rw [parts.1, tails.1], tails.2⟩

theorem quote_unique (cs cs' r r' : List Char)
    (same : quote style cs ++ r = quote style cs' ++ r') : cs = cs' ∧ r = r' := by
  simp only [quote, List.cons_append, List.append_assoc, List.nil_append] at same
  exact escape_unique style cs cs' r r' (List.cons.inj same).2

def Stops : List Char → Prop
  | [] => True
  | c :: _ => isWordChar c = false

theorem takeWhile_word (text rest : List Char) (word : ∀ c ∈ text, isWordChar c = true)
    (stops : Stops rest) : (text ++ rest).takeWhile isWordChar = text := by
  rw [List.takeWhile_append_of_pos word]
  cases rest with
  | nil => rw [List.takeWhile_nil, List.append_nil]
  | cons c rest => rw [List.takeWhile_cons_of_neg (by rw [stops]; decide), List.append_nil]

theorem word_unique (w w' r r' : List Char) (word : Word w) (word' : Word w') (stops : Stops r)
    (stops' : Stops r') (same : w ++ r = w' ++ r') : w = w' ∧ r = r' := by
  have starts := congrArg (List.takeWhile isWordChar) same
  rw [takeWhile_word w r word.2 stops, takeWhile_word w' r' word'.2 stops'] at starts
  subst starts
  exact ⟨rfl, List.append_cancel_left same⟩

/-! The first character of a value tells its kind. -/

inductive Kind where
  | word | string | array | object

def Json.kind : Json → Kind
  | .word _ => .word
  | .string _ => .string
  | .array _ => .array
  | .object _ => .object

def kindOf (c : Char) : Kind :=
  if c = '"' then .string else if c = '[' then .array else if c = '\x7b' then .object else .word

theorem kindOf_word (c : Char) (word : isWordChar c = true) : kindOf c = .word := by
  have free : c ∉ wordStops := by simpa [isWordChar] using word
  have quote_free : c ≠ '"' := fun same => free (by simp [same, wordStops])
  have array_free : c ≠ '[' := fun same => free (by simp [same, wordStops])
  have object_free : c ≠ '\x7b' := fun same => free (by simp [same, wordStops])
  rw [kindOf, if_neg quote_free, if_neg array_free, if_neg object_free]

theorem print_head (j : Json) (plain : j.Plain) :
    ∃ c rest, print style j = c :: rest ∧ kindOf c = j.kind ∧ c ≠ ']' := by
  cases j with
  | word text =>
    rw [Json.Plain] at plain
    rcases text with _ | ⟨c, text⟩
    · exact absurd rfl plain.1
    · have word := plain.2 c List.mem_cons_self
      refine ⟨c, text, by rw [print], kindOf_word c word, ?_⟩
      rintro rfl
      exact absurd word (by decide)
  | string chars => exact ⟨'"', _, by rw [print, quote]; rfl, rfl, by decide⟩
  | array items =>
    cases items with
    | nil => exact ⟨'[', _, by rw [print], rfl, by decide⟩
    | cons x xs => exact ⟨'[', _, by rw [print]; rfl, rfl, by decide⟩
  | object members =>
    rcases members with _ | ⟨⟨k, x⟩, rest⟩
    · exact ⟨'\x7b', _, by rw [print], rfl, by decide⟩
    · exact ⟨'\x7b', _, by rw [print]; rfl, rfl, by decide⟩

theorem print_opens (j : Json) (plain : j.Plain) (r r' : List Char) :
    print style j ++ r ≠ ']' :: r' := by
  rcases print_head style j plain with ⟨c, rest, starts, -, opens⟩
  rw [starts, List.cons_append]
  exact fun same => opens (List.cons.inj same).1

theorem kind_unique (j j' : Json) (r r' : List Char) (plain : j.Plain) (plain' : j'.Plain)
    (same : print style j ++ r = print style j' ++ r') : j.kind = j'.kind := by
  rcases print_head style j plain with ⟨c, rest, starts, kind, -⟩
  rcases print_head style j' plain' with ⟨c', rest', starts', kind', -⟩
  rw [starts, starts'] at same
  rw [← kind, ← kind', (List.cons.inj same).1]

theorem stops_items (xs : List Json) (r : List Char) : Stops (printItems style xs ++ r) := by
  cases xs with
  | nil => rw [printItems]; rfl
  | cons x xs => rw [printItems]; rfl

theorem stops_members (members : List (List Char × Json)) (r : List Char) :
    Stops (printMembers style members ++ r) := by
  rcases members with _ | ⟨⟨k, x⟩, rest⟩
  · rw [printMembers]; rfl
  · rw [printMembers]; rfl

mutual
/-- A printed value and what follows it can be told apart in one way only. -/
theorem print_unique : ∀ (j j' : Json) (r r' : List Char), j.Plain → j'.Plain → Stops r → Stops r' →
    print style j ++ r = print style j' ++ r' → j = j' ∧ r = r'
  | .word w, j', r, r', plain, plain', stops, stops', same => by
      have kinds := kind_unique style _ j' r r' plain plain' same
      cases j' with
      | word w' =>
        simp only [print] at same
        have parts := word_unique w w' r r' plain plain' stops stops' same
        exact ⟨by rw [parts.1], parts.2⟩
      | _ => cases kinds
  | .string cs, j', r, r', plain, plain', _, _, same => by
      have kinds := kind_unique style _ j' r r' plain plain' same
      cases j' with
      | string cs' =>
        simp only [print] at same
        have parts := quote_unique style cs cs' r r' same
        exact ⟨by rw [parts.1], parts.2⟩
      | _ => cases kinds
  | .array [], j', r, r', plain, plain', _, _, same => by
      have kinds := kind_unique style _ j' r r' plain plain' same
      cases j' with
      | array items' =>
        cases items' with
        | nil =>
          simp only [print, List.cons_append, List.cons.injEq, true_and] at same
          exact ⟨rfl, same⟩
        | cons x' xs' =>
          simp only [print, List.cons_append, List.append_assoc, List.cons.injEq, true_and] at same
          exact absurd same.symm (print_opens style x' plain'.1 _ _)
      | _ => cases kinds
  | .array (x :: xs), j', r, r', plain, plain', _, _, same => by
      have kinds := kind_unique style _ j' r r' plain plain' same
      cases j' with
      | array items' =>
        cases items' with
        | nil =>
          simp only [print, List.cons_append, List.append_assoc, List.cons.injEq, true_and] at same
          exact absurd same (print_opens style x plain.1 _ _)
        | cons x' xs' =>
          simp only [print, List.cons_append, List.append_assoc, List.cons.injEq, true_and] at same
          have head := print_unique x x' _ _ plain.1 plain'.1 (stops_items style xs r)
            (stops_items style xs' r') same
          have tail := items_unique xs xs' r r' plain.2 plain'.2 head.2
          exact ⟨by rw [head.1, tail.1], tail.2⟩
      | _ => cases kinds
  | .object [], j', r, r', plain, plain', _, _, same => by
      have kinds := kind_unique style _ j' r r' plain plain' same
      cases j' with
      | object members' =>
        rcases members' with _ | ⟨⟨k', x'⟩, rest'⟩
        · simp only [print, List.cons_append, List.cons.injEq, true_and] at same
          exact ⟨rfl, same⟩
        · simp [print, quote] at same
      | _ => cases kinds
  | .object ((k, x) :: rest), j', r, r', plain, plain', _, _, same => by
      have kinds := kind_unique style _ j' r r' plain plain' same
      cases j' with
      | object members' =>
        rcases members' with _ | ⟨⟨k', x'⟩, rest'⟩
        · simp [print, quote] at same
        · simp only [print, List.cons_append, List.append_assoc, List.cons.injEq, true_and] at same
          have keys := quote_unique style k k' _ _ same
          have values := List.append_cancel_left (List.cons.inj keys.2).2
          have head := print_unique x x' _ _ plain.1 plain'.1 (stops_members style rest r)
            (stops_members style rest' r') values
          have tail := members_unique rest rest' r r' plain.2 plain'.2 head.2
          exact ⟨by rw [keys.1, head.1, tail.1], tail.2⟩
      | _ => cases kinds
theorem items_unique : ∀ (xs ys : List Json) (r r' : List Char), PlainItems xs → PlainItems ys →
    printItems style xs ++ r = printItems style ys ++ r' → xs = ys ∧ r = r'
  | [], ys, r, r', _, _, same => by
      cases ys with
      | nil =>
        simp only [printItems, List.cons_append, List.cons.injEq, true_and] at same
        exact ⟨rfl, same⟩
      | cons y ys => simp [printItems] at same
  | x :: xs, ys, r, r', plain, plain', same => by
      cases ys with
      | nil => simp [printItems] at same
      | cons y ys =>
        simp only [printItems, List.cons_append, List.append_assoc, List.cons.injEq, true_and,
          List.append_cancel_left_eq] at same
        have head := print_unique x y _ _ plain.1 plain'.1 (stops_items style xs r)
          (stops_items style ys r') same
        have tail := items_unique xs ys r r' plain.2 plain'.2 head.2
        exact ⟨by rw [head.1, tail.1], tail.2⟩
theorem members_unique : ∀ (kvs kvs' : List (List Char × Json)) (r r' : List Char),
    PlainMembers kvs → PlainMembers kvs' →
    printMembers style kvs ++ r = printMembers style kvs' ++ r' → kvs = kvs' ∧ r = r'
  | [], kvs', r, r', _, _, same => by
      rcases kvs' with _ | ⟨⟨k', x'⟩, rest'⟩
      · simp only [printMembers, List.cons_append, List.cons.injEq, true_and] at same
        exact ⟨rfl, same⟩
      · simp [printMembers] at same
  | (k, x) :: rest, kvs', r, r', plain, plain', same => by
      rcases kvs' with _ | ⟨⟨k', x'⟩, rest'⟩
      · simp [printMembers] at same
      · simp only [printMembers, List.cons_append, List.append_assoc, List.cons.injEq, true_and,
          List.append_cancel_left_eq] at same
        have keys := quote_unique style k k' _ _ same
        have values := List.append_cancel_left (List.cons.inj keys.2).2
        have head := print_unique x x' _ _ plain.1 plain'.1 (stops_members style rest r)
          (stops_members style rest' r') values
        have tail := members_unique rest rest' r r' plain.2 plain'.2 head.2
        exact ⟨by rw [keys.1, head.1, tail.1], tail.2⟩
end

theorem print_inj (j j' : Json) (plain : j.Plain) (plain' : j'.Plain)
    (same : print style j = print style j') : j = j' := by
  have whole : print style j ++ [] = print style j' ++ [] := by rw [same]
  exact (print_unique style j j' [] [] plain plain' trivial trivial whole).1

end

end JsonText
