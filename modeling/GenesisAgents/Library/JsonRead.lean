import GenesisAgents.Library.JsonText

/-! Reading JSON texts: what was printed is read back, whatever blanks the style pads with. -/

namespace JsonText

def blanks : List Char := [' ', '\t', '\n', '\r']

def isBlank (c : Char) : Bool := blanks.contains c

def skip (s : List Char) : List Char := s.dropWhile isBlank

def isLiteralChar (c : Char) : Bool := isWordChar c && !isBlank c

section

variable (readChar : List Char → Option (Char × List Char))

def readString : Nat → List Char → Option (List Char × List Char)
  | 0, _ => none
  | fuel + 1, s =>
    if s.head? = some '"' then some ([], s.tail)
    else match readChar s with
      | none => none
      | some (c, s) => (readString fuel s).map fun (cs, rest) => (c :: cs, rest)

def readLiteral (s : List Char) : Option (Json × List Char) :=
  if s.takeWhile isLiteralChar = [] then none
  else some (.word (s.takeWhile isLiteralChar), s.dropWhile isLiteralChar)

mutual
/-- A value at the head of the text; the fuel is to exceed the length of the text. -/
def readValue : Nat → List Char → Option (Json × List Char)
  | 0, _ => none
  | _ + 1, [] => none
  | fuel + 1, c :: s =>
    match kindOf c with
    | .string => (readString readChar fuel s).map fun (cs, rest) => (.string cs, rest)
    | .array =>
      if (skip s).head? = some ']' then some (.array [], (skip s).tail)
      else match readValue fuel (skip s) with
        | none => none
        | some (x, s) => (readItems fuel s).map fun (xs, rest) => (.array (x :: xs), rest)
    | .object =>
      if (skip s).head? = some '\x7d' then some (.object [], (skip s).tail)
      else match readMember fuel (skip s) with
        | none => none
        | some (kv, s) => (readMembers fuel s).map fun (kvs, rest) => (.object (kv :: kvs), rest)
    | .word => readLiteral (c :: s)
def readItems : Nat → List Char → Option (List Json × List Char)
  | 0, _ => none
  | fuel + 1, s =>
    match skip s with
    | ']' :: rest => some ([], rest)
    | ',' :: s =>
      match readValue fuel (skip s) with
      | none => none
      | some (x, s) => (readItems fuel s).map fun (xs, rest) => (x :: xs, rest)
    | _ => none
def readMember : Nat → List Char → Option ((List Char × Json) × List Char)
  | 0, _ => none
  | fuel + 1, '"' :: s =>
    match readString readChar fuel s with
    | none => none
    | some (k, s) =>
      match skip s with
      | ':' :: s => (readValue fuel (skip s)).map fun (x, rest) => ((k, x), rest)
      | _ => none
  | _ + 1, _ => none
def readMembers : Nat → List Char → Option (List (List Char × Json) × List Char)
  | 0, _ => none
  | fuel + 1, s =>
    match skip s with
    | '\x7d' :: rest => some ([], rest)
    | ',' :: s =>
      match readMember fuel (skip s) with
      | none => none
      | some (kv, s) => (readMembers fuel s).map fun (kvs, rest) => (kv :: kvs, rest)
    | _ => none
end

def readText (s : List Char) : Option Json :=
  match readValue readChar (s.length + 1) (skip s) with
  | some (j, rest) => if skip rest = [] then some j else none
  | none => none

end

mutual
def Json.Solid : Json → Prop
  | .word text => text ≠ [] ∧ ∀ c ∈ text, isLiteralChar c = true
  | .string _ => True
  | .array items => SolidItems items
  | .object members => SolidMembers members
def SolidItems : List Json → Prop
  | [] => True
  | x :: xs => x.Solid ∧ SolidItems xs
def SolidMembers : List (List Char × Json) → Prop
  | [] => True
  | (_, x) :: rest => x.Solid ∧ SolidMembers rest
end

structure Style.Blank (style : Style) : Prop where
  item : ∀ c ∈ style.itemPad, isBlank c = true
  key : ∀ c ∈ style.keyPad, isBlank c = true

theorem isWordChar_of_literal (c : Char) (literal : isLiteralChar c = true) : isWordChar c = true :=
  (Bool.and_eq_true_iff.mp literal).1

mutual
theorem plain_of_solid : ∀ j : Json, j.Solid → j.Plain
  | .word _, solid => ⟨solid.1, fun c member => isWordChar_of_literal c (solid.2 c member)⟩
  | .string _, _ => trivial
  | .array items, solid => plainItems_of_solid items solid
  | .object members, solid => plainMembers_of_solid members solid
theorem plainItems_of_solid : ∀ items : List Json, SolidItems items → PlainItems items
  | [], _ => trivial
  | x :: xs, solid => ⟨plain_of_solid x solid.1, plainItems_of_solid xs solid.2⟩
theorem plainMembers_of_solid :
    ∀ members : List (List Char × Json), SolidMembers members → PlainMembers members
  | [], _ => trivial
  | (_, x) :: rest, solid => ⟨plain_of_solid x solid.1, plainMembers_of_solid rest solid.2⟩
end

theorem skip_blanks (pad s : List Char) (blank : ∀ c ∈ pad, isBlank c = true) :
    skip (pad ++ s) = skip s := List.dropWhile_append_of_pos blank

theorem skip_cons (c : Char) (s : List Char) (solid : isBlank c = false) : skip (c :: s) = c :: s :=
  List.dropWhile_cons_of_neg (by rw [solid]; decide)

theorem blank_kind (c : Char) (blank : isBlank c = true) : kindOf c = .word := by
  have listed : c ∈ blanks := by simpa [isBlank] using blank
  simp only [blanks, List.mem_cons, List.not_mem_nil, or_false] at listed
  rcases listed with rfl | rfl | rfl | rfl <;> rfl

section

variable (style : Style)

theorem print_starts (j : Json) (solid : j.Solid) :
    ∃ c rest, print style j = c :: rest ∧ kindOf c = j.kind ∧ isBlank c = false ∧ c ≠ ']' := by
  obtain ⟨c, rest, starts, kind, opens⟩ := print_head style j (plain_of_solid j solid)
  refine ⟨c, rest, starts, kind, ?_, opens⟩
  by_contra open_
  have blank : isBlank c = true := by simpa using open_
  rw [blank_kind c blank] at kind
  cases j with
  | word text =>
    rw [print] at starts
    have literal := solid.2 c (starts ▸ List.mem_cons_self)
    rw [isLiteralChar, blank] at literal
    simp at literal
  | _ => cases kind

theorem skip_print (j : Json) (solid : j.Solid) (r : List Char) :
    skip (print style j ++ r) = print style j ++ r := by
  obtain ⟨c, rest, starts, -, solid, -⟩ := print_starts style j solid
  rw [starts, List.cons_append, skip_cons c _ solid]

theorem escape_ne_nil (c : Char) : style.escaping.escape c ≠ [] := by
  intro nothing
  have reads := style.escaping.read_escape c ['"']
  rw [nothing, List.nil_append, style.escaping.read_quote] at reads
  contradiction

theorem readString_chars : ∀ (cs : List Char) (fuel : Nat) (r : List Char),
    (cs.flatMap style.escaping.escape).length < fuel →
    readString style.escaping.read fuel (cs.flatMap style.escaping.escape ++ '"' :: r) =
      some (cs, r) := by
  intro cs
  induction cs with
  | nil =>
    intro fuel r enough
    obtain ⟨fuel, rfl⟩ := Nat.exists_eq_succ_of_ne_zero (Nat.ne_of_gt (Nat.zero_lt_of_lt enough))
    rfl
  | cons c cs later =>
    intro fuel r enough
    obtain ⟨fuel, rfl⟩ := Nat.exists_eq_succ_of_ne_zero (Nat.ne_of_gt (Nat.zero_lt_of_lt enough))
    rw [List.flatMap_cons] at enough ⊢
    have wrote := List.length_pos_iff.mpr (escape_ne_nil style c)
    have shorter : (cs.flatMap style.escaping.escape).length < fuel := by
      rw [List.length_append] at enough
      omega
    have reads := style.escaping.read_escape c (cs.flatMap style.escaping.escape ++ '"' :: r)
    rw [List.append_assoc, readString]
    split
    · rename_i quoted
      obtain ⟨t, same⟩ := List.head?_eq_some_iff.mp quoted
      rw [same, style.escaping.read_quote] at reads
      contradiction
    · simp only [reads, later fuel r shorter, Option.map_some]

def Ends : List Char → Prop
  | [] => True
  | c :: _ => isLiteralChar c = false

theorem ends_of_stops (r : List Char) (stops : Stops r) : Ends r := by
  cases r with
  | nil => trivial
  | cons c r =>
    rw [Stops] at stops
    rw [Ends, isLiteralChar, stops, Bool.false_and]

theorem readLiteral_word (text r : List Char) (filled : text ≠ [])
    (literal : ∀ c ∈ text, isLiteralChar c = true) (ends : Ends r) :
    readLiteral (text ++ r) = some (.word text, r) := by
  have taken : (text ++ r).takeWhile isLiteralChar = text := by
    rw [List.takeWhile_append_of_pos literal]
    cases r with
    | nil => rw [List.takeWhile_nil, List.append_nil]
    | cons c r => rw [List.takeWhile_cons_of_neg (by rw [ends]; decide), List.append_nil]
  have dropped : (text ++ r).dropWhile isLiteralChar = r := by
    rw [List.dropWhile_append_of_pos literal]
    cases r with
    | nil => rfl
    | cons c r => rw [List.dropWhile_cons_of_neg (by rw [ends]; decide)]
  rw [readLiteral, taken, dropped, if_neg filled]

theorem positive_fuel (n fuel : Nat) (enough : n < fuel) : ∃ less, fuel = less + 1 :=
  Nat.exists_eq_succ_of_ne_zero (Nat.ne_of_gt (Nat.zero_lt_of_lt enough))

theorem quote_append (cs r : List Char) :
    quote style cs ++ r = '"' :: (cs.flatMap style.escaping.escape ++ '"' :: r) := by
  simp [quote]

theorem readString_quote (cs : List Char) (fuel : Nat) (r : List Char)
    (enough : (quote style cs).length < fuel + 2) :
    readString style.escaping.read fuel (cs.flatMap style.escaping.escape ++ '"' :: r) =
      some (cs, r) := by
  apply readString_chars
  simp only [quote, List.length_cons, List.length_append, List.length_nil] at enough
  omega

theorem skip_quote (k r : List Char) : skip (quote style k ++ r) = quote style k ++ r := rfl

mutual
/-- A printed value is read back, and what follows it is left. -/
theorem readValue_print (blank : style.Blank) : ∀ (j : Json) (fuel : Nat) (r : List Char),
    j.Solid → Ends r → (print style j).length < fuel →
    readValue style.escaping.read fuel (print style j ++ r) = some (j, r)
  | .word text, fuel, r, solid, ends, enough => by
      obtain ⟨fuel, rfl⟩ := positive_fuel _ _ enough
      have literal := readLiteral_word text r solid.1 solid.2 ends
      obtain ⟨c, rest, starts, kind, -⟩ := print_starts style (.word text) solid
      rw [print] at starts ⊢
      rw [starts, List.cons_append] at literal ⊢
      rw [readValue, kind]
      exact literal
  | .string cs, fuel, r, _, _, enough => by
      obtain ⟨fuel, rfl⟩ := positive_fuel _ _ enough
      rw [print] at enough ⊢
      have body := readString_quote style cs fuel r (by omega)
      rw [quote_append, readValue]
      change (readString _ fuel _).map _ = _
      rw [body]
      rfl
  | .array [], fuel, r, _, _, enough => by
      obtain ⟨fuel, rfl⟩ := positive_fuel _ _ enough
      rw [print]
      rfl
  | .array (x :: xs), fuel, r, solid, _, enough => by
      obtain ⟨fuel, rfl⟩ := positive_fuel _ _ enough
      simp only [print, List.cons_append, List.length_cons, List.length_append] at enough
      have opens : (print style x ++ (printItems style xs ++ r)).head? ≠ some ']' := by
        obtain ⟨c, rest, starts, -, -, opens⟩ := print_starts style x solid.1
        rw [starts]
        exact fun same => opens (Option.some.inj same)
      have head := readValue_print blank x fuel (printItems style xs ++ r) solid.1
        (ends_of_stops _ (stops_items style xs r)) (by omega)
      have tail := readItems_print blank xs fuel r solid.2 (by omega)
      simp only [print, List.cons_append, List.append_assoc]
      rw [readValue]
      change (if (skip (print style x ++ _)).head? = _ then _ else _) = _
      simp only [skip_print style x solid.1, if_neg opens, head, tail, Option.map_some]
  | .object [], fuel, r, _, _, enough => by
      obtain ⟨fuel, rfl⟩ := positive_fuel _ _ enough
      rw [print]
      rfl
  | .object ((k, x) :: rest), fuel, r, solid, _, enough => by
      obtain ⟨fuel, rfl⟩ := positive_fuel _ _ enough
      simp only [print, List.cons_append, List.length_cons, List.length_append] at enough
      have head := readMember_print blank k x fuel (printMembers style rest ++ r) solid.1
        (ends_of_stops _ (stops_members style rest r)) (by omega)
      have tail := readMembers_print blank rest fuel r solid.2 (by omega)
      simp only [print, List.cons_append, List.append_assoc]
      rw [readValue]
      change (if (skip (quote style k ++ _)).head? = _ then _ else _) = _
      have opens (t : List Char) : (quote style k ++ t).head? ≠ some '\x7d' := by
        rw [quote_append, List.head?_cons]
        decide
      simp only [skip_quote, if_neg (opens _), head, tail, Option.map_some]
theorem readItems_print (blank : style.Blank) : ∀ (xs : List Json) (fuel : Nat) (r : List Char),
    SolidItems xs → (printItems style xs).length < fuel →
    readItems style.escaping.read fuel (printItems style xs ++ r) = some (xs, r)
  | [], fuel, r, _, enough => by
      obtain ⟨fuel, rfl⟩ := positive_fuel _ _ enough
      rw [printItems, readItems]
      rfl
  | x :: xs, fuel, r, solid, enough => by
      obtain ⟨fuel, rfl⟩ := positive_fuel _ _ enough
      simp only [printItems, List.cons_append, List.length_cons, List.length_append] at enough
      have head := readValue_print blank x fuel (printItems style xs ++ r) solid.1
        (ends_of_stops _ (stops_items style xs r)) (by omega)
      have tail := readItems_print blank xs fuel r solid.2 (by omega)
      simp only [printItems, List.cons_append, List.append_assoc]
      rw [readItems, skip_cons ',' _ rfl]
      simp only [skip_blanks _ _ blank.item, skip_print style x solid.1, head, tail, Option.map_some]
theorem readMember_print (blank : style.Blank) : ∀ (k : List Char) (x : Json) (fuel : Nat)
    (r : List Char), x.Solid → Ends r →
    (quote style k).length + (style.keyPad.length + (print style x).length) < fuel →
    readMember style.escaping.read fuel
      (quote style k ++ ':' :: (style.keyPad ++ (print style x ++ r))) = some ((k, x), r)
  | k, x, fuel, r, solid, ends, enough => by
      obtain ⟨fuel, rfl⟩ := positive_fuel _ _ enough
      have name := readString_quote style k fuel (':' :: (style.keyPad ++ (print style x ++ r))) (by omega)
      have quoted : 0 < (quote style k).length := Nat.succ_pos _
      have value := readValue_print blank x fuel r solid ends (by omega)
      rw [quote_append, readMember, name]
      simp only [skip_cons ':' _ rfl, skip_blanks _ _ blank.key, skip_print style x solid, value,
        Option.map_some]
theorem readMembers_print (blank : style.Blank) : ∀ (members : List (List Char × Json)) (fuel : Nat)
    (r : List Char), SolidMembers members → (printMembers style members).length < fuel →
    readMembers style.escaping.read fuel (printMembers style members ++ r) = some (members, r)
  | [], fuel, r, _, enough => by
      obtain ⟨fuel, rfl⟩ := positive_fuel _ _ enough
      rw [printMembers, readMembers]
      rfl
  | (k, x) :: rest, fuel, r, solid, enough => by
      obtain ⟨fuel, rfl⟩ := positive_fuel _ _ enough
      simp only [printMembers, List.cons_append, List.length_cons, List.length_append] at enough
      have head := readMember_print blank k x fuel (printMembers style rest ++ r) solid.1
        (ends_of_stops _ (stops_members style rest r)) (by omega)
      have tail := readMembers_print blank rest fuel r solid.2 (by omega)
      simp only [printMembers, List.cons_append, List.append_assoc]
      rw [readMembers, skip_cons ',' _ rfl]
      simp only [skip_blanks _ _ blank.item, skip_quote, head, tail, Option.map_some]
end

/-- Reading is the inverse of printing. -/
theorem readText_print (blank : style.Blank) (j : Json) (solid : j.Solid) :
    readText style.escaping.read (print style j) = some j := by
  have read := readValue_print style blank j ((print style j).length + 1) [] solid trivial
    (Nat.lt_succ_self _)
  have trimmed := skip_print style j solid []
  rw [List.append_nil] at read trimmed
  rw [readText, trimmed, read]
  rfl

end

end JsonText
