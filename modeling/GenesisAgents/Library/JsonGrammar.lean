import GenesisAgents.Library.JsonRead

/-! The grammar of JSON texts, over any words for the literals, and that what is printed is of the grammar. -/

namespace JsonText

def isHexDigit (c : Char) : Bool :=
  c.isDigit || ('a' ≤ c && c ≤ 'f') || ('A' ≤ c && c ≤ 'F')

def escapeLetters : List Char := ['"', '\\', '/', 'b', 'f', 'n', 'r', 't']

inductive CharsText : List Char → Prop
  | nil : CharsText []
  | plain {c : Char} {s : List Char} (printed : 32 ≤ c.toNat) (noQuote : c ≠ '"') (noSlash : c ≠ '\\')
      (rest : CharsText s) : CharsText (c :: s)
  | escape {c : Char} {s : List Char} (letter : c ∈ escapeLetters) (rest : CharsText s) :
      CharsText ('\\' :: c :: s)
  | unicode {a b c d : Char} {s : List Char} (digits : [a, b, c, d].all isHexDigit = true)
      (rest : CharsText s) : CharsText ('\\' :: 'u' :: a :: b :: c :: d :: s)

def StringText (s : List Char) : Prop := ∃ cs, CharsText cs ∧ s = '"' :: (cs ++ ['"'])

def Blanks (s : List Char) : Prop := ∀ c ∈ s, isBlank c = true

inductive Form where
  | value | items | members | object

/-- The texts of each form; items and members are those between brackets, with the blanks around them. -/
inductive Text (literal : List Char → Prop) : Form → List Char → Prop
  | word {w : List Char} (named : literal w) : Text literal .value w
  | string {s : List Char} (quoted : StringText s) : Text literal .value s
  | nested {s : List Char} (object : Text literal .object s) : Text literal .value s
  | emptyArray {pad : List Char} (blank : Blanks pad) : Text literal .value ('[' :: (pad ++ [']']))
  | array {s : List Char} (items : Text literal .items s) : Text literal .value ('[' :: (s ++ [']']))
  | lastItem {lead x trail : List Char} (before : Blanks lead) (value : Text literal .value x)
      (after : Blanks trail) : Text literal .items (lead ++ (x ++ trail))
  | item {lead x trail s : List Char} (before : Blanks lead) (value : Text literal .value x)
      (after : Blanks trail) (items : Text literal .items s) :
      Text literal .items (lead ++ (x ++ (trail ++ ',' :: s)))
  | lastMember {lead k mid pad x trail : List Char} (before : Blanks lead) (key : StringText k)
      (between : Blanks mid) (opening : Blanks pad) (value : Text literal .value x) (after : Blanks trail) :
      Text literal .members (lead ++ (k ++ (mid ++ ':' :: (pad ++ (x ++ trail)))))
  | member {lead k mid pad x trail s : List Char} (before : Blanks lead) (key : StringText k)
      (between : Blanks mid) (opening : Blanks pad) (value : Text literal .value x) (after : Blanks trail)
      (members : Text literal .members s) :
      Text literal .members (lead ++ (k ++ (mid ++ ':' :: (pad ++ (x ++ (trail ++ ',' :: s))))))
  | emptyObject {pad : List Char} (blank : Blanks pad) : Text literal .object ('\x7b' :: (pad ++ ['\x7d']))
  | object {s : List Char} (members : Text literal .members s) :
      Text literal .object ('\x7b' :: (s ++ ['\x7d']))

mutual
def Json.Named (literal : List Char → Prop) : Json → Prop
  | .word text => literal text
  | .string _ => True
  | .array items => NamedItems literal items
  | .object members => NamedMembers literal members
def NamedItems (literal : List Char → Prop) : List Json → Prop
  | [] => True
  | x :: xs => x.Named literal ∧ NamedItems literal xs
def NamedMembers (literal : List Char → Prop) : List (List Char × Json) → Prop
  | [] => True
  | (_, x) :: rest => x.Named literal ∧ NamedMembers literal rest
end

mutual
theorem named_mono (P Q : List Char → Prop) (implies : ∀ w, P w → Q w) : ∀ j : Json, j.Named P → j.Named Q
  | .word text, named => implies text named
  | .string _, _ => trivial
  | .array items, named => namedItems_mono P Q implies items named
  | .object members, named => namedMembers_mono P Q implies members named
theorem namedItems_mono (P Q : List Char → Prop) (implies : ∀ w, P w → Q w) : ∀ items : List Json,
    NamedItems P items → NamedItems Q items
  | [], _ => trivial
  | x :: xs, named => ⟨named_mono P Q implies x named.1, namedItems_mono P Q implies xs named.2⟩
theorem namedMembers_mono (P Q : List Char → Prop) (implies : ∀ w, P w → Q w) :
    ∀ members : List (List Char × Json), NamedMembers P members → NamedMembers Q members
  | [], _ => trivial
  | (_, x) :: rest, named =>
    ⟨named_mono P Q implies x named.1, namedMembers_mono P Q implies rest named.2⟩
end

def Style.Writable (style : Style) : Prop := ∀ c s, CharsText s → CharsText (style.escaping.escape c ++ s)

section

variable {style : Style} {literal : List Char → Prop}

theorem blanks_nil : Blanks [] := List.forall_mem_nil _

theorem quote_text (writable : style.Writable) (cs : List Char) : StringText (quote style cs) := by
  have chars : CharsText (cs.flatMap style.escaping.escape) := by
    induction cs with
    | nil => exact .nil
    | cons c cs later =>
      rw [List.flatMap_cons]
      exact writable c _ later
  exact ⟨_, chars, rfl⟩

mutual
theorem print_text (writable : style.Writable) (blank : style.Blank) : ∀ j : Json, j.Named literal →
    Text literal .value (print style j)
  | .word text, named => .word named
  | .string cs, _ => .string (quote_text writable cs)
  | .array [], _ => .emptyArray blanks_nil
  | .array (x :: xs), named => by
      have head := print_text writable blank x named.1
      obtain ⟨s, same, items⟩ := items_text writable blank xs named.2 [] _ blanks_nil head
      rw [List.nil_append] at same
      rw [print, List.cons_append, same]
      exact .array items
  | .object [], _ => .nested (.emptyObject blanks_nil)
  | .object ((k, x) :: rest), named => by
      have value := print_text writable blank x named.1
      obtain ⟨s, same, members⟩ := members_text writable blank rest named.2 [] k _ blanks_nil value
      rw [List.nil_append] at same
      simp only [print, List.cons_append, List.append_assoc]
      rw [same]
      exact .nested (.object members)
theorem items_text (writable : style.Writable) (blank : style.Blank) : ∀ xs : List Json,
    NamedItems literal xs → ∀ lead v : List Char, Blanks lead → Text literal .value v →
      ∃ s, lead ++ (v ++ printItems style xs) = s ++ [']'] ∧ Text literal .items s
  | [], _, lead, v, before, value => by
      have last := Text.lastItem before value blanks_nil
      rw [List.append_nil] at last
      exact ⟨_, by rw [printItems, List.append_assoc], last⟩
  | y :: ys, others, lead, v, before, value => by
      have head := print_text writable blank y others.1
      obtain ⟨s, same, items⟩ := items_text writable blank ys others.2 style.itemPad _ blank.item head
      have next := Text.item before value blanks_nil items
      rw [List.nil_append] at next
      refine ⟨_, ?_, next⟩
      simp only [printItems, List.cons_append, List.append_assoc, same]
theorem members_text (writable : style.Writable) (blank : style.Blank) :
    ∀ rest : List (List Char × Json), NamedMembers literal rest → ∀ lead k v : List Char, Blanks lead →
      Text literal .value v → ∃ s, lead ++ (quote style k ++ ':' :: (style.keyPad ++
        (v ++ printMembers style rest))) = s ++ ['\x7d'] ∧ Text literal .members s
  | [], _, lead, k, v, before, value => by
      have last := Text.lastMember before (quote_text writable k) blanks_nil blank.key value blanks_nil
      rw [List.append_nil, List.nil_append] at last
      refine ⟨_, ?_, last⟩
      simp only [printMembers, List.cons_append, List.append_assoc]
  | (k', y) :: rest, others, lead, k, v, before, value => by
      have head := print_text writable blank y others.1
      obtain ⟨s, same, members⟩ :=
        members_text writable blank rest others.2 style.itemPad k' _ blank.item head
      have next := Text.member before (quote_text writable k) blanks_nil blank.key value blanks_nil members
      rw [List.nil_append, List.nil_append] at next
      refine ⟨_, ?_, next⟩
      simp only [printMembers, List.cons_append, List.append_assoc, same]
end

end

end JsonText
