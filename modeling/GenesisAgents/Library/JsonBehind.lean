import GenesisAgents.Library.JsonGrammar
import GenesisAgents.Library.JsonPrefix

/-! An object that was written behind other text is not read: that text leaves a bracket open, or a string,
and then the quotes of the object close it and open the next. -/

namespace JsonText

def TakesEscapes (readChar : List Char → Option (Char × List Char)) : Prop :=
  ∀ s c rest, readChar s = some (c, rest) →
    (s = c :: rest ∧ c ≠ '"' ∧ c ≠ '\\') ∨ ∃ e, s = '\\' :: (e ++ rest) ∧ '\x7b' ∉ e

/-- Each string of a text is closed; `within` says whether the text starts inside of one. -/
inductive Quoted : Bool → List Char → Prop
  | done : Quoted false []
  | plain {within : Bool} {c : Char} {s : List Char} (noQuote : c ≠ '"') (noSlash : c ≠ '\\')
      (rest : Quoted within s) : Quoted within (c :: s)
  | quote {within : Bool} {s : List Char} (rest : Quoted (!within) s) : Quoted within ('"' :: s)
  | escape {c : Char} {s : List Char} (rest : Quoted true s) : Quoted true ('\\' :: c :: s)

def Unescaped (w : List Char) : Prop := '\\' ∉ w

theorem Quoted.tail {within : Bool} {c : Char} {s : List Char} (quoted : Quoted within (c :: s))
    (noQuote : c ≠ '"') (noSlash : c ≠ '\\') : Quoted within s := by
  cases quoted with
  | plain _ _ rest => exact rest
  | quote => exact absurd rfl noQuote
  | escape => exact absurd rfl noSlash

theorem Quoted.opened {within : Bool} {s : List Char} (quoted : Quoted within ('"' :: s)) :
    Quoted (!within) s := by
  cases quoted with
  | plain noQuote => exact absurd rfl noQuote
  | quote rest => exact rest

theorem opening_of_kind (c : Char) : (kindOf c = .string → c = '"') ∧ (kindOf c = .array → c = '[') ∧
    (kindOf c = .object → c = '\x7b') := by
  rw [kindOf]
  by_cases quote : c = '"'
  · simp [quote]
  by_cases bracket : c = '['
  · simp [bracket]
  by_cases brace : c = '\x7b'
  · simp [brace]
  · simp [quote, bracket, brace]

/-- The reader is before the text, or among its quotes: within a string of the text when it is outside of
one itself, and the other way round. -/
def Behind (text : List Char) (outside : Bool) (s : List Char) : Prop :=
  (∃ t, s = t ++ text) ∨ Quoted outside s

section

variable {text : List Char}

theorem behind_cases {outside : Bool} {c : Char} {s : List Char} (behind : Behind text outside (c :: s)) :
    c :: s = text ∨ (∃ t, s = t ++ text) ∨ Quoted outside (c :: s) := by
  rcases behind with ⟨t, same⟩ | quoted
  · cases t with
    | nil => exact .inl same
    | cons d t => exact .inr (.inl ⟨t, (List.cons.inj same).2⟩)
  · exact .inr (.inr quoted)

theorem behind_tail {outside : Bool} {c : Char} {s : List Char} (behind : Behind text outside (c :: s))
    (noQuote : c ≠ '"') (noSlash : c ≠ '\\') : c :: s = text ∨ Behind text outside s := by
  rcases behind_cases behind with whole | before | quoted
  · exact .inl whole
  · exact .inr (.inl before)
  · exact .inr (.inr (quoted.tail noQuote noSlash))

variable (opens : text.head? = some '\x7b')

include opens

theorem opened {c : Char} {s : List Char} (same : c :: s = text) : c = '\x7b' := by
  rw [← same, List.head?_cons] at opens
  exact Option.some.inj opens

theorem behind_quote {outside : Bool} {s : List Char} (behind : Behind text outside ('"' :: s)) :
    Behind text (!outside) s := by
  rcases behind_cases behind with whole | before | quoted
  · exact absurd (opened opens whole) (by decide)
  · exact .inl before
  · exact .inr quoted.opened

theorem behind_next {c : Char} {s : List Char} (behind : Behind text true (c :: s))
    (plain : c ≠ '"' ∧ c ≠ '\\' ∧ c ≠ '\x7b') : Behind text true s :=
  (behind_tail behind plain.1 plain.2.1).resolve_left fun whole =>
    plain.2.2 (opened opens whole)

theorem behind_filled {s : List Char} (behind : Behind text true s) : s ≠ [] := by
  rintro rfl
  rcases behind with ⟨t, same⟩ | quoted
  · have empty := (List.append_eq_nil_iff.mp same.symm).2
    rw [empty] at opens
    cases opens
  · cases quoted

theorem behind_skip {s : List Char} (behind : Behind text true s) : Behind text true (skip s) := by
  induction s with
  | nil => exact behind
  | cons c s later =>
    rcases blank : isBlank c with _ | _
    · rw [skip_cons c s blank]
      exact behind
    · have plain : c ≠ '"' ∧ c ≠ '\\' ∧ c ≠ '\x7b' := by
        refine ⟨?_, ?_, ?_⟩ <;> rintro rfl <;> cases blank
      rw [skip, List.dropWhile_cons_of_pos blank]
      exact later (behind_next opens behind plain)

theorem behind_literal {s : List Char} (behind : Behind text true s)
    (plain : '\\' ∉ s.takeWhile isLiteralChar) : Behind text true (s.dropWhile isLiteralChar) := by
  induction s with
  | nil => exact behind
  | cons c s later =>
    rcases literal : isLiteralChar c with _ | _
    · rw [List.dropWhile_cons_of_neg (by rw [literal]; decide)]
      exact behind
    · rw [List.takeWhile_cons_of_pos literal, List.mem_cons, not_or] at plain
      have inert : c ≠ '"' ∧ c ≠ '\\' ∧ c ≠ '\x7b' := by
        refine ⟨?_, fun same => plain.1 same.symm, ?_⟩ <;> rintro rfl <;> cases literal
      rw [List.dropWhile_cons_of_pos literal]
      exact later (behind_next opens behind inert) plain.2

end

/-- A text that opens with a brace, closes its strings and, read as a value, is read to its end. -/
structure Enclosed (readChar : List Char → Option (Char × List Char)) (text : List Char) : Prop where
  escapes : TakesEscapes readChar
  opens : text.head? = some '\x7b'
  quoted : Quoted false text
  closed : ∀ fuel j rest, readValue readChar fuel text = some (j, rest) → rest = []

section

variable {readChar : List Char → Option (Char × List Char)} {text : List Char}

theorem behind_char (enclosed : Enclosed readChar text) {s rest : List Char} {c : Char}
    (behind : Behind text false s) (reads : readChar s = some (c, rest)) : Behind text false rest := by
  rcases enclosed.escapes s c rest reads with ⟨rfl, noQuote, noSlash⟩ | ⟨e, rfl, unopened⟩
  · rcases behind_tail behind noQuote noSlash with rfl | later
    · exact .inr (enclosed.quoted.tail noQuote noSlash)
    · exact later
  · rcases behind with ⟨t, same⟩ | inside
    · rw [← List.cons_append] at same
      rcases List.append_eq_append_iff.mp same with ⟨more, -, left⟩ | ⟨more, taken, left⟩
      · exact .inl ⟨more, left⟩
      · cases more with
        | nil => exact .inl ⟨[], left.symm⟩
        | cons d more =>
          have opens := enclosed.opens
          rw [left, List.cons_append, List.head?_cons] at opens
          obtain rfl := Option.some.inj opens
          have member : '\x7b' ∈ '\\' :: e := taken ▸ List.mem_append_right t List.mem_cons_self
          rcases List.mem_cons.mp member with same | member
          · cases same
          · exact absurd member unopened
    · cases inside with
      | plain _ noSlash => exact absurd rfl noSlash

theorem readString_behind (enclosed : Enclosed readChar text) (fuel : Nat) : ∀ (s rest cs : List Char),
    Behind text false s → readString readChar fuel s = some (cs, rest) → Behind text true rest := by
  induction fuel with
  | zero =>
    intro s rest cs _ reads
    cases reads
  | succ fuel later =>
    intro s rest cs behind reads
    rw [readString] at reads
    split at reads
    · rename_i closes
      obtain ⟨rest', rfl⟩ := List.head?_eq_some_iff.mp closes
      obtain ⟨-, rfl⟩ := Prod.mk.inj (Option.some.inj reads)
      exact behind_quote enclosed.opens behind
    · split at reads
      · cases reads
      · rename_i c s' char
        rcases Option.map_eq_some_iff.mp reads with ⟨⟨ds, left⟩, tail, same⟩
        obtain ⟨-, rfl⟩ := Prod.mk.inj same
        exact later s' _ ds (behind_char enclosed behind char) tail

mutual
/-- Only the text itself is read to its end. -/
theorem readValue_behind (enclosed : Enclosed readChar text) : ∀ (fuel : Nat) (s rest : List Char) (j : Json),
    Behind text true s → readValue readChar fuel s = some (j, rest) → j.Named Unescaped →
    Behind text true rest ∨ (s = text ∧ rest = [])
  | 0, _, _, _, _, reads, _ => by cases reads
  | _ + 1, [], _, _, _, reads, _ => by cases reads
  | fuel + 1, c :: s, rest, j, behind, reads, plain => by
    by_cases whole : c :: s = text
    · exact .inr ⟨whole, enclosed.closed (fuel + 1) j rest (whole ▸ reads)⟩
    left
    rw [readValue] at reads
    cases kind : kindOf c with
    | string =>
      rw [kind] at reads
      obtain rfl := (opening_of_kind c).1 kind
      rcases Option.map_eq_some_iff.mp reads with ⟨⟨cs, left⟩, body, same⟩
      obtain ⟨-, rfl⟩ := Prod.mk.inj same
      have inside := behind_quote enclosed.opens behind
      exact readString_behind enclosed fuel s left cs inside body
    | array =>
      rw [kind] at reads
      obtain rfl := (opening_of_kind c).2.1 kind
      dsimp only at reads
      have inner := behind_skip enclosed.opens (behind_next enclosed.opens behind (by decide))
      split at reads
      · rename_i closes
        obtain ⟨rest', same⟩ := List.head?_eq_some_iff.mp closes
        rw [same] at reads inner
        obtain ⟨-, rfl⟩ := Prod.mk.inj (Option.some.inj reads)
        exact behind_next enclosed.opens inner (by decide)
      · rcases first : readValue readChar fuel (skip s) with _ | ⟨x, s'⟩
        · rw [first] at reads
          cases reads
        · rw [first] at reads
          rcases Option.map_eq_some_iff.mp reads with ⟨⟨xs, left⟩, others, same⟩
          obtain ⟨rfl, rfl⟩ := Prod.mk.inj same
          rcases readValue_behind enclosed fuel (skip s) s' x inner first plain.1 with later | ⟨-, rfl⟩
          · exact readItems_behind enclosed fuel s' left xs later others plain.2
          · rw [readItems_nil] at others
            cases others
    | object =>
      rw [kind] at reads
      obtain rfl := (opening_of_kind c).2.2 kind
      dsimp only at reads
      have next := (behind_tail behind (by decide) (by decide)).resolve_left whole
      have inner := behind_skip enclosed.opens next
      split at reads
      · rename_i closes
        obtain ⟨rest', same⟩ := List.head?_eq_some_iff.mp closes
        rw [same] at reads inner
        obtain ⟨-, rfl⟩ := Prod.mk.inj (Option.some.inj reads)
        exact behind_next enclosed.opens inner (by decide)
      · rcases first : readMember readChar fuel (skip s) with _ | ⟨kv, s'⟩
        · rw [first] at reads
          cases reads
        · rw [first] at reads
          rcases Option.map_eq_some_iff.mp reads with ⟨⟨kvs, left⟩, others, same⟩
          obtain ⟨rfl, rfl⟩ := Prod.mk.inj same
          rcases readMember_behind enclosed fuel (skip s) s' kv inner first plain.1 with later | rfl
          · exact readMembers_behind enclosed fuel s' left kvs later others plain.2
          · rw [readMembers_nil] at others
            cases others
    | word =>
      rw [kind] at reads
      change readLiteral (c :: s) = some (j, rest) at reads
      rw [readLiteral] at reads
      split at reads
      · cases reads
      · obtain ⟨rfl, rfl⟩ := Prod.mk.inj (Option.some.inj reads)
        exact behind_literal enclosed.opens behind plain
theorem readItems_behind (enclosed : Enclosed readChar text) : ∀ (fuel : Nat) (s rest : List Char)
    (items : List Json), Behind text true s → readItems readChar fuel s = some (items, rest) →
    NamedItems Unescaped items → Behind text true rest
  | 0, _, _, _, _, reads, _ => by cases reads
  | fuel + 1, s, rest, items, behind, reads, plain => by
    have inner := behind_skip enclosed.opens behind
    rw [readItems] at reads
    split at reads
    · rename_i rest' closes
      obtain ⟨-, rfl⟩ := Prod.mk.inj (Option.some.inj reads)
      rw [closes] at inner
      exact behind_next enclosed.opens inner (by decide)
    · rename_i s₁ comma
      rw [comma] at inner
      have next := behind_skip enclosed.opens (behind_next enclosed.opens inner (by decide))
      rcases first : readValue readChar fuel (skip s₁) with _ | ⟨x, s'⟩
      · rw [first] at reads
        cases reads
      · rw [first] at reads
        rcases Option.map_eq_some_iff.mp reads with ⟨⟨xs, left⟩, others, same⟩
        obtain ⟨rfl, rfl⟩ := Prod.mk.inj same
        rcases readValue_behind enclosed fuel (skip s₁) s' x next first plain.1 with later | ⟨-, rfl⟩
        · exact readItems_behind enclosed fuel s' left xs later others plain.2
        · rw [readItems_nil] at others
          cases others
    · cases reads
theorem readMember_behind (enclosed : Enclosed readChar text) : ∀ (fuel : Nat) (s rest : List Char)
    (kv : List Char × Json), Behind text true s → readMember readChar fuel s = some (kv, rest) →
    kv.2.Named Unescaped → Behind text true rest ∨ rest = []
  | 0, _, _, _, _, reads, _ => by cases reads
  | fuel + 1, s, rest, kv, behind, reads, plain => by
    cases s with
    | nil =>
      rw [readMember_nil] at reads
      cases reads
    | cons c s₁ =>
      by_cases quotes : c = '"'
      · subst quotes
        rw [readMember] at reads
        rcases name : readString readChar fuel s₁ with _ | ⟨k, s'⟩
        · rw [name] at reads
          cases reads
        · rw [name] at reads
          dsimp only at reads
          have inside := behind_quote enclosed.opens behind
          have key := readString_behind enclosed fuel s₁ s' k inside name
          have inner := behind_skip enclosed.opens key
          split at reads
          · rename_i s₂ colon
            rw [colon] at inner
            rcases Option.map_eq_some_iff.mp reads with ⟨⟨x, left⟩, value, same⟩
            obtain ⟨rfl, rfl⟩ := Prod.mk.inj same
            have next := behind_skip enclosed.opens (behind_next enclosed.opens inner (by decide))
            exact (readValue_behind enclosed fuel (skip s₂) left x next value plain).imp_right And.right
          · cases reads
      · rw [readMember] at reads
        · cases reads
        · exact fun rest same => quotes (List.cons.inj same).1
theorem readMembers_behind (enclosed : Enclosed readChar text) : ∀ (fuel : Nat) (s rest : List Char)
    (kvs : List (List Char × Json)), Behind text true s → readMembers readChar fuel s = some (kvs, rest) →
    NamedMembers Unescaped kvs → Behind text true rest
  | 0, _, _, _, _, reads, _ => by cases reads
  | fuel + 1, s, rest, kvs, behind, reads, plain => by
    have inner := behind_skip enclosed.opens behind
    rw [readMembers] at reads
    split at reads
    · rename_i rest' closes
      obtain ⟨-, rfl⟩ := Prod.mk.inj (Option.some.inj reads)
      rw [closes] at inner
      exact behind_next enclosed.opens inner (by decide)
    · rename_i s₁ comma
      rw [comma] at inner
      have next := behind_skip enclosed.opens (behind_next enclosed.opens inner (by decide))
      rcases first : readMember readChar fuel (skip s₁) with _ | ⟨kv, s'⟩
      · rw [first] at reads
        cases reads
      · rw [first] at reads
        rcases Option.map_eq_some_iff.mp reads with ⟨⟨others', left⟩, others, same⟩
        obtain ⟨rfl, rfl⟩ := Prod.mk.inj same
        rcases readMember_behind enclosed fuel (skip s₁) s' kv next first plain.1 with later | rfl
        · exact readMembers_behind enclosed fuel s' left others' later others plain.2
        · rw [readMembers_nil] at others
          cases others
    · cases reads
end

end

section

variable (style : Style)

def Style.KeepsOpen : Prop := ∀ c s, Quoted true s → Quoted true (style.escaping.escape c ++ s)

theorem quoted_plain (within : Bool) : ∀ (cs r : List Char), (∀ c ∈ cs, c ≠ '"' ∧ c ≠ '\\') →
    Quoted within r → Quoted within (cs ++ r)
  | [], _, _, rest => rest
  | c :: cs, r, plain, rest => by
    rcases plain c List.mem_cons_self with ⟨noQuote, noSlash⟩
    exact .plain noQuote noSlash
      (quoted_plain within cs r (fun d member => plain d (List.mem_cons_of_mem c member)) rest)

theorem quoted_pad (within : Bool) (pad r : List Char) (blanks : ∀ c ∈ pad, isBlank c = true)
    (rest : Quoted within r) : Quoted within (pad ++ r) := by
  refine quoted_plain within pad r (fun c member => ?_) rest
  constructor <;> rintro rfl <;> exact absurd (blanks _ member) (by decide)

theorem quoted_chars (escaped : style.KeepsOpen) (r : List Char) (rest : Quoted false r) : ∀ cs : List Char,
    Quoted true (cs.flatMap style.escaping.escape ++ '"' :: r)
  | [] => .quote rest
  | c :: cs => by
    rw [List.flatMap_cons, List.append_assoc]
    exact escaped c _ (quoted_chars escaped r rest cs)

theorem quoted_quote (escaped : style.KeepsOpen) (cs r : List Char) (rest : Quoted false r) :
    Quoted false (quote style cs ++ r) := by
  rw [quote_append]
  exact .quote (quoted_chars style escaped r rest cs)

mutual
theorem quoted_print (blank : style.Blank) (escaped : style.KeepsOpen) : ∀ (j : Json) (r : List Char),
    j.Solid → j.Named Unescaped → Quoted false r → Quoted false (print style j ++ r)
  | .word text, r, solid, plain, rest => by
      rw [print]
      refine quoted_plain false text r (fun c member => ⟨?_, ?_⟩) rest
      · rintro rfl
        exact absurd (solid.2 _ member) (by decide)
      · rintro rfl
        exact plain member
  | .string cs, r, _, _, rest => quoted_quote style escaped cs r rest
  | .array [], r, _, _, rest => .plain (by decide) (by decide) (.plain (by decide) (by decide) rest)
  | .array (x :: xs), r, solid, plain, rest => by
      have tail := quoted_items blank escaped xs r solid.2 plain.2 rest
      have head := quoted_print blank escaped x _ solid.1 plain.1 tail
      rw [print, List.cons_append, List.cons_append, List.append_assoc]
      exact .plain (by decide) (by decide) head
  | .object [], r, _, _, rest => .plain (by decide) (by decide) (.plain (by decide) (by decide) rest)
  | .object ((k, x) :: others), r, solid, plain, rest => by
      have tail := quoted_members blank escaped others r solid.2 plain.2 rest
      have value := quoted_print blank escaped x _ solid.1 plain.1 tail
      have colon := Quoted.plain (c := ':') (by decide) (by decide)
        (quoted_pad false style.keyPad _ blank.key value)
      have key := quoted_quote style escaped k _ colon
      simp only [print, List.cons_append, List.append_assoc]
      exact .plain (by decide) (by decide) key
theorem quoted_items (blank : style.Blank) (escaped : style.KeepsOpen) : ∀ (xs : List Json) (r : List Char),
    SolidItems xs → NamedItems Unescaped xs → Quoted false r → Quoted false (printItems style xs ++ r)
  | [], r, _, _, rest => .plain (by decide) (by decide) rest
  | x :: xs, r, solid, plain, rest => by
      have tail := quoted_items blank escaped xs r solid.2 plain.2 rest
      have head := quoted_print blank escaped x _ solid.1 plain.1 tail
      simp only [printItems, List.cons_append, List.append_assoc]
      exact .plain (by decide) (by decide) (quoted_pad false style.itemPad _ blank.item head)
theorem quoted_members (blank : style.Blank) (escaped : style.KeepsOpen) :
    ∀ (members : List (List Char × Json)) (r : List Char), SolidMembers members →
    NamedMembers Unescaped members → Quoted false r →
    Quoted false (printMembers style members ++ r)
  | [], r, _, _, rest => .plain (by decide) (by decide) rest
  | (k, x) :: others, r, solid, plain, rest => by
      have tail := quoted_members blank escaped others r solid.2 plain.2 rest
      have value := quoted_print blank escaped x _ solid.1 plain.1 tail
      have colon := Quoted.plain (c := ':') (by decide) (by decide)
        (quoted_pad false style.keyPad _ blank.key value)
      have key := quoted_quote style escaped k _ colon
      simp only [printMembers, List.cons_append, List.append_assoc]
      exact .plain (by decide) (by decide) (quoted_pad false style.itemPad _ blank.item key)
end

/-- Behind any text that is not blank, a printed object is no JSON text of words without backslashes. -/
theorem readText_behind (blank : style.Blank) (escaped : style.KeepsOpen)
    (forward : Forward style.escaping.read) (escapes : TakesEscapes style.escaping.read)
    (members : List (List Char × Json)) (solid : (Json.object members).Solid)
    (plain : (Json.object members).Named Unescaped) (t : List Char) (filled : skip t ≠ []) (j : Json)
    (reads : readText style.escaping.read (t ++ print style (.object members)) = some j) : ¬j.Named Unescaped := by
  intro unescaped
  have opens : (print style (.object members)).head? = some '\x7b' := by
    rcases members with _ | ⟨⟨k, x⟩, others⟩ <;> rw [print] <;> rfl
  have quoted : Quoted false (print style (.object members)) := by
    rw [← List.append_nil (print _ _)]
    exact quoted_print style blank escaped _ [] solid plain .done
  have closed (fuel : Nat) (i : Json) (rest : List Char)
      (read : readValue style.escaping.read fuel (print style (.object members)) = some (i, rest)) :
      rest = [] := by
    obtain ⟨s, same⟩ := List.head?_eq_some_iff.mp opens
    have bracketed : i.kind ≠ .word := by
      rw [same] at read
      rw [readValue_kind _ _ _ _ _ _ read]
      intro word
      cases word
    have again := readValue_append _ forward fuel (fuel + (print style (.object members)).length + 1) _ []
      rest i (by omega) read (.inl bracketed)
    rw [readValue_print style blank (.object members) _ [] solid trivial (by omega), List.append_nil] at again
    exact (Prod.mk.inj (Option.some.inj again)).2.symm
  rw [readText, skip_append t _ filled] at reads
  split at reads
  · rename_i i rest read
    split at reads
    · rename_i ends
      obtain rfl := Option.some.inj reads
      have behind : Behind (print style (.object members)) true (skip t ++ print style (.object members)) :=
        .inl ⟨skip t, rfl⟩
      rcases readValue_behind ⟨escapes, opens, quoted, closed⟩ _ _ rest i behind read unescaped with
        later | ⟨whole, -⟩
      · exact behind_filled opens (behind_skip opens later) ends
      · exact filled (List.append_left_eq_self.mp whole)
    · cases reads
  · cases reads

end

/-! What the characters of a printed value are. -/

section

variable (style : Style) (P : Char → Prop)

structure Style.Writes : Prop where
  marks : ∀ c ∈ ['"', ':', ',', '[', ']', '\x7b', '\x7d'], P c
  itemPad : ∀ c ∈ style.itemPad, P c
  keyPad : ∀ c ∈ style.keyPad, P c
  escape : ∀ c, ∀ d ∈ style.escaping.escape c, P d
  literal : ∀ c, isLiteralChar c = true → P c

variable {style P}

theorem quote_writes (writes : style.Writes P) (cs : List Char) : ∀ c ∈ quote style cs, P c := by
  intro c member
  simp only [quote, List.cons_append, List.mem_cons, List.mem_append, List.mem_flatMap, List.not_mem_nil,
    or_false] at member
  rcases member with rfl | ⟨d, -, inside⟩ | rfl
  · exact writes.marks _ (by decide)
  · exact writes.escape d c inside
  · exact writes.marks _ (by decide)

mutual
theorem print_writes (writes : style.Writes P) : ∀ j : Json, j.Solid → ∀ c ∈ print style j, P c
  | .word text, solid, c, member => by
      rw [print] at member
      exact writes.literal c (solid.2 c member)
  | .string cs, _, c, member => quote_writes writes cs c member
  | .array [], _, c, member => writes.marks c (by
      simp only [print, List.mem_cons, List.not_mem_nil, or_false] at member
      rcases member with rfl | rfl <;> decide)
  | .array (x :: xs), solid, c, member => by
      simp only [print, List.cons_append, List.mem_cons, List.mem_append] at member
      rcases member with rfl | head | tail
      · exact writes.marks _ (by decide)
      · exact print_writes writes x solid.1 c head
      · exact items_write writes xs solid.2 c tail
  | .object [], _, c, member => writes.marks c (by
      simp only [print, List.mem_cons, List.not_mem_nil, or_false] at member
      rcases member with rfl | rfl <;> decide)
  | .object ((k, x) :: rest), solid, c, member => by
      simp only [print, List.cons_append, List.append_assoc, List.mem_cons, List.mem_append] at member
      rcases member with rfl | key | rfl | pad | value | tail
      · exact writes.marks _ (by decide)
      · exact quote_writes writes k c key
      · exact writes.marks _ (by decide)
      · exact writes.keyPad c pad
      · exact print_writes writes x solid.1 c value
      · exact members_write writes rest solid.2 c tail
theorem items_write (writes : style.Writes P) : ∀ xs : List Json, SolidItems xs →
    ∀ c ∈ printItems style xs, P c
  | [], _, c, member => writes.marks c (by
      simp only [printItems, List.mem_cons, List.not_mem_nil, or_false] at member
      subst member
      decide)
  | x :: xs, solid, c, member => by
      simp only [printItems, List.cons_append, List.append_assoc, List.mem_cons, List.mem_append] at member
      rcases member with rfl | pad | head | tail
      · exact writes.marks _ (by decide)
      · exact writes.itemPad c pad
      · exact print_writes writes x solid.1 c head
      · exact items_write writes xs solid.2 c tail
theorem members_write (writes : style.Writes P) : ∀ members : List (List Char × Json), SolidMembers members →
    ∀ c ∈ printMembers style members, P c
  | [], _, c, member => writes.marks c (by
      simp only [printMembers, List.mem_cons, List.not_mem_nil, or_false] at member
      subst member
      decide)
  | (k, x) :: rest, solid, c, member => by
      simp only [printMembers, List.cons_append, List.append_assoc, List.mem_cons, List.mem_append] at member
      rcases member with rfl | pad | key | rfl | pad | value | tail
      · exact writes.marks _ (by decide)
      · exact writes.itemPad c pad
      · exact quote_writes writes k c key
      · exact writes.marks _ (by decide)
      · exact writes.keyPad c pad
      · exact print_writes writes x solid.1 c value
      · exact members_write writes rest solid.2 c tail
end

end

end JsonText
