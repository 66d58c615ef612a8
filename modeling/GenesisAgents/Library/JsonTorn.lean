import GenesisAgents.Library.JsonBehind

/-! Objects of which only the front was written, one behind the other: no such text is JSON. Where an object
begins within a string of the text before it, its first quote closes that string, and the letter behind the
quote can follow no string. -/

namespace JsonText

def Inert (c : Char) : Prop := isBlank c = false ∧ c ∉ [',', ']', '\x7d', ':']

def Stuck (s : List Char) : Prop := ∀ c ∈ s.head?, Inert c

def Before (text s : List Char) : Prop := ∃ t, s = t ++ text

/-- The front of an object whose first key is a word; read as a value it is read to its end, if at all. -/
structure Sprout (readChar : List Char → Option (Char × List Char)) (text : List Char) : Prop where
  escapes : TakesEscapes readChar
  nil : readChar [] = none
  opens : text.head? = some '\x7b'
  quotes : ∀ c ∈ text.tail.head?, c = '"'
  named : Stuck text.tail.tail
  closed : ∀ fuel j rest, readValue readChar fuel text = some (j, rest) → rest = []

theorem stuck_skip {s : List Char} (stuck : Stuck s) : skip s = s := by
  cases s with
  | nil => rfl
  | cons c s => exact skip_cons c s (stuck c rfl).1

theorem stuck_tail {c : Char} {s rest : List Char} (stuck : Stuck s) (starts : skip s = c :: rest) :
    c ∉ [',', ']', '\x7d', ':'] := by
  rw [stuck_skip stuck] at starts
  rw [starts] at stuck
  exact (stuck c rfl).2

section

variable {readChar : List Char → Option (Char × List Char)}

theorem readItems_stuck {s : List Char} (stuck : Stuck s) (fuel : Nat) : readItems readChar fuel s = none := by
  cases fuel with
  | zero => rw [readItems]
  | succ fuel =>
    rw [readItems]
    split
    · rename_i starts
      exact absurd (stuck_tail stuck starts) (by decide)
    · rename_i starts
      exact absurd (stuck_tail stuck starts) (by decide)
    · rfl

theorem readMembers_stuck {s : List Char} (stuck : Stuck s) (fuel : Nat) :
    readMembers readChar fuel s = none := by
  cases fuel with
  | zero => rw [readMembers]
  | succ fuel =>
    rw [readMembers]
    split
    · rename_i starts
      exact absurd (stuck_tail stuck starts) (by decide)
    · rename_i starts
      exact absurd (stuck_tail stuck starts) (by decide)
    · rfl

variable {text : List Char} (sprout : Sprout readChar text)

include sprout

theorem Sprout.shape : ∃ more, text = '\x7b' :: more := List.head?_eq_some_iff.mp sprout.opens

theorem before_tail {c : Char} {s : List Char} (before : Before text (c :: s)) (apart : c ≠ '\x7b') :
    Before text s := by
  obtain ⟨t, same⟩ := before
  obtain ⟨more, whole⟩ := sprout.shape
  cases t with
  | nil =>
    rw [List.nil_append, whole] at same
    exact absurd (List.cons.inj same).1 apart
  | cons d t => exact ⟨t, (List.cons.inj same).2⟩

theorem before_filled {s : List Char} (before : Before text s) : s ≠ [] := by
  obtain ⟨t, rfl⟩ := before
  obtain ⟨more, whole⟩ := sprout.shape
  rw [whole]
  exact List.append_ne_nil_of_right_ne_nil t (List.cons_ne_nil _ _)

theorem before_skip {s : List Char} (before : Before text s) : Before text (skip s) := by
  induction s with
  | nil => exact before
  | cons c s later =>
    cases blank : isBlank c with
    | false =>
      rw [skip_cons c s blank]
      exact before
    | true =>
      have apart : c ≠ '\x7b' := by
        rintro rfl
        cases blank
      rw [skip, List.dropWhile_cons_of_pos blank]
      exact later (before_tail sprout before apart)

theorem before_literal {s : List Char} (before : Before text s) :
    Before text (s.dropWhile isLiteralChar) := by
  induction s with
  | nil => exact before
  | cons c s later =>
    cases literal : isLiteralChar c with
    | false =>
      rw [List.dropWhile_cons_of_neg (by rw [literal]; decide)]
      exact before
    | true =>
      have apart : c ≠ '\x7b' := by
        rintro rfl
        cases literal
      rw [List.dropWhile_cons_of_pos literal]
      exact later (before_tail sprout before apart)

theorem readChar_sprout {s rest : List Char} {c : Char} (before : Before text s)
    (reads : readChar s = some (c, rest)) : Before text rest ∨ rest = text.tail := by
  cases sprout.escapes s c rest reads with
  | inl plain =>
    obtain ⟨t, same⟩ := before
    cases t with
    | nil =>
      have whole : text = c :: rest := same.symm.trans plain.1
      right
      rw [whole, List.tail_cons]
    | cons d t =>
      left
      exact ⟨t, (List.cons.inj (plain.1.symm.trans same)).2⟩
  | inr escape =>
    left
    obtain ⟨e, taken, unopened⟩ := escape
    obtain ⟨t, same⟩ := before
    rw [taken, ← List.cons_append] at same
    rcases List.append_eq_append_iff.mp same with ⟨more, -, left⟩ | ⟨more, inside, left⟩
    · exact ⟨more, left⟩
    · cases more with
      | nil => exact ⟨[], left.symm⟩
      | cons d more =>
        have opens := sprout.opens
        rw [left, List.cons_append, List.head?_cons] at opens
        rw [Option.some.inj opens] at inside
        have member : '\x7b' ∈ '\\' :: e := inside ▸ List.mem_append_right t List.mem_cons_self
        cases List.mem_cons.mp member with
        | inl same => cases same
        | inr member => exact absurd member unopened

theorem readString_sprout (fuel : Nat) : ∀ s rest cs : List Char, Before text s ∨ s = text.tail →
    readString readChar fuel s = some (cs, rest) → Before text rest ∨ Stuck rest := by
  induction fuel with
  | zero =>
    intro s rest cs _ reads
    cases reads
  | succ fuel later =>
    intro s rest cs inside reads
    rw [readString] at reads
    split at reads
    · rename_i closes
      have ends : s.tail = rest := (Prod.mk.inj (Option.some.inj reads)).2
      rw [← ends]
      cases inside with
      | inl before =>
        obtain ⟨more, same⟩ := List.head?_eq_some_iff.mp closes
        rw [same] at before ⊢
        exact .inl (before_tail sprout before (by decide))
      | inr first =>
        rw [first]
        exact .inr sprout.named
    · rename_i open_
      split at reads
      · cases reads
      · rename_i c s' char
        rcases Option.map_eq_some_iff.mp reads with ⟨⟨ds, left⟩, tail, same⟩
        have ends : left = rest := (Prod.mk.inj same).2
        rw [← ends]
        cases inside with
        | inl before => exact later s' left ds (readChar_sprout sprout before char) tail
        | inr first =>
          cases more : text.tail with
          | nil =>
            rw [first, more, sprout.nil] at char
            cases char
          | cons d others =>
            rw [first, more, sprout.quotes d (by rw [more]; rfl)] at open_
            exact absurd rfl open_

mutual
theorem readValue_sprout : ∀ (fuel : Nat) (s rest : List Char) (j : Json), Before text s →
    readValue readChar fuel s = some (j, rest) →
    Before text rest ∨ Stuck rest ∧ (s.head? = some '"' ∨ s = text)
  | 0, _, _, _, _, reads => by cases reads
  | _ + 1, [], _, _, _, reads => by cases reads
  | fuel + 1, c :: s, rest, j, before, reads => by
    by_cases whole : c :: s = text
    · right
      rw [sprout.closed (fuel + 1) j rest (whole ▸ reads)]
      exact ⟨nofun, .inr whole⟩
    have next : Before text s := by
      obtain ⟨t, same⟩ := before
      cases t with
      | nil => exact absurd same whole
      | cons d t => exact ⟨t, (List.cons.inj same).2⟩
    have inner := before_skip sprout next
    rw [readValue] at reads
    cases kind : kindOf c with
    | string =>
      rw [kind] at reads
      rcases Option.map_eq_some_iff.mp reads with ⟨⟨cs, left⟩, body, same⟩
      rw [← (Prod.mk.inj same).2]
      cases readString_sprout sprout fuel s left cs (.inl next) body with
      | inl later => exact .inl later
      | inr stuck => exact .inr ⟨stuck, .inl (congrArg some ((opening_of_kind c).1 kind))⟩
    | array =>
      left
      rw [kind] at reads
      dsimp only at reads
      split at reads
      · rename_i closes
        obtain ⟨rest', same⟩ := List.head?_eq_some_iff.mp closes
        rw [same] at reads inner
        rw [← (Prod.mk.inj (Option.some.inj reads)).2]
        exact before_tail sprout inner (by decide)
      · cases first : readValue readChar fuel (skip s) with
        | none =>
          rw [first] at reads
          cases reads
        | some found =>
          rw [first] at reads
          rcases Option.map_eq_some_iff.mp reads with ⟨⟨xs, left⟩, others, same⟩
          rw [← (Prod.mk.inj same).2]
          cases readValue_sprout fuel (skip s) found.2 found.1 inner first with
          | inl later => exact readItems_sprout fuel found.2 left xs later others
          | inr ended =>
            rw [readItems_stuck ended.1] at others
            cases others
    | object =>
      left
      rw [kind] at reads
      dsimp only at reads
      split at reads
      · rename_i closes
        obtain ⟨rest', same⟩ := List.head?_eq_some_iff.mp closes
        rw [same] at reads inner
        rw [← (Prod.mk.inj (Option.some.inj reads)).2]
        exact before_tail sprout inner (by decide)
      · cases first : readMember readChar fuel (skip s) with
        | none =>
          rw [first] at reads
          cases reads
        | some found =>
          rw [first] at reads
          rcases Option.map_eq_some_iff.mp reads with ⟨⟨kvs, left⟩, others, same⟩
          rw [← (Prod.mk.inj same).2]
          cases readMember_sprout fuel (skip s) found.2 found.1 inner first with
          | inl later => exact readMembers_sprout fuel found.2 left kvs later others
          | inr stuck =>
            rw [readMembers_stuck stuck] at others
            cases others
    | word =>
      left
      rw [kind] at reads
      change readLiteral (c :: s) = some (j, rest) at reads
      rw [readLiteral] at reads
      split at reads
      · cases reads
      · rw [← (Prod.mk.inj (Option.some.inj reads)).2]
        exact before_literal sprout before
theorem readItems_sprout : ∀ (fuel : Nat) (s rest : List Char) (items : List Json), Before text s →
    readItems readChar fuel s = some (items, rest) → Before text rest
  | 0, _, _, _, _, reads => by cases reads
  | fuel + 1, s, rest, items, before, reads => by
    have inner := before_skip sprout before
    rw [readItems] at reads
    split at reads
    · rename_i rest' closes
      rw [← (Prod.mk.inj (Option.some.inj reads)).2]
      rw [closes] at inner
      exact before_tail sprout inner (by decide)
    · rename_i s₁ comma
      rw [comma] at inner
      have next := before_skip sprout (before_tail sprout inner (by decide))
      cases first : readValue readChar fuel (skip s₁) with
      | none =>
        rw [first] at reads
        cases reads
      | some found =>
        rw [first] at reads
        rcases Option.map_eq_some_iff.mp reads with ⟨⟨xs, left⟩, others, same⟩
        rw [← (Prod.mk.inj same).2]
        cases readValue_sprout fuel (skip s₁) found.2 found.1 next first with
        | inl later => exact readItems_sprout fuel found.2 left xs later others
        | inr ended =>
          rw [readItems_stuck ended.1] at others
          cases others
    · cases reads
theorem readMember_sprout : ∀ (fuel : Nat) (s rest : List Char) (kv : List Char × Json), Before text s →
    readMember readChar fuel s = some (kv, rest) → Before text rest ∨ Stuck rest
  | 0, _, _, _, _, reads => by cases reads
  | fuel + 1, s, rest, kv, before, reads => by
    cases s with
    | nil =>
      rw [readMember_nil] at reads
      cases reads
    | cons c s₁ =>
      by_cases quotes : c = '"'
      · rw [quotes] at reads before
        rw [readMember] at reads
        cases name : readString readChar fuel s₁ with
        | none =>
          rw [name] at reads
          cases reads
        | some found =>
          rw [name] at reads
          dsimp only at reads
          have inside := before_tail sprout before (by decide)
          split at reads
          · rename_i s₂ colon
            rcases Option.map_eq_some_iff.mp reads with ⟨⟨x, left⟩, value, same⟩
            rw [← (Prod.mk.inj same).2]
            cases readString_sprout sprout fuel s₁ found.2 found.1 (.inl inside) name with
            | inl key =>
              have inner := before_skip sprout key
              rw [colon] at inner
              have next := before_skip sprout (before_tail sprout inner (by decide))
              exact (readValue_sprout fuel (skip s₂) left x next value).imp_right And.left
            | inr stuck => exact absurd (stuck_tail stuck colon) (by decide)
          · cases reads
      · rw [readMember] at reads
        · cases reads
        · exact fun rest same => quotes (List.cons.inj same).1
theorem readMembers_sprout : ∀ (fuel : Nat) (s rest : List Char) (kvs : List (List Char × Json)),
    Before text s → readMembers readChar fuel s = some (kvs, rest) → Before text rest
  | 0, _, _, _, _, reads => by cases reads
  | fuel + 1, s, rest, kvs, before, reads => by
    have inner := before_skip sprout before
    rw [readMembers] at reads
    split at reads
    · rename_i rest' closes
      rw [← (Prod.mk.inj (Option.some.inj reads)).2]
      rw [closes] at inner
      exact before_tail sprout inner (by decide)
    · rename_i s₁ comma
      rw [comma] at inner
      have next := before_skip sprout (before_tail sprout inner (by decide))
      cases first : readMember readChar fuel (skip s₁) with
      | none =>
        rw [first] at reads
        cases reads
      | some found =>
        rw [first] at reads
        rcases Option.map_eq_some_iff.mp reads with ⟨⟨others', left⟩, others, same⟩
        rw [← (Prod.mk.inj same).2]
        cases readMember_sprout fuel (skip s₁) found.2 found.1 next first with
        | inl later => exact readMembers_sprout fuel found.2 left others' later others
        | inr stuck =>
          rw [readMembers_stuck stuck] at others
          cases others
    · cases reads
end

/-- Behind text that is not blank and begins no string, a written front is no JSON. -/
theorem readText_sprout (t : List Char) (filled : skip t ≠ []) (unquoted : (skip t).head? ≠ some '"') :
    readText readChar (t ++ text) = none := by
  rw [readText, skip_append t text filled]
  split
  · rename_i j rest reads
    have before : Before text (skip t ++ text) := ⟨skip t, rfl⟩
    cases readValue_sprout sprout _ _ rest j before reads with
    | inl later => exact if_neg (before_filled sprout (before_skip sprout later))
    | inr ended =>
      cases ended.2 with
      | inl quoted =>
        rw [List.head?_append_of_ne_nil _ filled] at quoted
        exact absurd quoted unquoted
      | inr whole => exact absurd (List.append_left_eq_self.mp whole) filled
  · rfl

end

/-- The fronts of a printed object whose first key is a word. -/
theorem sprout_front (style : Style) (blank : style.Blank) (forward : Forward style.escaping.read)
    (escapes : TakesEscapes style.escaping.read) (members : List (List Char × Json))
    (solid : (Json.object members).Solid) (c : Char) (more : List Char) (inert : Inert c)
    (starts : print style (.object members) = '\x7b' :: '"' :: c :: more) (front cut : List Char)
    (whole : print style (.object members) = front ++ cut) (filled : front ≠ []) :
    Sprout style.escaping.read front := by
  have shape : '\x7b' :: '"' :: c :: more = front ++ cut := starts.symm.trans whole
  obtain ⟨d, front, rfl⟩ := List.exists_cons_of_ne_nil filled
  have first : d = '\x7b' := (List.cons.inj shape).1.symm
  have second : '"' :: c :: more = front ++ cut := (List.cons.inj shape).2
  constructor
  · exact escapes
  · exact forward.nil
  · rw [first]
    rfl
  · intro e head
    cases front with
    | nil => cases head
    | cons e' front =>
      rw [← Option.some.inj head]
      exact (List.cons.inj second).1.symm
  · intro e head
    cases front with
    | nil => cases head
    | cons e' front =>
      cases front with
      | nil => cases head
      | cons e'' front =>
        rw [← Option.some.inj head, ← (List.cons.inj (List.cons.inj second).2).1]
        exact inert
  · intro fuel j rest read
    have bracketed : j.kind ≠ .word := by
      rw [readValue_kind _ _ _ _ _ _ read, first]
      intro word
      cases word
    have again := readValue_append _ forward fuel (fuel + (print style (.object members)).length + 1)
      (d :: front) cut rest j (by omega) read (.inl bracketed)
    have full := readValue_print style blank (.object members)
      (fuel + (print style (.object members)).length + 1) [] solid trivial (by omega)
    rw [List.append_nil, whole] at full
    rw [whole, full] at again
    have nothing := (Prod.mk.inj (Option.some.inj again)).2
    exact (List.append_eq_nil_iff.mp nothing.symm).1

end JsonText
