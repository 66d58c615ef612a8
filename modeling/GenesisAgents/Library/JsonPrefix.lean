import GenesisAgents.Library.JsonRead
import Mathlib.Data.List.TakeWhile

/-! A JSON text that was cut short is no JSON text: what was read of the first part is read again when
more follows. -/

namespace JsonText

structure Forward (readChar : List Char → Option (Char × List Char)) : Prop where
  nil : readChar [] = none
  append : ∀ s c r t, readChar s = some (c, r) → readChar (s ++ t) = some (c, r ++ t)

theorem skip_append (s t : List Char) (filled : skip s ≠ []) : skip (s ++ t) = skip s ++ t := by
  induction s with
  | nil => contradiction
  | cons c s later =>
    rcases blank : isBlank c with _ | _
    · rw [List.cons_append, skip_cons c _ blank, skip_cons c _ blank, List.cons_append]
    · have further (rest : List Char) : skip (c :: rest) = skip rest :=
        List.dropWhile_cons_of_pos blank
      rw [List.cons_append, further, further]
      rw [further] at filled
      exact later filled

section

variable (readChar : List Char → Option (Char × List Char))

theorem readString_append (forward : Forward readChar) : ∀ (fuel more : Nat) (s t cs r : List Char), fuel ≤ more →
    readString readChar fuel s = some (cs, r) → readString readChar more (s ++ t) = some (cs, r ++ t)
  | 0, _, _, _, _, _, _, reads => nomatch reads
  | _ + 1, 0, _, _, _, _, enough, _ => absurd enough (by omega)
  | fuel + 1, more + 1, s, t, cs, r, enough, reads => by
    rw [readString] at reads ⊢
    cases s with
    | nil =>
      rw [forward.nil] at reads
      contradiction
    | cons c s =>
      rw [List.cons_append, List.head?_cons]
      rw [List.head?_cons] at reads
      split at reads
      · rename_i closes
        obtain ⟨rfl, rfl⟩ := Prod.mk.inj (Option.some.inj reads)
        rw [if_pos closes]
        rfl
      · rename_i open'
        rw [if_neg open']
        rcases char : readChar (c :: s) with _ | ⟨d, rest⟩
        · rw [char] at reads
          contradiction
        · rw [char] at reads
          rcases Option.map_eq_some_iff.mp reads with ⟨⟨ds, left⟩, tail, same⟩
          obtain ⟨rfl, rfl⟩ := Prod.mk.inj same
          rw [← List.cons_append, forward.append _ _ _ t char]
          have later := readString_append forward fuel more rest t ds left (by omega) tail
          simp only [later, Option.map_some]

theorem readLiteral_append (s t r : List Char) (j : Json) (reads : readLiteral s = some (j, r))
    (left : r ≠ []) : readLiteral (s ++ t) = some (j, r ++ t) := by
  unfold readLiteral at reads
  split at reads
  · contradiction
  · rename_i filled
    obtain ⟨rfl, rfl⟩ := Prod.mk.inj (Option.some.inj reads)
    have whole : s ++ t = s.takeWhile isLiteralChar ++ (s.dropWhile isLiteralChar ++ t) := by
      rw [← List.append_assoc, List.takeWhile_append_dropWhile]
    have ends : Ends (s.dropWhile isLiteralChar ++ t) := by
      rcases rest : s.dropWhile isLiteralChar with _ | ⟨c, rest'⟩
      · exact absurd rest left
      · have head := List.head_dropWhile_not isLiteralChar (l := s) left
        simp only [rest, List.head_cons] at head
        exact head
    rw [whole]
    exact readLiteral_word _ _ filled (fun c member => List.mem_takeWhile_imp member) ends

/-- A text that is opened by a bracket or a quote ends where its own bracket or quote does. -/
def Delimited (j : Json) (r : List Char) : Prop := j.kind ≠ .word ∨ r ≠ []

theorem readValue_nil (fuel : Nat) : readValue readChar fuel [] = none := by
  cases fuel <;> rw [readValue]

theorem readMember_nil (fuel : Nat) : readMember readChar fuel [] = none := by
  cases fuel <;> rw [readMember]
  exact fun s => nofun

theorem readItems_nil (fuel : Nat) : readItems readChar fuel [] = none := by
  cases fuel <;> rw [readItems]
  rfl

theorem readMembers_nil (fuel : Nat) : readMembers readChar fuel [] = none := by
  cases fuel <;> rw [readMembers]
  rfl

theorem readValue_kind (fuel : Nat) (c : Char) (s r : List Char) (j : Json)
    (reads : readValue readChar fuel (c :: s) = some (j, r)) : j.kind = kindOf c := by
  cases fuel with
  | zero => contradiction
  | succ fuel =>
    rw [readValue] at reads
    cases kind : kindOf c with
    | string =>
      rw [kind] at reads
      rcases Option.map_eq_some_iff.mp reads with ⟨body, -, same⟩
      rw [← (Prod.mk.inj same).1]
      rfl
    | array =>
      rw [kind] at reads
      dsimp only at reads
      repeat' split at reads
      all_goals first
        | contradiction
        | (rw [← (Prod.mk.inj (Option.some.inj reads)).1]; rfl)
        | (rcases Option.map_eq_some_iff.mp reads with ⟨body, -, same⟩
           rw [← (Prod.mk.inj same).1]; rfl)
    | object =>
      rw [kind] at reads
      dsimp only at reads
      repeat' split at reads
      all_goals first
        | contradiction
        | (rw [← (Prod.mk.inj (Option.some.inj reads)).1]; rfl)
        | (rcases Option.map_eq_some_iff.mp reads with ⟨body, -, same⟩
           rw [← (Prod.mk.inj same).1]; rfl)
    | word =>
      rw [kind] at reads
      change readLiteral (c :: s) = some (j, r) at reads
      unfold readLiteral at reads
      split at reads
      · contradiction
      · rw [← (Prod.mk.inj (Option.some.inj reads)).1]
        rfl

mutual
theorem readValue_append (forward : Forward readChar) : ∀ (fuel more : Nat) (s t r : List Char) (j : Json), fuel ≤ more →
    readValue readChar fuel s = some (j, r) → Delimited j r →
    readValue readChar more (s ++ t) = some (j, r ++ t)
  | 0, _, _, _, _, _, _, reads, _ => nomatch reads
  | _ + 1, _, [], _, _, _, _, reads, _ => nomatch reads
  | _ + 1, 0, _ :: _, _, _, _, enough, _, _ => absurd enough (by omega)
  | fuel + 1, more + 1, c :: s, t, r, j, enough, reads, delimited => by
    rw [List.cons_append, readValue]
    rw [readValue] at reads
    cases kind : kindOf c with
    | string =>
      rw [kind] at reads
      rcases Option.map_eq_some_iff.mp reads with ⟨⟨cs, rest⟩, body, same⟩
      obtain ⟨rfl, rfl⟩ := Prod.mk.inj same
      have later := readString_append readChar forward fuel more s t cs rest (by omega) body
      simp only [later, Option.map_some]
    | array =>
      rw [kind] at reads
      dsimp only at reads ⊢
      have filled : skip s ≠ [] := fun empty => by
        rw [empty, List.head?_nil, if_neg nofun, readValue_nil] at reads
        contradiction
      rw [skip_append s t filled, List.head?_append_of_ne_nil _ filled]
      split at reads
      · rename_i closes
        obtain ⟨rfl, rfl⟩ := Prod.mk.inj (Option.some.inj reads)
        rw [if_pos closes, List.tail_append_of_ne_nil filled]
      · rename_i opens
        rw [if_neg opens]
        rcases first : readValue readChar fuel (skip s) with _ | ⟨x, s'⟩
        · rw [first] at reads
          contradiction
        · rw [first] at reads
          rcases Option.map_eq_some_iff.mp reads with ⟨⟨xs, rest⟩, others, same⟩
          obtain ⟨rfl, rfl⟩ := Prod.mk.inj same
          have left : s' ≠ [] := by
            rintro rfl
            rw [readItems_nil] at others
            contradiction
          have head := readValue_append forward fuel more (skip s) t s' x (by omega) first (.inr left)
          have tail := readItems_append forward fuel more s' t rest xs (by omega) others
          simp only [head, tail, Option.map_some]
    | object =>
      rw [kind] at reads
      dsimp only at reads ⊢
      have filled : skip s ≠ [] := fun empty => by
        rw [empty, List.head?_nil, if_neg nofun, readMember_nil] at reads
        contradiction
      rw [skip_append s t filled, List.head?_append_of_ne_nil _ filled]
      split at reads
      · rename_i closes
        obtain ⟨rfl, rfl⟩ := Prod.mk.inj (Option.some.inj reads)
        rw [if_pos closes, List.tail_append_of_ne_nil filled]
      · rename_i opens
        rw [if_neg opens]
        rcases first : readMember readChar fuel (skip s) with _ | ⟨kv, s'⟩
        · rw [first] at reads
          contradiction
        · rw [first] at reads
          rcases Option.map_eq_some_iff.mp reads with ⟨⟨kvs, rest⟩, others, same⟩
          obtain ⟨rfl, rfl⟩ := Prod.mk.inj same
          have left : s' ≠ [] := by
            rintro rfl
            rw [readMembers_nil] at others
            contradiction
          have head := readMember_append forward fuel more (skip s) t s' kv (by omega) first left
          have tail := readMembers_append forward fuel more s' t rest kvs (by omega) others
          simp only [head, tail, Option.map_some]
    | word =>
      have literal : j.kind = .word := by
        rw [readValue_kind readChar (fuel + 1) c s r j (by rw [readValue]; exact reads), kind]
      rw [kind] at reads
      exact readLiteral_append (c :: s) t r j reads (delimited.resolve_left fun bracketed => bracketed literal)
theorem readItems_append (forward : Forward readChar) : ∀ (fuel more : Nat) (s t r : List Char) (items : List Json), fuel ≤ more →
    readItems readChar fuel s = some (items, r) → readItems readChar more (s ++ t) = some (items, r ++ t)
  | 0, _, _, _, _, _, _, reads => nomatch reads
  | _ + 1, 0, _, _, _, _, enough, _ => absurd enough (by omega)
  | fuel + 1, more + 1, s, t, r, items, enough, reads => by
    rw [readItems] at reads ⊢
    have filled : skip s ≠ [] := fun empty => by
      rw [empty] at reads
      contradiction
    rw [skip_append s t filled]
    split at reads
    · rename_i rest closes
      obtain ⟨rfl, rfl⟩ := Prod.mk.inj (Option.some.inj reads)
      rw [closes]
      rfl
    · rename_i s₁ comma
      rw [comma]
      rcases first : readValue readChar fuel (skip s₁) with _ | ⟨x, s'⟩
      · rw [first] at reads
        contradiction
      · rw [first] at reads
        rcases Option.map_eq_some_iff.mp reads with ⟨⟨xs, rest⟩, others, same⟩
        obtain ⟨rfl, rfl⟩ := Prod.mk.inj same
        have left : s' ≠ [] := by
          rintro rfl
          rw [readItems_nil] at others
          contradiction
        have here : skip s₁ ≠ [] := fun empty => by
          rw [empty, readValue_nil] at first
          contradiction
        have head := readValue_append forward fuel more (skip s₁) t s' x (by omega) first (.inr left)
        have tail := readItems_append forward fuel more s' t rest xs (by omega) others
        simp only [List.cons_append, skip_append s₁ t here, head, tail, Option.map_some]
    · contradiction
theorem readMember_append (forward : Forward readChar) : ∀ (fuel more : Nat) (s t r : List Char) (kv : List Char × Json), fuel ≤ more →
    readMember readChar fuel s = some (kv, r) → r ≠ [] →
    readMember readChar more (s ++ t) = some (kv, r ++ t)
  | 0, _, _, _, _, _, _, reads, _ => nomatch reads
  | _ + 1, 0, _, _, _, _, enough, _, _ => absurd enough (by omega)
  | fuel + 1, more + 1, s, t, r, kv, enough, reads, left => by
    cases s with
    | nil =>
      rw [readMember_nil] at reads
      contradiction
    | cons c s₁ =>
      by_cases quoted : c = '"'
      · subst quoted
        rw [List.cons_append, readMember]
        rw [readMember] at reads
        rcases name : readString readChar fuel s₁ with _ | ⟨k, s'⟩
        · rw [name] at reads
          contradiction
        · rw [name] at reads
          dsimp only at reads
          have filled : skip s' ≠ [] := fun empty => by
            rw [empty] at reads
            contradiction
          have key := readString_append readChar forward fuel more s₁ t k s' (by omega) name
          simp only [key, skip_append s' t filled]
          split at reads
          · rename_i s₂ colon
            rw [colon]
            rcases Option.map_eq_some_iff.mp reads with ⟨⟨x, rest⟩, value, same⟩
            obtain ⟨rfl, rfl⟩ := Prod.mk.inj same
            have here : skip s₂ ≠ [] := fun empty => by
              rw [empty, readValue_nil] at value
              contradiction
            have body := readValue_append forward fuel more (skip s₂) t rest x (by omega) value (.inr left)
            simp only [List.cons_append, skip_append s₂ t here, body, Option.map_some]
          · contradiction
      · rw [readMember] at reads
        · contradiction
        · exact fun rest same => quoted (List.cons.inj same).1
theorem readMembers_append (forward : Forward readChar) : ∀ (fuel more : Nat) (s t r : List Char) (kvs : List (List Char × Json)),
    fuel ≤ more → readMembers readChar fuel s = some (kvs, r) →
    readMembers readChar more (s ++ t) = some (kvs, r ++ t)
  | 0, _, _, _, _, _, _, reads => nomatch reads
  | _ + 1, 0, _, _, _, _, enough, _ => absurd enough (by omega)
  | fuel + 1, more + 1, s, t, r, kvs, enough, reads => by
    rw [readMembers] at reads ⊢
    have filled : skip s ≠ [] := fun empty => by
      rw [empty] at reads
      contradiction
    rw [skip_append s t filled]
    split at reads
    · rename_i rest closes
      obtain ⟨rfl, rfl⟩ := Prod.mk.inj (Option.some.inj reads)
      rw [closes]
      rfl
    · rename_i s₁ comma
      rw [comma]
      rcases first : readMember readChar fuel (skip s₁) with _ | ⟨kv, s'⟩
      · rw [first] at reads
        contradiction
      · rw [first] at reads
        rcases Option.map_eq_some_iff.mp reads with ⟨⟨rest', rest⟩, others, same⟩
        obtain ⟨rfl, rfl⟩ := Prod.mk.inj same
        have left : s' ≠ [] := by
          rintro rfl
          rw [readMembers_nil] at others
          contradiction
        have here : skip s₁ ≠ [] := fun empty => by
          rw [empty, readMember_nil] at first
          contradiction
        have head := readMember_append forward fuel more (skip s₁) t s' kv (by omega) first left
        have tail := readMembers_append forward fuel more s' t rest rest' (by omega) others
        simp only [List.cons_append, skip_append s₁ t here, head, tail, Option.map_some]
    · contradiction
end

end

/-- An object that was printed and then cut cannot be read. -/
theorem readText_cut (style : Style) (forward : Forward style.escaping.read) (blank : style.Blank)
    (members : List (List Char × Json)) (solid : (Json.object members).Solid) (s t : List Char)
    (whole : print style (.object members) = s ++ t) (cut : t ≠ []) :
    readText style.escaping.read s = none := by
  cases s with
  | nil => rfl
  | cons c s =>
    have opens : c = '\x7b' := by
      rcases members with _ | ⟨⟨k, x⟩, rest⟩
      · rw [print] at whole
        exact (List.cons.inj whole).1.symm
      · rw [print] at whole
        exact (List.cons.inj whole).1.symm
    subst opens
    rw [readText, skip_cons '\x7b' s rfl]
    rcases first : readValue style.escaping.read (('\x7b' :: s).length + 1) ('\x7b' :: s) with _ | ⟨j, rest⟩
    · rfl
    · have bracketed : j.kind ≠ .word := by
        rw [readValue_kind _ _ _ _ _ _ first]
        intro same
        cases same
      have longer : ('\x7b' :: s).length + 1 ≤ (print style (.object members)).length + 1 := by
        rw [whole, List.length_append]
        omega
      have again := readValue_append _ forward _ _ _ t rest j longer first (.inl bracketed)
      have full := readValue_print style blank (.object members) _ [] solid trivial (Nat.lt_succ_self _)
      rw [List.append_nil, whole] at full
      rw [whole, full] at again
      have nothing := (Prod.mk.inj (Option.some.inj again)).2
      exact absurd (List.append_eq_nil_iff.mp nothing.symm).2 cut

end JsonText
