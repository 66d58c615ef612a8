import Mathlib.Algebra.GroupWithZero.Nat
import Mathlib.Data.List.Basic

/-! Texts joined by a delimiter. Parts that do not contain the delimiter can be read back, even
against parts that might contain it, as long as there are equally many. -/

namespace Delimited

variable {α : Type} (d : α)

theorem split_unique : ∀ (p p' r r' : List α), d ∉ p → d ∉ p' → p ++ d :: r = p' ++ d :: r' →
    p = p' ∧ r = r' := by
  intro p
  induction p with
  | nil =>
    intro p' r r' _ free' same
    cases p' with
    | nil => exact ⟨rfl, (List.cons.inj same).2⟩
    | cons c p' =>
      obtain ⟨rfl, -⟩ := List.cons.inj same
      exact absurd List.mem_cons_self free'
  | cons c p later =>
    intro p' r r' free free' same
    cases p' with
    | nil =>
      obtain ⟨rfl, -⟩ := List.cons.inj same
      exact absurd List.mem_cons_self free
    | cons c' p' =>
      obtain ⟨rfl, tails⟩ := List.cons.inj same
      obtain ⟨rfl, rest⟩ := later p' r r' (fun member => free (List.mem_cons_of_mem _ member))
        (fun member => free' (List.mem_cons_of_mem _ member)) tails
      exact ⟨rfl, rest⟩

theorem intercalate_inj_of_free : ∀ (parts parts' : List (List α)),
    (∀ p ∈ parts, d ∉ p) → (∀ p ∈ parts', d ∉ p) → parts.length = parts'.length →
    [d].intercalate parts = [d].intercalate parts' → parts = parts' := by
  intro parts
  induction parts with
  | nil =>
    intro parts' _ _ lengths _
    exact (List.length_eq_zero_iff.mp lengths.symm).symm
  | cons p rest later =>
    intro parts' free free' lengths same
    cases parts' with
    | nil => contradiction
    | cons p' rest' =>
      have inner := Nat.succ.inj lengths
      cases rest with
      | nil =>
        obtain rfl := List.length_eq_zero_iff.mp inner.symm
        simpa using same
      | cons q rest =>
        cases rest' with
        | nil => contradiction
        | cons q' rest' =>
          rw [List.intercalate_cons_cons, List.intercalate_cons_cons, List.append_assoc,
            List.append_assoc] at same
          obtain ⟨rfl, tails⟩ := split_unique d p p' _ _ (free p List.mem_cons_self)
            (free' p' List.mem_cons_self) same
          rw [later (q' :: rest') (fun r member => free r (List.mem_cons_of_mem _ member))
            (fun r member => free' r (List.mem_cons_of_mem _ member)) inner tails]

variable [DecidableEq α]

theorem count_intercalate (parts : List (List α)) :
    ([d].intercalate parts).count d = (parts.map (List.count d)).sum + (parts.length - 1) := by
  induction parts with
  | nil => simp
  | cons p rest later =>
    cases rest with
    | nil => simp
    | cons q rest =>
      rw [List.intercalate_cons_cons]
      simp only [List.count_append, later, List.map_cons, List.sum_cons, List.length_cons,
        List.count_singleton_self, Nat.add_sub_cancel]
      omega

/-- If the parts on one side are free of the delimiter, so are those on the other: there are too few
delimiters for more. -/
theorem intercalate_inj (parts parts' : List (List α)) (free : ∀ p ∈ parts, d ∉ p)
    (lengths : parts.length = parts'.length)
    (same : [d].intercalate parts = [d].intercalate parts') : parts = parts' := by
  have counted := congrArg (List.count d) same
  rw [count_intercalate, count_intercalate, lengths] at counted
  have none_left : (parts.map (List.count d)).sum = 0 := by
    rw [List.sum_eq_zero_iff_forall_eq_nat]
    intro n member
    obtain ⟨p, inside, rfl⟩ := List.mem_map.mp member
    exact List.count_eq_zero.mpr (free p inside)
  rw [none_left] at counted
  have none_right : (parts'.map (List.count d)).sum = 0 := (Nat.add_right_cancel counted).symm
  rw [List.sum_eq_zero_iff_forall_eq_nat] at none_right
  refine intercalate_inj_of_free d parts parts' free (fun p member => ?_) lengths same
  exact List.count_eq_zero.mp (none_right _ (List.mem_map_of_mem member))

end Delimited
