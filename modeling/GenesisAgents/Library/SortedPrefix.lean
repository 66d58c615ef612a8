import Mathlib.Order.Lattice
import Mathlib.Data.List.Perm.Basic

/-! Sorted lists and the sets of their elements that are a prefix of them. -/

namespace SortedPrefix

variable {α : Type}

def PrefixOf (taken list : List α) : Prop := taken.Perm (list.take taken.length)

theorem mem_prefixOf (taken list : List α) (leads : PrefixOf taken list) (x : α) :
    x ∈ taken ↔ x ∈ list.take taken.length := leads.mem_iff

theorem prefixOf_append (taken later list : List α) (leads : PrefixOf taken list) :
    PrefixOf (taken ++ later) list ↔ PrefixOf later (list.drop taken.length) := by
  rw [PrefixOf, PrefixOf, List.length_append, List.take_add]
  constructor
  · intro whole
    have swapped := whole.trans (leads.symm.append_right _)
    exact (List.perm_append_left_iff taken).mp swapped
  · exact fun rest => leads.append rest

theorem prefixOf_singleton (x : α) (list : List α) : PrefixOf [x] list ↔ list[0]? = some x := by
  rw [PrefixOf, List.length_singleton]
  rcases list with _ | ⟨head, tail⟩
  · simp
  · simp [eq_comm]

theorem prefixOf_concat (taken list : List α) (x : α) (leads : PrefixOf taken list) :
    PrefixOf (taken ++ [x]) list ↔ list[taken.length]? = some x := by
  rw [prefixOf_append taken [x] list leads, prefixOf_singleton, List.getElem?_drop, Nat.add_zero]

/-- An element of the list beyond a shorter prefix, and not in the prefix, is the next one when
everything up to the shorter prefix is taken. -/
theorem next_of_absent (taken list : List α) (m : Nat) (x : α) (leads : PrefixOf taken list)
    (early : m ≤ taken.length) (here : list[m]? = some x) (absent : x ∉ taken) :
    m = taken.length := by
  by_contra different
  have before : m < taken.length := by omega
  apply absent
  rw [mem_prefixOf taken list leads x, List.mem_iff_getElem?]
  exact ⟨m, by rw [List.getElem?_take, if_pos before, here]⟩

section Decidable

variable [DecidableEq α]

theorem filter_prefix (taken list : List α) (once : list.Nodup) (leads : PrefixOf taken list) :
    list.filter (fun x => decide (x ∉ taken)) = list.drop taken.length := by
  have parts := List.take_append_drop taken.length list
  have apart := (List.nodup_append.mp (parts.symm ▸ once)).2.2
  have early : (list.take taken.length).filter (fun x => decide (x ∉ taken)) = [] := by
    rw [List.filter_eq_nil_iff]
    intro x member away
    exact of_decide_eq_true away ((mem_prefixOf taken list leads x).mpr member)
  have late : (list.drop taken.length).filter (fun x => decide (x ∉ taken)) =
      list.drop taken.length := by
    rw [List.filter_eq_self]
    intro x member
    rw [decide_eq_true_iff, mem_prefixOf taken list leads x]
    exact fun there => apart x there x member rfl
  calc list.filter (fun x => decide (x ∉ taken))
    _ = (list.take taken.length ++ list.drop taken.length).filter
          (fun x => decide (x ∉ taken)) := by rw [parts]
    _ = list.drop taken.length := by rw [List.filter_append, early, late, List.nil_append]

end Decidable

/-- A part of a sorted list below everything else in the list is a prefix of it. -/
theorem prefixOf_of_below [LinearOrder α] (list : List α) (sorted : list.Pairwise (· < ·)) :
    ∀ taken : List α, taken.Nodup → (∀ a ∈ taken, a ∈ list) →
      (∀ x ∈ list, x ∉ taken → ∀ a ∈ taken, a < x) → PrefixOf taken list := by
  induction list with
  | nil =>
    intro taken _ inside _
    rw [List.eq_nil_iff_forall_not_mem.mpr fun a member => List.not_mem_nil (inside a member)]
    exact List.Perm.refl _
  | cons head rest later =>
    intro taken once inside below
    rw [List.pairwise_cons] at sorted
    by_cases first : head ∈ taken
    · have split := List.perm_cons_erase first
      have once' := once.erase head
      have tail := later sorted.2 (taken.erase head) once'
        (fun a member => by
          have distinct := (once.mem_erase_iff.mp member).1
          have there := inside a (List.mem_of_mem_erase member)
          exact (List.mem_cons.mp there).resolve_left distinct)
        (fun x member away a there => by
          apply below x (List.mem_cons_of_mem _ member) _ a (List.mem_of_mem_erase there)
          intro taken_x
          exact away (once.mem_erase_iff.mpr ⟨ne_of_gt (sorted.1 x member), taken_x⟩))
      have size : taken.length = (taken.erase head).length + 1 := split.length_eq
      rw [PrefixOf, size, List.take_succ_cons]
      exact split.trans (tail.cons head)
    · have none_taken : taken = [] := by
        rw [List.eq_nil_iff_forall_not_mem]
        intro a member
        have under := below head List.mem_cons_self first a member
        rcases List.mem_cons.mp (inside a member) with rfl | further
        · exact first member
        · exact lt_asymm under (sorted.1 a further)
      rw [none_taken]
      exact List.Perm.refl _

end SortedPrefix
