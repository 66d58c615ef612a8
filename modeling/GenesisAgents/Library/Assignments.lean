import Mathlib.Data.List.Nodup

/-! Tables written by assignments: a key that is there keeps its place, a new one goes to the end. -/

namespace Assignments

variable {κ β : Type} [DecidableEq κ]

/-- `table[k] = b` -/
@[simp] def store : List (κ × β) → κ → β → List (κ × β)
  | [], k, b => [(k, b)]
  | (key, old) :: rest, k, b => if key = k then (k, b) :: rest else (key, old) :: store rest k b

/-- `table.update(entries)` -/
def update (table entries : List (κ × β)) : List (κ × β) :=
  entries.foldl (fun table entry => store table entry.1 entry.2) table

@[simp] theorem update_nil (table : List (κ × β)) : update table [] = table := rfl

@[simp] theorem update_cons (table entries : List (κ × β)) (entry : κ × β) :
    update table (entry :: entries) = update (store table entry.1 entry.2) entries := rfl

theorem lookup_store (table : List (κ × β)) (k other : κ) (b : β) :
    (store table k b).lookup other = if other = k then some b else table.lookup other := by
  induction table with
  | nil =>
    rw [store, List.lookup_cons, List.lookup_nil]
    by_cases same : other = k
    · simp [same]
    · simp [same, beq_false_of_ne same]
  | cons entry rest later =>
    rw [store]
    by_cases here : entry.1 = k
    · rw [if_pos here, List.lookup_cons, List.lookup_cons, here]
      by_cases same : other = k
      · simp [same]
      · simp [same, beq_false_of_ne same]
    · rw [if_neg here, List.lookup_cons, List.lookup_cons, later]
      by_cases first : other = entry.1
      · simp [first, here]
      · simp [beq_false_of_ne first]

theorem lookup_update (entries table : List (κ × β)) (k : κ) :
    (update table entries).lookup k = (entries.reverse.lookup k).or (table.lookup k) := by
  induction entries generalizing table with
  | nil => rfl
  | cons entry rest later =>
    rw [update_cons, later, lookup_store, List.reverse_cons, List.lookup_append, Option.or_assoc]
    congr 1
    rw [List.lookup_cons, List.lookup_nil]
    by_cases same : k = entry.1
    · simp [same]
    · simp [same, beq_false_of_ne same]

theorem lookup_reverse (entries : List (κ × β)) (k : κ) (distinct : (entries.map Prod.fst).Nodup) :
    entries.reverse.lookup k = entries.lookup k := by
  induction entries with
  | nil => rfl
  | cons entry rest later =>
    rw [List.map_cons, List.nodup_cons] at distinct
    rw [List.reverse_cons, List.lookup_append, later distinct.2, List.lookup_cons, List.lookup_cons,
      List.lookup_nil]
    by_cases same : k = entry.1
    · have absent : rest.lookup k = none := by
        rw [List.lookup_eq_none_iff]
        intro other member
        apply bne_iff_ne.mpr
        intro equal
        exact distinct.1 (same ▸ equal ▸ List.mem_map_of_mem member)
      rw [absent, same, beq_self_eq_true]
      rfl
    · rw [beq_false_of_ne same, Option.or_none]

theorem lookup_update_distinct (entries table : List (κ × β)) (k : κ)
    (distinct : (entries.map Prod.fst).Nodup) :
    (update table entries).lookup k = (entries.lookup k).or (table.lookup k) := by
  rw [lookup_update, lookup_reverse entries k distinct]

theorem store_keys (table : List (κ × β)) (k : κ) (b : β) :
    (store table k b).map Prod.fst =
      if k ∈ table.map Prod.fst then table.map Prod.fst else table.map Prod.fst ++ [k] := by
  induction table with
  | nil => rfl
  | cons entry rest later =>
    rw [store]
    by_cases here : entry.1 = k
    · rw [if_pos here, if_pos (by simp [here]), List.map_cons, List.map_cons, here]
    · rw [if_neg here, List.map_cons, List.map_cons, later]
      by_cases further : k ∈ rest.map Prod.fst
      · rw [if_pos further, if_pos (List.mem_cons_of_mem _ further)]
      · have absent : k ∉ entry.1 :: rest.map Prod.fst := by
          rw [List.mem_cons, not_or]
          exact ⟨Ne.symm here, further⟩
        rw [if_neg further, if_neg absent, List.cons_append]

theorem store_nodup (table : List (κ × β)) (k : κ) (b : β) (distinct : (table.map Prod.fst).Nodup) :
    ((store table k b).map Prod.fst).Nodup := by
  rw [store_keys]
  split
  · exact distinct
  · rename_i absent
    rw [List.nodup_append]
    exact ⟨distinct, List.nodup_singleton k, fun a member c last same =>
      absent (List.mem_singleton.mp last ▸ same ▸ member)⟩

theorem update_nodup (entries table : List (κ × β)) (distinct : (table.map Prod.fst).Nodup) :
    ((update table entries).map Prod.fst).Nodup := by
  induction entries generalizing table with
  | nil => exact distinct
  | cons entry rest later => exact later _ (store_nodup table entry.1 entry.2 distinct)

end Assignments
