import Mathlib.Algebra.BigOperators.Group.List.Basic
import Mathlib.Algebra.Order.Ring.Int
import Mathlib.Data.List.Nodup

/-! Tallies: amounts gathered under their keys, each key once, in the order the keys come first. -/

structure Tally (κ M : Type) where
  entries : List (κ × M)
  distinct : (entries.map Prod.fst).Nodup

namespace Tally

variable {κ M : Type}

def keys (t : Tally κ M) : List κ := t.entries.map Prod.fst

def empty : Tally κ M := ⟨[], List.nodup_nil⟩

variable [AddCommMonoid M]

def sumOf (p : κ → Bool) (entries : List (κ × M)) : M :=
  ((entries.filter fun entry => p entry.1).map Prod.snd).sum

theorem sumOf_cons (p : κ → Bool) (entry : κ × M) (rest : List (κ × M)) :
    sumOf p (entry :: rest) = (if p entry.1 then entry.2 else 0) + sumOf p rest := by
  rw [sumOf, List.filter_cons]
  split
  · rw [List.map_cons, List.sum_cons]
    rfl
  · rw [zero_add]
    rfl

theorem sumOf_append (p : κ → Bool) (front back : List (κ × M)) :
    sumOf p (front ++ back) = sumOf p front + sumOf p back := by
  rw [sumOf, List.filter_append, List.map_append, List.sum_append]
  rfl

theorem sumOf_all (entries : List (κ × M)) :
    sumOf (fun _ => true) entries = (entries.map Prod.snd).sum := by
  rw [sumOf, List.filter_true]

theorem sumOf_absent (p : κ → Bool) (entries : List (κ × M))
    (absent : ∀ k ∈ entries.map Prod.fst, p k = false) : sumOf p entries = 0 := by
  have none_ : (entries.filter fun entry => p entry.1) = [] := by
    rw [List.filter_eq_nil_iff]
    intro entry member
    rw [absent entry.1 (List.mem_map_of_mem member)]
    exact Bool.false_ne_true
  rw [sumOf, none_]
  rfl

variable [DecidableEq κ]

def get (t : Tally κ M) (k : κ) : M := (t.entries.lookup k).getD 0

def raise (k : κ) (n : M) (entry : κ × M) : κ × M := if entry.1 = k then (k, entry.2 + n) else entry

theorem raise_fst (k : κ) (n : M) (entry : κ × M) : (raise k n entry).1 = entry.1 := by
  rw [raise]
  split
  · rename_i same
    exact same.symm
  · rfl

theorem map_raise_fst (k : κ) (n : M) (entries : List (κ × M)) :
    (entries.map (raise k n)).map Prod.fst = entries.map Prod.fst := by
  rw [List.map_map]
  exact List.map_congr_left fun entry _ => raise_fst k n entry

def add (t : Tally κ M) (k : κ) (n : M) : Tally κ M :=
  if present : k ∈ t.keys then
    { entries := t.entries.map (raise k n)
      distinct := by rw [map_raise_fst]; exact t.distinct }
  else
    { entries := t.entries ++ [(k, n)]
      distinct := by
        rw [List.map_append]
        refine List.Nodup.append t.distinct (List.nodup_singleton k) ?_
        intro other there here
        rw [List.mem_singleton.mp here] at there
        exact present there }

theorem keys_add (t : Tally κ M) (k : κ) (n : M) :
    (t.add k n).keys = if k ∈ t.keys then t.keys else t.keys ++ [k] := by
  unfold add
  split
  · exact map_raise_fst k n t.entries
  · rw [keys, List.map_append]
    rfl

theorem mem_keys_add (t : Tally κ M) (k other : κ) (n : M) :
    other ∈ (t.add k n).keys ↔ other ∈ t.keys ∨ other = k := by
  rw [keys_add]
  split
  · rename_i present
    refine ⟨.inl, ?_⟩
    rintro (there | rfl)
    · exact there
    · exact present
  · rw [List.mem_append, List.mem_singleton]

theorem map_raise_absent (k : κ) (n : M) (entries : List (κ × M))
    (absent : k ∉ entries.map Prod.fst) : entries.map (raise k n) = entries := by
  have each : ∀ entry ∈ entries, raise k n entry = entry := fun entry member =>
    if_neg fun same : entry.1 = k => absent (same ▸ List.mem_map_of_mem member)
  rw [List.map_congr_left each, List.map_id']

theorem sumOf_raise (p : κ → Bool) (k : κ) (n : M) (entries : List (κ × M))
    (distinct : (entries.map Prod.fst).Nodup) (present : k ∈ entries.map Prod.fst) :
    sumOf p (entries.map (raise k n)) = sumOf p entries + if p k then n else 0 := by
  induction entries with
  | nil => exact absurd present List.not_mem_nil
  | cons entry rest later =>
    rw [List.map_cons, List.nodup_cons] at distinct
    rw [List.map_cons, sumOf_cons, sumOf_cons, raise_fst]
    by_cases here : entry.1 = k
    · rw [map_raise_absent k n rest (here ▸ distinct.1), raise, if_pos here, here, add_right_comm]
      cases p k with
      | false => simp
      | true => simp
    · have there := (List.mem_cons.mp present).resolve_left fun same => here same.symm
      rw [later distinct.2 there, raise, if_neg here, add_assoc]

theorem sumOf_add (t : Tally κ M) (p : κ → Bool) (k : κ) (n : M) :
    sumOf p (t.add k n).entries = sumOf p t.entries + if p k then n else 0 := by
  unfold add
  split
  · rename_i present
    exact sumOf_raise p k n t.entries t.distinct present
  · change sumOf p (t.entries ++ [(k, n)]) = _
    rw [sumOf_append, sumOf_cons]
    exact congrArg _ (add_zero _)

/-- The amount of a key is the sum over its one entry. -/
theorem get_eq_sumOf (t : Tally κ M) (k : κ) : t.get k = sumOf (· = k) t.entries := by
  rcases t with ⟨entries, distinct⟩
  rw [get]
  dsimp only
  induction entries with
  | nil => rfl
  | cons entry rest later =>
    rw [List.map_cons, List.nodup_cons] at distinct
    rw [List.lookup_cons, sumOf_cons]
    by_cases here : entry.1 = k
    · have others : sumOf (· = k) rest = 0 := by
        refine sumOf_absent _ rest fun other member => decide_eq_false ?_
        rintro rfl
        exact distinct.1 (here ▸ member)
      simp [here, others]
    · have apart : (k == entry.1) = false := beq_false_of_ne fun same => here same.symm
      rw [apart, later distinct.2, if_neg (by simpa using here), zero_add]

theorem get_of_mem (t : Tally κ M) (entry : κ × M) (member : entry ∈ t.entries) :
    t.get entry.1 = entry.2 := by
  rcases t with ⟨entries, distinct⟩
  rw [get]
  dsimp only at member ⊢
  induction entries with
  | nil => exact absurd member List.not_mem_nil
  | cons first rest later =>
    rw [List.map_cons, List.nodup_cons] at distinct
    rw [List.lookup_cons]
    rcases List.mem_cons.mp member with rfl | there
    · rw [beq_self_eq_true]
      rfl
    · have apart : (entry.1 == first.1) = false :=
        beq_false_of_ne fun same => distinct.1 (same ▸ List.mem_map_of_mem there)
      rw [apart]
      exact later distinct.2 there

/-- The amounts of keys that are all there, each once, add up to everything. -/
theorem sum_get (t : Tally κ M) (ks : List κ) (distinct : ks.Nodup) (all : ∀ k ∈ t.keys, k ∈ ks) :
    (ks.map t.get).sum = (t.entries.map Prod.snd).sum := by
  have every : ∀ entries : List (κ × M), (∀ k ∈ entries.map Prod.fst, k ∈ ks) →
      (ks.map fun k => sumOf (· = k) entries).sum = (entries.map Prod.snd).sum := by
    intro entries
    induction entries with
    | nil =>
      intro _
      simp [sumOf]
    | cons entry rest later =>
      intro inside
      rw [List.map_cons, List.forall_mem_cons] at inside
      simp only [sumOf_cons, List.sum_map_add, List.map_cons, List.sum_cons, later inside.2]
      have single := List.sum_map_eq_nsmul_single (l := ks) entry.1
        (fun k => if decide (entry.1 = k) = true then entry.2 else 0)
        fun k other _ => if_neg (by simpa using Ne.symm other)
      rw [single, List.count_eq_one_of_mem distinct inside.1, one_nsmul]
      simp
  rw [List.map_congr_left fun k _ => get_eq_sumOf t k]
  exact every t.entries all

section

variable {α : Type} (key : α → κ) (amount : α → M)

def gather (t : Tally κ M) (rows : List α) : Tally κ M :=
  rows.foldl (fun t row => t.add (key row) (amount row)) t

theorem sumOf_gather (p : κ → Bool) (rows : List α) : ∀ t : Tally κ M,
    sumOf p (t.gather key amount rows).entries =
      sumOf p t.entries + ((rows.filter fun row => p (key row)).map amount).sum := by
  induction rows with
  | nil => exact fun t => (add_zero _).symm
  | cons row rest later =>
    intro t
    rw [gather, List.foldl_cons, ← gather, later, sumOf_add, List.filter_cons]
    cases p (key row) <;> simp [add_assoc]

theorem mem_keys_gather (rows : List α) : ∀ (t : Tally κ M) (k : κ),
    k ∈ (t.gather key amount rows).keys ↔ k ∈ t.keys ∨ ∃ row ∈ rows, key row = k := by
  induction rows with
  | nil => simp [gather]
  | cons row rest later =>
    intro t k
    rw [gather, List.foldl_cons, ← gather, later, mem_keys_add, List.exists_mem_cons_iff, or_assoc,
      eq_comm (a := k)]

end

end Tally
