import Mathlib.Data.List.Basic

/-! Tables of concurrent calls: one call moves at a time, some phases hold an exclusive key, and a call
that finishes leaves one result. -/

namespace CallTable

variable {P K R : Type}

def Apart (holds : P → Option K) (calls : List P) : Prop :=
  ∀ (i j : Nat) (p q : P), i ≠ j → calls[i]? = some p → calls[j]? = some q →
    ∀ key, holds p = some key → holds q ≠ some key

theorem apart_nil (holds : P → Option K) : Apart holds [] := by
  intro i j p q _ present
  simp at present

theorem getElem?_set_cases (calls : List P) (i j : Nat) (new p : P)
    (present : (calls.set i new)[j]? = some p) : i = j ∧ p = new ∨ i ≠ j ∧ calls[j]? = some p := by
  rw [List.getElem?_set] at present
  split at present
  · rename_i same
    split at present
    · exact .inl ⟨same, (Option.some.inj present).symm⟩
    · contradiction
  · rename_i other
    exact .inr ⟨other, present⟩

theorem getElem?_concat_cases (calls : List P) (j : Nat) (new p : P)
    (present : (calls ++ [new])[j]? = some p) :
    j = calls.length ∧ p = new ∨ calls[j]? = some p := by
  rw [List.getElem?_append] at present
  split at present
  · exact .inr present
  · rename_i beyond
    have last : j - calls.length = 0 := by
      by_contra further
      rw [List.getElem?_eq_none (by simpa using Nat.one_le_iff_ne_zero.mpr further)] at present
      contradiction
    rw [last] at present
    exact .inl ⟨by omega, (Option.some.inj present).symm⟩

theorem map_set_same {Q : Type} (f : P → Q) (calls : List P) (i : Nat) (old new : P)
    (present : calls[i]? = some old) (same : f new = f old) : (calls.set i new).map f = calls.map f := by
  obtain ⟨inside, rfl⟩ := List.getElem?_eq_some_iff.mp present
  rw [List.map_set, same, ← List.getElem_map f (h := by simpa using inside)]
  exact List.set_getElem_self _

theorem apart_concat (holds : P → Option K) (calls : List P) (new : P) (apart : Apart holds calls)
    (silent : holds new = none) : Apart holds (calls ++ [new]) := by
  intro i j p q distinct left right key held
  rcases getElem?_concat_cases calls i new p left with ⟨-, rfl⟩ | left
  · rw [silent] at held
    contradiction
  rcases getElem?_concat_cases calls j new q right with ⟨-, rfl⟩ | right
  · rw [silent]
    exact (Option.some_ne_none key).symm
  · exact apart i j p q distinct left right key held

/-- A call that moves holds what it held, or nothing, or a key that nobody held. -/
theorem apart_set (holds : P → Option K) (calls : List P) (i : Nat) (old new : P)
    (apart : Apart holds calls) (present : calls[i]? = some old)
    (key_ok : ∀ key, holds new = some key →
      holds old = some key ∨ ∀ p ∈ calls, holds p ≠ some key) :
    Apart holds (calls.set i new) := by
  have others : ∀ (j : Nat) (q : P), i ≠ j → calls[j]? = some q → ∀ key, holds new = some key →
      holds q ≠ some key := by
    intro j q distinct right key held
    rcases key_ok key held with kept | free
    · exact apart i j old q distinct present right key kept
    · exact free q (List.mem_of_getElem? right)
  intro a b p q distinct left right key held taken
  rcases getElem?_set_cases calls i a new p left with ⟨here, moved⟩ | ⟨off, left⟩
  · rcases getElem?_set_cases calls i b new q right with ⟨there, -⟩ | ⟨off, right⟩
    · exact distinct (here.symm.trans there)
    · rw [moved] at held
      exact others b q off right key held taken
  · rcases getElem?_set_cases calls i b new q right with ⟨-, moved⟩ | ⟨-, right⟩
    · rw [moved] at taken
      exact others a p off left key taken held
    · exact apart a b p q distinct left right key held taken

def Each (R : P → P → Prop) (calls : List P) : Prop :=
  ∀ (i j : Nat) (p q : P), i ≠ j → calls[i]? = some p → calls[j]? = some q → R p q

theorem each_nil (R : P → P → Prop) : Each R [] := by
  intro i j p q _ present
  simp at present

theorem each_concat (R : P → P → Prop) (calls : List P) (new : P) (each : Each R calls)
    (fresh : ∀ p ∈ calls, R p new ∧ R new p) : Each R (calls ++ [new]) := by
  intro i j p q distinct left right
  rcases getElem?_concat_cases calls i new p left with ⟨here, moved⟩ | first
  · rcases getElem?_concat_cases calls j new q right with ⟨there, -⟩ | second
    · exact absurd (here.trans there.symm) distinct
    · rw [moved]
      exact (fresh q (List.mem_of_getElem? second)).2
  · rcases getElem?_concat_cases calls j new q right with ⟨-, moved⟩ | second
    · rw [moved]
      exact (fresh p (List.mem_of_getElem? first)).1
    · exact each i j p q distinct first second

theorem each_set (R : P → P → Prop) (calls : List P) (i : Nat) (new : P) (each : Each R calls)
    (fresh : ∀ (j : Nat) (q : P), i ≠ j → calls[j]? = some q → R q new ∧ R new q) :
    Each R (calls.set i new) := by
  intro a b p q distinct left right
  rcases getElem?_set_cases calls i a new p left with ⟨here, moved⟩ | ⟨off, first⟩
  · rcases getElem?_set_cases calls i b new q right with ⟨there, -⟩ | ⟨off, second⟩
    · exact absurd (here.symm.trans there) distinct
    · rw [moved]
      exact (fresh b q off second).2
  · rcases getElem?_set_cases calls i b new q right with ⟨-, moved⟩ | ⟨-, second⟩
    · rw [moved]
      exact (fresh a p off first).1
    · exact each a b p q distinct first second

structure Ledger (done : P → Option R) (calls : List P) (order : List Nat) (results : List R) :
    Prop where
  results : results = order.filterMap fun i => calls[i]?.bind done
  once : order.Nodup
  finished : ∀ i, i ∈ order ↔ ∃ result, calls[i]?.bind done = some result

theorem ledger_nil (done : P → Option R) : Ledger done [] [] [] :=
  ⟨rfl, .nil, by simp⟩

theorem ledger_concat (done : P → Option R) (calls : List P) (order : List Nat) (results : List R)
    (new : P) (ledger : Ledger done calls order results) (open_ : done new = none) :
    Ledger done (calls ++ [new]) order results := by
  have same (i : Nat) : (calls ++ [new])[i]?.bind done = calls[i]?.bind done := by
    rw [List.getElem?_append]
    split
    · rfl
    · rename_i beyond
      rw [List.getElem?_eq_none (Nat.le_of_not_lt beyond)]
      rcases i - calls.length with _ | n
      · simpa using open_
      · simp
  exact ⟨by simpa only [same] using ledger.results, ledger.once, by
    simpa only [same] using ledger.finished⟩

theorem bind_set_other (done : P → Option R) (calls : List P) (i j : Nat) (new : P)
    (other : i ≠ j) : (calls.set i new)[j]?.bind done = calls[j]?.bind done := by
  rw [List.getElem?_set_ne other]

theorem ledger_set (done : P → Option R) (calls : List P) (order : List Nat) (results : List R)
    (i : Nat) (old new : P) (ledger : Ledger done calls order results)
    (present : calls[i]? = some old) (was_open : done old = none) (open_ : done new = none) :
    Ledger done (calls.set i new) order results := by
  have same (j : Nat) : (calls.set i new)[j]?.bind done = calls[j]?.bind done := by
    by_cases own : i = j
    · subst own
      have inside := (List.getElem?_eq_some_iff.mp present).1
      rw [List.getElem?_set_self inside, present, Option.bind_some, Option.bind_some, open_, was_open]
    · exact bind_set_other done calls i j new own
  exact ⟨by simpa only [same] using ledger.results, ledger.once, by
    simpa only [same] using ledger.finished⟩

theorem ledger_finish (done : P → Option R) (calls : List P) (order : List Nat) (results : List R)
    (i : Nat) (old new : P) (result : R) (ledger : Ledger done calls order results)
    (present : calls[i]? = some old) (was_open : done old = none) (left : done new = some result) :
    Ledger done (calls.set i new) (order ++ [i]) (results ++ [result]) := by
  have inside := (List.getElem?_eq_some_iff.mp present).1
  have own : (calls.set i new)[i]?.bind done = some result := by
    rw [List.getElem?_set_self inside, Option.bind_some, left]
  have absent : i ∉ order := by
    rw [ledger.finished, present, Option.bind_some, was_open]
    simp
  refine ⟨?_, ?_, ?_⟩
  · rw [List.filterMap_append, ledger.results]
    have earlier : ∀ j ∈ order, calls[j]?.bind done = (calls.set i new)[j]?.bind done := by
      intro j member
      exact (bind_set_other done calls i j new (fun same => absent (same ▸ member))).symm
    rw [List.filterMap_congr earlier]
    simp [own]
  · rw [List.nodup_append]
    refine ⟨ledger.once, by simp, ?_⟩
    intro a member b single same
    rw [List.mem_singleton.mp single] at same
    exact absent (same ▸ member)
  · intro j
    rw [List.mem_append, List.mem_singleton, ledger.finished]
    by_cases same : i = j
    · subst same
      simp [own]
    · rw [bind_set_other done calls i j new same]
      simp [Ne.symm same]

end CallTable
