import Mathlib.Algebra.BigOperators.Fin
import Mathlib.Algebra.Order.BigOperators.Group.Finset

/-! Bounded semaphores that a table of calls shares. A call holds at most one permit; when no permit is
lost, and how many calls hold one. -/

namespace Permits

/-- `free` of `size` permits are there to be taken. -/
structure Semaphore where
  size : Nat
  free : Nat
  bounded : free ≤ size

namespace Semaphore

def fresh (size : Nat) : Semaphore := ⟨size, size, Nat.le_refl size⟩

def acquire (s : Semaphore) : Option Semaphore :=
  if 0 < s.free then some ⟨s.size, s.free - 1, Nat.le_trans (Nat.sub_le _ _) s.bounded⟩ else none

/-- One permit more than there are is refused. -/
def release (s : Semaphore) : Option Semaphore :=
  if room : s.free < s.size then some ⟨s.size, s.free + 1, room⟩ else none

theorem acquire_eq_some (s taken : Semaphore) (done : s.acquire = some taken) :
    taken.size = s.size ∧ taken.free + 1 = s.free := by
  rw [acquire] at done
  split at done
  · next available =>
    rw [← Option.some.inj done]
    exact ⟨rfl, Nat.sub_add_cancel available⟩
  · contradiction

theorem release_of_room (s : Semaphore) (room : s.free < s.size) :
    ∃ given : Semaphore, s.release = some given ∧ given.size = s.size ∧ given.free = s.free + 1 := by
  rw [release, dif_pos room]
  exact ⟨_, rfl, rfl, rfl⟩

end Semaphore

variable {P : Type} (holds : P → Option Nat)

def holders (calls : List P) (k : Nat) : Nat := calls.countP fun p => holds p = some k

theorem holders_concat (calls : List P) (new : P) (k : Nat) (silent : holds new = none) :
    holders holds (calls ++ [new]) k = holders holds calls k := by
  simp [holders, silent]

theorem holders_set (calls : List P) (i k : Nat) (old new : P) (present : calls[i]? = some old) :
    holders holds (calls.set i new) k + (if holds old = some k then 1 else 0) =
      holders holds calls k + if holds new = some k then 1 else 0 := by
  obtain ⟨inside, here⟩ := List.getElem?_eq_some_iff.mp present
  have counted : holds old = some k → 0 < holders holds calls k := fun held =>
    List.countP_pos_iff.mpr ⟨old, List.mem_of_getElem? present, decide_eq_true held⟩
  rw [holders, List.countP_set inside, here, ← holders]
  simp only [decide_eq_true_eq]
  split
  · next held =>
    have positive := counted held
    omega
  · omega

structure Balanced (sems : List Semaphore) (calls : List P) : Prop where
  known : ∀ p ∈ calls, ∀ k, holds p = some k → k < sems.length
  whole : ∀ k s, sems[k]? = some s → s.free + holders holds calls k = s.size

theorem balanced_nil : Balanced holds [] [] :=
  ⟨fun _ member => absurd member List.not_mem_nil, fun _ _ present => by
    rw [List.getElem?_nil] at present
    contradiction⟩

section

variable {holds} {sems : List Semaphore} {calls : List P} (balanced : Balanced holds sems calls)

include balanced

theorem balanced_fresh (size : Nat) : Balanced holds (sems ++ [.fresh size]) calls := by
  refine ⟨fun p member k held => ?_, fun k s present => ?_⟩
  · rw [List.length_append]
    exact Nat.lt_add_right _ (balanced.known p member k held)
  · rw [List.getElem?_append] at present
    split at present
    · exact balanced.whole k s present
    · next beyond =>
      -- Nobody holds a permit of a semaphore that was not there.
      have unheld : holders holds calls k = 0 := by
        refine List.countP_eq_zero.mpr fun p member held => beyond ?_
        exact balanced.known p member k (of_decide_eq_true held)
      rw [List.mem_singleton.mp (List.mem_of_getElem? present), unheld]
      rfl

theorem balanced_concat (new : P) (silent : holds new = none) :
    Balanced holds sems (calls ++ [new]) := by
  refine ⟨fun p member k held => ?_, fun k s present => ?_⟩
  · rcases List.mem_append.mp member with member | single
    · exact balanced.known p member k held
    · rw [List.mem_singleton.mp single, silent] at held
      contradiction
  · rw [holders_concat holds calls new k silent]
    exact balanced.whole k s present

theorem known_set (i : Nat) (new : P) (n : Nat) (more : sems.length ≤ n)
    (key : ∀ k, holds new = some k → k < n) :
    ∀ p ∈ calls.set i new, ∀ k, holds p = some k → k < n := by
  intro p member k held
  rcases List.mem_or_eq_of_mem_set member with member | rfl
  · exact Nat.lt_of_lt_of_le (balanced.known p member k held) more
  · exact key k held

variable {i : Nat} {old : P} (present : calls[i]? = some old)

include present

theorem balanced_set (new : P) (same : holds new = holds old) :
    Balanced holds sems (calls.set i new) := by
  refine ⟨known_set balanced i new _ (Nat.le_refl _) fun k held => ?_, fun k s there => ?_⟩
  · rw [same] at held
    exact balanced.known old (List.mem_of_getElem? present) k held
  · have moved := holders_set holds calls i k old new present
    rw [same] at moved
    rw [Nat.add_right_cancel moved]
    exact balanced.whole k s there

theorem balanced_acquire (new : P) (k : Nat) (s taken : Semaphore) (silent : holds old = none)
    (there : sems[k]? = some s) (done : s.acquire = some taken) (held : holds new = some k) :
    Balanced holds (sems.set k taken) (calls.set i new) := by
  have inside := (List.getElem?_eq_some_iff.mp there).1
  obtain ⟨size, free⟩ := s.acquire_eq_some taken done
  refine ⟨known_set balanced i new _ (List.length_set).ge fun j same => ?_, fun j t found => ?_⟩
  · rw [held] at same
    rwa [← Option.some.inj same, List.length_set]
  · have moved := holders_set holds calls i j old new present
    rw [silent, held, if_neg (Option.some_ne_none j).symm, Nat.add_zero] at moved
    rw [List.getElem?_set] at found
    split at found
    · next here =>
      subst here
      rw [if_pos rfl] at moved
      have before := balanced.whole k s there
      rw [← Option.some.inj found]
      omega
    · next other =>
      rw [if_neg (fun same => other (Option.some.inj same)), Nat.add_zero] at moved
      rw [moved]
      exact balanced.whole j t found

theorem balanced_release (new : P) (k : Nat) (held : holds old = some k) (silent : holds new = none) :
    ∃ s given, sems[k]? = some s ∧ s.release = some given ∧ given.size = s.size ∧
      Balanced holds (sems.set k given) (calls.set i new) := by
  have inside := balanced.known old (List.mem_of_getElem? present) k held
  have there : sems[k]? = some sems[k] := List.getElem?_eq_getElem inside
  have before := balanced.whole k _ there
  have counted : 0 < holders holds calls k :=
    List.countP_pos_iff.mpr ⟨old, List.mem_of_getElem? present, decide_eq_true held⟩
  obtain ⟨given, done, size, free⟩ := sems[k].release_of_room (by omega)
  refine ⟨_, given, there, done, size,
    known_set balanced i new _ (List.length_set).ge fun j same => ?_, fun j t found => ?_⟩
  · rw [silent] at same
    contradiction
  · have moved := holders_set holds calls i j old new present
    rw [silent, held, if_neg (Option.some_ne_none j).symm, Nat.add_zero] at moved
    rw [List.getElem?_set] at found
    split at found
    · next here =>
      subst here
      rw [if_pos rfl] at moved
      rw [← Option.some.inj found]
      omega
    · next other =>
      rw [if_neg (fun same => other (Option.some.inj same)), Nat.add_zero] at moved
      rw [moved]
      exact balanced.whole j t found

end

section

variable {holds} {sems : List Semaphore} {calls : List P} (balanced : Balanced holds sems calls)

include balanced

theorem holders_le (k : Nat) (s : Semaphore) (there : sems[k]? = some s) :
    holders holds calls k ≤ s.size :=
  (Nat.le_add_left _ _).trans (balanced.whole k s there).le

/-- Each holder is counted at one semaphore. -/
theorem taken_eq_sum : calls.countP (fun p => (holds p).isSome) =
    ∑ k : Fin sems.length, holders holds calls k := by
  have known := balanced.known
  clear balanced
  induction calls with
  | nil => simp [holders]
  | cons p rest later =>
    have rest_known := later fun q member => known q (List.mem_cons_of_mem p member)
    have own : (∑ k : Fin sems.length, if holds p = some (k : Nat) then 1 else 0) =
        if (holds p).isSome then 1 else 0 := by
      cases held : holds p with
      | none => simp
      | some j =>
        have inside := known p List.mem_cons_self j held
        have only : ∀ k : Fin sems.length, some j = some (k : Nat) ↔ ⟨j, inside⟩ = k := fun k => by
          rw [Option.some.injEq, Fin.ext_iff]
        simp [only]
    simp only [holders, List.countP_cons, decide_eq_true_eq, Finset.sum_add_distrib, own] at rest_known ⊢
    rw [rest_known]

/-- No more calls hold a permit than there are permits. -/
theorem taken_le : calls.countP (fun p => (holds p).isSome) ≤ (sems.map Semaphore.size).sum := by
  rw [taken_eq_sum balanced, ← Fin.sum_univ_fun_getElem]
  refine Finset.sum_le_sum fun k _ => ?_
  exact holders_le balanced k sems[k] (List.getElem?_eq_getElem k.isLt)

end

end Permits
