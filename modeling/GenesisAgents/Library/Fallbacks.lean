import Mathlib.Data.List.Basic

/-! Asking one alternative after another, each again where its reply asks for that, until a reply decides. -/

namespace Fallbacks

inductive Verdict (E A : Type) where
  | again (why : E)
  | next
  | decided (outcome : A)

def Verdict.decision {E A : Type} : Verdict E A → Option A
  | decided outcome => some outcome
  | _ => none

def Verdict.reason {E A : Type} : Verdict E A → Option E
  | again why => some why
  | _ => none

structure Asked (M E : Type) where
  posts : List M
  last : Option E

variable {M R E A : Type} (judge : M → R → Verdict E A) (reply : Nat → R)

def Asked.post (asked : Asked M E) (m : M) (last : Option E) : Asked M E := ⟨asked.posts ++ [m], last⟩

/-- One alternative, with so many further tries. -/
@[simp] def tryOne (m : M) : Nat → Asked M E → Option A × Asked M E
  | retries, asked =>
    match judge m (reply asked.posts.length) with
    | .decided outcome => (some outcome, asked.post m asked.last)
    | .next => (none, asked.post m asked.last)
    | .again why =>
      match retries with
      | 0 => (none, asked.post m (some why))
      | n + 1 => tryOne m n (asked.post m (some why))

@[simp] def tryAll (retries : Nat) : List M → Asked M E → Option A × Asked M E
  | [], asked => (none, asked)
  | m :: rest, asked =>
    match tryOne judge reply m retries asked with
    | (some outcome, asked) => (some outcome, asked)
    | (none, asked) => tryAll retries rest asked

/-- The verdicts on posts, the first of which is post number `k`. -/
@[simp] def verdicts : Nat → List M → List (Verdict E A)
  | _, [] => []
  | k, m :: rest => judge m (reply k) :: verdicts (k + 1) rest

theorem verdicts_append (first second : List M) : ∀ k, verdicts judge reply k (first ++ second) =
    verdicts judge reply k first ++ verdicts judge reply (k + first.length) second := by
  induction first with
  | nil => exact fun _ => rfl
  | cons m rest later =>
    intro k
    rw [List.cons_append, verdicts, verdicts, later, List.cons_append, List.length_cons,
      Nat.add_assoc k 1, Nat.add_comm 1]

/-- What the posts `new` have come to: none of them was decided but the last one. -/
structure Came (before after : Asked M E) (outcome : Option A) (new : List M) : Prop where
  posts : after.posts = before.posts ++ new
  outcome : (verdicts judge reply before.posts.length new).findSome? Verdict.decision = outcome
  early : ∀ v ∈ (verdicts judge reply before.posts.length new).dropLast, v.decision = none
  last : after.last = ((verdicts judge reply before.posts.length new).filterMap
    Verdict.reason).getLast?.or before.last

theorem came_refl (asked : Asked M E) : Came judge reply asked asked none [] :=
  ⟨(List.append_nil _).symm, rfl, fun _ member => absurd member List.not_mem_nil, rfl⟩

theorem came_post (asked : Asked M E) (m : M) :
    Came judge reply asked
      (asked.post m ((judge m (reply asked.posts.length)).reason.or asked.last))
      (judge m (reply asked.posts.length)).decision [m] := by
  refine ⟨rfl, ?_, fun _ member => absurd member List.not_mem_nil, ?_⟩
  all_goals
    rw [verdicts, verdicts]
    cases judge m (reply asked.posts.length) <;> rfl

theorem Came.decided {before after : Asked M E} {a : A} {new : List M}
    (came : Came judge reply before after (some a) new) :
    ∃ m, after.posts.getLast? = some m ∧
      (judge m (reply (after.posts.length - 1))).decision = some a := by
  rcases List.eq_nil_or_concat new with rfl | ⟨front, m, rfl⟩
  · cases came.outcome
  · have split := verdicts_append judge reply front [m] before.posts.length
    have early := came.early
    have outcome := came.outcome
    rw [List.concat_eq_append, split, verdicts, verdicts] at early outcome
    rw [List.dropLast_concat] at early
    rw [List.findSome?_append, List.findSome?_eq_none_iff.mpr early, Option.none_or,
      List.findSome?_singleton] at outcome
    refine ⟨m, ?_, ?_⟩
    · rw [came.posts, List.concat_eq_append, ← List.append_assoc, List.getLast?_concat]
    · rw [came.posts, List.concat_eq_append, ← List.append_assoc, List.length_append,
        List.length_singleton, Nat.add_sub_cancel, List.length_append]
      exact outcome

theorem Came.trans {before between after : Asked M E} {outcome : Option A} {first second : List M}
    (open_ : Came judge reply before between none first)
    (next : Came judge reply between after outcome second) :
    Came judge reply before after outcome (first ++ second) := by
  have split := verdicts_append judge reply first second before.posts.length
  have length : before.posts.length + first.length = between.posts.length := by
    rw [open_.posts, List.length_append]
  rw [length] at split
  refine ⟨?_, ?_, fun v member => ?_, ?_⟩
  · rw [next.posts, open_.posts, List.append_assoc]
  · rw [split, List.findSome?_append, open_.outcome, next.outcome]
    rfl
  · have undecided := List.findSome?_eq_none_iff.mp open_.outcome
    rw [split] at member
    by_cases empty : verdicts judge reply between.posts.length second = []
    · rw [empty, List.append_nil] at member
      exact undecided v (List.dropLast_subset _ member)
    · rw [List.dropLast_append_of_ne_nil empty] at member
      rcases List.mem_append.mp member with member | member
      · exact undecided v member
      · exact next.early v member
  · rw [next.last, open_.last, split, List.filterMap_append, List.getLast?_append, Option.or_assoc]

theorem tryOne_came (m : M) (retries : Nat) : ∀ asked : Asked M E,
    ∃ n ≤ retries, Came judge reply asked (tryOne judge reply m retries asked).2
      (tryOne judge reply m retries asked).1 (List.replicate (n + 1) m) := by
  induction retries with
  | zero =>
    intro asked
    refine ⟨0, Nat.le_refl 0, ?_⟩
    have posted := came_post judge reply asked m
    rw [tryOne]
    cases verdict : judge m (reply asked.posts.length) <;> rw [verdict] at posted <;> exact posted
  | succ retries later =>
    intro asked
    have posted := came_post judge reply asked m
    rw [tryOne]
    cases verdict : judge m (reply asked.posts.length) with
    | decided outcome =>
      rw [verdict] at posted
      exact ⟨0, Nat.zero_le _, posted⟩
    | next =>
      rw [verdict] at posted
      exact ⟨0, Nat.zero_le _, posted⟩
    | again why =>
      rw [verdict] at posted
      obtain ⟨n, few, came⟩ := later (asked.post m (some why))
      exact ⟨n + 1, Nat.succ_le_succ few, posted.trans judge reply came⟩

/-- The alternatives are asked in their order, each at most so many times more than once, and all of
them where no reply decides. -/
theorem tryAll_came (retries : Nat) (ms : List M) : ∀ asked : Asked M E, ∃ new,
    Came judge reply asked (tryAll judge reply retries ms asked).2
      (tryAll judge reply retries ms asked).1 new ∧
    new.Sublist (ms.flatMap (List.replicate (retries + 1))) ∧
    ((tryAll judge reply retries ms asked).1 = none → ms ⊆ new) ∧ (ms ≠ [] → new ≠ []) := by
  induction ms with
  | nil => exact fun asked => ⟨[], came_refl judge reply asked, .slnil, fun _ => List.Subset.refl [], id⟩
  | cons m rest later =>
    intro asked
    obtain ⟨n, few, came⟩ := tryOne_came judge reply m retries asked
    have once : (List.replicate (n + 1) m).Sublist (List.replicate (retries + 1) m) :=
      List.replicate_sublist_replicate m |>.mpr (Nat.succ_le_succ few)
    rw [tryAll]
    generalize tryOne judge reply m retries asked = tried at came ⊢
    obtain ⟨_ | outcome, asked'⟩ := tried
    · obtain ⟨new, onward, sub, all, -⟩ := later asked'
      refine ⟨List.replicate (n + 1) m ++ new, came.trans judge reply onward, ?_, fun open_ => ?_,
        fun _ => List.cons_ne_nil _ _⟩
      · rw [List.flatMap_cons]
        exact once.append sub
      · refine List.cons_subset.mpr ⟨List.mem_append_left _ List.mem_cons_self, ?_⟩
        exact List.Subset.trans (all open_) (List.subset_append_right _ _)
    · refine ⟨List.replicate (n + 1) m, came, ?_, fun open_ => by contradiction,
        fun _ => List.cons_ne_nil _ _⟩
      rw [List.flatMap_cons]
      exact once.trans (List.sublist_append_left _ _)

end Fallbacks
