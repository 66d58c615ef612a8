import GenesisAgents.Library.MarkedText
import Mathlib.Data.List.TakeWhile

/-! Regular expressions that match by backtracking, and what `re.sub` leaves of a text. -/

namespace Regexes

open MarkedText Letters

inductive Regex where
  | empty
  /-- Characters of a class, first as many as there are. -/
  | run (p : Char → Bool) (least : Nat) (most : Option Nat)
  /-- `\b` -/
  | boundary
  | seq (a b : Regex)
  | alt (a b : Regex)
  | group (a : Regex)

def Regex.groups : Regex → Nat
  | .seq a b => a.groups + b.groups
  | .alt a b => a.groups + b.groups
  | .group a => a.groups + 1
  | _ => 0

structure Way (α : Type) where
  groups : List (List α)
  taken : List α
  rest : List α

section

variable {α β : Type} [Letters α] [Letters β] (word : Char → Bool)

def longest (p : Char → Bool) (most : Option Nat) (s : List α) : Nat :=
  let n := (s.takeWhile fun a => p (char a)).length
  most.elim n (min n)

/-- The character before what follows `taken`. -/
def lastChar (previous : Option Char) (taken : List α) : Option Char :=
  (taken.getLast?.map char).or previous

/-- The ways to match at the head of a text, in the order in which they are tried. -/
@[simp] def ways : Regex → Option Char → List α → List (Way α)
  | .empty, _, s => [⟨[], [], s⟩]
  | .run p least most, _, s =>
    (List.range (longest p most s + 1 - least)).map fun k =>
      ⟨[], s.take (longest p most s - k), s.drop (longest p most s - k)⟩
  | .boundary, previous, s =>
    if previous.any word != s.head?.any fun a => word (char a) then [⟨[], [], s⟩] else []
  | .seq a b, previous, s =>
    (ways a previous s).flatMap fun w =>
      (ways b (lastChar previous w.taken) w.rest).map fun v =>
        ⟨w.groups ++ v.groups, w.taken ++ v.taken, v.rest⟩
  | .alt a b, previous, s => ways a previous s ++ ways b previous s
  | .group a, previous, s => (ways a previous s).map fun w => { w with groups := w.taken :: w.groups }

def matchAt (r : Regex) (previous : Option Char) (s : List α) : Option (Way α) :=
  (ways word r previous s).head?

/-- `re.search` finds a match. -/
@[simp] def search (r : Regex) : Option Char → List α → Bool
  | previous, [] => (matchAt word r previous ([] : List α)).isSome
  | previous, a :: s => (matchAt word r previous (a :: s)).isSome || search r (some (char a)) s

def replacement (kept : Nat) (text : List Char) (w : Way α) : List α :=
  (w.groups.take kept).flatten ++ text.map letter

/-- `re.sub`, for an expression that takes something wherever it matches; `skip` characters are taken. -/
@[simp] def sub (r : Regex) (kept : Nat) (text : List Char) : Option Char → Nat → List α → List α
  | _, _, [] => []
  | _, skip + 1, a :: s => sub r kept text (some (char a)) skip s
  | previous, 0, a :: s =>
    match matchAt word r previous (a :: s) with
    | some w => replacement kept text w ++ sub r kept text (some (char a)) (w.taken.length - 1) s
    | none => a :: sub r kept text (some (char a)) 0 s

/-- How many characters are still taken when the scan of `sub` has come to `back`. -/
@[simp] def skipAfter (r : Regex) (back : List α) : Option Char → Nat → List α → Nat
  | _, skip, [] => skip
  | _, skip + 1, a :: front => skipAfter r back (some (char a)) skip front
  | previous, 0, a :: front =>
    match matchAt word r previous (a :: (front ++ back)) with
    | some w => skipAfter r back (some (char a)) (w.taken.length - 1) front
    | none => skipAfter r back (some (char a)) 0 front

theorem way_splits (r : Regex) (previous : Option Char) (s : List α) (w : Way α)
    (way : w ∈ ways word r previous s) : s = w.taken ++ w.rest := by
  induction r generalizing previous s w with
  | empty =>
    rw [ways, List.mem_singleton] at way
    rw [way]
    rfl
  | run p least most =>
    rw [ways, List.mem_map] at way
    obtain ⟨k, _, rfl⟩ := way
    exact (List.take_append_drop _ _).symm
  | boundary =>
    rw [ways] at way
    split at way
    · rw [List.mem_singleton.mp way]
      rfl
    · exact absurd way List.not_mem_nil
  | seq a b first second =>
    rw [ways, List.mem_flatMap] at way
    obtain ⟨u, before, way⟩ := way
    obtain ⟨v, behind, rfl⟩ := List.mem_map.mp way
    rw [first previous s u before, second _ _ v behind, List.append_assoc]
  | alt a b first second =>
    rw [ways, List.mem_append] at way
    exact way.elim (first previous s w) (second previous s w)
  | group a inner =>
    rw [ways, List.mem_map] at way
    obtain ⟨v, way, rfl⟩ := way
    exact inner previous s v way

theorem way_groups (r : Regex) (previous : Option Char) (s : List α) (w : Way α)
    (way : w ∈ ways word r previous s) : ∀ g ∈ w.groups, g ⊆ w.taken := by
  induction r generalizing previous s w with
  | empty =>
    rw [ways, List.mem_singleton] at way
    rw [way]
    exact fun g member => absurd member List.not_mem_nil
  | run p least most =>
    rw [ways, List.mem_map] at way
    obtain ⟨k, _, rfl⟩ := way
    exact fun g member => absurd member List.not_mem_nil
  | boundary =>
    rw [ways] at way
    split at way
    · rw [List.mem_singleton.mp way]
      exact fun g member => absurd member List.not_mem_nil
    · exact absurd way List.not_mem_nil
  | seq a b first second =>
    rw [ways, List.mem_flatMap] at way
    obtain ⟨u, before, way⟩ := way
    obtain ⟨v, behind, rfl⟩ := List.mem_map.mp way
    intro g member c inside
    rcases List.mem_append.mp member with member | member
    · exact List.mem_append_left _ (first previous s u before g member inside)
    · exact List.mem_append_right _ (second _ _ v behind g member inside)
  | alt a b first second =>
    rw [ways, List.mem_append] at way
    exact way.elim (first previous s w) (second previous s w)
  | group a inner =>
    rw [ways, List.mem_map] at way
    obtain ⟨v, way, rfl⟩ := way
    intro g member
    rcases List.mem_cons.mp member with rfl | member
    · exact fun c inside => inside
    · exact inner previous s v way g member

theorem replacement_mem (kept : Nat) (text : List Char) (r : Regex) (previous : Option Char) (s : List α)
    (w : Way α) (way : w ∈ ways word r previous s) (a : α) (member : a ∈ replacement kept text w) :
    a ∈ w.taken ∨ a ∈ text.map letter := by
  rcases List.mem_append.mp member with member | member
  · obtain ⟨g, kept, inside⟩ := List.mem_flatten.mp member
    exact Or.inl (way_groups word r previous s w way g (List.mem_of_mem_take kept) inside)
  · exact Or.inr member

theorem matchAt_way (r : Regex) (previous : Option Char) (s : List α) (w : Way α)
    (found : matchAt word r previous s = some w) : w ∈ ways word r previous s :=
  List.mem_of_head? found

theorem takeWhile_all (p : Char → Bool) (front back : List α) (all : ∀ a ∈ front, p (char a) = true)
    (stops : ∀ a, back.head? = some a → p (char a) = false) :
    (front ++ back).takeWhile (fun a => p (char a)) = front ∧
      (front ++ back).dropWhile (fun a => p (char a)) = back := by
  have front' : front.takeWhile (fun a => p (char a)) = front := List.takeWhile_eq_self_iff.mpr all
  cases back with
  | nil =>
    rw [List.append_nil]
    exact ⟨front', List.dropWhile_eq_nil_iff.mpr all⟩
  | cons a back =>
    have stop : ¬p (char a) = true := by
      rw [stops a rfl]
      decide
    rw [List.takeWhile_append_of_pos all, List.dropWhile_append_of_pos all,
      List.takeWhile_cons_of_neg (p := fun a => p (char a)) stop,
      List.dropWhile_cons_of_neg (p := fun a => p (char a)) stop, List.append_nil]
    exact ⟨rfl, rfl⟩

theorem run_first (p : Char → Bool) (least : Nat) (previous : Option Char) (s : List α)
    (enough : least ≤ (s.takeWhile fun a => p (char a)).length) :
    (ways word (.run p least none) previous s).head? =
      some ⟨[], s.takeWhile fun a => p (char a), s.dropWhile fun a => p (char a)⟩ := by
  have all : longest p none s = (s.takeWhile fun a => p (char a)).length := rfl
  have positive : longest p none s + 1 - least = longest p none s - least + 1 := by omega
  have behind : s.drop (s.takeWhile fun a => p (char a)).length = s.dropWhile fun a => p (char a) := by
    have dropped := congrArg (List.drop (s.takeWhile fun a => p (char a)).length)
      (List.takeWhile_append_dropWhile (p := fun a => p (char a)) (l := s))
    rw [List.drop_left] at dropped
    exact dropped.symm
  rw [ways, positive, List.range_succ_eq_map, List.map_cons, List.head?_cons, Nat.sub_zero, all,
    ← List.prefix_iff_eq_take.mp (List.takeWhile_prefix _), behind]

theorem run_back (p : Char → Bool) (previous : Option Char) (front inner back : List α) (filled : front ≠ [])
    (all : ∀ a ∈ front ++ inner, p (char a) = true) (stops : ∀ a, back.head? = some a → p (char a) = false) :
    ∃ missed later, ways word (.run p 1 none) previous (front ++ (inner ++ back)) =
        missed ++ ⟨[], front, inner ++ back⟩ :: later ∧
      ∀ w ∈ missed, ∃ left, w.rest = left ++ back ∧ left <:+ inner ∧ left ≠ inner := by
  have whole : longest p none (front ++ (inner ++ back)) = inner.length + front.length := by
    have taken := (takeWhile_all p (front ++ inner) back all stops).1
    rw [List.append_assoc] at taken
    change (List.takeWhile _ _).length = _
    rw [taken, List.length_append, Nat.add_comm]
  obtain ⟨n, long⟩ := Nat.exists_eq_add_of_lt (List.length_pos_iff.mpr filled)
  rw [Nat.zero_add] at long
  refine ⟨(List.range inner.length).map fun k => ⟨[], front ++ inner.take (inner.length - k),
    inner.drop (inner.length - k) ++ back⟩, (List.range n).map fun k =>
      ⟨[], front.take (n - k), front.drop (n - k) ++ (inner ++ back)⟩, ?_, ?_⟩
  · rw [ways, whole, Nat.add_sub_cancel, List.range_add, List.map_append, long, List.range_succ_eq_map]
    congr 1
    · apply List.map_congr_left
      intro k inside
      rw [List.mem_range] at inside
      have cut : inner.length + (n + 1) - k = front.length + (inner.length - k) := by omega
      rw [cut, List.take_append, List.drop_append, List.take_of_length_le (Nat.le_add_right _ _),
        List.drop_of_length_le (Nat.le_add_right _ _), Nat.add_sub_cancel_left, List.nil_append,
        List.take_append_of_le_length (Nat.sub_le _ _), List.drop_append_of_le_length (Nat.sub_le _ _)]
    · rw [List.map_cons, List.map_cons, List.map_map, List.map_map]
      congr 1
      · have cut : inner.length + (n + 1) - (inner.length + 0) = front.length := by omega
        rw [cut, List.take_left, List.drop_left]
      · apply List.map_congr_left
        intro k inside
        rw [List.mem_range] at inside
        have cut : inner.length + (n + 1) - (inner.length + (k + 1)) = n - k := by omega
        dsimp only [Function.comp]
        rw [cut, List.take_append_of_le_length (by omega), List.drop_append_of_le_length (by omega)]
  · intro w member
    obtain ⟨k, inside, rfl⟩ := List.mem_map.mp member
    rw [List.mem_range] at inside
    refine ⟨_, rfl, List.drop_suffix _ _, ?_⟩
    intro same
    have lengths := congrArg List.length same
    rw [List.length_drop] at lengths
    omega

theorem run_none (p : Char → Bool) (previous : Option Char) (s : List α)
    (stops : ∀ a, s.head? = some a → p (char a) = false) : ways word (.run p 1 none) previous s = [] := by
  have nothing : s.takeWhile (fun a => p (char a)) = [] := (takeWhile_all p [] s (by simp) stops).1
  have short : longest p none s = 0 := by
    change (List.takeWhile _ _).length = 0
    rw [nothing, List.length_nil]
  rw [ways, short]
  rfl

theorem run_least (p : Char → Bool) (least : Nat) (previous : Option Char) (s : List α) (w : Way α)
    (way : w ∈ ways word (.run p least none) previous s) :
    least ≤ (s.takeWhile fun a => p (char a)).length := by
  rw [ways, List.mem_map] at way
  obtain ⟨k, inside, _⟩ := way
  rw [List.mem_range] at inside
  have all : longest p none s = (s.takeWhile fun a => p (char a)).length := rfl
  omega

theorem run_sound (p : Char → Bool) (least : Nat) (most : Option Nat) (previous : Option Char) (s : List α)
    (w : Way α) (way : w ∈ ways word (.run p least most) previous s) :
    (∀ a ∈ w.taken, p (char a) = true) ∧ least ≤ w.taken.length ∧ w.groups = [] := by
  rw [ways, List.mem_map] at way
  obtain ⟨k, inside, rfl⟩ := way
  rw [List.mem_range] at inside
  have short : longest p most s ≤ (s.takeWhile fun a => p (char a)).length := by
    cases most with
    | none => exact Nat.le_refl _
    | some m => exact Nat.min_le_left _ _
  have first : s.take (longest p most s - k) <+: s.takeWhile fun a => p (char a) := by
    refine List.prefix_of_prefix_length_le (List.take_prefix _ s) (List.takeWhile_prefix _) ?_
    rw [List.length_take]
    omega
  refine ⟨fun a member => List.mem_takeWhile_imp (p := fun a => p (char a)) (first.subset member), ?_, rfl⟩
  have whole := (List.takeWhile_prefix (l := s) fun a => p (char a)).length_le
  rw [List.length_take]
  omega

theorem run_way (p : Char → Bool) (least : Nat) (most : Option Nat) (previous : Option Char)
    (front back : List α) (long : least ≤ front.length)
    (short : front.length ≤ longest p most (front ++ back)) :
    (⟨[], front, back⟩ : Way α) ∈ ways word (.run p least most) previous (front ++ back) := by
  rw [ways, List.mem_map]
  refine ⟨longest p most (front ++ back) - front.length, List.mem_range.mpr (by omega), ?_⟩
  rw [Nat.sub_sub_self short, List.take_left, List.drop_left]

theorem longest_single (p : Char → Bool) (a : α) (s : List α) :
    longest p (some 1) (a :: s) = if p (char a) then 1 else 0 := by
  rw [longest, List.takeWhile_cons]
  split
  · simp only [List.length_cons, Option.elim_some]
    omega
  · rfl

theorem single_sound (p : Char → Bool) (previous : Option Char) (s : List α) (w : Way α)
    (way : w ∈ ways word (.run p 1 (some 1)) previous s) :
    ∃ a, w.taken = [a] ∧ p (char a) = true ∧ w.groups = [] := by
  rw [ways, List.mem_map] at way
  obtain ⟨k, inside, rfl⟩ := way
  rw [List.mem_range] at inside
  cases s with
  | nil => exact absurd inside (Nat.not_lt_zero k)
  | cons a s =>
    rw [longest_single] at inside ⊢
    split at inside
    · next passes =>
      rw [if_pos passes, show 1 - k = 1 by omega]
      exact ⟨a, rfl, passes, rfl⟩
    · exact absurd inside (Nat.not_lt_zero k)

theorem single_way (p : Char → Bool) (previous : Option Char) (a : α) (s : List α)
    (passes : p (char a) = true) :
    (⟨[], [a], s⟩ : Way α) ∈ ways word (.run p 1 (some 1)) previous (a :: s) := by
  refine run_way word p 1 (some 1) previous [a] s (Nat.le_refl 1) ?_
  rw [List.singleton_append, longest_single, if_pos passes]
  rfl

theorem optional_sound (p : Char → Bool) (previous : Option Char) (s : List α) (w : Way α)
    (way : w ∈ ways word (.run p 0 (some 1)) previous s) :
    (w.taken = [] ∨ ∃ a, w.taken = [a] ∧ p (char a) = true) ∧ w.groups = [] := by
  rw [ways, List.mem_map] at way
  obtain ⟨k, inside, rfl⟩ := way
  rw [List.mem_range] at inside
  refine ⟨?_, rfl⟩
  cases s with
  | nil => exact Or.inl List.take_nil
  | cons a s =>
    rw [longest_single] at inside ⊢
    split at inside
    · next passes =>
      rw [if_pos passes]
      rcases Nat.eq_zero_or_pos k with rfl | later
      · exact Or.inr ⟨a, rfl, passes⟩
      · exact Or.inl (by rw [show 1 - k = 0 by omega]; rfl)
    · next fails => exact Or.inl (by rw [if_neg fails, Nat.zero_sub]; rfl)

theorem seq_way (a b : Regex) (previous : Option Char) (s : List α) (w v : Way α)
    (first : w ∈ ways word a previous s)
    (second : v ∈ ways word b (lastChar previous w.taken) w.rest) :
    (⟨w.groups ++ v.groups, w.taken ++ v.taken, v.rest⟩ : Way α) ∈ ways word (.seq a b) previous s := by
  rw [ways, List.mem_flatMap]
  exact ⟨w, first, List.mem_map.mpr ⟨v, second, rfl⟩⟩

theorem seq_sound (a b : Regex) (previous : Option Char) (s : List α) (w : Way α)
    (way : w ∈ ways word (.seq a b) previous s) : ∃ u v before, u ∈ ways word a previous s ∧
      v ∈ ways word b before u.rest ∧ w = ⟨u.groups ++ v.groups, u.taken ++ v.taken, v.rest⟩ := by
  rw [ways, List.mem_flatMap] at way
  obtain ⟨u, first, way⟩ := way
  obtain ⟨v, second, rfl⟩ := List.mem_map.mp way
  exact ⟨u, v, _, first, second, rfl⟩

/-- The first way of a sequence is the first way of its second part behind some way of its first part. -/
theorem seq_head (a b : Regex) (previous : Option Char) (s : List α) (w : Way α)
    (found : matchAt word (.seq a b) previous s = some w) : ∃ u v before, u ∈ ways word a previous s ∧
      matchAt word b before u.rest = some v ∧
      w = ⟨u.groups ++ v.groups, u.taken ++ v.taken, v.rest⟩ := by
  rw [matchAt, ways, List.head?_flatMap, List.findSome?_eq_some_iff] at found
  obtain ⟨_, u, _, splits, found, _⟩ := found
  rw [List.head?_map, Option.map_eq_some_iff] at found
  obtain ⟨v, second, rfl⟩ := found
  exact ⟨u, v, _, by rw [splits]; exact List.mem_append_right _ List.mem_cons_self, second, rfl⟩

theorem seq_later (a b : Regex) (previous : Option Char) (s : List α) (missed later : List (Way α)) (u v : Way α)
    (first : ways word a previous s = missed ++ u :: later)
    (fails : ∀ w ∈ missed, ∀ before, ways word b before w.rest = [])
    (second : matchAt word b (lastChar previous u.taken) u.rest = some v) :
    matchAt word (.seq a b) previous s = some ⟨u.groups ++ v.groups, u.taken ++ v.taken, v.rest⟩ := by
  have nothing : (missed.flatMap fun w => (ways word b (lastChar previous w.taken) w.rest).map fun x =>
      (⟨w.groups ++ x.groups, w.taken ++ x.taken, x.rest⟩ : Way α)) = [] := by
    rw [List.flatMap_eq_nil_iff]
    intro w member
    rw [fails w member, List.map_nil]
  rw [matchAt] at second
  rw [matchAt, ways, first, List.flatMap_append, nothing, List.nil_append, List.flatMap_cons, List.head?_append,
    List.head?_map, second]
  rfl

theorem seq_first (a b : Regex) (previous : Option Char) (s : List α) (u v : Way α)
    (first : matchAt word a previous s = some u)
    (second : matchAt word b (lastChar previous u.taken) u.rest = some v) :
    matchAt word (.seq a b) previous s = some ⟨u.groups ++ v.groups, u.taken ++ v.taken, v.rest⟩ := by
  obtain ⟨later, splits⟩ := List.head?_eq_some_iff.mp first
  exact seq_later word a b previous s [] later u v splits (fun w none_ => absurd none_ List.not_mem_nil) second

theorem group_first (a : Regex) (previous : Option Char) (s : List α) (u : Way α)
    (first : matchAt word a previous s = some u) :
    matchAt word (.group a) previous s = some { u with groups := u.taken :: u.groups } := by
  rw [matchAt] at first
  rw [matchAt, ways, List.head?_map, first]
  rfl

theorem group_sound (a : Regex) (previous : Option Char) (s : List α) (w : Way α)
    (way : w ∈ ways word (.group a) previous s) :
    ∃ u ∈ ways word a previous s, w = { u with groups := u.taken :: u.groups } := by
  rw [ways, List.mem_map] at way
  obtain ⟨u, way, rfl⟩ := way
  exact ⟨u, way, rfl⟩

section

variable (r : Regex) (kept : Nat) (text : List Char)

theorem sub_skip (previous : Option Char) (skip : Nat) (s : List α) :
    ∃ before, sub word r kept text previous skip s = sub word r kept text before 0 (s.drop skip) := by
  induction s generalizing previous skip with
  | nil => exact ⟨previous, by rw [List.drop_nil, sub, sub]⟩
  | cons a s rest =>
    cases skip with
    | zero => exact ⟨previous, rfl⟩
    | succ skip =>
      rw [sub, List.drop_succ_cons]
      exact rest _ skip

theorem sub_match (previous : Option Char) (s : List α) (w : Way α)
    (found : matchAt word r previous s = some w) (proper : w.taken ≠ []) :
    ∃ after, sub word r kept text previous 0 s =
      replacement kept text w ++ sub word r kept text after 0 w.rest := by
  have splits := way_splits word r _ _ w (List.mem_of_head? found)
  obtain ⟨c, later, isTaken⟩ := List.exists_cons_of_ne_nil proper
  rw [isTaken, List.cons_append] at splits
  obtain ⟨after, leaves⟩ := sub_skip word r kept text (some (char c)) later.length (later ++ w.rest)
  refine ⟨after, ?_⟩
  rw [splits] at found ⊢
  rw [sub, found]
  simp only [isTaken, List.length_cons, Nat.add_sub_cancel]
  rw [leaves, List.drop_left]

/-- A substitution leaves characters of the text and what it writes. -/
theorem sub_mem (previous : Option Char) (skip : Nat) (s : List α) (a : α)
    (member : a ∈ sub word r kept text previous skip s) : a ∈ s ∨ a ∈ text.map letter := by
  induction s generalizing previous skip with
  | nil =>
    rw [sub] at member
    exact absurd member List.not_mem_nil
  | cons c s rest =>
    have later : ∀ (previous : Option Char) (skip : Nat), a ∈ sub word r kept text previous skip s →
        a ∈ c :: s ∨ a ∈ text.map letter := fun previous skip member =>
      (rest previous skip member).imp_left (List.mem_cons_of_mem c)
    cases skip with
    | succ skip => exact later _ _ member
    | zero =>
      rw [sub] at member
      split at member
      · next w found =>
        have way := matchAt_way word r _ _ w found
        rcases List.mem_append.mp member with member | member
        · rcases replacement_mem word kept text r _ _ w way a member with taken | written
          · rw [way_splits word r _ _ w way]
            exact Or.inl (List.mem_append_left _ taken)
          · exact Or.inr written
        · exact later _ _ member
      · rcases List.mem_cons.mp member with rfl | member
        · exact Or.inl List.mem_cons_self
        · exact later _ _ member

/-- Either the scan comes to the start of `back`, or a match takes what stands there. -/
theorem sub_append (previous : Option Char) (skip : Nat) (front back : List α) (short : skip ≤ front.length) :
    (skipAfter word r back previous skip front = 0 ∧ ∃ out before,
        sub word r kept text previous skip (front ++ back) = out ++ sub word r kept text before 0 back ∧
          ∀ a ∈ out, a ∈ front ∨ a ∈ text.map letter) ∨
      ∃ front₁ front₂ before w out after, front = front₁ ++ front₂ ∧ front₂ ≠ [] ∧
        skipAfter word r (front₂ ++ back) previous skip front₁ = 0 ∧
        matchAt word r before (front₂ ++ back) = some w ∧ front₂.length < w.taken.length ∧
        sub word r kept text previous skip (front ++ back) =
          out ++ (replacement kept text w ++ sub word r kept text after 0 w.rest) ∧
        ∀ a ∈ out, a ∈ front ∨ a ∈ text.map letter := by
  induction front generalizing previous skip with
  | nil =>
    rw [Nat.le_zero.mp short]
    exact Or.inl ⟨rfl, [], previous, rfl, fun a member => absurd member List.not_mem_nil⟩
  | cons c front rest =>
    have further : ∀ a : α, a ∈ front ∨ a ∈ text.map letter → a ∈ c :: front ∨ a ∈ text.map letter :=
      fun a old => old.imp_left (List.mem_cons_of_mem c)
    cases skip with
    | succ skip =>
      rw [List.cons_append, sub, skipAfter]
      rcases rest (some (char c)) skip (Nat.le_of_succ_le_succ short) with
        ⟨comes, out, before, leaves, old⟩ |
          ⟨front₁, front₂, before, w, out, after, splits, proper, comes, found, long, leaves, old⟩
      · exact Or.inl ⟨comes, out, before, leaves, fun a member => further a (old a member)⟩
      · exact Or.inr ⟨c :: front₁, front₂, before, w, out, after, by rw [splits]; rfl, proper, comes, found,
          long, leaves, fun a member => further a (old a member)⟩
    | zero =>
      rw [List.cons_append, sub, skipAfter]
      cases found : matchAt word r previous (c :: (front ++ back)) with
      | none =>
        have stays : ∀ out : List α, (∀ a ∈ out, a ∈ front ∨ a ∈ text.map letter) →
            ∀ a ∈ c :: out, a ∈ c :: front ∨ a ∈ text.map letter := fun out old a member => by
          rcases List.mem_cons.mp member with rfl | member
          · exact Or.inl List.mem_cons_self
          · exact further a (old a member)
        rcases rest (some (char c)) 0 (Nat.zero_le _) with
          ⟨comes, out, before, leaves, old⟩ |
            ⟨front₁, front₂, before, w, out, after, splits, proper, comes, next, long, leaves, old⟩
        · exact Or.inl ⟨comes, c :: out, before, by rw [leaves]; rfl, stays out old⟩
        · refine Or.inr ⟨c :: front₁, front₂, before, w, c :: out, after, by rw [splits]; rfl, proper, ?_, next,
            long, by rw [leaves]; rfl, stays out old⟩
          rw [skipAfter, ← List.append_assoc, ← splits, found]
          exact comes
      | some w =>
        have way := matchAt_way word r _ _ w found
        have splits := way_splits word r _ _ w way
        by_cases fits : w.taken.length - 1 ≤ front.length
        · have inside : w.taken <+: c :: front := by
            refine List.prefix_of_prefix_length_le ⟨w.rest, splits.symm⟩ ⟨back, rfl⟩ ?_
            rw [List.length_cons]
            omega
          have stays : ∀ out : List α, (∀ a ∈ out, a ∈ front ∨ a ∈ text.map letter) →
              ∀ a ∈ replacement kept text w ++ out, a ∈ c :: front ∨ a ∈ text.map letter :=
            fun out old a member => by
              rcases List.mem_append.mp member with member | member
              · exact (replacement_mem word kept text r _ _ w way a member).imp_left (inside.subset ·)
              · exact further a (old a member)
          rcases rest (some (char c)) _ fits with
            ⟨comes, out, before, leaves, old⟩ |
              ⟨front₁, front₂, before, v, out, after, apart, proper, comes, next, long, leaves, old⟩
          · exact Or.inl ⟨comes, _, before, by rw [List.append_assoc, ← leaves], stays out old⟩
          · refine Or.inr ⟨c :: front₁, front₂, before, v, _, after, by rw [apart]; rfl, proper, ?_, next, long,
              by rw [List.append_assoc, ← leaves], stays out old⟩
            rw [skipAfter, ← List.append_assoc, ← apart, found]
            exact comes
        · obtain ⟨after, leaves⟩ :=
            sub_skip word r kept text (some (char c)) (w.taken.length - 1) (front ++ back)
          have behind : (front ++ back).drop (w.taken.length - 1) = w.rest := by
            have filled : w.taken.length = w.taken.length - 1 + 1 := by omega
            have dropped := congrArg (List.drop w.taken.length) splits
            rw [List.drop_left, filled, List.drop_succ_cons] at dropped
            exact dropped
          exact Or.inr ⟨[], c :: front, previous, w, [], after, rfl, List.cons_ne_nil _ _, rfl, found,
            by rw [List.length_cons]; omega,
            by rw [List.nil_append, ← behind, ← leaves], fun a member => absurd member List.not_mem_nil⟩

theorem skipAfter_long (back : List α) (previous : Option Char) (skip : Nat) (front : List α)
    (long : front.length ≤ skip) : skipAfter word r back previous skip front = skip - front.length := by
  induction front generalizing previous skip with
  | nil => rfl
  | cons a front rest =>
    cases skip with
    | zero => exact absurd long (Nat.not_succ_le_zero _)
    | succ skip =>
      rw [skipAfter, rest _ skip (Nat.le_of_succ_le_succ long), List.length_cons, Nat.add_sub_add_right]

/-- Where the scan comes to a match, it does not come to what the match takes. -/
theorem skipAfter_across (previous : Option Char) (skip : Nat) (front inside back : List α) (w : Way α)
    (comes : skipAfter word r (inside ++ back) previous skip front = 0) (proper : inside ≠ [])
    (found : ∀ before, matchAt word r before (inside ++ back) = some w) (long : inside.length < w.taken.length) :
    skipAfter word r back previous skip (front ++ inside) ≠ 0 := by
  induction front generalizing previous skip with
  | nil =>
    obtain ⟨a, inside, rfl⟩ := List.exists_cons_of_ne_nil proper
    rw [skipAfter] at comes
    have here := found previous
    rw [List.cons_append] at here
    rw [List.length_cons] at long
    rw [comes, List.nil_append, skipAfter, here]
    dsimp only
    rw [skipAfter_long word r back _ _ _ (by omega)]
    omega
  | cons a front rest =>
    cases skip with
    | succ skip => exact rest _ skip comes
    | zero =>
      rw [List.cons_append, skipAfter, List.append_assoc]
      rw [skipAfter] at comes
      cases here : matchAt word r previous (a :: (front ++ (inside ++ back))) with
      | some v =>
        rw [here] at comes
        exact rest _ _ comes
      | none =>
        rw [here] at comes
        exact rest _ _ comes

end

def Way.map (f : α → β) (w : Way α) : Way β := ⟨w.groups.map (List.map f), w.taken.map f, w.rest.map f⟩

section

variable (f : α → β) (same : ∀ a, char (f a) = char a)

include same

theorem longest_map (p : Char → Bool) (most : Option Nat) (s : List α) :
    longest p most (s.map f) = longest p most s := by
  have run : (s.map f).takeWhile (fun a => p (char a)) = (s.takeWhile fun a => p (char a)).map f := by
    rw [List.takeWhile_map]
    simp only [Function.comp_def, same]
  rw [longest, longest, run, List.length_map]

theorem lastChar_map (previous : Option Char) (taken : List α) :
    lastChar previous (taken.map f) = lastChar previous taken := by
  rw [lastChar, lastChar, List.getLast?_map, Option.map_map]
  simp only [Function.comp_def, same]

theorem ways_map (r : Regex) (previous : Option Char) (s : List α) :
    ways word r previous (s.map f) = (ways word r previous s).map (Way.map f) := by
  induction r generalizing previous s with
  | empty => rfl
  | run p least most =>
    rw [ways, ways, longest_map f same, List.map_map]
    simp only [Function.comp_def, Way.map, List.map_take, List.map_drop, List.map_nil]
  | boundary =>
    have head : (s.map f).head?.any (fun a => word (char a)) = s.head?.any fun a => word (char a) := by
      rw [List.head?_map, Option.any_map]
      exact congrArg (s.head?.any ·) (funext fun a => congrArg word (same a))
    rw [ways, ways, head]
    split <;> rfl
  | seq a b first second =>
    rw [ways, ways, first, List.flatMap_map, List.map_flatMap]
    congr 1
    funext w
    rw [show (w.map f).taken = w.taken.map f from rfl, show (w.map f).rest = w.rest.map f from rfl,
      lastChar_map f same, second, List.map_map, List.map_map]
    congr 1
    funext v
    simp only [Function.comp_def, Way.map, List.map_append]
  | alt a b first second => rw [ways, ways, first, second, List.map_append]
  | group a inner =>
    rw [ways, ways, inner, List.map_map, List.map_map]
    rfl

theorem matchAt_map (r : Regex) (previous : Option Char) (s : List α) :
    matchAt word r previous (s.map f) = (matchAt word r previous s).map (Way.map f) := by
  rw [matchAt, matchAt, ways_map word f same, List.head?_map]

theorem sub_map (r : Regex) (kept : Nat) (text : List Char) (written : ∀ c : Char, f (letter c) = letter c)
    (previous : Option Char) (skip : Nat) (s : List α) :
    sub word r kept text previous skip (s.map f) = (sub word r kept text previous skip s).map f := by
  have replaced : ∀ w : Way α,
      replacement kept text (w.map f) = (replacement kept text w).map f := fun w => by
    rw [replacement, replacement, List.map_append, List.map_flatten, List.map_take, List.map_map]
    simp only [Function.comp_def, written]
    rfl
  induction s generalizing previous skip with
  | nil => rfl
  | cons c s rest =>
    rw [List.map_cons]
    cases skip with
    | succ skip => rw [sub, sub, same, rest]
    | zero =>
      rw [sub, sub, ← List.map_cons, matchAt_map word f same]
      cases matchAt word r previous (c :: s) with
      | none => simp only [Option.map_none, same, rest, List.map_cons]
      | some w =>
        simp only [Option.map_some, same, rest, replaced, List.map_append]
        rw [show (w.map f).taken.length = w.taken.length from List.length_map f]

end

end

end Regexes
