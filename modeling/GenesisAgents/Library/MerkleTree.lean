import Mathlib.Data.List.Forall2
import Mathlib.Data.List.Induction
import Mathlib.Data.Nat.Log

/-! Trees of digests over a list of leaves, in which the last node of an odd level is its own sibling:
which lists climb to the same root? -/

namespace MerkleTree

variable {α β : Type}

@[simp] def pairs : List α → List (α × α)
  | [] => []
  | [last] => [(last, last)]
  | left :: right :: rest => (left, right) :: pairs rest

def unpaired (siblings : List (α × α)) : List α := siblings.flatMap fun pair => [pair.1, pair.2]

/-- The leaves of a tree of that height, those that an odd level repeats written out. -/
@[simp] def padded : ℕ → {α : Type} → List α → List α
  | 0, _, leaves => leaves
  | height + 1, _, leaves => unpaired (padded height (pairs leaves))

theorem pairs_map (f : α → β) (leaves : List α) :
    pairs (leaves.map f) = (pairs leaves).map fun pair => (f pair.1, f pair.2) := by
  induction leaves using List.twoStepInduction with
  | nil => rfl
  | singleton last => rfl
  | cons_cons left right rest later => simp [pairs, later]

theorem pairs_length (leaves : List α) : (pairs leaves).length = (leaves.length + 1) / 2 := by
  induction leaves using List.twoStepInduction with
  | nil => simp [pairs]
  | singleton last => simp [pairs]
  | cons_cons left right rest later =>
    rw [pairs, List.length_cons, later, List.length_cons, List.length_cons]
    omega

theorem mem_of_mem_pairs (leaves : List α) (pair : α × α) (member : pair ∈ pairs leaves) :
    pair.1 ∈ leaves ∧ pair.2 ∈ leaves := by
  induction leaves using List.twoStepInduction with
  | nil => cases member
  | singleton last => simp [pairs] at member; simp [member]
  | cons_cons left right rest later =>
    rw [pairs, List.mem_cons] at member
    rcases member with rfl | member
    · simp
    · have both := later member
      exact ⟨by simp [both.1], by simp [both.2]⟩

theorem unpaired_map (f : α → β) (siblings : List (α × α)) :
    unpaired (siblings.map fun pair => (f pair.1, f pair.2)) = (unpaired siblings).map f := by
  rw [unpaired, unpaired, List.flatMap_map, List.map_flatMap]
  rfl

theorem pairs_unpaired (siblings : List (α × α)) : pairs (unpaired siblings) = siblings := by
  induction siblings with
  | nil => rfl
  | cons pair rest later =>
    have opened : unpaired (pair :: rest) = pair.1 :: pair.2 :: unpaired rest := rfl
    rw [opened, pairs, later]

theorem prefix_unpaired (leaves : List α) (siblings : List (α × α))
    (leads : pairs leaves <+: siblings) : leaves <+: unpaired siblings := by
  induction leaves using List.twoStepInduction generalizing siblings with
  | nil => exact List.nil_prefix
  | singleton last =>
    rcases leads with ⟨rest, rfl⟩
    exact ⟨last :: unpaired rest, rfl⟩
  | cons_cons left right rest later =>
    cases siblings with
    | nil => simp [pairs] at leads
    | cons pair siblings =>
      rw [pairs, List.cons_prefix_cons] at leads
      rcases leads with ⟨rfl, leads⟩
      rcases later siblings leads with ⟨added, same⟩
      exact ⟨added, by rw [unpaired, List.flatMap_cons, ← unpaired, ← same]; rfl⟩

theorem padded_map (height : ℕ) : ∀ {α β : Type} (f : α → β) (leaves : List α),
    padded height (leaves.map f) = (padded height leaves).map f := by
  induction height with
  | zero =>
    intro α β f leaves
    rfl
  | succ height lower =>
    intro α β f leaves
    rw [padded, padded, pairs_map, lower, unpaired_map]

theorem mem_of_mem_padded (height : ℕ) : ∀ {α : Type} (leaves : List α) (leaf : α),
    leaf ∈ padded height leaves → leaf ∈ leaves := by
  induction height with
  | zero =>
    intro α leaves leaf member
    exact member
  | succ height lower =>
    intro α leaves leaf member
    simp only [padded, unpaired, List.mem_flatMap, List.mem_cons, List.not_mem_nil, or_false] at member
    rcases member with ⟨pair, member, which⟩
    have both := mem_of_mem_pairs leaves pair (lower (pairs leaves) pair member)
    rcases which with rfl | rfl
    · exact both.1
    · exact both.2

theorem prefix_padded (height : ℕ) : ∀ {α : Type} (leaves : List α), leaves <+: padded height leaves := by
  induction height with
  | zero =>
    intro α leaves
    exact List.prefix_rfl
  | succ height lower =>
    intro α leaves
    exact prefix_unpaired leaves _ (lower (pairs leaves))

/-- Lists of one length are told apart after padding. -/
theorem padded_injective (height : ℕ) (leaves others : List α) (sizes : leaves.length = others.length)
    (same : padded height leaves = padded height others) : leaves = others := by
  have leads : leaves <+: padded height others := same ▸ prefix_padded height leaves
  have first := List.prefix_of_prefix_length_le leads (prefix_padded height others) (by omega)
  exact first.eq_of_length sizes

variable (join : α → α → α)

def parents (level : List α) : List α := (pairs level).map fun pair => join pair.1 pair.2

def climb : ℕ → List α → List α
  | 0, level => level
  | rounds + 1, level => climb rounds (parents join level)

def joined : ℕ → List α → List (α × α)
  | 0, _ => []
  | rounds + 1, level => pairs level ++ joined rounds (parents join level)

/-- No two of these pairs have one digest. -/
def Apart (siblings : List (α × α)) : Prop :=
  ∀ pair ∈ siblings, ∀ other ∈ siblings, join pair.1 pair.2 = join other.1 other.2 → pair = other

theorem joined_inside (kind : α → Prop) (made : ∀ left right, kind (join left right)) (rounds : ℕ)
    (level : List α) (nodes : ∀ node ∈ level, kind node) :
    ∀ pair ∈ joined join rounds level, kind pair.1 ∧ kind pair.2 := by
  induction rounds generalizing level with
  | zero =>
    intro pair member
    cases member
  | succ rounds later =>
    intro pair member
    rw [joined, List.mem_append] at member
    rcases member with member | member
    · have both := mem_of_mem_pairs level pair member
      exact ⟨nodes _ both.1, nodes _ both.2⟩
    · apply later (parents join level) _ pair member
      intro node present
      rw [parents, List.mem_map] at present
      rcases present with ⟨siblings, _, rfl⟩
      exact made _ _

theorem climb_joined (rounds : ℕ) (level : List α) :
    ∀ node ∈ climb join (rounds + 1) level,
      ∃ pair ∈ joined join (rounds + 1) level, node = join pair.1 pair.2 := by
  induction rounds generalizing level with
  | zero =>
    intro node member
    rw [climb, climb, parents, List.mem_map] at member
    rcases member with ⟨pair, inside, rfl⟩
    exact ⟨pair, by simp [joined, inside], rfl⟩
  | succ rounds later =>
    intro node member
    rcases later (parents join level) node member with ⟨pair, inside, digest⟩
    refine ⟨pair, ?_, digest⟩
    rw [joined, List.mem_append]
    exact .inr inside

theorem climb_add (rounds more : ℕ) (level : List α) :
    climb join (rounds + more) level = climb join more (climb join rounds level) := by
  induction rounds generalizing level with
  | zero => rw [Nat.zero_add, climb]
  | succ rounds later => rw [Nat.add_right_comm, climb, climb, later]

theorem climb_padded (rounds : ℕ) (leaves : List α) :
    climb join rounds (padded rounds leaves) = climb join rounds leaves := by
  induction rounds generalizing leaves with
  | zero => rfl
  | succ rounds lower =>
    have above : parents join (padded (rounds + 1) leaves) = padded rounds (parents join leaves) := by
      rw [parents, padded, pairs_unpaired, parents, padded_map]
    rw [climb, climb, above, lower]

theorem Apart.mono {siblings fewer : List (α × α)} (apart : Apart join siblings)
    (among : ∀ pair ∈ fewer, pair ∈ siblings) : Apart join fewer := by
  intro pair member other otherMember same
  exact apart pair (among pair member) other (among other otherMember) same

theorem map_injective_on {γ : Type} (f : β → γ) (front back : List β)
    (apart : ∀ x ∈ front, ∀ y ∈ back, f x = f y → x = y) (same : front.map f = back.map f) :
    front = back := by
  induction front generalizing back with
  | nil => exact (List.map_eq_nil_iff.mp same.symm).symm
  | cons x front later =>
    cases back with
    | nil => cases same
    | cons y back =>
      rw [List.map_cons, List.map_cons, List.cons.injEq] at same
      have heads := apart x (by simp) y (by simp) same.1
      have tails := later back (fun x member y other => apart x (by simp [member]) y (by simp [other])) same.2
      rw [heads, tails]

/-- Two lists are alike that far above exactly when they are alike after padding. -/
theorem climb_eq_iff (rounds : ℕ) (leaves others : List α)
    (apart : Apart join (joined join rounds leaves ++ joined join rounds others)) :
    climb join rounds leaves = climb join rounds others ↔ padded rounds leaves = padded rounds others := by
  constructor
  · intro same
    induction rounds generalizing leaves others with
    | zero => exact same
    | succ rounds lower =>
      have above : padded rounds (parents join leaves) = padded rounds (parents join others) := by
        apply lower
        · apply apart.mono join
          intro pair member
          simp only [joined, List.mem_append] at member ⊢
          tauto
        · exact same
      rw [parents, parents, padded_map, padded_map] at above
      rw [padded, padded]
      congr 1
      apply map_injective_on _ _ _ _ above
      intro pair member other otherMember
      apply apart
      · have inside := mem_of_mem_padded rounds _ _ member
        simp [joined, inside]
      · have inside := mem_of_mem_padded rounds _ _ otherMember
        simp [joined, inside]
  · intro same
    rw [← climb_padded, same, climb_padded]

def height (leaves : List α) : ℕ := Nat.clog 2 leaves.length

theorem parents_length (level : List α) : (parents join level).length = (level.length + 1) / 2 := by
  rw [parents, List.length_map, pairs_length]

theorem height_parents (level : List α) (several : 1 < level.length) :
    height level = height (parents join level) + 1 := by
  rw [height, height, parents_length, Nat.clog_of_one_lt Nat.one_lt_two several]
  rfl

theorem height_single (level : List α) (single : level.length ≤ 1) : height level = 0 :=
  Nat.clog_of_right_le_one single 2

theorem height_positive (level : List α) (several : 1 < level.length) : 0 < height level :=
  Nat.clog_pos Nat.one_lt_two several

/-- `lower` is `upper` with that many rounds undone: in each, a digest gives way to the pair it is of. -/
inductive Unfolds : ℕ → List α → List α → Prop
  | refl (leaves : List α) : Unfolds 0 leaves leaves
  | undo (rounds : ℕ) (upper level lower : List α) (above : Unfolds rounds upper level)
      (opened : List.Forall₂ (fun digest pair => digest = join pair.1 pair.2) level (pairs lower)) :
      Unfolds (rounds + 1) upper lower

theorem unfolds_iff (rounds : ℕ) (upper lower : List α) :
    Unfolds join rounds upper lower ↔ climb join rounds lower = upper := by
  have opened_iff (level lower : List α) :
      List.Forall₂ (fun digest pair => digest = join pair.1 pair.2) level (pairs lower) ↔
        level = parents join lower := by
    rw [parents, ← List.forall₂_eq_eq_eq, List.forall₂_map_right_iff]
  induction rounds generalizing lower with
  | zero =>
    constructor
    · rintro ⟨⟩
      rfl
    · rintro rfl
      exact .refl _
  | succ rounds shorter =>
    constructor
    · intro unfolds
      cases unfolds with
      | undo _ _ level _ above opened =>
        rw [climb, ← (opened_iff level lower).mp opened]
        exact (shorter level).mp above
    · intro climbs
      exact .undo rounds upper _ lower ((shorter _).mpr climbs) ((opened_iff _ lower).mpr rfl)

/-- After padding, `upper` is a level of the tree over `lower`. -/
def Within (upper lower : List α) : Prop :=
  ∃ rounds level, Unfolds join rounds level lower ∧ rounds + height upper = height lower ∧
    padded (height upper) upper = padded (height upper) level

def treePairs (leaves : List α) : List (α × α) := joined join (height leaves) leaves

theorem joined_climb (rounds more : ℕ) (level : List α) (pair : α × α)
    (member : pair ∈ joined join more (climb join rounds level)) :
    pair ∈ joined join (rounds + more) level := by
  induction rounds generalizing level with
  | zero => rwa [Nat.zero_add]
  | succ rounds later =>
    rw [Nat.add_right_comm, joined, List.mem_append]
    exact .inr (later (parents join level) member)

theorem within_iff (upper lower : List α) (shorter : height upper ≤ height lower)
    (apart : Apart join (treePairs join upper ++ treePairs join lower)) :
    climb join (height upper) upper = climb join (height lower) lower ↔ Within join upper lower := by
  rcases Nat.exists_eq_add_of_le' shorter with ⟨rounds, heights⟩
  have inside : Apart join (joined join (height upper) upper ++
      joined join (height upper) (climb join rounds lower)) := by
    apply apart.mono join
    intro pair member
    rw [List.mem_append] at member ⊢
    rcases member with member | member
    · exact .inl member
    · refine .inr ?_
      rw [treePairs, heights]
      exact joined_climb join rounds _ lower pair member
  rw [heights, climb_add, climb_eq_iff join _ _ _ inside]
  constructor
  · intro same
    exact ⟨rounds, _, (unfolds_iff join rounds _ lower).mpr rfl, heights.symm, same⟩
  · rintro ⟨rounds', level, unfolds, sum, same⟩
    obtain rfl : rounds' = rounds := by omega
    rw [(unfolds_iff join rounds' level lower).mp unfolds]
    exact same

/-- Two lists have one root exactly when one is, after padding, a level of the tree over the other. -/
theorem root_eq_iff (leaves others : List α)
    (apart : Apart join (treePairs join leaves ++ treePairs join others)) :
    climb join (height leaves) leaves = climb join (height others) others ↔
      Within join leaves others ∨ Within join others leaves := by
  have swapped : Apart join (treePairs join others ++ treePairs join leaves) := by
    apply apart.mono join
    intro pair member
    simpa [or_comm] using member
  have shorter (upper lower : List α) (within : Within join upper lower) : height upper ≤ height lower := by
    rcases within with ⟨rounds, level, unfolds, sum, same⟩
    omega
  constructor
  · intro same
    rcases Nat.le_total (height leaves) (height others) with below | below
    · exact .inl ((within_iff join leaves others below apart).mp same)
    · exact .inr ((within_iff join others leaves below swapped).mp same.symm)
  · rintro (within | within)
    · exact (within_iff join leaves others (shorter _ _ within) apart).mpr within
    · exact ((within_iff join others leaves (shorter _ _ within) swapped).mpr within).symm

/-- Lists of one length with one root are the same list. -/
theorem eq_of_within (leaves others : List α) (sizes : leaves.length = others.length)
    (within : Within join leaves others) : leaves = others := by
  rcases within with ⟨rounds, level, unfolds, sum, same⟩
  obtain rfl : rounds = 0 := by
    rw [height, height, sizes] at sum
    omega
  cases unfolds
  exact padded_injective _ leaves others sizes same

end MerkleTree
