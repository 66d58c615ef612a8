import Mathlib.Data.List.Basic

/-! Logs of moves of one object between states. A creation comes from no state; a log reconstructs
the state of the object when every move starts where the one before ended. -/

namespace MoveLog

variable {S : Type}

structure Move (S : Type) where
  source : Option S
  target : S

def Path : Option S → List (Move S) → Option S → Prop
  | state, [], last => state = last
  | state, move :: rest, last => move.source = state ∧ Path (some move.target) rest last

theorem path_nil (state last : Option S) : Path state [] last ↔ state = last := Iff.rfl

theorem path_single (move : Move S) (state last : Option S) :
    Path state [move] last ↔ move.source = state ∧ some move.target = last := Iff.rfl

theorem path_append (first second : List (Move S)) :
    ∀ state last : Option S, Path state (first ++ second) last ↔
      ∃ middle, Path state first middle ∧ Path middle second last := by
  induction first with
  | nil =>
    intro state last
    constructor
    · intro path
      exact ⟨state, rfl, path⟩
    · rintro ⟨middle, rfl, path⟩
      exact path
  | cons move rest later =>
    intro state last
    rw [List.cons_append, Path, later]
    constructor
    · rintro ⟨starts, middle, path, onward⟩
      exact ⟨middle, ⟨starts, path⟩, onward⟩
    · rintro ⟨middle, ⟨starts, path⟩, onward⟩
      exact ⟨starts, middle, path, onward⟩

theorem path_last_unique (moves : List (Move S)) :
    ∀ state last other : Option S, Path state moves last → Path state moves other → last = other := by
  induction moves with
  | nil =>
    rintro state last other rfl same
    exact same
  | cons move rest later =>
    intro state last other path path'
    exact later _ _ _ path.2 path'.2

theorem path_none (moves : List (Move S)) :
    ∀ state : Option S, Path state moves none → moves = [] ∧ state = none := by
  induction moves with
  | nil => exact fun _ path => ⟨rfl, path⟩
  | cons move rest later =>
    intro state path
    have impossible := (later _ path.2).2
    contradiction

/-- Logs that lead to a state from the beginning stay so exactly when what is added leads on from
there. -/
theorem path_extend (first second : List (Move S)) (state middle last : Option S)
    (path : Path state first middle) :
    Path state (first ++ second) last ↔ Path middle second last := by
  rw [path_append]
  constructor
  · rintro ⟨other, path', onward⟩
    rwa [path_last_unique first state middle other path path']
  · exact fun onward => ⟨middle, path, onward⟩

theorem path_retract (first second : List (Move S)) (state middle last last' : Option S)
    (onward : Path middle second last) (path : Path state (first ++ second) last')
    (ends : second = [] → last' = last) : Path state first middle := by
  obtain ⟨other, path', onward'⟩ := (path_append first second state last').mp path
  rcases second with _ | ⟨move, rest⟩
  · have here : middle = last := onward
    have there : other = last' := onward'
    rwa [here, ← ends rfl, ← there]
  · have same : middle = other := onward.1.symm.trans onward'.1
    rwa [same]

/-- One creation, which comes first; every later move comes from where the one before went; the last
one leads to the state. -/
structure Reconstructs (moves : List (Move S)) (state : S) : Prop where
  creation : ∃ first rest, moves = first :: rest ∧ first.source = none ∧
    ∀ move ∈ rest, move.source.isSome = true
  chained : ∀ (i : Nat) (move next : Move S), moves[i]? = some move → moves[i + 1]? = some next →
    next.source = some move.target
  last : moves.getLast?.map Move.target = some state

theorem path_sources (moves : List (Move S)) :
    ∀ (from_ : S) (last : Option S), Path (some from_) moves last →
      ∀ move ∈ moves, move.source.isSome = true := by
  induction moves with
  | nil => simp
  | cons head rest later =>
    intro from_ last path move member
    rcases List.mem_cons.mp member with rfl | further
    · rw [path.1]
      rfl
    · exact later _ _ path.2 move further

theorem path_chained (moves : List (Move S)) :
    ∀ (state last : Option S), Path state moves last → ∀ (i : Nat) (move next : Move S),
      moves[i]? = some move → moves[i + 1]? = some next → next.source = some move.target := by
  induction moves with
  | nil => simp
  | cons head rest later =>
    intro state last path i move next present following
    rw [List.getElem?_cons_succ] at following
    cases i with
    | zero =>
      obtain rfl := Option.some.inj present
      cases rest with
      | nil => simp at following
      | cons second rest =>
        obtain rfl := Option.some.inj following
        exact path.2.1
    | succ i => exact later _ _ path.2 i move next present following

theorem path_getLast (moves : List (Move S)) :
    ∀ (state : Option S) (last : S), moves ≠ [] → Path state moves (some last) →
      moves.getLast?.map Move.target = some last := by
  induction moves with
  | nil => exact fun _ _ nonempty => absurd rfl nonempty
  | cons head rest later =>
    intro state last _ path
    cases rest with
    | nil => exact path.2
    | cons second rest =>
      have ends := later _ last (by simp) path.2
      rwa [List.getLast?_cons_cons]

theorem path_of_chained (moves : List (Move S)) :
    ∀ (first : Move S) (state : S),
      (∀ (i : Nat) (move next : Move S), (first :: moves)[i]? = some move →
        (first :: moves)[i + 1]? = some next → next.source = some move.target) →
      (first :: moves).getLast?.map Move.target = some state →
      Path first.source (first :: moves) (some state) := by
  induction moves with
  | nil => exact fun first state _ last => ⟨rfl, last⟩
  | cons second rest later =>
    intro first state chained last
    have next := chained 0 first second rfl rfl
    have path := later second state (fun i move following => chained (i + 1) move following)
      (by rwa [List.getLast?_cons_cons] at last)
    rw [next] at path
    exact ⟨rfl, path⟩

/-- A log reconstructs a state when it leads there from nothing. -/
theorem reconstructs_iff (moves : List (Move S)) (state : S) :
    Reconstructs moves state ↔ Path none moves (some state) := by
  constructor
  · rintro ⟨⟨first, rest, rfl, created, -⟩, chained, last⟩
    have path := path_of_chained rest first state chained last
    rwa [created] at path
  · intro path
    cases moves with
    | nil => cases path
    | cons first rest =>
      exact ⟨⟨first, rest, rfl, path.1, path_sources rest _ _ path.2⟩,
        path_chained _ _ _ path, path_getLast _ _ _ (by simp) path⟩

end MoveLog
