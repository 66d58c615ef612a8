import Mathlib.Data.List.Basic

/-! Argument lists that begin with options, each followed by as many arguments as it takes. What the
arguments are does not change how the list is read. -/

namespace OptionArgs

variable {α : Type}

/-- The options at the head of the arguments, and what follows them; `pending` is an option with the
arguments that it has and the number of those that it still takes behind the next one. -/
@[simp] def scan (arity : α → Option Nat) :
    Option (α × List α × Nat) → List α → Option (List (α × List α) × List α)
  | none, [] => some ([], [])
  | some _, [] => none
  | none, a :: rest =>
    match arity a with
    | none => some ([], a :: rest)
    | some 0 => (scan arity none rest).map fun found => ((a, []) :: found.1, found.2)
    | some (n + 1) => scan arity (some (a, [], n)) rest
  | some (o, has, 0), a :: rest =>
    (scan arity none rest).map fun found => ((o, has ++ [a]) :: found.1, found.2)
  | some (o, has, n + 1), a :: rest => scan arity (some (o, has ++ [a], n)) rest

def read (arity : α → Option Nat) (args : List α) : Option (List (α × List α) × List α) :=
  scan arity none args

def written (options : List (α × List α)) : List α := options.flatMap fun option => option.1 :: option.2

@[simp] theorem written_cons (option : α × List α) (options : List (α × List α)) :
    written (option :: options) = option.1 :: (option.2 ++ written options) := rfl

theorem written_append (front back : List (α × List α)) :
    written (front ++ back) = written front ++ written back := List.flatMap_append

section

variable (arity : α → Option Nat)

theorem scan_pending (args rest : List α) : ∀ (o : α) (has : List α) (n : Nat), args.length = n + 1 →
    scan arity (some (o, has, n)) (args ++ rest) =
      (scan arity none rest).map fun found => ((o, has ++ args) :: found.1, found.2) := by
  induction args with
  | nil =>
    intro o has n short
    exact absurd short (Nat.succ_ne_zero n).symm
  | cons a args later =>
    intro o has n long
    rw [List.length_cons] at long
    rw [List.cons_append]
    cases n with
    | zero =>
      have alone : args = [] := List.eq_nil_of_length_eq_zero (by omega)
      rw [scan, alone, List.nil_append]
    | succ n =>
      rw [scan, later o (has ++ [a]) n (by omega), List.append_assoc, List.singleton_append]

theorem scan_option (o : α) (args rest : List α) (takes : arity o = some args.length) :
    scan arity none (o :: (args ++ rest)) =
      (scan arity none rest).map fun found => ((o, args) :: found.1, found.2) := by
  rw [scan, takes]
  cases args with
  | nil => rfl
  | cons a args => exact scan_pending arity (a :: args) rest o [] args.length rfl

/-- Options are read as they were written, whatever their arguments are. -/
theorem read_written (options : List (α × List α)) (rest : List α)
    (takes : ∀ option ∈ options, arity option.1 = some option.2.length)
    (ends : ∀ a ∈ rest.head?, arity a = none) :
    read arity (written options ++ rest) = some (options, rest) := by
  induction options with
  | nil =>
    cases rest with
    | nil => rfl
    | cons a rest =>
      have plain : arity a = none := ends a rfl
      change scan arity none (a :: rest) = _
      rw [scan, plain]
  | cons option options later =>
    have further := later fun other member => takes other (List.mem_cons_of_mem _ member)
    rw [written_cons, List.cons_append, List.append_assoc, read,
      scan_option arity option.1 option.2 _ (takes option List.mem_cons_self), ← read, further]
    rfl

end

end OptionArgs
