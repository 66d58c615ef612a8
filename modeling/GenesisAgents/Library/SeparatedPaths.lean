import Mathlib.Data.List.Infix

/-! Paths as lists of parts, and their texts: every part behind a separator that no part contains. A
text prefix is a prefix of the parts, or it ends inside a part. -/

namespace SeparatedPaths

variable {α : Type} (sep : α)

def render (parts : List (List α)) : List α := parts.flatMap (sep :: ·)

@[simp] theorem render_nil : render sep [] = [] := rfl

@[simp] theorem render_cons (part : List α) (rest : List (List α)) :
    render sep (part :: rest) = sep :: (part ++ render sep rest) := rfl

/-- The last part of a path is a proper prefix of the part that stands there in the other path. -/
def EndsInside (parts others : List (List α)) : Prop :=
  ∃ front last other rest, parts = front ++ [last] ∧ others = front ++ other :: rest ∧
    last <+: other ∧ last ≠ other

theorem endsInside_cons (part : List α) (rest : List (List α)) (other : List α)
    (others : List (List α)) (filled : rest ≠ []) :
    EndsInside (part :: rest) (other :: others) ↔ part = other ∧ EndsInside rest others := by
  constructor
  · rintro ⟨front, last, found, tail, mine, theirs, inside, apart⟩
    cases front with
    | nil => exact absurd (List.cons.inj mine).2 filled
    | cons head front =>
      have first := List.cons.inj mine
      have second := List.cons.inj theirs
      exact ⟨first.1.trans second.1.symm, front, last, found, tail, first.2, second.2, inside, apart⟩
  · rintro ⟨rfl, front, last, found, tail, rfl, rfl, inside, apart⟩
    exact ⟨part :: front, last, found, tail, rfl, rfl, inside, apart⟩

theorem endsInside_singleton (part other : List α) (others : List (List α)) :
    EndsInside [part] (other :: others) ↔ part <+: other ∧ part ≠ other := by
  constructor
  · rintro ⟨front, last, found, tail, mine, theirs, inside, apart⟩
    rcases List.append_eq_singleton_iff.mp mine.symm with ⟨rfl, alone⟩ | ⟨-, nothing⟩
    · rw [(List.cons.inj alone).1, ← (List.cons.inj theirs).1] at inside apart
      exact ⟨inside, apart⟩
    · contradiction
  · rintro ⟨inside, apart⟩
    exact ⟨[], part, other, others, rfl, rfl, inside, apart⟩

theorem not_endsInside_nil (parts : List (List α)) : ¬EndsInside parts [] := by
  rintro ⟨front, last, other, rest, -, nothing, -⟩
  exact absurd nothing.symm (by simp)

def Follows (rest : List α) : Prop := ∀ c ∈ rest.head?, c = sep

theorem render_follows (parts : List (List α)) : Follows sep (render sep parts) := by
  cases parts with
  | nil => exact nofun
  | cons part rest =>
    intro c head
    exact (Option.some.inj head).symm

theorem part_prefix_iff : ∀ (part other rest tail : List α), sep ∉ part → sep ∉ other →
    Follows sep rest → Follows sep tail →
      (part ++ rest <+: other ++ tail ↔ (rest = [] ∧ part <+: other) ∨ (part = other ∧ rest <+: tail)) := by
  intro part
  induction part with
  | nil =>
    intro other rest tail _ free follows _
    cases other with
    | nil =>
      refine ⟨fun inside => .inr ⟨rfl, inside⟩, ?_⟩
      rintro (⟨rfl, -⟩ | ⟨-, inside⟩)
      · exact List.nil_prefix
      · exact inside
    | cons c other =>
      cases rest with
      | nil => exact iff_of_true List.nil_prefix (.inl ⟨rfl, List.nil_prefix⟩)
      | cons s rest =>
        refine iff_of_false (fun inside => ?_) ?_
        · have same : s = c := (List.cons_prefix_cons.mp inside).1
          rw [follows s rfl] at same
          exact free (same ▸ List.mem_cons_self)
        · rintro (⟨nothing, -⟩ | ⟨nothing, -⟩) <;> contradiction
  | cons c part later =>
    intro other rest tail free free' follows follows'
    cases other with
    | nil =>
      refine iff_of_false (fun inside => ?_) ?_
      · cases tail with
        | nil => exact absurd (List.prefix_nil.mp inside) (List.cons_ne_nil _ _)
        | cons s tail =>
          have same : c = s := (List.cons_prefix_cons.mp inside).1
          rw [follows' s rfl] at same
          exact free (same ▸ List.mem_cons_self)
      · rintro (⟨-, inside⟩ | ⟨nothing, -⟩)
        · exact absurd (List.prefix_nil.mp inside) (List.cons_ne_nil _ _)
        · contradiction
    | cons s other =>
      rw [List.cons_append, List.cons_append, List.cons_prefix_cons, List.cons_prefix_cons,
        later other rest tail (fun member => free (List.mem_cons_of_mem _ member))
          (fun member => free' (List.mem_cons_of_mem _ member)) follows follows', List.cons.injEq]
      tauto

theorem prefix_iff (parts others : List (List α)) (filled : parts ≠ []) (free : ∀ p ∈ parts, sep ∉ p)
    (free' : ∀ p ∈ others, sep ∉ p) :
    render sep parts <+: render sep others ↔ parts <+: others ∨ EndsInside parts others := by
  induction parts generalizing others with
  | nil => exact absurd rfl filled
  | cons part rest later =>
    cases others with
    | nil =>
      refine iff_of_false (fun inside => ?_) ?_
      · exact absurd (List.prefix_nil.mp inside) (List.cons_ne_nil _ _)
      · rintro (inside | ends)
        · exact absurd (List.prefix_nil.mp inside) (List.cons_ne_nil _ _)
        · exact not_endsInside_nil _ ends
    | cons other others =>
      rw [List.forall_mem_cons] at free free'
      rw [render_cons, render_cons, List.cons_prefix_cons, List.cons_prefix_cons,
        part_prefix_iff sep part other _ _ free.1 free'.1 (render_follows sep rest)
          (render_follows sep others)]
      cases rest with
      | nil =>
        rw [endsInside_singleton]
        by_cases same : part = other <;> simp [same]
      | cons q rest =>
        rw [later others (List.cons_ne_nil _ _) free.2 free'.2,
          endsInside_cons part (q :: rest) other others (List.cons_ne_nil _ _)]
        simp only [render_cons, List.cons_ne_nil, false_and, false_or, true_and, and_or_left]

theorem closed_prefix_iff (parts others : List (List α)) (free : ∀ p ∈ parts, sep ∉ p)
    (free' : ∀ p ∈ others, sep ∉ p) :
    render sep parts ++ [sep] <+: render sep others ↔ parts <+: others ∧ parts ≠ others := by
  induction parts generalizing others with
  | nil => cases others <;> simp
  | cons part rest later =>
    cases others with
    | nil =>
      refine iff_of_false (fun inside => ?_) fun both => ?_
      · exact absurd (List.prefix_nil.mp inside) (List.cons_ne_nil _ _)
      · exact absurd (List.prefix_nil.mp both.1) (List.cons_ne_nil _ _)
    | cons other others =>
      rw [List.forall_mem_cons] at free free'
      have follows : Follows sep (render sep rest ++ [sep]) := by
        cases rest with
        | nil =>
          intro c head
          exact (Option.some.inj head).symm
        | cons q rest => exact render_follows sep (q :: rest)
      rw [render_cons, render_cons, List.cons_append, List.cons_prefix_cons, List.append_assoc,
        part_prefix_iff sep part other _ _ free.1 free'.1 follows (render_follows sep others),
        later others free.2 free'.2, List.cons_prefix_cons]
      simp only [List.append_eq_nil_iff, List.cons_ne_nil, and_false, false_and, false_or, true_and,
        ne_eq, List.cons.injEq]
      tauto

theorem render_injective (parts others : List (List α)) (free : ∀ p ∈ parts, sep ∉ p)
    (free' : ∀ p ∈ others, sep ∉ p) (same : render sep parts = render sep others) : parts = others := by
  induction parts generalizing others with
  | nil =>
    cases others with
    | nil => rfl
    | cons => contradiction
  | cons part rest later =>
    cases others with
    | nil => contradiction
    | cons other others =>
      rw [List.forall_mem_cons] at free free'
      have tails : part ++ render sep rest = other ++ render sep others := (List.cons.inj same).2
      have first : part = other := by
        have inside := (part_prefix_iff sep part other _ _ free.1 free'.1 (render_follows sep rest)
          (render_follows sep others)).mp (tails ▸ List.prefix_rfl)
        have outside := (part_prefix_iff sep other part _ _ free'.1 free.1 (render_follows sep others)
          (render_follows sep rest)).mp (tails ▸ List.prefix_rfl)
        rcases inside with ⟨-, shorter⟩ | ⟨same, -⟩
        · rcases outside with ⟨-, longer⟩ | ⟨same, -⟩
          · exact shorter.eq_of_length (le_antisymm shorter.length_le longer.length_le)
          · exact same.symm
        · exact same
      subst first
      rw [later others free.2 free'.2 (List.append_cancel_left tails)]

theorem render_eq_intercalate (parts : List (List α)) :
    render sep parts = [sep].intercalate ([] :: parts) := by
  have joined : ∀ (parts : List (List α)) (part : List α),
      [sep].intercalate (part :: parts) = part ++ render sep parts := by
    intro parts
    induction parts with
    | nil => simp
    | cons q rest later =>
      intro part
      rw [List.intercalate_cons_cons, later q, List.append_assoc]
      rfl
  exact (joined parts []).symm

theorem splitOn_render [BEq α] [LawfulBEq α] (parts : List (List α)) (free : ∀ p ∈ parts, sep ∉ p) :
    (render sep parts).splitOn sep = [] :: parts := by
  rw [render_eq_intercalate]
  refine List.splitOn_intercalate sep ?_ (List.cons_ne_nil _ _)
  rw [List.forall_mem_cons]
  exact ⟨List.not_mem_nil, free⟩

theorem render_eq_cons (parts : List (List α)) (filled : parts ≠ []) :
    render sep parts = sep :: [sep].intercalate parts := by
  cases parts with
  | nil => contradiction
  | cons part rest =>
    rw [render_eq_intercalate, List.intercalate_cons_cons, List.append_assoc]
    rfl

theorem splitOn_free [BEq α] [LawfulBEq α] (s : List α) : ∀ part ∈ s.splitOn sep, sep ∉ part := by
  induction s with
  | nil =>
    intro part member
    rw [List.splitOn_nil, List.mem_singleton] at member
    rw [member]
    exact List.not_mem_nil
  | cons c s later =>
    rw [List.splitOn_cons_eq_if_modifyHead]
    split
    · rw [List.forall_mem_cons]
      exact ⟨List.not_mem_nil, later⟩
    · rename_i apart
      cases parts : s.splitOn sep with
      | nil => exact absurd parts (List.splitOn_ne_nil _ _)
      | cons first rest =>
        rw [parts, List.forall_mem_cons] at later
        rw [List.modifyHead_cons, List.forall_mem_cons]
        refine ⟨?_, later.2⟩
        rw [List.mem_cons, not_or]
        exact ⟨fun same => apart (by simp [same]), later.1⟩

/-- A text is the joined parts, or goes on with a separator behind them, exactly when these are its first
parts. -/
theorem joined_prefix_iff [BEq α] [LawfulBEq α] (parts : List (List α)) (s : List α) (filled : parts ≠ [])
    (free : ∀ p ∈ parts, sep ∉ p) :
    (s = [sep].intercalate parts ∨ [sep].intercalate parts ++ [sep] <+: s) ↔ parts <+: s.splitOn sep := by
  have there := splitOn_free sep s
  have text : render sep (s.splitOn sep) = sep :: s := by
    rw [render_eq_cons sep _ (List.splitOn_ne_nil _ _), List.intercalate_splitOn]
  have closed := closed_prefix_iff sep parts (s.splitOn sep) free there
  rw [text, render_eq_cons sep parts filled, List.cons_append, List.cons_prefix_cons] at closed
  have equal : s = [sep].intercalate parts ↔ parts = s.splitOn sep := by
    constructor
    · intro same
      refine render_injective sep parts _ free there ?_
      rw [text, render_eq_cons sep parts filled, same]
    · intro same
      rw [same, List.intercalate_splitOn]
  rw [equal, ← and_iff_right (a := sep = sep) rfl (b := _ <+: s), closed]
  constructor
  · rintro (same | inside)
    · exact same ▸ List.prefix_rfl
    · exact inside.1
  · intro inside
    by_cases same : parts = s.splitOn sep
    · exact .inl same
    · exact .inr ⟨inside, same⟩

end SeparatedPaths
