import Mathlib.Data.List.Find
import Mathlib.Data.List.Infix
import Mathlib.Data.List.Nodup

/-! Texts whose characters may carry the place they come from, and the replacement of words in them. Where the
places of the words are apart, replacing one word after the other is replacing them all at once. -/

namespace MarkedText

class Letters (α : Type) where
  char : α → Char
  letter : Char → α
  char_letter : ∀ c, char (letter c) = c

open Letters

instance : Letters Char := ⟨id, id, fun _ => rfl⟩

/-- A character with its place in a text; one that was written there later has none. -/
structure Mark where
  char : Char
  place : Option Nat
  deriving DecidableEq

instance : Letters Mark := ⟨Mark.char, (⟨·, none⟩), fun _ => rfl⟩

def marked (s : List Char) : List Mark := s.zipIdx.map fun c => ⟨c.1, some c.2⟩

def starts (word s : List Char) : Bool := word.isPrefixOf s

section

variable {α β : Type} [letters : Letters α] [Letters β]

/-- Writes `text` for the words, from left to right; `skip` characters are of a word. -/
@[simp] def replaceFrom (words : List (List Char)) (text : List Char) : Nat → List α → List α
  | _, [] => []
  | skip + 1, _ :: s => replaceFrom words text skip s
  | 0, a :: s =>
    match words.find? (starts · ((a :: s).map char)) with
    | some word => text.map letter ++ replaceFrom words text (word.length - 1) s
    | none => a :: replaceFrom words text 0 s

def replaceAll (words : List (List Char)) (text : List Char) (s : List α) : List α :=
  replaceFrom words text 0 s

/-- `str.replace`, of a word that is not empty -/
def replace (word text : List Char) (s : List α) : List α := replaceAll [word] text s

/-- Within a word at the head of a text no other word starts, and the word itself only where it follows right
behind as well. -/
def Alone (words : List (List Char)) (word s : List Char) : Prop :=
  ∀ j < word.length, ∀ other ∈ words, starts other (s.drop j) = true →
    other = word ∧ (j = 0 ∨ starts word (s.drop word.length) = true)

instance (words : List (List Char)) (word s : List Char) : Decidable (Alone words word s) := by
  delta Alone
  infer_instance

/-- Every word that `replaceFrom` comes upon is alone. -/
@[simp] def apartFrom (words : List (List Char)) : Nat → List Char → Bool
  | _, [] => true
  | skip + 1, _ :: s => apartFrom words skip s
  | 0, c :: s =>
    match words.find? (starts · (c :: s)) with
    | some word => decide (Alone words word (c :: s)) && apartFrom words (word.length - 1) s
    | none => apartFrom words 0 s

/-- The places of the words do not get in the way of each other. -/
def Apart (words : List (List Char)) (s : List Char) : Prop := apartFrom words 0 s = true

instance (words : List (List Char)) (s : List Char) : Decidable (Apart words s) := by
  delta Apart
  infer_instance

theorem starts_iff (word s : List Char) : starts word s = true ↔ word <+: s := List.isPrefixOf_iff_prefix

variable (words : List (List Char)) (text : List Char)

theorem replaceFrom_skip (skip : Nat) (s : List α) :
    replaceFrom words text skip s = replaceAll words text (s.drop skip) := by
  induction s generalizing skip with
  | nil => rw [List.drop_nil, replaceFrom, replaceAll, replaceFrom]
  | cons a s rest =>
    cases skip with
    | zero => rfl
    | succ skip =>
      rw [replaceFrom, List.drop_succ_cons]
      exact rest skip

theorem replaceAll_nil : replaceAll words text ([] : List α) = [] := rfl

theorem replaceAll_hit (word : List Char) (s : List α) (filled : word ≠ [])
    (hit : words.find? (starts · (s.map char)) = some word) :
    replaceAll words text s = text.map letter ++ replaceAll words text (s.drop word.length) := by
  cases s with
  | nil =>
    have starts' := List.find?_some hit
    rw [List.map_nil, starts_iff, List.prefix_nil] at starts'
    exact absurd starts' filled
  | cons a s =>
    have long : word.length = word.length - 1 + 1 :=
      (Nat.succ_pred_eq_of_pos (List.length_pos_iff.mpr filled)).symm
    rw [replaceAll, replaceFrom, hit]
    simp only [replaceFrom_skip]
    rw [long, List.drop_succ_cons, ← long]

theorem replaceAll_miss (a : α) (s : List α) (miss : words.find? (starts · ((a :: s).map char)) = none) :
    replaceAll words text (a :: s) = a :: replaceAll words text s := by
  rw [replaceAll, replaceFrom, miss]
  rfl

theorem replaceAll_word (word back : List α) (filled : word ≠ [])
    (hit : words.find? (starts · ((word ++ back).map char)) = some (word.map char)) :
    replaceAll words text (word ++ back) = text.map letter ++ replaceAll words text back := by
  have filled : word.map char ≠ [] := fun empty => filled (List.map_eq_nil_iff.mp empty)
  rw [replaceAll_hit words text _ _ filled hit, List.length_map, List.drop_left]

theorem starts_split (word : List Char) (s : List α) (hit : starts word (s.map char) = true) :
    ∃ front back, s = front ++ back ∧ front.map char = word := by
  refine ⟨s.take word.length, s.drop word.length, (List.take_append_drop _ _).symm, ?_⟩
  rw [List.map_take]
  exact (List.prefix_iff_eq_take.mp ((starts_iff _ _).mp hit)).symm

theorem starts_append (front back : List α) : starts (front.map char) ((front ++ back).map char) = true := by
  rw [starts_iff, List.map_append]
  exact List.prefix_append _ _

theorem replaceAll_pass (front back : List α) (quiet : ∀ i < front.length, ∀ word ∈ words,
    starts word (((front ++ back).drop i).map char) = false) :
    replaceAll words text (front ++ back) = front ++ replaceAll words text back := by
  induction front with
  | nil => rfl
  | cons a front rest =>
    have miss : words.find? (starts · ((a :: (front ++ back)).map char)) = none :=
      List.find?_eq_none.mpr fun word member => by
        rw [Bool.not_eq_true]
        exact quiet 0 (Nat.succ_pos _) word member
    rw [List.cons_append, replaceAll_miss words text a _ miss, rest]
    · rfl
    · exact fun i inside => quiet (i + 1) (Nat.succ_lt_succ inside)

theorem replaceAll_mem (s : List α) (a : α) (member : a ∈ replaceAll words text s) :
    a ∈ s ∨ a ∈ text.map letter := by
  have every : ∀ (s : List α) (skip : Nat), a ∈ replaceFrom words text skip s →
      a ∈ s ∨ a ∈ text.map letter := by
    intro s
    induction s with
    | nil =>
      intro skip member
      rw [replaceFrom] at member
      exact absurd member List.not_mem_nil
    | cons c s rest =>
      intro skip member
      cases skip with
      | succ skip => exact (rest skip member).imp_left (List.mem_cons_of_mem c)
      | zero =>
        rw [replaceFrom] at member
        split at member
        · rcases List.mem_append.mp member with member | member
          · exact Or.inr member
          · exact (rest _ member).imp_left (List.mem_cons_of_mem c)
        · rcases List.mem_cons.mp member with rfl | member
          · exact Or.inl List.mem_cons_self
          · exact (rest 0 member).imp_left (List.mem_cons_of_mem c)
  exact every s 0 member

/-- What holds of the empty text, in front of a letter at which no word starts and in front of a word, holds of
every text. -/
theorem scan_induction (filled : ∀ word ∈ words, word ≠ []) {motive : List α → Prop} (nil : motive [])
    (miss : ∀ a s, words.find? (starts · ((a :: s).map char)) = none → motive s → motive (a :: s))
    (hit : ∀ front back, front ≠ [] →
      words.find? (starts · ((front ++ back).map char)) = some (front.map char) → motive back →
        motive (front ++ back)) (s : List α) : motive s := by
  induction size : s.length using Nat.strong_induction_on generalizing s with
  | _ n rest =>
    cases s with
    | nil => exact nil
    | cons a s =>
      cases found : words.find? (starts · ((a :: s).map char)) with
      | none =>
        apply miss a s found
        exact rest s.length (size ▸ Nat.lt_succ_self _) s rfl
      | some word =>
        have nonempty := filled word (List.mem_of_find?_eq_some found)
        obtain ⟨front, back, splits, rfl⟩ :=
          starts_split word (a :: s) (List.find?_some (p := fun w => starts w ((a :: s).map char)) found)
        have proper : front ≠ [] := fun empty => nonempty (by rw [empty]; rfl)
        rw [splits] at found size ⊢
        apply hit front back proper found
        apply rest back.length _ back rfl
        have positive := List.length_pos_iff.mpr proper
        rw [← size, List.length_append]
        omega

theorem apartFrom_skip (skip : Nat) (s : List Char) :
    apartFrom words skip s = apartFrom words 0 (s.drop skip) := by
  induction s generalizing skip with
  | nil => rw [List.drop_nil, apartFrom, apartFrom]
  | cons c s rest =>
    cases skip with
    | zero => rfl
    | succ skip =>
      rw [apartFrom, List.drop_succ_cons]
      exact rest skip

theorem apart_miss (a : α) (s : List α) (miss : words.find? (starts · ((a :: s).map char)) = none) :
    Apart words ((a :: s).map char) ↔ Apart words (s.map char) := by
  rw [Apart, Apart, List.map_cons, apartFrom, ← List.map_cons, miss]

theorem apart_word (front back : List α) (proper : front ≠ [])
    (hit : words.find? (starts · ((front ++ back).map char)) = some (front.map char)) :
    Apart words ((front ++ back).map char) ↔
      Alone words (front.map char) ((front ++ back).map char) ∧ Apart words (back.map char) := by
  obtain ⟨a, front, rfl⟩ := List.exists_cons_of_ne_nil proper
  rw [List.cons_append, List.map_cons] at hit ⊢
  rw [Apart, apartFrom, hit, Bool.and_eq_true, decide_eq_true_iff, apartFrom_skip, List.length_map,
    List.length_cons, Nat.add_sub_cancel, ← List.map_drop, List.drop_left]
  exact Iff.rfl

theorem apart_pass (front back : List α) (quiet : ∀ i < front.length, ∀ word ∈ words,
    starts word (((front ++ back).drop i).map char) = false) :
    Apart words ((front ++ back).map char) ↔ Apart words (back.map char) := by
  induction front with
  | nil => exact Iff.rfl
  | cons a front rest =>
    have miss : words.find? (starts · ((a :: (front ++ back)).map char)) = none :=
      List.find?_eq_none.mpr fun word member => by
        rw [Bool.not_eq_true]
        exact quiet 0 (Nat.succ_pos _) word member
    rw [List.cons_append, apart_miss words a _ miss]
    exact rest fun i inside => quiet (i + 1) (Nat.succ_lt_succ inside)

theorem find_alone (s word other : List Char) (filled : word ≠ []) (alone : Alone words word s)
    (others : List (List Char)) (subset : ∀ w ∈ others, w ∈ words) (member : other ∈ others)
    (hit : starts other s = true) : others.find? (starts · s) = some word := by
  have only : ∀ w ∈ others, starts w s = true → w = word := fun w known starts' =>
    (alone 0 (List.length_pos_iff.mpr filled) w (subset w known) starts').1
  cases found : others.find? (starts · s) with
  | none => exact absurd hit (List.find?_eq_none.mp found other member)
  | some first =>
    rw [only first (List.mem_of_find?_eq_some found) (List.find?_some (p := (starts · s)) found)]

theorem replaceAll_split (filled : ∀ word ∈ words, word ≠ []) (front back : List α)
    (within : ∀ i < front.length, ∀ word ∈ words, starts word (((front ++ back).drop i).map char) = true →
      i + word.length ≤ front.length) :
    replaceAll words text (front ++ back) = replaceAll words text front ++ replaceAll words text back := by
  induction size : front.length using Nat.strong_induction_on generalizing front with
  | _ n rest =>
    cases front with
    | nil => rfl
    | cons a front =>
      have alike : ∀ word ∈ words, starts word ((a :: (front ++ back)).map char) =
          starts word ((a :: front).map char) := fun word member => by
        rw [Bool.eq_iff_iff, starts_iff, starts_iff, ← List.cons_append, List.map_append]
        constructor
        · intro hit
          have short := within 0 (Nat.succ_pos _) word member
            ((starts_iff _ _).mpr (by rw [List.drop_zero, List.map_append]; exact hit))
          refine List.prefix_of_prefix_length_le hit (List.prefix_append _ _) ?_
          rw [List.length_map]
          omega
        · exact fun hit => hit.trans (List.prefix_append _ _)
      have same : words.find? (starts · ((a :: (front ++ back)).map char)) =
          words.find? (starts · ((a :: front).map char)) := List.find?_congr alike
      cases found : words.find? (starts · ((a :: front).map char)) with
      | none =>
        rw [List.cons_append, replaceAll_miss words text a _ (same.trans found),
          replaceAll_miss words text a _ found, rest front.length _ front _ rfl]
        · rfl
        · rw [← size]
          exact Nat.lt_succ_self _
        · intro i inside word member hit
          have := within (i + 1) (Nat.succ_lt_succ inside) word member hit
          rw [List.length_cons] at this
          omega
      | some word =>
        have nonempty := filled word (List.mem_of_find?_eq_some found)
        have hit := List.find?_some (p := fun w => starts w ((a :: front).map char)) found
        obtain ⟨first, later, splits, rfl⟩ := starts_split word (a :: front) hit
        have proper : first ≠ [] := fun empty => nonempty (by rw [empty]; rfl)
        have positive := List.length_pos_iff.mpr proper
        rw [← List.cons_append, splits, List.append_assoc] at same
        rw [splits] at found within size ⊢
        rw [List.length_append] at size
        rw [List.append_assoc, replaceAll_word words text first _ proper found,
          replaceAll_word words text first _ proper (same.trans found), List.append_assoc,
          rest later.length (by omega) later _ rfl]
        intro i inside other memberOther hit
        have := within (first.length + i) (by rw [List.length_append]; omega) other memberOther (by
          rw [List.append_assoc, ← List.drop_drop, List.drop_left]
          exact hit)
        rw [List.length_append] at this
        omega

/-- No character of a word remains. -/
theorem replaceAll_covered (filled : ∀ word ∈ words, word ≠ []) (s : List α)
    (apart : Apart words (s.map char)) (distinct : s.Nodup) (old : ∀ a ∈ s, a ∉ text.map letter) (i : Nat)
    (word : List Char) (member : word ∈ words) (hit : starts word ((s.drop i).map char) = true) (k : Nat)
    (low : i ≤ k) (high : k < i + word.length) (a : α) (found : s[k]? = some a) :
    a ∉ replaceAll words text s := by
  induction s using @scan_induction α letters words filled generalizing i k word with
  | nil => simp at found
  | miss b s here later =>
    have beyond : i ≠ 0 := by
      intro first
      rw [first] at hit
      exact List.find?_eq_none.mp here word member hit
    obtain ⟨i, rfl⟩ := Nat.exists_eq_succ_of_ne_zero beyond
    obtain ⟨k, rfl⟩ := Nat.exists_eq_succ_of_ne_zero (Nat.ne_of_gt (Nat.lt_of_lt_of_le (Nat.succ_pos i) low))
    rw [List.nodup_cons] at distinct
    have inside : a ∈ s := List.mem_of_getElem? found
    rw [replaceAll_miss words text b s here, List.mem_cons, not_or]
    refine ⟨fun same => distinct.1 (same ▸ inside), ?_⟩
    exact later ((apart_miss words b s here).mp apart) distinct.2
      (fun c known => old c (List.mem_cons_of_mem b known)) i word member hit k (Nat.le_of_succ_le_succ low)
      (by omega) found
  | hit front back proper here later =>
    obtain ⟨alone, behind⟩ := (apart_word words front back proper here).mp apart
    rw [List.nodup_append] at distinct
    have again := later behind distinct.2.1 fun c known => old c (List.mem_append_right front known)
    rw [replaceAll_word words text front back proper here, List.mem_append, not_or]
    refine ⟨old a (List.mem_of_getElem? found), ?_⟩
    by_cases within : k < front.length
    · -- The character is of the word that is taken here.
      have inFront : a ∈ front := by
        rw [List.getElem?_append_left within] at found
        exact List.mem_of_getElem? found
      intro remains
      cases replaceAll_mem words text back a remains with
      | inl known => exact distinct.2.2 a inFront a known rfl
      | inr written => exact old a (List.mem_append_left back inFront) written
    · have there : back[k - front.length]? = some a := by
        rwa [List.getElem?_append_right (Nat.not_lt.mp within)] at found
      by_cases start : i < front.length
      · -- The occurrence starts in the word, which then follows right behind.
        obtain ⟨same, first | follows⟩ := alone i (by rwa [List.length_map]) word member
          (by rwa [← List.map_drop])
        · rw [same, List.length_map, first] at high
          omega
        · rw [same, List.length_map] at high
          rw [List.length_map, ← List.map_drop, List.drop_left] at follows
          exact again 0 (front.map char) (same ▸ member) follows _ (Nat.zero_le _)
            (by rw [List.length_map]; omega) there
      · rw [List.drop_append, List.drop_eq_nil_of_le (Nat.not_lt.mp start), List.nil_append] at hit
        exact again (i - front.length) word member hit _ (by omega) (by omega) there

example : Apart ["abababab".toList] "abababababababab".toList ∧ ¬Apart ["abababab".toList] "ababababab".toList := by
  decide

/-- Nothing of a word remains. -/
theorem replaceAll_hidden (filled : ∀ word ∈ words, word ≠ []) (front word back : List α)
    (member : word.map char ∈ words) (apart : Apart words ((front ++ (word ++ back)).map char))
    (distinct : (front ++ (word ++ back)).Nodup) (old : ∀ a ∈ front ++ (word ++ back), a ∉ text.map letter) (a : α)
    (inside : a ∈ word) : a ∉ replaceAll words text (front ++ (word ++ back)) := by
  obtain ⟨k, short, rfl⟩ := List.getElem_of_mem inside
  apply replaceAll_covered words text filled _ apart distinct old front.length (word.map char) member
    (by rw [List.drop_left]; exact starts_append word back) (front.length + k) (Nat.le_add_right _ _)
    (by rw [List.length_map]; omega)
  rw [List.getElem?_append_right (Nat.le_add_right _ _), Nat.add_sub_cancel_left,
    List.getElem?_append_left short, List.getElem?_eq_getElem short]

theorem replaceAll_untouched (filled : ∀ word ∈ words, word ≠ []) (front kept back : List α)
    (apart : Apart words ((front ++ (kept ++ back)).map char)) (distinct : (front ++ (kept ++ back)).Nodup)
    (old : ∀ a ∈ front ++ (kept ++ back), a ∉ text.map letter) (proper : kept ≠ [])
    (remains : ∀ a ∈ kept, a ∈ replaceAll words text (front ++ (kept ++ back))) :
    replaceAll words text (front ++ (kept ++ back)) =
      replaceAll words text front ++ (kept ++ replaceAll words text back) := by
  have positive := List.length_pos_iff.mpr proper
  have clear : ∀ i, i < front.length + kept.length → ∀ word ∈ words,
      starts word (((front ++ (kept ++ back)).drop i).map char) = true → i + word.length ≤ front.length := by
    intro i before word member hit
    by_contra across
    have filledWord := List.length_pos_iff.mpr (filled word member)
    have inside : max i front.length - front.length < kept.length := by omega
    have found : (front ++ (kept ++ back))[max i front.length]? =
        some kept[max i front.length - front.length] := by
      rw [List.getElem?_append_right (by omega), List.getElem?_append_left inside,
        List.getElem?_eq_getElem inside]
    exact replaceAll_covered words text filled _ apart distinct old i word member hit (max i front.length)
      (by omega) (by omega) _ found (remains _ (List.getElem_mem inside))
  rw [replaceAll_split words text filled front (kept ++ back) fun i before => clear i (by omega),
    replaceAll_pass words text kept back]
  intro i inside word member
  by_contra hit
  have behind : kept ++ back = (front ++ (kept ++ back)).drop front.length := List.drop_left.symm
  rw [Bool.not_eq_false, behind, List.drop_drop] at hit
  have := clear (front.length + i) (by omega) word member hit
  have filledWord := List.length_pos_iff.mpr (filled word member)
  omega

/-- A word does not stand on what was written, unless it is all of it. -/
def Fresh (word : List Char) (s : List α) : Prop :=
  ∀ i < s.length, starts word ((s.drop i).map char) = true →
    (s.drop i).take word.length = text.map letter ∨ ∀ a ∈ (s.drop i).take word.length, a ∉ text.map letter

instance [DecidableEq α] (word : List Char) (s : List α) : Decidable (Fresh text word s) := by
  delta Fresh
  infer_instance

theorem fresh_back (word : List Char) (front back : List α) (fresh : Fresh text word (front ++ back)) :
    Fresh text word back := by
  intro i inside
  have := fresh (front.length + i) (by rw [List.length_append]; omega)
  rwa [← List.drop_drop, List.drop_left] at this

theorem written_chars : (text.map (letter : Char → α)).map char = text := by
  rw [List.map_map]
  exact (List.map_congr_left fun c _ => char_letter c).trans (List.map_id text)

theorem replace_written (word : List Char) (filled : word ≠ []) (s : List α)
    (fresh : Fresh text word (text.map letter ++ s)) :
    replace word text (text.map letter ++ s) = text.map letter ++ replace word text s := by
  by_cases whole : word = text
  · have hit : [word].find? (starts · ((text.map (letter : Char → α) ++ s).map char)) =
        some ((text.map (letter : Char → α)).map char) := by
      have begins := starts_append (text.map (letter : Char → α)) s
      rw [written_chars] at begins ⊢
      rw [whole, List.find?_cons, begins]
    exact replaceAll_word [word] text _ s (by simpa using whole ▸ filled) hit
  · apply replaceAll_pass [word] text
    intro i inside other member
    rw [List.mem_singleton.mp member]
    by_contra hit
    rw [Bool.not_eq_false] at hit
    cases fresh i (by rw [List.length_append]; omega) hit with
    | inl all =>
      have spelled := congrArg (List.map char) all
      rw [written_chars, List.map_take] at spelled
      exact whole ((List.prefix_iff_eq_take.mp ((starts_iff _ _).mp hit)).trans spelled)
    | inr clean =>
      refine clean _ ?_ (List.getElem_mem inside : (text.map (letter : Char → α))[i] ∈ text.map letter)
      rw [List.drop_append_of_le_length (Nat.le_of_lt inside), List.drop_eq_getElem_cons inside,
        List.cons_append, ← Nat.succ_pred_eq_of_pos (List.length_pos_iff.mpr filled), List.take_succ_cons]
      exact List.mem_cons_self

theorem apart_subset (filled : ∀ word ∈ words, word ≠ []) (others : List (List Char)) (subset : others ⊆ words)
    (s : List α) (apart : Apart words (s.map char)) : Apart others (s.map char) := by
  induction s using @scan_induction α letters words filled with
  | nil => rfl
  | miss a s here later =>
    have miss : others.find? (starts · ((a :: s).map char)) = none :=
      List.find?_eq_none.mpr fun word member => List.find?_eq_none.mp here word (subset member)
    exact (apart_miss others a s miss).mpr (later ((apart_miss words a s here).mp apart))
  | hit front back proper here later =>
    obtain ⟨alone, behind⟩ := (apart_word words front back proper here).mp apart
    by_cases known : front.map char ∈ others
    · have hit := find_alone words _ (front.map char) _ (by simpa using proper) alone others (fun _ w => subset w)
        known (starts_append front back)
      refine (apart_word others front back proper hit).mpr ⟨?_, later behind⟩
      exact fun j inside other member => alone j inside other (subset member)
    · apply (apart_pass others front back _).mpr (later behind)
      intro i inside other member
      by_contra hit
      rw [Bool.not_eq_false, List.map_drop] at hit
      have same := (alone i (by rwa [List.length_map]) other (subset member) hit).1
      exact known (same ▸ member)

theorem replaceAll_none (s : List α) : replaceAll [] text s = s := by
  have passes := replaceAll_pass [] text s [] fun i _ word member => absurd member List.not_mem_nil
  rw [List.append_nil, replaceAll_nil, List.append_nil] at passes
  exact passes

theorem replace_absent (word : List Char) (s : List α) (absent : ¬word <:+: s.map char) :
    replace word text s = s := by
  have passes := replaceAll_pass [word] text s [] fun i _ other member => by
    rw [List.append_nil, List.mem_singleton.mp member]
    by_contra hit
    rw [Bool.not_eq_false, starts_iff, List.map_drop] at hit
    exact absent (hit.isInfix.trans (List.drop_suffix i _).isInfix)
  rw [List.append_nil, replaceAll_nil, List.append_nil] at passes
  exact passes

theorem marked_chars (s : List Char) : (marked s).map char = s := by
  rw [marked, List.map_map]
  exact List.zipIdx_map_fst 0 s

theorem marked_nodup (s : List Char) : (marked s).Nodup := by
  refine List.Nodup.of_map Mark.place ?_
  have places : (marked s).map Mark.place = (s.zipIdx.map Prod.snd).map some := by
    rw [marked, List.map_map, List.map_map]
    rfl
  rw [places, List.zipIdx_map_snd]
  exact (List.nodup_range' _).map fun i j same => Option.some_inj.mp same

theorem marked_old (s : List Char) (m : Mark) (member : m ∈ marked s) : m ∉ text.map letter := by
  intro written
  obtain ⟨c, _, rfl⟩ := List.mem_map.mp member
  obtain ⟨d, _, same⟩ := List.mem_map.mp written
  exact absurd (congrArg Mark.place same) (by simp [letter])

theorem replaceAll_take (filled : ∀ word ∈ words, word ≠ []) (visible : text ≠ []) (n : Nat) (s : List α)
    (old : ∀ a ∈ (replaceAll words text s).take n, a ∉ text.map letter) :
    (replaceAll words text s).take n = s.take n := by
  induction n generalizing s with
  | zero => rw [List.take_zero, List.take_zero]
  | succ n rest =>
    cases s with
    | nil => rfl
    | cons a s =>
      cases found : words.find? (starts · ((a :: s).map char)) with
      | none =>
        rw [replaceAll_miss words text a s found] at old ⊢
        rw [List.take_succ_cons, List.take_succ_cons, rest s]
        exact fun b member => old b (by rw [List.take_succ_cons]; exact List.mem_cons_of_mem a member)
      | some word =>
        have nonempty := filled word (List.mem_of_find?_eq_some found)
        obtain ⟨c, later, rfl⟩ := List.exists_cons_of_ne_nil visible
        rw [replaceAll_hit words (c :: later) word _ nonempty found, List.map_cons, List.cons_append,
          List.take_succ_cons] at old
        exact absurd List.mem_cons_self (old (letter c) List.mem_cons_self)

theorem replaceAll_snoc (word : List Char) (filled : ∀ other ∈ words ++ [word], other ≠ [])
    (visible : text ≠ []) (s : List α) (old : ∀ a ∈ s, a ∉ text.map letter)
    (apart : Apart (words ++ [word]) (s.map char)) (fresh : Fresh text word (replaceAll words text s)) :
    replace word text (replaceAll words text s) = replaceAll (words ++ [word]) text s := by
  have nonempty : word ≠ [] := filled word (List.mem_append_right _ List.mem_cons_self)
  have filledWords : ∀ other ∈ words, other ≠ [] := fun other member =>
    filled other (List.mem_append_left _ member)
  induction s using @scan_induction α letters (words ++ [word]) filled with
  | nil => rfl
  | miss a s both later =>
    rw [List.find?_append, Option.or_eq_none_iff] at both
    have rest := later (fun b known => old b (List.mem_cons_of_mem a known))
      ((apart_miss _ a s (by rw [List.find?_append, both.1, both.2]; rfl)).mp apart)
    have here := List.find?_eq_none.mp both.2 word List.mem_cons_self
    rw [replaceAll_miss words text a s both.1] at fresh ⊢
    have miss : starts word ((a :: replaceAll words text s).map char) = false := by
      by_contra across
      rw [Bool.not_eq_false] at across
      cases fresh 0 (Nat.succ_pos _) across with
      | inl all =>
        obtain ⟨c, tail, rfl⟩ := List.exists_cons_of_ne_nil visible
        rw [List.drop_zero, ← Nat.succ_pred_eq_of_pos (List.length_pos_iff.mpr nonempty), List.take_succ_cons,
          List.map_cons] at all
        apply old a List.mem_cons_self
        rw [(List.cons.inj all).1]
        exact List.mem_cons_self
      | inr clean =>
        have same := replaceAll_take words text filledWords visible word.length (a :: s) (by
          rw [replaceAll_miss words text a s both.1]
          exact clean)
        rw [replaceAll_miss words text a s both.1] at same
        refine here ((starts_iff _ _).mpr (List.prefix_iff_eq_take.mpr ?_))
        rw [← List.map_take, ← same, List.map_take]
        exact List.prefix_iff_eq_take.mp ((starts_iff _ _).mp across)
    have still : [word].find? (starts · ((a :: replaceAll words text s).map char)) = none := by
      rw [List.find?_cons, miss]
      rfl
    rw [replaceAll_miss _ text a s (by rw [List.find?_append, both.1, both.2]; rfl), replace,
      replaceAll_miss _ text a _ still, ← replace, rest (fresh_back text word [a] _ fresh)]
  | hit front back proper both later =>
    obtain ⟨alone, behind⟩ := (apart_word _ front back proper both).mp apart
    have rest := later (fun b known => old b (List.mem_append_right front known)) behind
    rw [replaceAll_word _ text front back proper both]
    cases found : words.find? (starts · ((front ++ back).map char)) with
    | some other =>
      rw [List.find?_append, found, Option.some_or, Option.some.injEq] at both
      rw [replaceAll_word words text front back proper (both ▸ found)] at fresh ⊢
      rw [replace_written text word nonempty _ fresh, rest (fresh_back text word _ _ fresh)]
    | none =>
      rw [List.find?_append, found, Option.none_or, List.find?_cons] at both
      have spelled : front.map char = word := by
        split at both
        · exact (Option.some.inj both).symm
        · cases both
      -- Within the word no other one starts.
      have passes : replaceAll words text (front ++ back) = front ++ replaceAll words text back := by
        apply replaceAll_pass words text front back
        intro i inside other member
        by_contra hit
        rw [Bool.not_eq_false, List.map_drop] at hit
        have same := (alone i (by rwa [List.length_map]) other (List.mem_append_left _ member) hit).1
        apply List.find?_eq_none.mp found other member
        rw [same]
        exact starts_append front back
      rw [passes] at fresh ⊢
      have again : [word].find? (starts · ((front ++ replaceAll words text back).map char)) =
          some (front.map char) := by
        rw [← spelled, List.find?_cons, starts_append]
      rw [replace, replaceAll_word _ text front _ proper again, ← replace, rest (fresh_back text _ _ _ fresh)]

/-- The order of words that are apart does not matter. -/
theorem replaceAll_same (others : List (List Char)) (filled : ∀ word ∈ words, word ≠ [])
    (same : ∀ word, word ∈ words ↔ word ∈ others) (s : List α) (apart : Apart words (s.map char)) :
    replaceAll words text s = replaceAll others text s := by
  induction s using @scan_induction α letters words filled with
  | nil => rfl
  | miss a s here later =>
    have miss : others.find? (starts · ((a :: s).map char)) = none :=
      List.find?_eq_none.mpr fun word member => List.find?_eq_none.mp here word ((same word).mpr member)
    rw [replaceAll_miss words text a s here, replaceAll_miss others text a s miss,
      later ((apart_miss words a s here).mp apart)]
  | hit front back proper here later =>
    obtain ⟨alone, behind⟩ := (apart_word words front back proper here).mp apart
    have member := (same _).mp (List.mem_of_find?_eq_some here)
    have hit := find_alone words _ (front.map char) _ (by simpa using proper) alone others
      (fun word known => (same word).mpr known) member (starts_append front back)
    rw [replaceAll_word words text front back proper here, replaceAll_word others text front back proper hit,
      later behind]

theorem replaceAll_map (f : α → β) (chars : ∀ a, char (f a) = char a)
    (written : ∀ c : Char, f (letter c) = letter c) (s : List α) :
    replaceAll words text (s.map f) = (replaceAll words text s).map f := by
  have every : ∀ skip, replaceFrom words text skip (s.map f) = (replaceFrom words text skip s).map f := by
    induction s with
    | nil => exact fun skip => rfl
    | cons a s rest =>
      intro skip
      cases skip with
      | succ skip => exact rest skip
      | zero =>
        have same : ((a :: s).map f).map char = (a :: s).map char := by
          rw [List.map_map]
          exact List.map_congr_left fun b _ => chars b
        rw [List.map_cons, replaceFrom, ← List.map_cons, same, replaceFrom]
        split
        · rw [rest, List.map_append, List.map_map]
          simp only [Function.comp_def, written]
        · rw [rest, List.map_cons]
  exact every 0

end

end MarkedText
