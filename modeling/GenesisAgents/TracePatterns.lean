import GenesisAgents.TraceRedaction
import GenesisAgents.Library.IpLiterals
import Mathlib.Data.List.TakeWhile

/-! What the first pattern matches: a keyword, all the separators behind it and the whole run of a value. -/

namespace GenesisAgents.TraceRedaction

open Value MarkedText Regexes Regexes.Regex Letters

def keywords : List (List Char) :=
  ["api_key", "api-key", "apikey", "token", "secret", "password"].map String.toList

section

variable {α : Type} [Letters α] (word : Char → Bool)

/-- A text as `(?i)` compares it. -/
def folded (s : List α) : List Char := s.map fun a => fold (char a)

def allOf (p : Char → Bool) (s : List α) : Prop := ∀ a ∈ s, p (char a) = true

instance (p : Char → Bool) (s : List α) : Decidable (allOf p s) :=
  inferInstanceAs (Decidable (∀ a ∈ s, p (char a) = true))

theorem folded_append (s t : List α) : folded (s ++ t) = folded s ++ folded t := List.map_append

def delimiter (c : Char) : Bool := anyOf ",'\":=\x7d" c || isSpace c

theorem delimiter_range (c : Char) (found : delimiter c = true) :
    c.toNat ∉ [304, 305, 383, 0x212A] ∧ (c.toNat < 65 ∨ 90 < c.toNat) := by
  rw [delimiter, Bool.or_eq_true] at found
  rcases found with listed | space
  · have marks : ",'\":=\x7d".toList.all fun c =>
        !([304, 305, 383, 0x212A].contains c.toNat) && (decide (c.toNat < 65) || decide (90 < c.toNat)) := by
      decide
    have passes := List.all_eq_true.mp marks c (List.contains_iff_mem.mp listed)
    simpa using passes
  · simp only [isSpace, Bool.or_eq_true, Bool.and_eq_true, decide_eq_true_eq, beq_iff_eq] at space
    simp only [List.mem_cons, List.not_mem_nil, or_false]
    omega

theorem fold_delimiter (c : Char) (found : delimiter c = true) : fold c = c := by
  obtain ⟨plain, small⟩ := delimiter_range c found
  have apart : ∀ d : Char, d.toNat ∈ [304, 305, 383, 0x212A] → c ≠ d := by
    rintro d member rfl
    exact plain member
  have kelvin : c.toNat ≠ 0x212A := fun same => plain (by rw [same]; decide)
  rw [fold, if_neg (not_or.mpr ⟨apart 'ı' (by decide), apart 'İ' (by decide)⟩),
    if_neg (apart 'ſ' (by decide)), if_neg kelvin]
  apply dif_neg
  intro capital
  exact small.elim (Nat.not_lt.mpr capital.1) (Nat.not_lt.mpr capital.2)

theorem fold_mark (c d : Char) (plain : d.isLower = false) (same : fold c = d) : c = d := by
  have lower : ∀ e : Char, e.isLower = true → e ≠ d := by
    rintro e low rfl
    rw [low] at plain
    cases plain
  rw [fold] at same
  split at same
  · exact absurd same (lower 'i' (by decide))
  · split at same
    · exact absurd same (lower 's' (by decide))
    · split at same
      · exact absurd same (lower 'k' (by decide))
      · exact IpLiterals.toLower_plain c d plain same

theorem keywords_plain : ∀ key ∈ keywords, key.all (!delimiter ·) = true := by decide

theorem keyword_plain (key : List α) (isKey : folded key ∈ keywords) (a : α) (member : a ∈ key) :
    delimiter (char a) = false := by
  by_contra found
  rw [Bool.not_eq_false] at found
  have inside : fold (char a) ∈ folded key := List.mem_map_of_mem member
  have free := List.all_eq_true.mp (keywords_plain _ isKey) _ inside
  rw [fold_delimiter _ found, found] at free
  cases free

theorem sepChar_delimiter (c : Char) (sep : sepChar c = true) : delimiter c = true := by
  rw [sepChar, Bool.or_eq_true] at sep
  rw [delimiter, Bool.or_eq_true]
  refine sep.imp_left fun listed => ?_
  have marks : "'\":=".toList.all (anyOf ",'\":=\x7d") := by decide
  exact List.all_eq_true.mp marks c (List.contains_iff_mem.mp listed)

theorem valueChar_plain (c : Char) (plain : delimiter c = false) : valueChar c = true := by
  rw [delimiter, Bool.or_eq_false_iff] at plain
  rw [valueChar, Bool.not_eq_true', Bool.or_eq_false_iff]
  refine ⟨?_, plain.2⟩
  by_contra listed
  rw [Bool.not_eq_false] at listed
  have marks : ",'\"\x7d".toList.all (anyOf ",'\":=\x7d") := by decide
  have found := List.all_eq_true.mp marks c (List.contains_iff_mem.mp listed)
  rw [plain.1] at found
  cases found

theorem literal_sound (text : List Char) (previous : Option Char) (s : List α) (w : Way α)
    (way : w ∈ ways word (literal ignoringCase text) previous s) : folded w.taken = text ∧ w.groups = [] := by
  induction text generalizing previous s w with
  | nil =>
    rw [literal, ways, List.mem_singleton] at way
    rw [way]
    exact ⟨rfl, rfl⟩
  | cons c text rest =>
    rw [literal] at way
    obtain ⟨u, v, before, first, second, rfl⟩ := seq_sound word _ _ previous s w way
    obtain ⟨a, taken, passes, ungrouped⟩ := single_sound word _ previous s u first
    have later := rest before u.rest v second
    rw [taken, ungrouped, folded_append, later.1, later.2]
    exact ⟨by rw [← eq_of_beq passes]; rfl, rfl⟩

theorem literal_way (key : List α) (previous : Option Char) (s : List α) :
    (⟨[], key, s⟩ : Way α) ∈ ways word (literal ignoringCase (folded key)) previous (key ++ s) := by
  induction key generalizing previous with
  | nil => exact List.mem_singleton_self _
  | cons a key rest =>
    have passes : ignoringCase (fold (char a)) (char a) = true := beq_self_eq_true _
    exact seq_way word _ _ previous (a :: (key ++ s)) ⟨[], [a], key ++ s⟩ ⟨[], key, s⟩
      (single_way word _ previous a (key ++ s) passes) (rest _)

theorem keyword_sound (previous : Option Char) (s : List α) (w : Way α)
    (way : w ∈ ways word keyword previous s) : folded w.taken ∈ keywords ∧ w.groups = [] := by
  have whole : ∀ text ∈ keywords, w ∈ ways word (literal ignoringCase text) previous s →
      folded w.taken ∈ keywords ∧ w.groups = [] := fun text known way => by
    have sound := literal_sound word text previous s w way
    exact ⟨sound.1 ▸ known, sound.2⟩
  rw [keyword, ways, ways, ways, List.mem_append, List.mem_append, List.mem_append] at way
  rcases way with way | way | way | way
  · obtain ⟨api, rest₁, _, isApi, behind₁, rfl⟩ := seq_sound word _ _ previous s w way
    obtain ⟨mark, rest₂, _, isMark, behind₂, rfl⟩ := seq_sound word _ _ _ api.rest rest₁ behind₁
    obtain ⟨key, rest₃, _, isKey, behind₃, rfl⟩ := seq_sound word _ _ _ mark.rest rest₂ behind₂
    rw [List.mem_singleton.mp behind₃]
    have isApi := literal_sound word _ _ _ api isApi
    have isMark := optional_sound word _ _ _ mark isMark
    have isKey := literal_sound word _ _ _ key isKey
    simp only [folded_append, isApi.1, isApi.2, isMark.2, isKey.1, isKey.2]
    refine ⟨?_, rfl⟩
    rcases isMark.1 with nothing | ⟨a, single, passes⟩
    · rw [nothing]
      exact (by decide : "api".toList ++ ([] ++ ("key".toList ++ [])) ∈ keywords)
    · have known : char a = '_' ∨ char a = '-' := by
        simpa [anyOf] using passes
      rcases known with known | known
      · rw [single, folded, List.map_singleton, known]
        exact (by decide : "api".toList ++ (['_'] ++ ("key".toList ++ [])) ∈ keywords)
      · rw [single, folded, List.map_singleton, known]
        exact (by decide : "api".toList ++ (['-'] ++ ("key".toList ++ [])) ∈ keywords)
  · exact whole _ (by decide) way
  · exact whole _ (by decide) way
  · exact whole _ (by decide) way

theorem keyword_way (key : List α) (isKey : folded key ∈ keywords) (previous : Option Char) (s : List α) :
    (⟨[], key, s⟩ : Way α) ∈ ways word keyword previous (key ++ s) := by
  have whole := literal_way word key previous s
  have parts : ∀ (api mark last : List α), folded api = "api".toList → folded last = "key".toList →
      (⟨[], mark, last ++ s⟩ : Way α) ∈
        ways word (run (anyOf "_-") 0 (some 1)) (lastChar previous api) (mark ++ (last ++ s)) →
      (⟨[], api ++ (mark ++ last), s⟩ : Way α) ∈
        ways word keyword previous (api ++ (mark ++ (last ++ s))) := by
    intro api mark last isApi isKey isMark
    have first := literal_way word api previous (mark ++ (last ++ s))
    have third := literal_way word last (lastChar (lastChar previous api) mark) s
    rw [isApi] at first
    rw [isKey] at third
    have ends : (⟨[], [], s⟩ : Way α) ∈
        ways word empty (lastChar (lastChar (lastChar previous api) mark) last) s := List.mem_singleton_self _
    have way := seq_way word _ _ previous _ _ _ first (seq_way word _ _ _ _ _ _ isMark
      (seq_way word _ _ _ _ _ _ third ends))
    simp only [List.append_nil] at way
    exact List.mem_append_left _ way
  have marks : ∀ mark : List α, mark = [] ∨ (∃ a, mark = [a] ∧ anyOf "_-" (char a) = true) →
      ∀ (before : Option Char) (rest : List α),
      (⟨[], mark, rest⟩ : Way α) ∈ ways word (run (anyOf "_-") 0 (some 1)) before (mark ++ rest) := by
    intro mark one before rest
    refine run_way word _ 0 (some 1) before mark rest (Nat.zero_le _) ?_
    rcases one with rfl | ⟨a, rfl, passes⟩
    · exact Nat.zero_le _
    · rw [List.singleton_append, longest_single, if_pos passes]
      rfl
  have spelled : ∀ dash ∈ [[], ['_'], ['-']], folded key = "api".toList ++ (dash ++ "key".toList) →
      (⟨[], key, s⟩ : Way α) ∈ ways word keyword previous (key ++ s) := by
    intro dash known isKey
    obtain ⟨api, rest, rfl, isApi, isRest⟩ := List.map_eq_append_iff.mp isKey
    obtain ⟨mark, last, rfl, isMark, isLast⟩ := List.map_eq_append_iff.mp isRest
    have one : mark = [] ∨ ∃ a, mark = [a] ∧ anyOf "_-" (char a) = true := by
      have single : ∀ c : Char, c.isLower = false → anyOf "_-" c = true → dash = [c] →
          ∃ a, mark = [a] ∧ anyOf "_-" (char a) = true := fun c plain listed isDash => by
        rw [isDash] at isMark
        obtain ⟨a, rfl, same⟩ := List.map_eq_singleton_iff.mp isMark
        exact ⟨a, rfl, by rw [fold_mark _ _ plain same]; exact listed⟩
      simp only [List.mem_cons, List.not_mem_nil, or_false] at known
      rcases known with isDash | isDash | isDash
      · rw [isDash] at isMark
        exact Or.inl (List.map_eq_nil_iff.mp isMark)
      · exact Or.inr (single '_' (by decide) (by decide) isDash)
      · exact Or.inr (single '-' (by decide) (by decide) isDash)
    rw [List.append_assoc, List.append_assoc]
    exact parts api mark last isApi isLast (marks mark one _ _)
  simp only [keywords, List.map_cons, List.map_nil, List.mem_cons, List.not_mem_nil, or_false] at isKey
  rcases isKey with isKey | isKey | isKey | isKey | isKey | isKey
  · exact spelled ['_'] (by decide) (isKey.trans (by decide))
  · exact spelled ['-'] (by decide) (isKey.trans (by decide))
  · exact spelled [] (by decide) (isKey.trans (by decide))
  · rw [isKey] at whole
    exact List.mem_append_right _ (List.mem_append_left _ whole)
  · rw [isKey] at whole
    exact List.mem_append_right _ (List.mem_append_right _ (List.mem_append_left _ whole))
  · rw [isKey] at whole
    exact List.mem_append_right _ (List.mem_append_right _ (List.mem_append_right _ whole))

theorem keyword_shorter (key other : List Char) (isKey : key ∈ keywords) (isOther : other ∈ keywords)
    (inside : key <+: other) : key = other := by
  have table : keywords.all fun key => keywords.all fun other =>
      !key.isPrefixOf other || key == other := by decide
  have entry := List.all_eq_true.mp (List.all_eq_true.mp table key isKey) other isOther
  rw [List.isPrefixOf_iff_prefix.mpr inside] at entry
  exact eq_of_beq entry

theorem keyword_inside (key front other back : List Char) (isKey : key ∈ keywords)
    (isOther : other ∈ keywords) (splits : key = front ++ (other ++ back)) : front = [] := by
  have table : keywords.all fun key => keywords.all fun other =>
      (List.range (key.length + 1)).all fun i => i == 0 || !other.isPrefixOf (key.drop i) := by decide
  have short : front.length < key.length + 1 := by
    rw [splits, List.length_append]
    omega
  have entry := List.all_eq_true.mp (List.all_eq_true.mp (List.all_eq_true.mp table key isKey) other isOther)
    front.length (List.mem_range.mpr short)
  have hit : other.isPrefixOf (key.drop front.length) = true := by
    rw [splits, List.drop_left]
    exact List.isPrefixOf_iff_prefix.mpr (List.prefix_append _ _)
  rw [hit, Bool.not_true, Bool.or_false] at entry
  exact List.eq_nil_of_length_eq_zero (eq_of_beq entry)

theorem keyword_filled (key : List α) (isKey : folded key ∈ keywords) : key ≠ [] := by
  rintro rfl
  have table : keywords.all (!·.isEmpty) := by decide
  exact absurd (List.all_eq_true.mp table _ isKey) (by decide : ¬(!([] : List Char).isEmpty) = true)

theorem keyword_first (key : List α) (isKey : folded key ∈ keywords) (previous : Option Char) (s : List α) :
    matchAt word keyword previous (key ++ s) = some ⟨[], key, s⟩ := by
  have only : ∀ w ∈ ways word keyword previous (key ++ s), w = ⟨[], key, s⟩ := by
    intro w way
    have sound := keyword_sound word previous _ w way
    have splits := way_splits word keyword previous _ w way
    have long : w.taken.length = key.length := by
      have first : folded key <+: folded (key ++ s) := by
        rw [folded_append]
        exact List.prefix_append _ _
      have second : folded w.taken <+: folded (key ++ s) := by
        rw [splits, folded_append]
        exact List.prefix_append _ _
      have either := List.prefix_or_prefix_of_prefix first second
      have same : folded key = folded w.taken := by
        rcases List.prefix_or_prefix_of_prefix first second with inside | inside
        · exact keyword_shorter _ _ isKey sound.1 inside
        · exact (keyword_shorter _ _ sound.1 isKey inside).symm
      have lengths := congrArg List.length same
      rw [folded, folded, List.length_map, List.length_map] at lengths
      exact lengths.symm
    obtain ⟨taken, rest⟩ := List.append_inj splits long.symm
    obtain ⟨groups, _, _⟩ := w
    rw [Way.mk.injEq]
    exact ⟨sound.2, taken.symm, rest.symm⟩
  rw [matchAt]
  cases found : (ways word keyword previous (key ++ s)).head? with
  | none =>
    rw [List.head?_eq_none_iff] at found
    exact absurd (keyword_way word key isKey previous s) (by rw [found]; exact List.not_mem_nil)
  | some w => rw [only w (List.mem_of_head? found)]

/-- Behind a keyword and its separators the pattern takes the whole run of value characters. -/
theorem keyed_first (key sep tail : List α) (isKey : folded key ∈ keywords) (filled : sep ≠ [])
    (seps : allOf sepChar sep) (first : α) (starts : tail.head? = some first)
    (value : valueChar (char first) = true) (opens : sepChar (char first) = false) (previous : Option Char) :
    matchAt word keyed previous (key ++ (sep ++ tail)) =
      some ⟨[key, sep, tail.takeWhile fun a => valueChar (char a)],
        key ++ (sep ++ tail.takeWhile fun a => valueChar (char a)),
        tail.dropWhile fun a => valueChar (char a)⟩ := by
  obtain ⟨rest, rfl⟩ := List.head?_eq_some_iff.mp starts
  have splits := takeWhile_all sepChar sep (first :: rest) seps (fun a isFirst => by
    rw [← Option.some_inj.mp isFirst]
    exact opens)
  have keyPart := group_first word _ previous _ _
    (keyword_first word key isKey previous (sep ++ first :: rest))
  have sepPart := fun before => group_first word _ before _ _
    (run_first word sepChar 1 before (sep ++ first :: rest) (by
      rw [splits.1]
      exact List.length_pos_iff.mpr filled))
  have valuePart := fun before => group_first word _ before _ _
    (run_first word valueChar 1 before (first :: rest) (by
      rw [List.takeWhile_cons_of_pos (p := fun a => valueChar (char a)) value]
      exact Nat.succ_pos _))
  rw [splits.1, splits.2] at sepPart
  exact seq_first word _ _ previous _ _ _ keyPart (seq_first word _ _ _ _ _ _ (sepPart _) (valuePart _))

/-- Where no value follows the separators, the last colon or equals sign among them is taken for one. -/
theorem keyed_lone (key sep quiet back : List α) (c : α) (isKey : folded key ∈ keywords) (filled : sep ≠ [])
    (seps : allOf sepChar sep) (isSep : sepChar (char c) = true) (isValue : valueChar (char c) = true)
    (quiets : ∀ a ∈ quiet, sepChar (char a) = true ∧ valueChar (char a) = false)
    (ends : ∀ a, back.head? = some a → sepChar (char a) = false ∧ valueChar (char a) = false)
    (previous : Option Char) :
    matchAt word keyed previous (key ++ (sep ++ (c :: quiet ++ back))) =
      some ⟨[key, sep, [c]], key ++ (sep ++ [c]), quiet ++ back⟩ := by
  have all : ∀ a ∈ sep ++ c :: quiet, sepChar (char a) = true := by
    intro a member
    cases List.mem_append.mp member with
    | inl inside => exact seps a inside
    | inr inside =>
      cases List.mem_cons.mp inside with
      | inl same => exact same ▸ isSep
      | inr inside => exact (quiets a inside).1
  have silent : ∀ left : List α, left <:+ quiet →
      ∀ a, (left ++ back).head? = some a → valueChar (char a) = false := by
    intro left inside a isHead
    cases left with
    | nil => exact (ends a isHead).2
    | cons b left =>
      rw [← Option.some_inj.mp isHead]
      exact (quiets b (inside.subset List.mem_cons_self)).2
  have keyPart := group_first word _ previous _ _
    (keyword_first word key isKey previous (sep ++ (c :: quiet ++ back)))
  have valuePart : ∀ before, matchAt word (group (run valueChar 1 none)) before (c :: quiet ++ back) =
      some ⟨[[c]], [c], quiet ++ back⟩ := by
    intro before
    have splits := takeWhile_all valueChar [c] (quiet ++ back) (by simpa using isValue)
      (silent quiet List.suffix_rfl)
    have first := group_first word _ before _ _ (run_first word valueChar 1 before ([c] ++ (quiet ++ back)) (by
      rw [splits.1]
      exact Nat.le_refl 1))
    rw [splits.1, splits.2] at first
    exact first
  have sepPart : ∀ before, matchAt word (seq (group (run sepChar 1 none)) (group (run valueChar 1 none))) before
      (sep ++ (c :: quiet ++ back)) = some ⟨[sep, [c]], sep ++ [c], quiet ++ back⟩ := by
    intro before
    obtain ⟨missed, later, sepWays, left⟩ := run_back word sepChar before sep (c :: quiet) back filled all
      fun a isHead => (ends a isHead).1
    refine seq_later word _ _ before _ (missed.map fun w => { w with groups := w.taken :: w.groups })
      (later.map fun w => { w with groups := w.taken :: w.groups }) ⟨[sep], sep, c :: quiet ++ back⟩ _ ?_ ?_
      (valuePart _)
    · rw [ways, sepWays, List.map_append, List.map_cons]
    · intro w member before
      obtain ⟨w, isMissed, rfl⟩ := List.mem_map.mp member
      obtain ⟨rest, splits, inside, other⟩ := left w isMissed
      have short : rest <:+ quiet := (List.suffix_cons_iff.mp inside).resolve_left other
      dsimp only
      rw [splits, ways, run_none word valueChar before _ (silent rest short), List.map_nil]
  exact seq_first word _ _ previous _ _ _ keyPart (sepPart _)

/-- What the pattern takes is a keyword, separators and a run of value characters up to its end. -/
theorem keyed_sound (previous : Option Char) (s : List α) (w : Way α)
    (found : matchAt word keyed previous s = some w) :
    ∃ key sep value, s = key ++ (sep ++ (value ++ w.rest)) ∧ w.groups = [key, sep, value] ∧
      w.taken = key ++ (sep ++ value) ∧ folded key ∈ keywords ∧ sep ≠ [] ∧ allOf sepChar sep ∧
      allOf valueChar value ∧ ∀ a, w.rest.head? = some a → valueChar (char a) = false := by
  obtain ⟨k, x, _, isKey, behind, rfl⟩ := seq_head word _ _ previous s w found
  obtain ⟨q, y, before, isSep, isValue, rfl⟩ := seq_head word _ _ _ k.rest x behind
  obtain ⟨k, keyWay, rfl⟩ := group_sound word _ _ s k isKey
  obtain ⟨q, sepWay, rfl⟩ := group_sound word _ _ k.rest q isSep
  obtain ⟨v, valueWay, rfl⟩ := group_sound word _ _ q.rest y (List.mem_of_head? isValue)
  have keyPart := keyword_sound word _ s k keyWay
  have sepPart := run_sound word sepChar 1 none _ k.rest q sepWay
  have valuePart := run_sound word valueChar 1 none _ q.rest v valueWay
  have longest := group_first word _ before _ _ (run_first word valueChar 1 before q.rest
    (run_least word valueChar 1 before q.rest v valueWay))
  rw [longest, Option.some_inj, Way.mk.injEq] at isValue
  refine ⟨k.taken, q.taken, v.taken, ?_, ?_, rfl, keyPart.1, ?_, sepPart.1, valuePart.1, ?_⟩
  · rw [way_splits word _ _ s k keyWay, way_splits word _ _ k.rest q sepWay,
      way_splits word _ _ q.rest v valueWay]
  · rw [keyPart.2, sepPart.2.2, valuePart.2.2]
    rfl
  · exact List.length_pos_iff.mp sepPart.2.1
  · intro a isHead
    have stops := List.head?_dropWhile_not (fun a => valueChar (char a)) q.rest
    have rest : q.rest.dropWhile (fun a => valueChar (char a)) = v.rest := isValue.2.2
    rw [rest, isHead] at stops
    exact stops

end

end GenesisAgents.TraceRedaction
