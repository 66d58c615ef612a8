import GenesisAgents.TracePatterns

/-! What `redact_text` leaves of secrets: nothing, where their places are apart and each value stands behind a
keyword to which the first pattern comes. -/

namespace GenesisAgents.TraceRedaction

open Value MarkedText Regexes Regexes.Regex Letters

/-- An order in which the set of the secrets may be yielded. -/
def IsOrder (secrets : Finset Secret) (order : List Secret) : Prop :=
  order.Nodup ∧ ∀ secret, secret ∈ order ↔ secret ∈ secrets

def texts (order : List Secret) : List (List Char) := order.map Secret.text

/-- A keyword, separators and a value, which is bare or ends at the quote that closes the separators. -/
structure KeyedValue (key sep value back : List Mark) : Prop where
  isKey : folded key ∈ keywords
  filled : sep ≠ []
  seps : allOf sepChar sep
  shape : (∃ first, value.head? = some first ∧ sepChar first.char = false ∧ allOf valueChar value) ∨
    ∃ quote, anyOf "'\"" quote = true ∧ sep.getLast?.map Mark.char = some quote ∧
      quote ∉ value.map Mark.char ∧ back.head?.map Mark.char = some quote

/-- The redaction of a text does not depend on the order, and leaves nothing of a secret or a value. -/
structure MasksWhole (C : Classes) (secrets : Finset Secret) (text : List Char) : Prop where
  orderFree : ∀ order other, IsOrder secrets order → IsOrder secrets other →
    redactText C order text = redactText C other text
  literals : ∀ order, IsOrder secrets order → ∀ secret ∈ secrets, ∀ front word back,
    marked text = front ++ (word ++ back) → word.map Mark.char = secret.text →
      ∀ m ∈ word, m ∉ redactText C order (marked text)
  values : ∀ order, IsOrder secrets order → ∀ front key sep value back,
    marked text = front ++ (key ++ (sep ++ (value ++ back))) → KeyedValue key sep value back →
      ∀ m ∈ value, m ∉ redactText C order (marked text)

def leftOf (order : List Secret) (text : List Char) : List Mark :=
  replaceAll (texts order) redacted (marked text)

/-- The end of this text stands in the value of a keyword, of one that does not stand in such a value itself. -/
def Swallowed (front : List Mark) : Prop :=
  ∃ before key sep run, ∃ _ : front = before ++ (key ++ (sep ++ run)) ∧ sep ≠ [],
    folded key ∈ keywords ∧ allOf sepChar sep ∧ allOf valueChar run ∧ ¬Swallowed before
termination_by front.length
decreasing_by
  next splits =>
    rw [splits.1]
    simp only [List.length_append]
    have := List.length_pos_iff.mpr splits.2
    omega

theorem not_swallowed_nil : ¬Swallowed [] := by
  rw [Swallowed]
  intro ⟨_, _, _, _, ⟨splits, filled⟩, _⟩
  simp [filled] at splits

/-- The keyword and its separators remain, of what stands behind them remains only what the pattern takes, and
the keyword, with `before` in front of it, does not stand in the value of another. -/
structure Reached (before left key sep value : List Mark) : Prop where
  isKey : folded key ∈ keywords
  filled : sep ≠ []
  seps : allOf sepChar sep
  whole : ∀ m ∈ key ++ sep, m ∈ left
  plain : ∀ m ∈ value, m ∈ left → valueChar m.char = true
  opens : ∀ m, value.head? = some m → m ∈ left → sepChar m.char = false
  free : ¬Swallowed before

/-- The value is a separator, `c`, that the pattern has to take for a value, since there is no other behind the
separators. -/
structure Lone (before left key sep : List Mark) (c : Mark) (quiet rest : List Mark) : Prop where
  isSep : sepChar c.char = true
  isValue : valueChar c.char = true
  quiets : ∀ m ∈ quiet, sepChar m.char = true ∧ valueChar m.char = false
  ends : ∀ m, rest.head? = some m → m ∈ left ∧ sepChar m.char = false ∧ valueChar m.char = false
  whole : ∀ m ∈ key ++ (sep ++ c :: quiet), m ∈ left
  free : ¬Swallowed before

def partOf (order : List Secret) (part : List Mark) : List Mark := replaceAll (texts order) redacted part

/-- The secrets and values of a text do not get in the way of each other. -/
structure Clear (secrets : Finset Secret) (text : List Char) : Prop where
  apart : ∀ order, IsOrder secrets order → Apart (texts order) text
  fresh : ∀ done secret rest, IsOrder secrets (done ++ secret :: rest) →
    Fresh redacted secret.text (leftOf done text)
  values : ∀ order, IsOrder secrets order → ∀ front key sep value back,
    marked text = front ++ (key ++ (sep ++ (value ++ back))) → KeyedValue key sep value back →
      (∀ m ∈ value, m ∉ leftOf order text) ∨
      (∃ front' key' sep' mid, front ++ (key ++ sep) = front' ++ (key' ++ (sep' ++ mid)) ∧
        Reached (partOf order front') (leftOf order text) key' sep' (mid ++ value)) ∨
      ∃ c quiet rest, value = [c] ∧ back = quiet ++ rest ∧
        Lone (partOf order front) (leftOf order text) key sep c quiet rest

theorem texts_filled (order : List Secret) (word : List Char) (member : word ∈ texts order) : word ≠ [] := by
  obtain ⟨secret, _, rfl⟩ := List.mem_map.mp member
  exact List.length_pos_iff.mp (Nat.lt_of_lt_of_le (by decide) secret.long)

theorem redacted_filled : redacted ≠ [] := by decide

section

variable (secrets : Finset Secret) (text : List Char) (clear : Clear secrets text)

include clear

theorem replaceSecrets_step (done : List Secret) (secret : Secret) (rest : List Secret)
    (isOrder : IsOrder secrets (done ++ secret :: rest)) :
    replace secret.text redacted (leftOf done text) = leftOf (done ++ [secret]) text := by
  have apart : Apart (texts done ++ [secret.text]) ((marked text).map char) := by
    rw [marked_chars]
    have whole := clear.apart _ isOrder
    rw [← marked_chars text] at whole
    have part := apart_subset _ (texts_filled _) (texts done ++ [secret.text]) ?_ _ whole
    · rwa [marked_chars] at part
    have split : texts (done ++ secret :: rest) = texts done ++ secret.text :: texts rest := List.map_append
    rw [split]
    exact List.append_subset.mpr ⟨List.subset_append_left _ _, List.cons_subset.mpr
      ⟨List.mem_append_right _ List.mem_cons_self, List.nil_subset _⟩⟩
  have filled : ∀ word ∈ texts done ++ [secret.text], word ≠ [] := by
    have := texts_filled (done ++ [secret])
    rwa [texts, List.map_append] at this
  have snoc := replaceAll_snoc (texts done) redacted secret.text filled redacted_filled (marked text)
    (marked_old redacted text) apart (clear.fresh done secret rest isOrder)
  rw [leftOf, snoc, leftOf, texts, texts, List.map_append]
  rfl

theorem replaceSecrets_left (rest done : List Secret) (isOrder : IsOrder secrets (done ++ rest)) :
    replaceSecrets rest (leftOf done text) = leftOf (done ++ rest) text := by
  induction rest generalizing done with
  | nil => rw [List.append_nil]; rfl
  | cons secret rest later =>
    have next : (if secret.text <:+: (leftOf done text).map char then
        replace secret.text redacted (leftOf done text) else leftOf done text) =
        leftOf (done ++ [secret]) text := by
      rw [← replaceSecrets_step secrets text clear done secret rest isOrder]
      split
      · rfl
      · next absent => rw [replace_absent redacted secret.text _ absent]
    have step := later (done ++ [secret]) (by rwa [List.append_assoc])
    rw [List.append_assoc] at step
    rw [replaceSecrets, List.foldl_cons, next]
    exact step

/-- The loop replaces the secrets as if all at once. -/
theorem replaceSecrets_once (order : List Secret) (isOrder : IsOrder secrets order) :
    replaceSecrets order (marked text) = leftOf order text := by
  have loop := replaceSecrets_left secrets text clear order [] isOrder
  have start : leftOf [] text = marked text := replaceAll_none redacted (marked text)
  rwa [start] at loop

theorem leftOf_same (order other : List Secret) (isOrder : IsOrder secrets order)
    (isOther : IsOrder secrets other) : leftOf order text = leftOf other text := by
  refine replaceAll_same (texts order) redacted (texts other) (texts_filled order) (fun word => ?_)
    (marked text) ?_
  · have same : ∀ secret, secret ∈ order ↔ secret ∈ other := fun secret =>
      (isOrder.2 secret).trans (isOther.2 secret).symm
    simp only [texts, List.mem_map, same]
  · rw [marked_chars]
    exact clear.apart order isOrder

end

section

variable (C : Classes)

theorem patterns_mem (patterns : List Regex) (s : List Mark) (m : Mark)
    (member : m ∈ patterns.foldl (fun text pattern =>
      let kept := if 3 ≤ pattern.groups then 2 else 0
      sub (isWord C) pattern kept redacted none 0 text) s) : m ∈ s ∨ m ∈ redacted.map letter := by
  induction patterns generalizing s with
  | nil => exact Or.inl member
  | cons pattern patterns rest =>
    rcases rest _ member with left | written
    · exact sub_mem (isWord C) pattern _ redacted none 0 s m left
    · exact Or.inr written

theorem redactText_left (order : List Secret) (s : List Mark) (m : Mark) (member : m ∈ redactText C order s) :
    m ∈ replaceSecrets order s ∨ m ∈ redacted.map letter := patterns_mem C _ _ m member

theorem redactText_keyed (order : List Secret) (s : List Mark) (m : Mark)
    (member : m ∈ redactText C order s) :
    m ∈ sub (isWord C) keyed 2 redacted none 0 (replaceSecrets order s) ∨ m ∈ redacted.map letter :=
  patterns_mem C _ _ m member

theorem redacted_plain : redacted.all fun c => valueChar c && !sepChar c := by decide

theorem written_plain (m : Mark) (written : m ∈ redacted.map letter) :
    valueChar m.char = true ∧ sepChar m.char = false := by
  obtain ⟨c, member, rfl⟩ := List.mem_map.mp written
  have plain := List.all_eq_true.mp redacted_plain c member
  rw [Bool.and_eq_true, Bool.not_eq_true'] at plain
  exact plain

/-- What is left of a value is a run of value characters; other characters of it are gone. -/
theorem value_run (words : List (List Char)) (value back : List Mark) (skip : Nat)
    (plain : ∀ m ∈ value, m ∈ replaceFrom words redacted skip (value ++ back) → valueChar m.char = true) :
    ∃ run behind, replaceFrom words redacted skip (value ++ back) = run ++ behind ∧ allOf valueChar run ∧
      ∀ m ∈ behind, m ∈ back ∨ m ∈ redacted.map letter := by
  induction value generalizing skip with
  | nil =>
    refine ⟨[], _, rfl, fun m member => absurd member List.not_mem_nil, fun m member => ?_⟩
    rw [List.nil_append, replaceFrom_skip] at member
    exact (replaceAll_mem words redacted _ m member).imp_left (List.mem_of_mem_drop ·)
  | cons a value rest =>
    cases skip with
    | succ skip =>
      rw [List.cons_append, replaceFrom] at plain ⊢
      exact rest skip fun m member => plain m (List.mem_cons_of_mem a member)
    | zero =>
      rw [List.cons_append, replaceFrom] at plain ⊢
      split at plain
      · next word found =>
        obtain ⟨run, behind, splits, all, old⟩ := rest (word.length - 1) fun m member left =>
          plain m (List.mem_cons_of_mem a member) (List.mem_append_right _ left)
        refine ⟨redacted.map letter ++ run, behind, by rw [splits, List.append_assoc], fun m member => ?_,
          old⟩
        rcases List.mem_append.mp member with written | inside
        · exact (written_plain m written).1
        · exact all m inside
      · obtain ⟨run, behind, splits, all, old⟩ := rest 0 fun m member left =>
          plain m (List.mem_cons_of_mem a member) (List.mem_cons_of_mem a left)
        refine ⟨a :: run, behind, by rw [splits]; rfl, fun m member => ?_, old⟩
        rcases List.mem_cons.mp member with rfl | inside
        · exact plain m List.mem_cons_self List.mem_cons_self
        · exact all m inside

theorem value_opens (words : List (List Char)) (a : Mark) (value back : List Mark)
    (plain : ∀ m ∈ a :: value, m ∈ replaceAll words redacted (a :: value ++ back) → valueChar m.char = true)
    (opens : a ∈ replaceAll words redacted (a :: value ++ back) → sepChar a.char = false) :
    ∃ first run behind, replaceAll words redacted (a :: value ++ back) = first :: run ++ behind ∧
      sepChar first.char = false ∧ allOf valueChar (first :: run) ∧
      ∀ m ∈ behind, m ∈ back ∨ m ∈ redacted.map letter := by
  rw [List.cons_append, replaceAll, replaceFrom] at plain opens ⊢
  cases found : words.find? (starts · ((a :: (value ++ back)).map char)) with
  | some word =>
    simp only [found] at plain ⊢
    obtain ⟨run, behind, splits, all, old⟩ := value_run words value back (word.length - 1)
      fun m member left => plain m (List.mem_cons_of_mem a member) (List.mem_append_right _ left)
    obtain ⟨c, later, isRedacted⟩ := List.exists_cons_of_ne_nil redacted_filled
    have plainLetters : ∀ m : Mark, m ∈ letter c :: later.map letter →
        valueChar m.char = true ∧ sepChar m.char = false := fun m member =>
      written_plain m (by rw [isRedacted]; exact member)
    refine ⟨letter c, later.map letter ++ run, behind, ?_, (plainLetters _ List.mem_cons_self).2,
      fun m member => ?_, old⟩
    · rw [splits, isRedacted, List.map_cons, List.cons_append, List.cons_append, List.append_assoc]
    · rw [← List.cons_append] at member
      exact (List.mem_append.mp member).elim (fun written => (plainLetters m written).1) (all m)
  | none =>
    simp only [found] at plain opens ⊢
    obtain ⟨run, behind, splits, all, old⟩ := value_run words value back 0 fun m member left =>
      plain m (List.mem_cons_of_mem a member) (List.mem_cons_of_mem a left)
    refine ⟨a, run, behind, by rw [splits]; rfl, opens List.mem_cons_self, fun m member => ?_, old⟩
    rcases List.mem_cons.mp member with rfl | inside
    · exact plain m List.mem_cons_self List.mem_cons_self
    · exact all m inside

/-- A match that starts before a keyword takes it in its value, or not at all. -/
theorem match_across (key rest front : List Mark) (isKey : folded key ∈ keywords) (proper : front ≠ [])
    (previous : Option Char) (w : Way Mark)
    (found : matchAt (isWord C) keyed previous (front ++ (key ++ rest)) = some w)
    (long : front.length < w.taken.length) :
    ∃ key' sep run value, front = key' ++ (sep ++ run) ∧ w.groups = [key', sep, value] ∧
      folded key' ∈ keywords ∧ sep ≠ [] ∧ allOf sepChar sep ∧ allOf valueChar run ∧
      allOf valueChar value ∧ run ++ (key ++ rest) = value ++ w.rest ∧
      ∀ a, w.rest.head? = some a → valueChar (char a) = false := by
  obtain ⟨key', sep, value, splits, groups, taken, isKey', filled, seps, all, stops⟩ :=
    keyed_sound (isWord C) previous _ w found
  have noSep : ∀ m ∈ key, sepChar (char m) = false := fun m member => by
    by_contra isSep
    rw [Bool.not_eq_false] at isSep
    have plain := keyword_plain key isKey m member
    rw [sepChar_delimiter _ isSep] at plain
    cases plain
  obtain ⟨k, key₁, rfl⟩ := List.exists_cons_of_ne_nil (keyword_filled key isKey)
  obtain ⟨q, sep₁, rfl⟩ := List.exists_cons_of_ne_nil filled
  have keyHead := noSep k List.mem_cons_self
  have sepHead := seps q List.mem_cons_self
  have apart : ∀ behind, key' ≠ front ++ (k :: key₁ ++ behind) := by
    rintro behind rfl
    rw [folded_append, folded_append] at isKey'
    have start := keyword_inside _ (folded front) (folded (k :: key₁)) (folded behind) isKey' isKey rfl
    exact proper (List.map_eq_nil_iff.mp start)
  rcases List.append_eq_append_iff.mp splits with ⟨a, inKey, inside⟩ | ⟨c, rfl, inside⟩
  · rcases List.append_eq_append_iff.mp inside with ⟨y, rfl, _⟩ | ⟨y, isKeyEnd, behind⟩
    · exact absurd inKey (apart y)
    · cases y with
      | nil =>
        rw [List.append_nil] at isKeyEnd
        exact absurd inKey (by rw [← isKeyEnd, ← List.append_nil (k :: key₁)]; exact apart [])
      | cons b y =>
        have same : q = b := (List.cons.inj behind).1
        have plain := noSep b (by rw [isKeyEnd]; exact List.mem_append_right _ List.mem_cons_self)
        rw [← same, sepHead] at plain
        cases plain
  · rcases List.append_eq_append_iff.mp inside with ⟨run, rfl, behind⟩ | ⟨d, inSep, behind⟩
    · have inValue : run <+: value := by
        refine List.prefix_of_prefix_length_le ⟨_, rfl⟩ (behind ▸ List.prefix_append _ _) ?_
        rw [taken] at long
        simp only [List.length_append] at long
        omega
      exact ⟨key', q :: sep₁, run, value, rfl, groups, isKey', filled, seps,
        fun m member => all m (inValue.subset member), all, behind.symm, stops⟩
    · cases d with
      | nil =>
        rw [List.append_nil] at inSep
        exact ⟨key', q :: sep₁, [], value, by rw [inSep, List.append_nil], groups, isKey', filled, seps,
          fun m member => absurd member List.not_mem_nil, all, behind, stops⟩
      | cons b d =>
        have same : k = b := (List.cons.inj behind).1
        have isSep := seps b (by rw [inSep]; exact List.mem_append_right _ List.mem_cons_self)
        rw [← same, keyHead] at isSep
        cases isSep

theorem replacement_keyed (w : Way Mark) (key sep value : List Mark) (groups : w.groups = [key, sep, value])
    (m : Mark) (member : m ∈ replacement 2 redacted w) : m ∈ key ++ sep ∨ m ∈ redacted.map letter := by
  simpa only [replacement, groups, List.take_succ_cons, List.take_zero, List.flatten_cons, List.flatten_nil,
    List.append_nil, List.mem_append] using member

/-- The scan comes to a keyword exactly when that is in no other's value. -/
theorem comes_iff (front key tail : List Mark) (isKey : folded key ∈ keywords) :
    skipAfter (isWord C) keyed (key ++ tail) none 0 front = 0 ↔ ¬Swallowed front := by
  induction size : front.length using Nat.strong_induction_on generalizing front key tail with
  | _ n earlier =>
    subst size
    constructor
    · intro comes swallowed
      rw [Swallowed] at swallowed
      obtain ⟨before, key', sep, run, ⟨splits, filled⟩, isKey', seps, plain, free⟩ := swallowed
      have positive := List.length_pos_iff.mpr filled
      have reached := (earlier before.length (by rw [splits]; simp only [List.length_append]; omega) before key'
        (sep ++ (run ++ (key ++ tail))) isKey' rfl).mpr free
      -- The separators go as far into the run as they can.
      have whole : run.takeWhile (fun a => sepChar (char a)) ++ run.dropWhile (fun a => sepChar (char a)) = run :=
        List.takeWhile_append_dropWhile
      have plainKey : ∀ a ∈ key, valueChar (char a) = true ∧ sepChar (char a) = false := by
        intro a member
        have plain := keyword_plain key isKey a member
        refine ⟨valueChar_plain _ plain, ?_⟩
        by_contra isSep
        rw [Bool.not_eq_false] at isSep
        rw [sepChar_delimiter _ isSep] at plain
        cases plain
      have plainTail : ∀ a ∈ run.dropWhile (fun a => sepChar (char a)) ++ key, valueChar (char a) = true := by
        intro a member
        cases List.mem_append.mp member with
        | inl inside => exact plain a ((List.dropWhile_sublist _).subset inside)
        | inr inside => exact (plainKey a inside).1
      obtain ⟨first, starts', value, opens⟩ : ∃ first : Mark,
          (run.dropWhile (fun a => sepChar (char a)) ++ (key ++ tail)).head? = some first ∧
            valueChar (char first) = true ∧ sepChar (char first) = false := by
        cases left : run.dropWhile fun a => sepChar (char a) with
        | nil =>
          obtain ⟨k, key, rfl⟩ := List.exists_cons_of_ne_nil (keyword_filled key isKey)
          exact ⟨k, rfl, plainKey k List.mem_cons_self⟩
        | cons a later =>
          refine ⟨a, rfl, plainTail a (by rw [left]; exact List.mem_cons_self), ?_⟩
          have stops := List.head?_dropWhile_not (fun a : Mark => sepChar (char a)) run
          rw [left, List.head?_cons] at stops
          exact stops
      have found := keyed_first (isWord C) key' (sep ++ run.takeWhile fun a => sepChar (char a))
        (run.dropWhile (fun a => sepChar (char a)) ++ (key ++ tail)) isKey' (by simp [filled]) (by
          intro a member
          cases List.mem_append.mp member with
          | inl inside => exact seps a inside
          | inr inside => exact List.mem_takeWhile_imp (p := fun a => sepChar (char a)) inside)
        first starts' value opens
      have shape : key' ++ (sep ++ run.takeWhile (fun a => sepChar (char a)) ++
          (run.dropWhile (fun a => sepChar (char a)) ++ (key ++ tail))) = (key' ++ (sep ++ run)) ++ (key ++ tail) := by
        rw [← List.append_assoc (run.dropWhile _), List.append_assoc sep, ← List.append_assoc (run.takeWhile _),
          ← List.append_assoc (run.takeWhile _), whole]
        simp only [List.append_assoc]
      rw [shape] at found
      have across := skipAfter_across (isWord C) keyed none 0 before (key' ++ (sep ++ run)) (key ++ tail) _ (by
        simpa only [List.append_assoc] using reached) (by simp [filled]) found (by
          have long : (run.dropWhile (fun a => sepChar (char a)) ++ key).length ≤
              ((run.dropWhile (fun a => sepChar (char a)) ++ (key ++ tail)).takeWhile
                fun a => valueChar (char a)).length := by
            rw [← List.append_assoc, List.takeWhile_append_of_pos plainTail]
            exact (List.sublist_append_left _ _).length_le
          have parts := congrArg List.length whole
          have some_ := List.length_pos_iff.mpr (keyword_filled key isKey)
          rw [List.length_append] at long parts
          simp only [List.length_append]
          omega)
      rw [← splits] at across
      exact across comes
    · intro free
      rcases sub_append (isWord C) keyed 2 redacted none 0 front (key ++ tail) (Nat.zero_le _) with ⟨comes, -⟩ |
        ⟨front₁, front₂, before, w, -, -, splits, proper, reached, found, long, -⟩
      · exact comes
      · obtain ⟨key', sep, run, -, rfl, -, isKey', filled, seps, plain, -⟩ :=
          match_across C key tail front₂ isKey proper before w found long
        refine absurd ?_ free
        rw [Swallowed]
        refine ⟨front₁, key', sep, run, ⟨splits, filled⟩, isKey', seps, plain, ?_⟩
        have positive := List.length_pos_iff.mpr filled
        rw [List.append_assoc] at reached
        exact (earlier front₁.length (by rw [splits]; simp only [List.length_append]; omega) front₁ key' _ isKey'
          rfl).mp reached

theorem taken_gone (front key sep value rest tail : List Mark) (isKey : folded key ∈ keywords)
    (free : ¬Swallowed front)
    (found : ∀ before, matchAt (isWord C) keyed before (key ++ tail) =
      some ⟨[key, sep, value], key ++ (sep ++ value), rest⟩)
    (m : Mark) (apart : m ∉ front ++ (key ++ sep)) (later : m ∉ rest) (old : m ∉ redacted.map letter) :
    m ∉ sub (isWord C) keyed 2 redacted none 0 (front ++ (key ++ tail)) := by
  simp only [List.mem_append, not_or] at apart
  rcases sub_append (isWord C) keyed 2 redacted none 0 front (key ++ tail) (Nat.zero_le _) with
    ⟨-, out, before, leaves, was⟩ | ⟨front₁, front₂, before, w, -, -, isFront, proper, reached, next, long, -⟩
  · obtain ⟨after, goes⟩ := sub_match (isWord C) keyed 2 redacted before _ _ (found before) (by
      simp only [ne_eq, List.append_eq_nil_iff, not_and]
      exact fun empty => absurd empty (keyword_filled key isKey))
    rw [leaves, goes]
    intro member
    rcases List.mem_append.mp member with outside | member
    · exact (was m outside).elim apart.1 old
    · rcases List.mem_append.mp member with replaced | member
      · rcases replacement_keyed _ key sep _ rfl m replaced with inside | written
        · exact (List.mem_append.mp inside).elim apart.2.1 apart.2.2
        · exact old written
      · exact (sub_mem (isWord C) keyed 2 redacted after 0 _ m member).elim later old
  · -- A match that starts earlier would take the keyword.
    refine absurd ?_ free
    obtain ⟨key', sep', run, -, rfl, -, isKey', filled, seps, plain, -⟩ :=
      match_across C key tail front₂ isKey proper before w next long
    rw [List.append_assoc] at reached
    rw [Swallowed]
    exact ⟨front₁, key', sep', run, ⟨isFront, filled⟩, isKey', seps, plain,
      (comes_iff C front₁ key' _ isKey').mp reached⟩

/-- Nothing of a value remains behind its keyword, unless the keyword is in the value of another. -/
theorem keyed_gone (front key sep run behind : List Mark) (first : Mark) (isKey : folded key ∈ keywords)
    (filled : sep ≠ []) (seps : allOf sepChar sep) (opens : sepChar first.char = false)
    (all : allOf valueChar (first :: run)) (free : ¬Swallowed front)
    (m : Mark) (apart : m ∉ front ++ (key ++ sep)) (later : m ∉ behind) (old : m ∉ redacted.map letter) :
    m ∉ sub (isWord C) keyed 2 redacted none 0 (front ++ (key ++ (sep ++ (first :: run ++ behind)))) := by
  have found := keyed_first (isWord C) key sep (first :: run ++ behind) isKey filled seps first rfl
    (all first List.mem_cons_self) opens
  apply taken_gone C front key sep _ _ _ isKey free found m apart _ old
  rw [List.dropWhile_append_of_pos all]
  exact fun inside => later ((List.dropWhile_sublist _).subset inside)

section

variable (words : List (List Char)) (filled : ∀ word ∈ words, word ≠ []) (front key sep value back : List Mark)
    (distinct : (front ++ (key ++ (sep ++ (value ++ back)))).Nodup)
    (old : ∀ m ∈ front ++ (key ++ (sep ++ (value ++ back))), m ∉ redacted.map letter)
    (apart : Apart words ((front ++ (key ++ (sep ++ (value ++ back)))).map char))

include filled distinct old apart

theorem value_gone (reached : Reached (replaceAll words redacted front)
      (replaceAll words redacted (front ++ (key ++ (sep ++ (value ++ back))))) key sep value)
    (m : Mark) (member : m ∈ value) :
    m ∉ sub (isWord C) keyed 2 redacted none 0
      (replaceAll words redacted (front ++ (key ++ (sep ++ (value ++ back))))) := by
  have proper : key ++ sep ≠ [] := List.append_ne_nil_of_right_ne_nil key reached.filled
  have splits := replaceAll_untouched words redacted filled front (key ++ sep) (value ++ back)
    (by rw [List.append_assoc]; exact apart) (by rw [List.append_assoc]; exact distinct)
    (by rw [List.append_assoc]; exact old) proper (by rw [List.append_assoc]; exact reached.whole)
  rw [List.append_assoc, List.append_assoc] at splits
  obtain ⟨a, value, rfl⟩ := List.exists_cons_of_ne_nil (List.ne_nil_of_mem member)
  have inLeft : ∀ b ∈ replaceAll words redacted (a :: value ++ back),
      b ∈ replaceAll words redacted (front ++ (key ++ (sep ++ (a :: value ++ back)))) := fun b left => by
    rw [splits]
    exact List.mem_append_right _ (List.mem_append_right _ (List.mem_append_right _ left))
  obtain ⟨first, run, behind, isRun, opens, all, was⟩ := value_opens words a value back
    (fun b inside left => reached.plain b inside (inLeft b left))
    (fun left => reached.opens a rfl (inLeft a left))
  rw [splits, isRun]
  have fresh := old m (by
    simp only [List.mem_append]
    exact Or.inr (Or.inr (Or.inr (Or.inl member))))
  obtain ⟨_, distinct, fromFront⟩ := List.nodup_append.mp distinct
  obtain ⟨_, distinct, fromKey⟩ := List.nodup_append.mp distinct
  obtain ⟨_, distinct, fromSep⟩ := List.nodup_append.mp distinct
  obtain ⟨_, _, fromValue⟩ := List.nodup_append.mp distinct
  have inTail := List.mem_append_left back member
  refine keyed_gone C _ key sep run behind first reached.isKey reached.filled reached.seps opens all reached.free m
    (fun inside => ?_) (fun inside => ?_) fresh
  · rcases List.mem_append.mp inside with inside | inside
    · rcases replaceAll_mem words redacted front m inside with inside | written
      · exact fromFront m inside m (List.mem_append_right _ (List.mem_append_right _ inTail)) rfl
      · exact fresh written
    · rcases List.mem_append.mp inside with inside | inside
      · exact fromKey m inside m (List.mem_append_right _ inTail) rfl
      · exact fromSep m inside m inTail rfl
  · rcases was m inside with inside | written
    · exact fromValue m member m inside rfl
    · exact fresh written

end

theorem lone_gone (words : List (List Char)) (filled : ∀ word ∈ words, word ≠ [])
    (front key sep quiet rest : List Mark) (c : Mark) (isKey : folded key ∈ keywords) (closed : sep ≠ [])
    (seps : allOf sepChar sep)
    (distinct : (front ++ (key ++ (sep ++ (c :: (quiet ++ rest))))).Nodup)
    (old : ∀ m ∈ front ++ (key ++ (sep ++ (c :: (quiet ++ rest)))), m ∉ redacted.map letter)
    (apart : Apart words ((front ++ (key ++ (sep ++ (c :: (quiet ++ rest))))).map char))
    (lone : Lone (replaceAll words redacted front)
      (replaceAll words redacted (front ++ (key ++ (sep ++ (c :: (quiet ++ rest)))))) key sep c quiet rest) :
    c ∉ sub (isWord C) keyed 2 redacted none 0
      (replaceAll words redacted (front ++ (key ++ (sep ++ (c :: (quiet ++ rest)))))) := by
  have shape : front ++ (key ++ (sep ++ (c :: (quiet ++ rest)))) =
      front ++ ((key ++ (sep ++ c :: quiet)) ++ rest) := by
    simp only [List.append_assoc, List.cons_append]
  rw [shape] at distinct old apart lone ⊢
  have splits := replaceAll_untouched words redacted filled front _ rest apart distinct old
    (List.append_ne_nil_of_left_ne_nil (keyword_filled key isKey) _) lone.whole
  -- What follows is either the end of the text, or stays.
  have ends : ∀ m, (replaceAll words redacted rest).head? = some m →
      sepChar (char m) = false ∧ valueChar (char m) = false := by
    intro m isHead
    cases rest with
    | nil => cases isHead
    | cons b rest =>
      obtain ⟨remains, plain⟩ := lone.ends b rfl
      cases found : words.find? (starts · ((b :: rest).map char)) with
      | none =>
        rw [replaceAll_miss words redacted b rest found] at isHead
        rw [← Option.some_inj.mp isHead]
        exact plain
      | some word =>
        have member := List.mem_of_find?_eq_some found
        have hit := List.find?_some (p := fun w => starts w ((b :: rest).map char)) found
        have there (kept : List Mark) : (front ++ (kept ++ b :: rest)).drop (front ++ kept).length = b :: rest := by
          rw [← List.append_assoc, List.drop_left]
        have here (kept : List Mark) : (front ++ (kept ++ b :: rest))[(front ++ kept).length]? = some b := by
          rw [← List.append_assoc, List.getElem?_append_right (Nat.le_refl _), Nat.sub_self,
            List.getElem?_cons_zero]
        have positive := List.length_pos_iff.mpr (filled word member)
        exact absurd remains (replaceAll_covered words redacted filled _ apart distinct old _ word member
          (by rw [there]; exact hit) _ (Nat.le_refl _) (by omega) b (here _))
  have found := keyed_lone (isWord C) key sep quiet (replaceAll words redacted rest) c isKey closed seps lone.isSep
    lone.isValue lone.quiets ends
  have fresh := old c (by simp)
  have shown : replaceAll words redacted front ++ ((key ++ (sep ++ c :: quiet)) ++ replaceAll words redacted rest) =
      replaceAll words redacted front ++ (key ++ (sep ++ (c :: quiet ++ replaceAll words redacted rest))) := by
    simp only [List.append_assoc]
  rw [splits, shown]
  obtain ⟨_, distinct, fromFront⟩ := List.nodup_append.mp distinct
  obtain ⟨kept, _, fromKept⟩ := List.nodup_append.mp distinct
  rw [← List.append_assoc] at kept
  obtain ⟨_, tail, fromKey⟩ := List.nodup_append.mp kept
  have inKept : c ∈ key ++ (sep ++ c :: quiet) := by simp
  apply taken_gone C _ key sep [c] _ _ isKey lone.free found c _ _ fresh
  · intro inside
    rcases List.mem_append.mp inside with inside | inside
    · exact (replaceAll_mem words redacted front c inside).elim
        (fun known => fromFront c known c (List.mem_append_left _ inKept) rfl) fresh
    · exact fromKey c inside c List.mem_cons_self rfl
  · intro inside
    rcases List.mem_append.mp inside with inside | inside
    · exact (List.nodup_cons.mp tail).1 inside
    · exact (replaceAll_mem words redacted rest c inside).elim (fun known => fromKept c inKept c known rfl) fresh

end

/-! Characters with their places are redacted as the text is. -/

theorem replaceSecrets_chars (order : List Secret) (s : List Mark) :
    replaceSecrets order (s.map char) = (replaceSecrets order s).map char := by
  induction order generalizing s with
  | nil => rfl
  | cons secret order rest =>
    have chars : (s.map char).map (char : Char → Char) = s.map char := List.map_id _
    have step : (if secret.text <:+: (s.map char).map (char : Char → Char) then
        replace secret.text redacted (s.map char) else s.map char) =
        (if secret.text <:+: s.map char then replace secret.text redacted s else s).map char := by
      rw [chars]
      split
      · exact replaceAll_map [secret.text] redacted (char : Mark → Char) (fun m => rfl) (fun c => rfl) s
      · rfl
    rw [replaceSecrets, List.foldl_cons, step]
    exact rest _

theorem redactText_chars (C : Classes) (order : List Secret) (text : List Char) :
    redactText C order text = (redactText C order (marked text)).map char := by
  have patterns : ∀ (patterns : List Regex) (s : List Mark),
      patterns.foldl (fun text pattern =>
        let kept := if 3 ≤ pattern.groups then 2 else 0
        sub (isWord C) pattern kept redacted none 0 text) (s.map char) =
      (patterns.foldl (fun text pattern =>
        let kept := if 3 ≤ pattern.groups then 2 else 0
        sub (isWord C) pattern kept redacted none 0 text) s).map (char : Mark → Char) := by
    intro patterns
    induction patterns with
    | nil => exact fun s => rfl
    | cons pattern patterns rest =>
      intro s
      rw [List.foldl_cons, List.foldl_cons, ← rest]
      congr 1
      exact sub_map (isWord C) (char : Mark → Char) (fun m => rfl) pattern _ redacted (fun c => rfl) none 0 s
  rw [redactText, redactText, ← patterns, ← replaceSecrets_chars, marked_chars]

def asciiClasses : Classes := ⟨fun _ => false, fun _ => false⟩

def sampleSecret : Secret := ⟨"abcdefgh".toList, by decide⟩

def longerSecret : Secret := ⟨"abcdefghij".toList, by decide⟩

def sampleText : List Char := "token=xyz abcdefgh".toList

theorem sample_order (order : List Secret) (isOrder : IsOrder {sampleSecret} order) :
    order = [sampleSecret] := by
  obtain ⟨distinct, same⟩ := isOrder
  have only : ∀ secret ∈ order, secret = sampleSecret := fun secret member =>
    Finset.mem_singleton.mp ((same secret).mp member)
  have inside : sampleSecret ∈ order := (same sampleSecret).mpr (Finset.mem_singleton_self _)
  cases order with
  | nil => exact absurd inside List.not_mem_nil
  | cons first rest =>
    rw [only first List.mem_cons_self] at distinct ⊢
    cases rest with
    | nil => rfl
    | cons second rest =>
      have again := only second (List.mem_cons_of_mem first List.mem_cons_self)
      rw [again] at distinct
      exact absurd List.mem_cons_self (List.nodup_cons.mp distinct).1

theorem sample_apart : Apart (texts [sampleSecret]) sampleText := by decide

theorem sample_fresh : Fresh redacted sampleSecret.text (leftOf [] sampleText) := by decide

theorem folded_length (s : List Mark) : (folded s).length = s.length := List.length_map _

theorem sample_key (front key sep rest : List Mark)
    (splits : marked sampleText = front ++ (key ++ (sep ++ rest))) (isKey : folded key ∈ keywords)
    (filled : sep ≠ []) (seps : allOf sepChar sep) :
    front = [] ∧ key ++ sep = (marked sampleText).take 6 ∧ sep = [⟨'=', some 5⟩] := by
  have table : ∀ i < 19, ∀ k < 19, ((sampleText.map fold).drop i).take k ∈ keywords → i = 0 ∧ k = 5 := by
    decide
  have long : front.length + (key.length + (sep.length + rest.length)) = 18 := by
    have lengths := congrArg List.length splits
    simp only [List.length_append] at lengths
    exact lengths.symm.trans rfl
  have spelled : ((sampleText.map fold).drop front.length).take key.length = folded key := by
    have chars : sampleText.map fold = folded front ++ (folded key ++ folded (sep ++ rest)) := by
      rw [← folded_append, ← folded_append, ← splits]
      rfl
    rw [chars, List.drop_left' (folded_length front), List.take_left' (folded_length key)]
  obtain ⟨isStart, five⟩ := table front.length (by omega) key.length (by omega) (spelled ▸ isKey)
  have first := List.eq_nil_of_length_eq_zero isStart
  rw [first, List.nil_append] at splits
  have behind : ⟨'=', some 5⟩ :: ⟨'x', some 6⟩ :: (marked sampleText).drop 7 = sep ++ rest := by
    have dropped := congrArg (List.drop 5) splits
    rw [List.drop_left' five] at dropped
    exact dropped
  have one : sep = [⟨'=', some 5⟩] := by
    obtain ⟨a, sep, rfl⟩ := List.exists_cons_of_ne_nil filled
    cases sep with
    | nil => rw [(List.cons.inj behind).1]
    | cons b sep =>
      have isSep := seps b (List.mem_cons_of_mem a List.mem_cons_self)
      rw [← (List.cons.inj (List.cons.inj behind).2).1] at isSep
      exact absurd isSep (by decide)
  refine ⟨first, ?_, one⟩
  rw [splits, ← List.append_assoc, List.take_left']
  rw [List.length_append, five, one]
  rfl

theorem sample_clear : Clear {sampleSecret} sampleText := by
  constructor
  · intro order isOrder
    rw [sample_order order isOrder]
    exact sample_apart
  · intro done secret rest isOrder
    have alone := sample_order _ isOrder
    rcases List.append_eq_singleton_iff.mp alone with ⟨rfl, same⟩ | ⟨_, nothing⟩
    · rw [(List.cons.inj same).1]
      exact sample_fresh
    · exact absurd nothing (List.cons_ne_nil _ _)
  · intro order isOrder front key sep value back splits found
    rw [sample_order order isOrder]
    obtain ⟨atStart, start, one⟩ :=
      sample_key front key sep (value ++ back) splits found.isKey found.filled found.seps
    right
    left
    rcases found.shape with ⟨first, isFirst, opens, all⟩ | ⟨quote, isQuote, ends, _⟩
    · refine ⟨front, key, sep, [], by rw [List.append_nil], found.isKey, found.filled, found.seps, ?_,
        fun m member _ => all m member, fun m isHead _ => ?_, ?_⟩
      · rw [start]
        decide
      · rw [← Option.some_inj.mp (isFirst.symm.trans isHead)]
        exact opens
      · rw [atStart]
        exact not_swallowed_nil
    · rw [one] at ends
      rw [← Option.some_inj.mp ends] at isQuote
      exact absurd isQuote (by decide)

end GenesisAgents.TraceRedaction
