import GenesisAgents.Library.SqlLexer
import Mathlib.Data.List.TakeWhile

/-! SQL text without quotes, comments and dollar signs, in which every statement stands between two
semicolons and every word between two characters of another kind. -/

namespace SqlLexer

/-! What has been read of a statement stays in front of what follows. -/

theorem advance_frame (front current : Statement) (mode : Mode) (c : Char) :
    advance ⟨front ++ current, mode⟩ c =
      (advance ⟨current, mode⟩ c).map fun l => ⟨front ++ l.current, l.mode⟩ := by
  cases mode with
  | stringEnd quoting text gap =>
    simp only [advance, Option.map_map]
    rfl
  | blockComment depth last =>
    simp only [advance]
    split_ifs
    · cases depth <;> rfl
    · rfl
    · rfl
  | lineComment | escape text | dollarBody tag text candidate | code | dollarEnd text => rfl
  | dollarTag tag =>
    simp only [advance]
    split_ifs
    · rfl
    · rfl
    · simp
    · rfl
  | word text | number text | dash | slash | string quoting text | quoted text | quotedEnd text =>
    simp only [advance]
    split_ifs <;> rfl

theorem fresh_frame (front current : Statement) (c : Char) :
    fresh (front ++ current) c = ⟨front ++ (fresh current c).current, (fresh current c).mode⟩ := by
  unfold fresh
  split_ifs
  · rfl
  · rfl
  · rfl
  · split <;> simp

theorem step_frame (front current : Statement) (mode : Mode) (c : Char) (inside : c ≠ ';') :
    step ⟨front ++ current, mode⟩ c = (⟨front ++ (step ⟨current, mode⟩ c).1.current,
      (step ⟨current, mode⟩ c).1.mode⟩, []) := by
  unfold step
  rw [advance_frame]
  cases advance ⟨current, mode⟩ c with
  | some l => rfl
  | none =>
    simp only [Option.map_none, inside, if_false]
    rw [List.append_assoc, fresh_frame]

theorem run_frame (front : Statement) (l : Lexer) (text : List Char) (inside : ';' ∉ text) :
    (run ⟨front ++ l.current, l.mode⟩ text).1 =
      ⟨front ++ (run l text).1.current, (run l text).1.mode⟩ := by
  induction text generalizing l with
  | nil => rfl
  | cons c text later =>
    have first : c ≠ ';' := fun same => inside (same ▸ List.mem_cons_self)
    have rest : ';' ∉ text := fun member => inside (List.mem_cons_of_mem _ member)
    rw [run, run, step_frame front l.current l.mode c first]
    exact later (step l c).1 rest

/-- The tokens of a text without a `;`. -/
def tokens (text : List Char) : Statement := (run start text).1.current ++ (run start text).1.mode.pending

theorem tokens_spaces_append (gap text : List Char) (blanks : ∀ c ∈ gap, isSpace c = true) :
    tokens (gap ++ text) = tokens text := by
  have skipped : run start gap = (start, []) := run_code_spaces [] gap blanks
  rw [tokens, run_append, skipped]
  rfl

theorem tokens_append (lexeme rest : List Char) (l : Lexer) (token : Token)
    (read : (run start lexeme).1 = l) (alone : l.current ++ l.mode.pending = [token])
    (complete : ∀ c ∈ rest.head?, advance l c = none) (inside : ';' ∉ rest) :
    tokens (lexeme ++ rest) = token :: tokens rest := by
  cases rest with
  | nil =>
    rw [List.append_nil, tokens, read, alone]
    rfl
  | cons c rest =>
    have first : c ≠ ';' := fun same => inside (same ▸ List.mem_cons_self)
    have later : ';' ∉ rest := fun member => inside (List.mem_cons_of_mem _ member)
    have ended : (step l c).1 = ⟨[token] ++ (fresh [] c).current, (fresh [] c).mode⟩ := by
      have begun := fresh_frame [token] [] c
      rw [List.append_nil] at begun
      simp only [step, complete c rfl, first, if_false, alone]
      exact begun
    have fromStart : (step start c).1 = fresh [] c := by
      simp [step, advance, start, first, Mode.pending]
    rw [tokens, run_append, read, run, ended, run_frame [token] (fresh [] c) rest later, tokens, run,
      fromStart]
    rfl

def Unmarked (text : List Char) : Prop := ∀ c ∈ text, c ∉ marks

theorem inWord_of_unmarked (c : Char) (unmarked : c ∉ marks) : inWord c = inTag c := by
  have dollar : c ≠ '$' := fun same => unmarked (same ▸ by decide)
  simp [inWord, dollar]

def Mode.plain : Mode → Bool
  | code => true
  | word _ => true
  | number _ => true
  | _ => false

theorem fresh_unmarked (current : Statement) (c : Char) (unmarked : c ∉ marks) :
    fresh current c = if isSpace c then ⟨current, .code⟩
      else if startsWord c then ⟨current, .word [c]⟩
      else if c.isDigit then ⟨current, .number [c]⟩
      else ⟨current ++ [.symbol c], .code⟩ := by
  simp only [marks, List.mem_cons, List.not_mem_nil, or_false, not_or] at unmarked
  unfold fresh
  split_ifs
  · rfl
  · rfl
  · rfl
  · split <;> simp_all

theorem step_unmarked (l : Lexer) (c : Char) (plain : l.mode.plain = true) (unmarked : c ∉ marks) :
    (step l c).1.mode.plain = true := by
  have quote : c ≠ '\'' := fun same => unmarked (same ▸ by decide)
  have opened (current : Statement) : (fresh current c).mode.plain = true := by
    rw [fresh_unmarked current c unmarked]
    split_ifs <;> rfl
  rcases l with ⟨current, mode⟩
  unfold step
  cases carried : advance ⟨current, mode⟩ c with
  | none =>
    dsimp only
    split_ifs
    · rfl
    · exact opened _
  | some l' =>
    cases mode with
    | code => simp [advance] at carried
    | word text =>
      simp only [advance, quote, false_and, if_false] at carried
      split at carried
      case isTrue =>
        obtain rfl := Option.some.inj carried
        rfl
      case isFalse => contradiction
    | number text =>
      simp only [advance] at carried
      split at carried
      case isTrue =>
        obtain rfl := Option.some.inj carried
        rfl
      case isFalse => contradiction
    | _ => simp [Mode.plain] at plain

theorem run_unmarked (l : Lexer) (text : List Char) (plain : l.mode.plain = true)
    (unmarked : Unmarked text) : (run l text).1.mode.plain = true := by
  induction text generalizing l with
  | nil => exact plain
  | cons c text later =>
    have first := step_unmarked l c plain (unmarked c List.mem_cons_self)
    exact later (step l c).1 first fun other member => unmarked other (List.mem_cons_of_mem _ member)

theorem run_number (text rest : List Char) (inside : ∀ c ∈ rest, inTag c = true) :
    (run ⟨[], .number text⟩ rest).1 = ⟨[], .number (text ++ rest)⟩ := by
  induction rest generalizing text with
  | nil => simp [run]
  | cons c rest later =>
    have carried : (step ⟨[], .number text⟩ c).1 = ⟨[], .number (text ++ [c])⟩ := by
      simp [step, advance, inside c List.mem_cons_self]
    rw [run, carried, later _ fun other within => inside other (List.mem_cons_of_mem _ within)]
    simp

theorem head_dropWhile (p : Char → Bool) (text : List Char) :
    ∀ c ∈ (text.dropWhile p).head?, p c = false := by
  intro c member
  simpa [Option.mem_def.mp member] using List.head?_dropWhile_not p text

theorem tokens_cons (c : Char) (rest : List Char) (unmarked : Unmarked (c :: rest))
    (inside : ';' ∉ c :: rest) (visible : isSpace c = false) :
    tokens (c :: rest) =
      if startsWord c then .word (c :: rest.takeWhile inTag) :: tokens (rest.dropWhile inTag)
      else if c.isDigit then .number (c :: rest.takeWhile inTag) :: tokens (rest.dropWhile inTag)
      else .symbol c :: tokens rest := by
  have solid : c ≠ ';' := fun same => inside (same ▸ List.mem_cons_self)
  have after : ';' ∉ rest := fun member => inside (List.mem_cons_of_mem _ member)
  have after' : ';' ∉ rest.dropWhile inTag := fun member =>
    after (List.dropWhile_subset _ member)
  have lettered : ∀ d ∈ rest.takeWhile inTag, inTag d = true := fun d => List.mem_takeWhile_imp
  have parted : rest.takeWhile inTag ++ rest.dropWhile inTag = rest := List.takeWhile_append_dropWhile
  have begun : (step start c).1 = fresh [] c := by
    simp [step, advance, start, solid, Mode.pending]
  rw [fresh_unmarked [] c (unmarked c List.mem_cons_self), if_neg (by simp [visible])] at begun
  -- what follows the longest run of letters and digits begins a token of its own
  have foreign : ∀ d ∈ (rest.dropWhile inTag).head?, inTag d = false ∧ inWord d = false ∧ d ≠ '\'' := by
    intro d first
    have untagged := head_dropWhile inTag rest d first
    have member : d ∈ rest := List.dropWhile_subset _ (List.mem_of_mem_head? first)
    have plain := unmarked d (List.mem_cons_of_mem _ member)
    refine ⟨untagged, ?_, fun same => plain (same ▸ by decide)⟩
    rw [inWord_of_unmarked d plain, untagged]
  split_ifs with letter digit
  · have read : run start (c :: rest.takeWhile inTag) = (⟨[], .word (c :: rest.takeWhile inTag)⟩, []) :=
      run_word [] c _ letter lettered
    have split := tokens_append (c :: rest.takeWhile inTag) (rest.dropWhile inTag) _
      (.word (c :: rest.takeWhile inTag)) (congrArg Prod.fst read) rfl (by
        intro d first
        rcases foreign d first with ⟨-, noWord, noQuote⟩
        simp [advance, noWord, noQuote]) after'
    rwa [List.cons_append, parted] at split
  · rw [if_neg (by simpa using letter), if_pos digit] at begun
    have read : (run start (c :: rest.takeWhile inTag)).1 =
        ⟨[], .number (c :: rest.takeWhile inTag)⟩ := by
      rw [run, begun]
      exact run_number [c] _ lettered
    have split := tokens_append (c :: rest.takeWhile inTag) (rest.dropWhile inTag) _
      (.number (c :: rest.takeWhile inTag)) read rfl (by
        intro d first
        simp [advance, (foreign d first).1]) after'
    rwa [List.cons_append, parted] at split
  · rw [if_neg (by simpa using letter), if_neg (by simpa using digit)] at begun
    exact tokens_append [c] rest _ (.symbol c) begun rfl (fun d _ => rfl) after

theorem tokens_word (text : List Char) (unmarked : Unmarked text) (inside : ';' ∉ text)
    (word : List Char) (rest : Statement) (read : tokens text = .word word :: rest) :
    ∃ gap after, text = gap ++ (word ++ after) ∧ (∀ c ∈ gap, isSpace c = true) ∧
      (∀ c ∈ after.head?, inTag c = false) ∧ tokens after = rest := by
  have parted := List.takeWhile_append_dropWhile (p := isSpace) (l := text)
  have blanks : ∀ c ∈ text.takeWhile isSpace, isSpace c = true := fun c => List.mem_takeWhile_imp
  have visible := head_dropWhile isSpace text
  have skipped := tokens_spaces_append (text.takeWhile isSpace) (text.dropWhile isSpace) blanks
  rw [parted, read] at skipped
  cases body : text.dropWhile isSpace with
  | nil =>
    rw [body] at skipped
    contradiction
  | cons c body' =>
    rw [body] at skipped parted visible
    have member : ∀ d ∈ c :: body', d ∈ text := fun d within =>
      parted ▸ List.mem_append_right _ within
    rw [tokens_cons c body' (fun d within => unmarked d (member d within))
      (fun within => inside (member _ within)) (visible c rfl)] at skipped
    split_ifs at skipped
    · rcases List.cons.inj skipped with ⟨same, tail⟩
      refine ⟨text.takeWhile isSpace, body'.dropWhile inTag, ?_, blanks, head_dropWhile inTag body',
        tail.symm⟩
      rw [Token.word.inj same, List.cons_append, List.takeWhile_append_dropWhile]
      exact parted.symm
    · cases (List.cons.inj skipped).1
    · cases (List.cons.inj skipped).1

theorem advance_semicolon (l : Lexer) (plain : l.mode.plain = true) : advance l ';' = none := by
  have noWord : inWord ';' = false := by decide
  have noTag : inTag ';' = false := by decide
  rcases l with ⟨current, mode⟩
  cases mode with
  | code => rfl
  | word text => simp [advance, noWord]
  | number text => simp [advance, noTag]
  | _ => simp [Mode.plain] at plain

theorem eq_of_mem_ended (current st : Statement) (member : st ∈ ended current) : current = st := by
  unfold ended at member
  split at member
  · contradiction
  · exact (List.mem_singleton.mp member).symm

theorem split_from (done text : List Char) (unmarked : Unmarked (done ++ text)) (inside : ';' ∉ done)
    (st : Statement) (member : st ∈ statementsFrom (run start done).1 text) :
    ∃ before part after, done ++ text = before ++ (part ++ after) ∧ ';' ∉ part ∧ tokens part = st ∧
      (∀ c ∈ before.getLast?, c = ';') ∧ (∀ c ∈ after.head?, c = ';') := by
  induction text generalizing done with
  | nil =>
    have pending : st ∈ ended (tokens done) := member
    exact ⟨[], done, [], by simp, inside, eq_of_mem_ended _ _ pending, by simp, by simp⟩
  | cons c text later =>
    have split := statementsFrom_append (run start done).1 [c] text
    rw [List.singleton_append] at split
    rw [split] at member
    by_cases last : c = ';'
    · subst last
      have plain : (run start done).1.mode.plain = true := run_unmarked start done rfl fun d within =>
        unmarked d (List.mem_append_left _ within)
      have complete : run (run start done).1 [';'] = (start, ended (tokens done)) := by
        simp only [run, step, advance_semicolon _ plain, if_true, List.append_nil]
        rfl
      rw [complete] at member
      rcases List.mem_append.mp member with here | there
      · exact ⟨[], done, ';' :: text, rfl, inside, eq_of_mem_ended _ _ here, by simp, by simp⟩
      · obtain ⟨before, part, after, whole, free, read, opens, closes⟩ := later [] (fun d within =>
          unmarked d (List.mem_append_right _ (List.mem_cons_of_mem _ within))) (by simp) there
        refine ⟨done ++ ';' :: before, part, after, ?_, free, read, ?_, closes⟩
        · rw [List.nil_append] at whole
          rw [whole]
          simp
        · intro d final
          cases before with
          | nil => simpa using final.symm
          | cons e before =>
            apply opens d
            simpa [List.getLast?_append] using final
    · have quiet : run (run start done).1 [c] = ((run start (done ++ [c])).1, []) := by
        have silent := step_frame [] (run start done).1.current (run start done).1.mode c last
        rw [run_append, run, run]
        exact Prod.ext rfl (congrArg (fun after => after.2 ++ []) silent)
      rw [quiet, List.nil_append] at member
      have regrouped : done ++ c :: text = (done ++ [c]) ++ text := by simp
      rw [regrouped] at unmarked ⊢
      exact later (done ++ [c]) unmarked (by simp [inside, Ne.symm last]) member

/-- Every statement stands between two semicolons. -/
theorem statement_split (text : List Char) (unmarked : Unmarked text) (st : Statement)
    (member : st ∈ statements text) :
    ∃ before part after, text = before ++ (part ++ after) ∧ ';' ∉ part ∧ tokens part = st ∧
      (∀ c ∈ before.getLast?, c = ';') ∧ (∀ c ∈ after.head?, c = ';') :=
  split_from [] text unmarked (by simp) st member

end SqlLexer
