import GenesisAgents.Rubrics
import GenesisAgents.JsonLines
import GenesisAgents.Library.JsonGrammar

/-! What `_balanced_object` finds in a text: a JSON object is found whole, whatever stands around it. -/

namespace GenesisAgents.Rubrics

open Value JsonText JsonLines

/-- The loop of `_balanced_object` at index `i`. -/
def balancedLoop (text : List Char) (start i : Nat) (depth : Int) (inStr esc : Bool) : Option (List Char) :=
  if inside : i < text.length then
    let ch := text[i]
    if inStr then
      if esc then balancedLoop text start (i + 1) depth true false
      else if ch = '\\' then balancedLoop text start (i + 1) depth true true
      else if ch = '"' then balancedLoop text start (i + 1) depth false false
      else balancedLoop text start (i + 1) depth true false
    else if ch = '"' then balancedLoop text start (i + 1) depth true false
    else if ch = '\x7b' then balancedLoop text start (i + 1) (depth + 1) false false
    else if ch = '\x7d' then
      if depth - 1 = 0 then some ((text.take (i + 1)).drop start)
      else balancedLoop text start (i + 1) (depth - 1) false false
    else balancedLoop text start (i + 1) depth false false
  else none
termination_by text.length - i

/-- `_balanced_object` -/
def balancedObjectAt (text : List Char) (start : Nat) : Option (List Char) :=
  balancedLoop text start start 0 false false

def ObjectText (t : List Char) : Prop := Text IsLiteral .object t

/-! The loop over the indices and the one over the characters. -/

/-- At an index, the loop goes over the rest of the text, and the slice has what was passed before. -/
theorem balancedLoop_eq (start : Nat) (rest : List Char) : ∀ (front : List Char) (depth : Int)
    (inStr esc : Bool), start ≤ front.length →
    balancedLoop (front ++ rest) start front.length depth inStr esc =
      (balanceFrom rest depth inStr esc).map (front.drop start ++ ·) := by
  induction rest with
  | nil =>
    intro front depth inStr esc _
    rw [balancedLoop, dif_neg (by rw [List.append_nil]; omega)]
    rfl
  | cons c rest later =>
    intro front depth inStr esc after
    have inside : front.length < (front ++ c :: rest).length := by
      rw [List.length_append, List.length_cons]
      omega
    have head : (front ++ c :: rest)[front.length] = c := by simp
    have slice : ((front ++ c :: rest).take (front.length + 1)).drop start = front.drop start ++ [c] := by
      rw [List.append_cons, List.take_left' (by rw [List.length_append, List.length_singleton]),
        List.drop_append_of_le_length after]
    have step (depth : Int) (inStr esc : Bool) :
        balancedLoop (front ++ c :: rest) start (front.length + 1) depth inStr esc =
          ((balanceFrom rest depth inStr esc).map (c :: ·)).map (front.drop start ++ ·) := by
      have next := later (front ++ [c]) depth inStr esc (by rw [List.length_append]; omega)
      rw [← List.append_cons, List.length_append, List.length_singleton,
        List.drop_append_of_le_length after] at next
      rw [next, Option.map_map]
      congr 1
      funext block
      rw [Function.comp_apply, List.append_assoc, List.singleton_append]
    rw [balancedLoop, dif_pos inside, balanceFrom]
    simp only [head, step, slice]
    split_ifs <;> rfl

theorem balancedObjectAt_eq (text : List Char) (start : Nat) (inside : start ≤ text.length) :
    balancedObjectAt text start = balancedObject (text.drop start) := by
  have whole := balancedLoop_eq start (text.drop start) (text.take start) 0 false false
    (by rw [List.length_take]; omega)
  have nothing : (text.take start).drop start = [] := by
    rw [List.drop_eq_nil_iff, List.length_take]
    omega
  rw [List.take_append_drop, List.length_take, Nat.min_eq_left inside, nothing] at whole
  rw [balancedObjectAt, whole, balancedObject]
  exact Option.map_id'

theorem balancedLoop_slice (text : List Char) (start i : Nat) (depth : Int) (inStr esc : Bool)
    (block : List Char) (found : balancedLoop text start i depth inStr esc = some block) :
    ∃ stop, i < stop ∧ stop ≤ text.length ∧ block = (text.take stop).drop start := by
  fun_induction balancedLoop text start i depth inStr esc with
  | case7 i depth inStr esc inside =>
    exact ⟨i + 1, by omega, inside, (Option.some.inj found).symm⟩
  | case10 => cases found
  | case1 | case2 | case3 | case4 | case5 | case6 | case8 | case9 =>
    rename_i later
    rcases later found with ⟨stop, past, bound, same⟩
    exact ⟨stop, by omega, bound, same⟩

/-- Within a block, the loop goes past the text and is as deep behind it as before. -/
def Passes (x : List Char) : Prop := ∀ (depth : Int) (rest : List Char), 1 ≤ depth →
  balanceFrom (x ++ rest) depth false false = (balanceFrom rest depth false false).map (x ++ ·)

theorem passes_append (x y : List Char) (first : Passes x) (second : Passes y) : Passes (x ++ y) := by
  intro depth rest inside
  rw [List.append_assoc, first depth _ inside, second depth rest inside, Option.map_map]
  congr 1
  funext block
  rw [Function.comp_apply, List.append_assoc]

theorem passes_plain : ∀ x : List Char, (∀ c ∈ x, c ≠ '"' ∧ c ≠ '\x7b' ∧ c ≠ '\x7d') → Passes x
  | [], _ => fun depth rest _ => by
    rw [List.nil_append]
    exact Option.map_id'.symm
  | c :: x, plain => fun depth rest inside => by
    rcases plain c List.mem_cons_self with ⟨quote, opening, closing⟩
    have tail := passes_plain x (fun d member => plain d (List.mem_cons_of_mem c member)) depth rest inside
    rw [List.cons_append, balanceFrom, if_neg (by decide), if_neg quote, if_neg opening, if_neg closing, tail,
      Option.map_map]
    rfl

theorem passes_mark (c : Char) (plain : c ≠ '"' ∧ c ≠ '\x7b' ∧ c ≠ '\x7d') (x : List Char) (rest : Passes x) :
    Passes (c :: x) :=
  passes_append [c] x (passes_plain [c] (List.forall_mem_singleton.mpr plain)) rest

theorem passes_blank (pad : List Char) (blank : Blanks pad) : Passes pad := by
  refine passes_plain pad fun c member => ?_
  have white := blank c member
  refine ⟨?_, ?_, ?_⟩ <;> rintro rfl <;> cases white

theorem passes_literal (w : List Char) (literal : IsLiteral w) : Passes w := by
  refine passes_plain w fun c member => ?_
  have unmarked := literal_unmarked w literal c member
  refine ⟨?_, ?_, ?_⟩ <;> rintro rfl <;> cases unmarked

/-- In a string, the loop goes to the closing quote; braces do not count, nor quotes that are escaped. -/
theorem balanceFrom_chars (cs : List Char) (chars : CharsText cs) (depth : Int) (rest : List Char) :
    balanceFrom (cs ++ '"' :: rest) depth true false =
      (balanceFrom rest depth false false).map ((cs ++ ['"']) ++ ·) := by
  have further (c : Char) (s : List Char) (block : Option (List Char)) :
      (block.map ((s ++ ['"']) ++ ·)).map (c :: ·) = block.map ((c :: s ++ ['"']) ++ ·) := by
    rw [Option.map_map]
    rfl
  induction chars with
  | nil => rfl
  | plain printed noQuote noSlash _ later =>
    rw [List.cons_append, balanceFrom, if_pos rfl, if_neg (by decide), if_neg noSlash, if_neg noQuote, later,
      further]
  | escape letter _ later =>
    rw [List.cons_append, List.cons_append, balanceFrom, if_pos rfl, if_neg (by decide), if_pos rfl,
      balanceFrom, if_pos rfl, if_pos rfl, later, further, further]
  | @unicode a b c d s digits _ later =>
    have plain (x : Char) (member : x ∈ [a, b, c, d]) : x ≠ '\\' ∧ x ≠ '"' := by
      have digit := List.all_eq_true.mp digits x member
      constructor <;> rintro rfl <;> cases digit
    have next (x : Char) (member : x ∈ [a, b, c, d]) (t : List Char) :
        balanceFrom (x :: t) depth true false = (balanceFrom t depth true false).map (x :: ·) := by
      rw [balanceFrom, if_pos rfl, if_neg (by decide), if_neg (plain x member).1, if_neg (plain x member).2]
    have shape : '\\' :: 'u' :: a :: b :: c :: d :: s ++ '"' :: rest =
        '\\' :: 'u' :: a :: b :: c :: d :: (s ++ '"' :: rest) := rfl
    rw [shape, balanceFrom, if_pos rfl, if_neg (by decide), if_pos rfl, balanceFrom, if_pos rfl, if_pos rfl,
      next a (by simp), next b (by simp), next c (by simp), next d (by simp), later, further, further,
      further, further, further, further]

theorem passes_string (s : List Char) (quoted : StringText s) : Passes s := by
  rcases quoted with ⟨cs, chars, rfl⟩
  intro depth rest _
  rw [List.cons_append, List.append_assoc, List.singleton_append, balanceFrom, if_neg (by decide), if_pos rfl,
    balanceFrom_chars cs chars, Option.map_map]
  rfl

theorem passes_braces (x : List Char) (inner : Passes x) : Passes ('\x7b' :: (x ++ ['\x7d'])) := by
  intro depth rest inside
  have deeper := inner (depth + 1) ('\x7d' :: rest) (by omega)
  rw [List.cons_append, List.append_assoc, List.singleton_append, balanceFrom, if_neg (by decide),
    if_neg (by decide), if_pos rfl, deeper, balanceFrom, if_neg (by decide), if_neg (by decide),
    if_neg (by decide), if_pos rfl, if_neg (by omega), Option.map_map, Option.map_map, Int.add_sub_cancel]
  congr 1
  funext block
  simp only [Function.comp_apply, List.cons_append, List.append_assoc, List.nil_append]

/-- An object is passed between its own braces, any other text as a whole. -/
def Scanned : Form → List Char → Prop
  | .object, s => ∃ inner, s = '\x7b' :: (inner ++ ['\x7d']) ∧ Passes inner
  | _, s => Passes s

theorem text_scanned (form : Form) (s : List Char) (text : Text IsLiteral form s) : Scanned form s := by
  induction text with
  | word named => exact passes_literal _ named
  | string quoted => exact passes_string _ quoted
  | nested _ scanned =>
    rcases scanned with ⟨inner, rfl, passes⟩
    exact passes_braces inner passes
  | emptyArray blank =>
    have close := passes_mark ']' (by decide) [] (passes_blank [] blanks_nil)
    exact passes_mark '[' (by decide) _ (passes_append _ _ (passes_blank _ blank) close)
  | array _ items =>
    have close := passes_mark ']' (by decide) [] (passes_blank [] blanks_nil)
    exact passes_mark '[' (by decide) _ (passes_append _ _ items close)
  | lastItem before _ after value =>
    exact passes_append _ _ (passes_blank _ before) (passes_append _ _ value (passes_blank _ after))
  | item before _ after _ value items =>
    have more := passes_append _ _ (passes_blank _ after) (passes_mark ',' (by decide) _ items)
    exact passes_append _ _ (passes_blank _ before) (passes_append _ _ value more)
  | lastMember before key between opening _ after value =>
    have entry := passes_append _ _ (passes_blank _ opening) (passes_append _ _ value (passes_blank _ after))
    have colon := passes_append _ _ (passes_blank _ between) (passes_mark ':' (by decide) _ entry)
    exact passes_append _ _ (passes_blank _ before) (passes_append _ _ (passes_string _ key) colon)
  | member before key between opening _ after _ value members =>
    have more := passes_append _ _ (passes_blank _ after) (passes_mark ',' (by decide) _ members)
    have entry := passes_append _ _ (passes_blank _ opening) (passes_append _ _ value more)
    have colon := passes_append _ _ (passes_blank _ between) (passes_mark ':' (by decide) _ entry)
    exact passes_append _ _ (passes_blank _ before) (passes_append _ _ (passes_string _ key) colon)
  | emptyObject blank => exact ⟨_, rfl, passes_blank _ blank⟩
  | object _ members => exact ⟨_, rfl, members⟩

/-- An object at the head is found whole. -/
theorem balancedObject_text (t rest : List Char) (object : ObjectText t) :
    balancedObject (t ++ rest) = some t := by
  rcases text_scanned .object t object with ⟨inner, rfl, passes⟩
  have inside := passes 1 ('\x7d' :: rest) le_rfl
  rw [balancedObject, List.cons_append, List.append_assoc, List.singleton_append, balanceFrom,
    if_neg (by decide), if_neg (by decide), if_pos rfl, Int.zero_add, inside, balanceFrom, if_neg (by decide),
    if_neg (by decide), if_neg (by decide), if_pos rfl, if_pos (by decide)]
  rfl

theorem balancedObjectAt_exact :
    (∀ before t behind : List Char, ObjectText t →
      balancedObjectAt (before ++ (t ++ behind)) before.length = some t) ∧
    ∀ (text : List Char) (start : Nat), balancedObjectAt text start = none ∨
      ∃ stop, start < stop ∧ stop ≤ text.length ∧
        balancedObjectAt text start = some ((text.take stop).drop start) := by
  refine ⟨fun before t behind object => ?_, fun text start => ?_⟩
  · rw [balancedObjectAt_eq _ _ (by rw [List.length_append]; omega), List.drop_left,
      balancedObject_text t behind object]
  · rcases found : balancedObjectAt text start with _ | block
    · exact .inl rfl
    · rcases balancedLoop_slice text start start 0 false false block found with ⟨stop, past, bound, rfl⟩
      exact .inr ⟨stop, past, bound, rfl⟩

/-! What `json.dumps` writes is an object of the grammar. -/

theorem line_writable : lineStyle.Writable := by
  have unit (n : Nat) (s : List Char) (rest : CharsText s) : CharsText (unicodeEscape n ++ s) := by
    have hex : ∀ d < 16, isHexDigit (hexDigit d) = true := by decide
    have digit (k : Nat) : isHexDigit (hexDigit (k % 16)) = true := hex _ (Nat.mod_lt _ (by decide))
    refine .unicode ?_ rest
    simp only [List.all_cons, List.all_nil, digit, Bool.and_self]
  intro c
  apply escapeChar_cases true c fun text => ∀ s, CharsText s → CharsText (text ++ s)
  · intro e listed s rest
    refine .escape ?_ rest
    simp only [shortEscapes, List.mem_cons, Prod.mk.injEq, List.not_mem_nil, or_false] at listed
    rcases listed with ⟨rfl, -⟩ | ⟨rfl, -⟩ | ⟨rfl, -⟩ | ⟨rfl, -⟩ | ⟨rfl, -⟩ | ⟨rfl, -⟩ | ⟨rfl, -⟩ <;> decide
  · exact fun _ _ s rest => unit c.toNat s rest
  · exact fun quote slash printed s rest => .plain printed quote slash rest
  · intro high low _ _ _ s rest
    rw [List.append_assoc]
    exact unit high _ (unit low s rest)

/-- The line of a dict is found whole in any text. -/
theorem balancedObject_line (N : Numerals) (entries : List (String × Value))
    (loaded : Loaded N (dict entries)) (line : String) (encoded : dumpsWith .standard (dict entries) = some line) (rest : List Char) :
    balancedObject (line.toList ++ rest) = some line.toList := by
  have named := ofJson_named N _ _ (ofJson_toJson N _ loaded)
  have text := print_text line_writable line_blank _ named
  rw [← line_printed entries line encoded] at text
  rcases line_shape entries line encoded with ⟨inner, shape⟩
  refine balancedObject_text _ rest ?_
  rw [shape] at text ⊢
  rcases text with literal | ⟨cs, -, same⟩ | object
  · have unmarked := literal_unmarked _ literal '\x7b' List.mem_cons_self
    cases unmarked
  · cases same
  · exact object

/-! A brace and an escaped quote in a string. -/

def trickyObject : List Char := "\x7b\"a\\\"\x7d\": [ ]\x7d".toList

theorem trickyObject_text : ObjectText trickyObject := by
  have key : StringText "\"a\\\"\x7d\"".toList :=
    ⟨_, .plain (by decide) (by decide) (by decide) (.escape (by decide)
      (.plain (by decide) (by decide) (by decide) .nil)), rfl⟩
  have pad : Blanks [' '] := List.forall_mem_singleton.mpr rfl
  exact .object (.lastMember blanks_nil key blanks_nil pad (.emptyArray pad) blanks_nil)

theorem trickyObject_found :
    balancedObjectAt ("see \x7b ".toList ++ (trickyObject ++ "\x7d\"".toList)) 6 = some trickyObject :=
  balancedObjectAt_exact.1 "see \x7b ".toList trickyObject _ trickyObject_text

end GenesisAgents.Rubrics
