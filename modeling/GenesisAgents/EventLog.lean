import GenesisAgents.DurableSessions
import GenesisAgents.JsonlStore
import GenesisAgents.Library.Assignments
import GenesisAgents.Library.JsonTorn
import Mathlib.Data.List.DropRight

/-! The events of a job: `emit_event` and `get_events` of `runtime/observability.py`, with the rows of
`event_insert` and `events_get` of `durable_store.py` behind them. -/

namespace GenesisAgents.EventLog

open Value JsonText JsonLines JsonlStore Assignments

/-- The event of a call of `emit_event`. -/
def entriesOf (jobId eventType : String) (ts : PyFloat) (data : List (String × Value)) :
    List (String × Value) :=
  update [("ts", float ts), ("job_id", str jobId), ("event_type", str eventType)] data

/-- A call of `emit_event`, with the time that it reads; its event is one that `json.loads` can give back. -/
structure Emission (I : Interpreter) where
  jobId : String
  eventType : String
  /-- `data or {}` -/
  data : List (String × Value)
  ts : PyFloat
  distinct : (data.map Prod.fst).Nodup
  loaded : Loaded I.numerals (dict (defaultStrItems (entriesOf jobId eventType ts data)))

section

variable {I : Interpreter} (e : Emission I)

def Emission.entries : List (String × Value) := entriesOf e.jobId e.eventType e.ts e.data

/-- `json.dumps(event, default=str)` -/
def Emission.line : List Char := (dumpsDefault (dict e.entries)).toList

/-- The event as the file holds it: what is no JSON is a text. -/
def Emission.event : Value := dict (defaultStrItems e.entries)

end

abbrev Write (I : Interpreter) := Emission I × Nat

def Write.text {I : Interpreter} (w : Write I) : List Char := (w.1.line ++ ['\n']).take w.2

def fileText {I : Interpreter} (writes : List (Write I)) : List Char := writes.flatMap Write.text

/-- The loop of `get_events` over the lines; what is no `JSONDecodeError` ends it. -/
def readEvents (I : Interpreter) : List (List Char) → List Value
  | [] => []
  | line :: rest =>
    match readLine I line with
    | .skipped => readEvents I rest
    | .raised => []
    | .record v => v :: readEvents I rest

section

variable {I : Interpreter} (e : Emission I)

theorem line_encoded : dumpsWith .standard e.event = some (String.ofList e.line) ∧
    e.line = print lineStyle (toJson (dict e.entries)) := by
  obtain ⟨text, encoded, printed⟩ := dumpsWith_print JsonStyle.standard lineStyle line_prints (dict e.entries)
  have same : e.line = text.toList := by
    rw [Emission.line, dumpsDefault, encoded, Option.getD_some]
  rw [same, String.ofList_toList]
  exact ⟨encoded, printed⟩

theorem update_head {κ β : Type} [DecidableEq κ] (entries rest : List (κ × β)) (k : κ) (b : β) :
    ∃ b' rest', update ((k, b) :: rest) entries = (k, b') :: rest' := by
  induction entries generalizing b rest with
  | nil => exact ⟨b, rest, rfl⟩
  | cons entry others later =>
    rw [update_cons, store]
    split
    · rename_i same
      rw [← same]
      exact later rest entry.2
    · exact later _ b

theorem line_starts : ∃ more, e.line = '\x7b' :: '"' :: 't' :: more := by
  obtain ⟨v, rest, same⟩ := update_head e.data [("job_id", str e.jobId), ("event_type", str e.eventType)] "ts"
    (float e.ts)
  have entries : e.entries = ("ts", v) :: rest := same
  rw [(line_encoded e).2, entries, toJson, toJsonItems, print]
  exact ⟨_, rfl⟩

theorem line_solid : (Json.object (toJsonItems e.entries)).Solid := toJson_solid (dict e.entries)

theorem front_sprout (front cut : List Char) (whole : e.line = front ++ cut) (filled : front ≠ []) :
    Sprout readChar front := by
  obtain ⟨more, starts⟩ := line_starts e
  have printed : print lineStyle (.object (toJsonItems e.entries)) = e.line := (line_encoded e).2.symm
  have inert : Inert 't' := by
    rw [Inert]
    decide
  exact sprout_front lineStyle line_blank readChar_forward readChar_takes _ (line_solid e) 't' more inert
    (printed.trans starts) front cut (printed.trans whole) filled

theorem loads_event : JsonLines.loads I.numerals (String.ofList e.line) = some e.event :=
  loads_line I.numerals _ e.loaded _ (line_encoded e).1

theorem loads_cut (front cut : List Char) (whole : e.line = front ++ cut) (missing : cut ≠ []) :
    JsonLines.loads I.numerals (String.ofList front) = none := by
  have printed : print lineStyle (.object (toJsonItems e.entries)) = e.line := (line_encoded e).2.symm
  have none_read : readText readChar front = none := readText_cut lineStyle readChar_forward line_blank _
    (line_solid e) front cut (printed.trans whole) missing
  rw [JsonLines.loads, String.toList_ofList, none_read, Option.bind_none]

theorem loads_torn (t front cut : List Char) (opens : t.head? = some '\x7b') (whole : e.line = front ++ cut)
    (filled : front ≠ []) : JsonLines.loads I.numerals (String.ofList (t ++ front)) = none := by
  obtain ⟨more, rfl⟩ := List.head?_eq_some_iff.mp opens
  have kept : skip ('\x7b' :: more) = '\x7b' :: more := skip_cons _ _ rfl
  have none_read : readText readChar ('\x7b' :: more ++ front) = none := by
    apply readText_sprout (front_sprout e front cut whole filled)
    · rw [kept]
      exact List.cons_ne_nil _ _
    · rw [kept, List.head?_cons]
      decide
  rw [JsonLines.loads, String.toList_ofList, none_read, Option.bind_none]

end

/-- `line.strip()`, for a line that begins with a brace. -/
def trimmed (s : List Char) : List Char := s.rdropWhile isSpace

def given : LineRead → Option Value
  | .record v => some v
  | _ => none

theorem trimmed_opens (s : List Char) (opens : s.head? = some '\x7b') :
    ∃ more, trimmed s = '\x7b' :: more := by
  obtain ⟨rest, rfl⟩ := List.head?_eq_some_iff.mp opens
  have filled : trimmed ('\x7b' :: rest) ≠ [] := by
    rw [trimmed, Ne, List.rdropWhile_eq_nil_iff]
    intro all
    have blank := all '\x7b' List.mem_cons_self
    cases blank
  obtain ⟨c, more, same⟩ := List.exists_cons_of_ne_nil filled
  have front : c :: more <+: '\x7b' :: rest := same ▸ List.rdropWhile_prefix isSpace _
  rw [same, (List.cons_prefix_cons.mp front).1]
  exact ⟨more, rfl⟩

theorem trimmed_append (t front : List Char) (opens : front.head? = some '\x7b') :
    trimmed (t ++ front) = t ++ trimmed front := by
  obtain ⟨more, kept⟩ := trimmed_opens front opens
  have filled : (front.reverse.dropWhile isSpace).isEmpty = false := by
    rw [List.isEmpty_eq_false_iff]
    intro nothing
    rw [trimmed, List.rdropWhile, nothing] at kept
    cases kept
  rw [trimmed, trimmed, List.rdropWhile, List.rdropWhile, List.reverse_append, List.dropWhile_append, filled]
  simp

theorem readLine_opens (I : Interpreter) (s : List Char) (opens : s.head? = some '\x7b') :
    readLine I s = .raised ∨
      given (readLine I s) = JsonLines.loads I.numerals (String.ofList (trimmed s)) := by
  obtain ⟨rest, rfl⟩ := List.head?_eq_some_iff.mp opens
  obtain ⟨more, kept⟩ := trimmed_opens _ opens
  have stripped : strip (String.ofList ('\x7b' :: rest)) = String.ofList (trimmed ('\x7b' :: rest)) := by
    rw [strip, String.toList_ofList, List.dropWhile_cons_of_neg (by decide)]
    rfl
  have filled : String.ofList (trimmed ('\x7b' :: rest)) ≠ "" := by
    intro empty
    have letters := congrArg String.toList empty
    rw [String.toList_ofList, kept] at letters
    cases letters
  rw [readLine, stripped, if_neg filled]
  split
  · exact .inl rfl
  · right
    cases JsonLines.loads I.numerals (String.ofList (trimmed ('\x7b' :: rest))) with
    | none => rfl
    | some v => rfl

section

variable {I : Interpreter}

def pieceText (pieces : List (Write I)) : List Char := pieces.flatMap fun w => w.1.line.take w.2

def readBack : List (Write I) → Option (Emission I)
  | [w] => if w.1.line.length ≤ w.2 then some w.1 else none
  | _ => none

theorem piece_opens (w : Write I) (positive : 0 < w.2) : (w.1.line.take w.2).head? = some '\x7b' := by
  obtain ⟨more, starts⟩ := line_starts w.1
  obtain ⟨n, kept⟩ := Nat.exists_eq_succ_of_ne_zero (Nat.ne_of_gt positive)
  rw [starts, kept, List.take_succ_cons]
  rfl

theorem line_trimmed (e : Emission I) : trimmed e.line = e.line := by
  obtain ⟨inner, shape⟩ := line_shape _ _ (line_encoded e).1
  rw [String.toList_ofList] at shape
  have closes : e.line = '\x7b' :: inner ++ ['\x7d'] := shape
  rw [trimmed, closes, List.rdropWhile_concat_neg isSpace _ _ (by decide)]

theorem piece_trimmed (w : Write I) (positive : 0 < w.2) : ∃ cut,
    w.1.line = trimmed (w.1.line.take w.2) ++ cut ∧ trimmed (w.1.line.take w.2) ≠ [] ∧
      (w.2 < w.1.line.length → cut ≠ []) := by
  obtain ⟨more, opens⟩ := trimmed_opens _ (piece_opens w positive)
  have front : trimmed (w.1.line.take w.2) <+: w.1.line.take w.2 := List.rdropWhile_prefix isSpace _
  obtain ⟨cut, whole⟩ := front
  refine ⟨cut ++ w.1.line.drop w.2, ?_, ?_, ?_⟩
  · calc w.1.line = w.1.line.take w.2 ++ w.1.line.drop w.2 := (List.take_append_drop w.2 w.1.line).symm
      _ = trimmed (w.1.line.take w.2) ++ cut ++ w.1.line.drop w.2 := by rw [whole]
      _ = trimmed (w.1.line.take w.2) ++ (cut ++ w.1.line.drop w.2) := List.append_assoc _ _ _
  · rw [opens]
    exact List.cons_ne_nil _ _
  · intro short nothing
    have left := congrArg List.length (List.append_eq_nil_iff.mp nothing).2
    rw [List.length_drop, List.length_nil] at left
    omega

theorem readLine_single (w : Write I) (positive : 0 < w.2) : readLine I (w.1.line.take w.2) = .raised ∨
    given (readLine I (w.1.line.take w.2)) = (readBack [w]).map Emission.event := by
  apply (readLine_opens I _ (piece_opens w positive)).imp_right
  intro read
  rw [read, readBack]
  by_cases whole : w.1.line.length ≤ w.2
  · rw [List.take_of_length_le whole, if_pos whole, line_trimmed, loads_event]
    rfl
  · obtain ⟨cut, split, -, missing⟩ := piece_trimmed w positive
    rw [if_neg whole, loads_cut w.1 _ cut split (missing (Nat.lt_of_not_le whole))]
    rfl

theorem pieceText_append (front back : List (Write I)) :
    pieceText (front ++ back) = pieceText front ++ pieceText back := List.flatMap_append

theorem readLine_joined (pieces : List (Write I)) (w : Write I) (some_piece : pieces ≠ [])
    (positive : ∀ v ∈ pieces ++ [w], 0 < v.2) : readLine I (pieceText (pieces ++ [w])) = .raised ∨
      given (readLine I (pieceText (pieces ++ [w]))) = none := by
  obtain ⟨first, rest, rfl⟩ := List.exists_cons_of_ne_nil some_piece
  have opens : (pieceText (first :: rest)).head? = some '\x7b' := by
    have head := piece_opens first (positive first List.mem_cons_self)
    have filled : first.1.line.take first.2 ≠ [] := by
      intro nothing
      rw [nothing] at head
      cases head
    rw [pieceText, List.flatMap_cons, List.head?_append_of_ne_nil _ filled, head]
  have last := positive w (List.mem_append_right _ List.mem_cons_self)
  have text : pieceText (first :: rest ++ [w]) = pieceText (first :: rest) ++ w.1.line.take w.2 := by
    rw [pieceText_append]
    exact congrArg _ (List.append_nil _)
  have whole_opens : (pieceText (first :: rest) ++ w.1.line.take w.2).head? = some '\x7b' := by
    obtain ⟨more, same⟩ := List.head?_eq_some_iff.mp opens
    rw [same]
    rfl
  obtain ⟨cut, split, filled, -⟩ := piece_trimmed w last
  rw [text]
  apply (readLine_opens I _ whole_opens).imp_right
  intro read
  rw [read, trimmed_append _ _ (piece_opens w last), loads_torn w.1 _ _ cut opens split filled]

theorem readLine_pieces (pieces : List (Write I)) (positive : ∀ w ∈ pieces, 0 < w.2) :
    readLine I (pieceText pieces) = .raised ∨
      given (readLine I (pieceText pieces)) = (readBack pieces).map Emission.event := by
  cases pieces using List.reverseRecOn with
  | nil => exact .inr rfl
  | append_singleton front w =>
    cases front with
    | nil =>
      have text : pieceText ([] ++ [w]) = w.1.line.take w.2 := List.append_nil _
      rw [text]
      exact readLine_single w (positive w List.mem_cons_self)
    | cons first rest =>
      have nothing : readBack (first :: rest ++ [w]) = none := by
        cases rest <;> rfl
      rw [nothing]
      exact readLine_joined (first :: rest) w (List.cons_ne_nil _ _) positive

abbrev Layout (I : Interpreter) := List (List (Write I)) × List (Write I)

def lay (layout : Layout I) (w : Write I) : Layout I :=
  if w.2 = 0 then layout
  else if w.2 ≤ w.1.line.length then (layout.1, layout.2 ++ [w])
  else (layout.1 ++ [layout.2 ++ [w]], [])

def layout (writes : List (Write I)) : Layout I := writes.foldl lay ([], [])

def Layout.lines (l : Layout I) : List (List (Write I)) := l.1 ++ [l.2]

def Layout.text (l : Layout I) : List Char := (l.1.flatMap fun pieces => pieceText pieces ++ ['\n']) ++ pieceText l.2

def readable (writes : List (Write I)) : List (Emission I) := (layout writes).lines.filterMap readBack

theorem layout_concat (writes : List (Write I)) (w : Write I) :
    layout (writes ++ [w]) = lay (layout writes) w := by
  rw [layout, List.foldl_append]
  rfl

theorem lay_text (l : Layout I) (w : Write I) : (lay l w).text = l.text ++ w.text := by
  rw [lay, Write.text]
  by_cases nothing : w.2 = 0
  · rw [if_pos nothing, nothing, List.take_zero, List.append_nil]
  rw [if_neg nothing]
  by_cases torn : w.2 ≤ w.1.line.length
  · rw [if_pos torn, List.take_append_of_le_length torn, Layout.text, Layout.text, pieceText_append,
      ← List.append_assoc]
    exact congrArg _ (List.append_nil _)
  · have cut : w.1.line.take w.2 = w.1.line := List.take_of_length_le (by omega)
    have whole : (w.1.line ++ ['\n']).take w.2 = w.1.line ++ ['\n'] := by
      apply List.take_of_length_le
      rw [List.length_append, List.length_singleton]
      omega
    have last : pieceText [w] = w.1.line := (List.append_nil _).trans cut
    rw [if_neg torn, whole, Layout.text, Layout.text, List.flatMap_append, List.flatMap_singleton,
      pieceText_append, last]
    simp [pieceText]

theorem fileText_layout (writes : List (Write I)) : fileText writes = (layout writes).text := by
  induction writes using List.reverseRecOn with
  | nil => rfl
  | append_singleton writes w later =>
    rw [layout_concat, lay_text, ← later, fileText, fileText, List.flatMap_append, List.flatMap_singleton]

theorem piece_unbroken (pieces : List (Write I)) (c : Char) (member : c ∈ pieceText pieces) :
    isNewline c = false := by
  obtain ⟨w, -, inside⟩ := List.mem_flatMap.mp member
  have letter := line_newlines _ _ (line_encoded w.1).1 c
  rw [String.toList_ofList] at letter
  exact letter (List.mem_of_mem_take inside)

theorem linesOf_unbroken (text : List Char) (unbroken : ∀ c ∈ text, isNewline c = false) :
    linesOf text = [text] := by
  induction text with
  | nil => rfl
  | cons c text later =>
    have plain := unbroken c List.mem_cons_self
    rw [linesOf, if_neg (by rw [plain]; decide),
      later fun d member => unbroken d (List.mem_cons_of_mem c member)]

theorem linesOf_layout (closed : List (List (Write I))) (last : List (Write I)) :
    linesOf (Layout.text (closed, last)) = (closed ++ [last]).map pieceText := by
  rw [Layout.text]
  induction closed with
  | nil => exact linesOf_unbroken _ (piece_unbroken last)
  | cons pieces closed later =>
    rw [List.flatMap_cons, List.append_assoc, List.append_assoc, List.singleton_append,
      linesOf_line _ _ (piece_unbroken pieces), later]
    rfl

theorem lay_pieces (l : Layout I) (w : Write I) :
    (lay l w).lines.flatten = l.lines.flatten ++ if w.2 = 0 then [] else [w] := by
  rw [lay]
  by_cases nothing : w.2 = 0
  · rw [if_pos nothing, if_pos nothing, List.append_nil]
  rw [if_neg nothing, if_neg nothing]
  split
  · simp [Layout.lines]
  · simp [Layout.lines]

theorem layout_pieces (writes : List (Write I)) :
    (layout writes).lines.flatten = writes.filter fun w => w.2 ≠ 0 := by
  induction writes using List.reverseRecOn with
  | nil => rfl
  | append_singleton writes w later =>
    rw [layout_concat, lay_pieces, later, List.filter_append]
    congr 1
    by_cases nothing : w.2 = 0 <;> simp [nothing]

theorem layout_positive (writes : List (Write I)) :
    ∀ pieces ∈ (layout writes).lines, ∀ w ∈ pieces, 0 < w.2 := by
  intro pieces line w member
  have inside : w ∈ (layout writes).lines.flatten := List.mem_flatten_of_mem line member
  rw [layout_pieces] at inside
  have some_kept := (List.mem_filter.mp inside).2
  rw [decide_eq_true_eq] at some_kept
  exact Nat.pos_of_ne_zero some_kept

theorem readBack_sublist (lines : List (List (Write I))) :
    (lines.filterMap readBack).Sublist (lines.flatten.map Prod.fst) := by
  induction lines with
  | nil => exact List.Sublist.slnil
  | cons pieces lines later =>
    rw [List.filterMap_cons, List.flatten_cons, List.map_append]
    cases back : readBack pieces with
    | none => exact later.trans (List.sublist_append_right _ _)
    | some e =>
      cases pieces with
      | nil => cases back
      | cons w rest =>
        cases rest with
        | cons v rest => cases back
        | nil =>
          rw [readBack] at back
          split at back
          · rw [← Option.some.inj back]
            exact later.cons_cons w.1
          · cases back

/-- Nothing is given back that was not written, nothing twice, and nothing in another order. -/
theorem readable_sublist (writes : List (Write I)) : (readable writes).Sublist (writes.map Prod.fst) := by
  apply (readBack_sublist (layout writes).lines).trans
  rw [layout_pieces]
  exact List.filter_sublist.map Prod.fst

theorem readEvents_pieces (lines : List (List (Write I)))
    (positive : ∀ pieces ∈ lines, ∀ w ∈ pieces, 0 < w.2) :
    readEvents I (lines.map pieceText) <+: (lines.filterMap readBack).map Emission.event ∧
      ((∀ pieces ∈ lines, readLine I (pieceText pieces) ≠ .raised) →
        readEvents I (lines.map pieceText) = (lines.filterMap readBack).map Emission.event) := by
  induction lines with
  | nil => exact ⟨List.prefix_rfl, fun _ => rfl⟩
  | cons pieces lines later =>
    have further := later fun others member => positive others (List.mem_cons_of_mem pieces member)
    have here := readLine_pieces pieces (positive pieces List.mem_cons_self)
    rw [List.map_cons, readEvents, List.filterMap_cons]
    cases read : readLine I (pieceText pieces) with
    | raised => exact ⟨List.nil_prefix, fun unraised => absurd read (unraised pieces List.mem_cons_self)⟩
    | skipped =>
      rw [read] at here
      have nothing := here.resolve_left nofun
      cases back : readBack pieces with
      | none => exact ⟨further.1, fun unraised => further.2 fun others member =>
          unraised others (List.mem_cons_of_mem pieces member)⟩
      | some e =>
        rw [back] at nothing
        cases nothing
    | record v =>
      rw [read] at here
      have same := here.resolve_left nofun
      cases back : readBack pieces with
      | none =>
        rw [back] at same
        cases same
      | some e =>
        rw [back, Option.map_some] at same
        have value : v = e.event := Option.some.inj same
        rw [value]
        exact ⟨List.cons_prefix_cons.mpr ⟨rfl, further.1⟩, fun unraised =>
          congrArg _ (further.2 fun others member => unraised others (List.mem_cons_of_mem pieces member))⟩

/-- The loop gives back the events that the file has, up to a line that makes `json.loads` raise
something else. -/
theorem readEvents_file (writes : List (Write I)) :
    readEvents I (linesOf (fileText writes)) <+: (readable writes).map Emission.event ∧
      ((∀ line ∈ linesOf (fileText writes), readLine I line ≠ .raised) →
        readEvents I (linesOf (fileText writes)) = (readable writes).map Emission.event) := by
  have lines : linesOf (fileText writes) = (layout writes).lines.map pieceText := by
    rw [fileText_layout]
    exact linesOf_layout _ _
  have read := readEvents_pieces (layout writes).lines (layout_positive writes)
  rw [lines]
  refine ⟨read.1, fun unraised => read.2 fun pieces member => ?_⟩
  exact unraised _ (List.mem_map_of_mem member)

end

section

variable {I : Interpreter}

/-- Every line is there; behind the last one the newline may be missing. -/
def Whole (writes : List (Write I)) : Prop :=
  (∀ w ∈ writes.dropLast, w.1.line.length < w.2) ∧ ∀ w ∈ writes.getLast?, w.1.line.length ≤ w.2

def ends (w : Write I) : Bool := w.1.line.length < w.2

theorem lay_ends (l : Layout I) (w : Write I) : (lay l w).1.length = l.1.length + [w].countP ends := by
  rw [lay, List.countP_singleton, ends]
  by_cases nothing : w.2 = 0
  · simp [nothing]
  by_cases torn : w.2 ≤ w.1.line.length
  · simp [nothing, torn]
  · simp [nothing, torn, Nat.lt_of_not_le torn]

theorem layout_ends (writes : List (Write I)) : (layout writes).1.length = writes.countP ends := by
  induction writes using List.reverseRecOn with
  | nil => rfl
  | append_singleton writes w later => rw [layout_concat, lay_ends, later, List.countP_append]

theorem ends_of_closed (writes : List (Write I))
    (all : ((layout writes).1.filterMap readBack).length = writes.length) :
    ∀ w ∈ writes, w.1.line.length < w.2 := by
  have lines : writes.length ≤ writes.countP ends := by
    rw [← all, ← layout_ends]
    exact List.length_filterMap_le _ _
  have every := List.countP_eq_length.mp (Nat.le_antisymm List.countP_le_length lines)
  intro w member
  exact decide_eq_true_eq.mp (every w member)

theorem layout_of_ends (writes : List (Write I)) (every : ∀ w ∈ writes, w.1.line.length < w.2) :
    layout writes = (writes.map fun w => [w], []) := by
  induction writes using List.reverseRecOn with
  | nil => rfl
  | append_singleton writes w later =>
    have ended := every w (List.mem_append_right _ List.mem_cons_self)
    rw [layout_concat, later fun v member => every v (List.mem_append_left _ member), lay,
      if_neg (Nat.ne_of_gt (Nat.zero_lt_of_lt ended)), if_neg (Nat.not_le_of_lt ended), List.map_append]
    rfl

theorem readBack_singles (writes : List (Write I)) (every : ∀ w ∈ writes, w.1.line.length ≤ w.2) :
    (writes.map fun w => [w]).filterMap readBack = writes.map Prod.fst := by
  induction writes with
  | nil => rfl
  | cons w writes later =>
    have here : readBack [w] = some w.1 := if_pos (every w List.mem_cons_self)
    rw [List.map_cons, List.filterMap_cons, here, later fun v member => every v (List.mem_cons_of_mem w member)]
    rfl

theorem readable_of_whole (writes : List (Write I)) (whole : Whole writes) :
    readable writes = writes.map Prod.fst := by
  cases writes using List.reverseRecOn with
  | nil => rfl
  | append_singleton front w =>
    rw [Whole, List.dropLast_concat, List.getLast?_concat] at whole
    have last := whole.2 w rfl
    obtain ⟨more, starts⟩ := line_starts w.1
    have some_kept : w.2 ≠ 0 := by
      rw [starts, List.length_cons] at last
      omega
    have every : ∀ v ∈ front ++ [w], v.1.line.length ≤ v.2 := by
      intro v member
      rcases List.mem_append.mp member with before | here
      · exact Nat.le_of_lt (whole.1 v before)
      · rw [List.mem_singleton.mp here]
        exact last
    have singles : (front ++ [w]).map (fun v => [v]) = front.map (fun v => [v]) ++ [[w]] := List.map_append
    rw [readable, layout_concat, layout_of_ends front whole.1, lay, if_neg some_kept]
    split
    · change (front.map (fun v => [v]) ++ [[w]]).filterMap readBack = _
      rw [← singles, readBack_singles _ every]
    · change (front.map (fun v => [v]) ++ [[w]] ++ [[]]).filterMap readBack = _
      rw [← singles, List.filterMap_append, readBack_singles _ every]
      exact List.append_nil _

theorem readBack_concat (pieces : List (Write I)) (w : Write I) (e : Emission I)
    (back : readBack (pieces ++ [w]) = some e) : pieces = [] ∧ w.1.line.length ≤ w.2 := by
  cases pieces with
  | nil =>
    rw [List.nil_append, readBack] at back
    split at back
    · rename_i whole
      exact ⟨rfl, whole⟩
    · cases back
  | cons first rest => cases rest <;> cases back

theorem lay_readable (l : Layout I) (w : Write I) (some_kept : w.2 ≠ 0) :
    ((lay l w).lines.filterMap readBack).length =
      (l.1.filterMap readBack).length + (readBack (l.2 ++ [w])).toList.length := by
  rw [lay, if_neg some_kept]
  split
  · cases back : readBack (l.2 ++ [w]) <;> simp [Layout.lines, back]
  · have nothing : readBack ([] : List (Write I)) = none := rfl
    cases back : readBack (l.2 ++ [w]) <;> simp [Layout.lines, back, nothing]

theorem whole_of_readable (writes : List (Write I)) (all : (readable writes).length = writes.length) :
    Whole writes := by
  cases writes using List.reverseRecOn with
  | nil => exact ⟨nofun, nofun⟩
  | append_singleton front w =>
    have some_kept : w.2 ≠ 0 := by
      intro nothing
      have most := (readable_sublist front).length_le
      rw [List.length_map] at most
      rw [readable, layout_concat, lay, if_pos nothing, ← readable, List.length_append, List.length_singleton] at all
      omega
    have closed : ((layout front).1.filterMap readBack).length ≤ front.length :=
      (List.length_filterMap_le _ _).trans ((layout_ends front).trans_le List.countP_le_length)
    rw [readable, layout_concat, lay_readable _ _ some_kept, List.length_append, List.length_singleton] at all
    rw [Whole, List.dropLast_concat, List.getLast?_concat]
    cases back : readBack ((layout front).2 ++ [w]) with
    | none =>
      rw [back, Option.toList_none, List.length_nil] at all
      omega
    | some e =>
      rw [back, Option.toList_some, List.length_singleton] at all
      refine ⟨ends_of_closed front (Nat.succ.inj all), ?_⟩
      intro v same
      rw [← Option.some.inj same]
      exact (readBack_concat _ w e back).2

theorem readable_all (writes : List (Write I)) : (readable writes).length = writes.length ↔ Whole writes := by
  constructor
  · exact whole_of_readable writes
  · intro whole
    rw [readable_of_whole writes whole, List.length_map]

end

/-- A row of `genesis_agent_events`. -/
structure EventRow where
  id : String
  jobId : String
  sessionId : Value
  eventType : String
  payload : List (String × Value)
  createdAt : Nat

/-- What the database makes of the rows of `event_insert`. -/
structure EventTable (I : Interpreter) where
  /-- The payload and the session that are read back; `none` where a column refuses its text. -/
  takes : Emission I → Option (List (String × Value) × Value)
  /-- What `jsonb` makes of a value: another number that is equal, another order of keys. -/
  normal : Value → Value
  normal_str : ∀ s, normal (str s) = str s
  keeps : ∀ e payload session, takes e = some (payload, session) → (payload.map Prod.fst).Nodup ∧
    ∀ k, payload.lookup k = (e.data.lookup k).map fun v => normal (defaultStr v)
  /-- `createdAt.isoformat()` -/
  isoformat : Nat → String

inductive Turn where
  | inserts (id : String) (now : Nat)
  /-- An exception; `missing` when its text tells that there is no table. -/
  | fails (missing : Bool)

inductive Step (I : Interpreter) where
  | emit (e : Emission I) (kept : Nat) (databaseUrl executorTakes : Bool)
  | write (turn : Turn)
  /-- A query of another request; what it raises may tell that there is no table. -/
  | query (databaseUrl fails missing : Bool)
  /-- The process starts anew, with its disk or without. -/
  | restart (disk : Bool)

structure Store (I : Interpreter) where
  /-- By the job id as it is; ids that `_events_path` takes to one path, such as `x` and `./x`, count as two. -/
  files : String → List Char
  /-- `_TABLES_MISSING` -/
  missing : Bool
  /-- The queue of `_WRITE_EXECUTOR`. -/
  queue : List (Emission I)
  rows : List EventRow

section

variable {I : Interpreter} (T : EventTable I)

def Store.empty : Store I := ⟨fun _ => [], false, [], []⟩

/-- The write that `event_insert` has submitted. -/
def Store.insert (σ : Store I) (e : Emission I) (id : String) (now : Nat) : Store I :=
  match T.takes e with
  | none => σ
  | some (payload, session) =>
    { σ with rows := σ.rows ++ [⟨id, e.jobId, session, e.eventType, payload, now⟩] }

def Store.turn (σ : Store I) (turn : Turn) : Store I :=
  match σ.queue with
  | [] => σ
  | e :: rest =>
    match turn with
    | .inserts id now => Store.insert T { σ with queue := rest } e id now
    | .fails missing => { σ with queue := rest, missing := σ.missing || missing }

def step (σ : Store I) : Step I → Store I
  | .emit e kept databaseUrl executorTakes =>
    { σ with
      files := Function.update σ.files e.jobId (σ.files e.jobId ++ Write.text (e, kept))
      queue := if SubmitState.submits ⟨databaseUrl, σ.missing, executorTakes⟩ then σ.queue ++ [e]
        else σ.queue }
  | .write turn => σ.turn T turn
  | .query databaseUrl fails missing =>
    { σ with missing := σ.missing || (databaseUrl && fails && missing) }
  | .restart disk =>
    { files := if disk then σ.files else fun _ => [], missing := false, queue := [], rows := σ.rows }

/-- `ORDER BY "createdAt" ASC, id ASC` -/
def earlier (a b : EventRow) : Bool := a.createdAt < b.createdAt || (a.createdAt = b.createdAt && a.id ≤ b.id)

def eventOf (row : EventRow) : Value :=
  dict (update [("event_type", str row.eventType), ("job_id", str row.jobId),
    ("ts", str (T.isoformat row.createdAt)), ("session_id", row.sessionId)] row.payload)

/-- `events_get` -/
def eventsGet (σ : Store I) (jobId : String) (databaseUrl fails : Bool) : List Value :=
  if databaseUrl && !σ.missing && !fails then
    ((σ.rows.filter fun row => row.jobId = jobId).mergeSort earlier).map (eventOf T)
  else []

/-- `get_events` -/
def getEvents (σ : Store I) (jobId : String) (databaseUrl fails : Bool) : List Value :=
  let durable := eventsGet T σ jobId databaseUrl fails
  if durable.isEmpty then readEvents I (linesOf (σ.files jobId)) else durable

def emitted : List (Step I) → List (Emission I) := List.filterMap fun s =>
  match s with
  | .emit e _ _ _ => some e
  | _ => none

def emittedFor (jobId : String) (steps : List (Step I)) : List (Emission I) :=
  (emitted steps).filter fun e => e.jobId = jobId

def times : List (Step I) → List Nat := List.filterMap fun s =>
  match s with
  | .write (.inserts _ now) => some now
  | _ => none

def onFile (jobId : String) (writes : List (Write I)) : Step I → List (Write I)
  | .emit e kept _ _ => if e.jobId = jobId then writes ++ [(e, kept)] else writes
  | .restart false => []
  | _ => writes

def fileWrites (jobId : String) (steps : List (Step I)) : List (Write I) := steps.foldl (onFile jobId) []

def run (steps : List (Step I)) : Store I := Runs.run (step T) Store.empty steps

theorem run_concat (steps : List (Step I)) (s : Step I) : run T (steps ++ [s]) = step T (run T steps) s := by
  rw [run, Runs.run_append]
  rfl

theorem insert_files (σ : Store I) (e : Emission I) (id : String) (now : Nat) :
    (Store.insert T σ e id now).files = σ.files := by
  rw [Store.insert]
  split <;> rfl

theorem turn_files (σ : Store I) (turn : Turn) : (σ.turn T turn).files = σ.files := by
  rw [Store.turn]
  split
  · rfl
  · cases turn with
    | inserts id now => rw [insert_files]
    | fails missing => rfl

theorem run_files (jobId : String) (steps : List (Step I)) :
    (run T steps).files jobId = fileText (fileWrites jobId steps) := by
  induction steps using List.reverseRecOn with
  | nil => rfl
  | append_singleton steps s later =>
    rw [run_concat, fileWrites, List.foldl_append, ← fileWrites]
    change _ = fileText (onFile jobId (fileWrites jobId steps) s)
    cases s with
    | emit e kept databaseUrl executorTakes =>
      rw [step, onFile]
      by_cases same : e.jobId = jobId
      · rw [if_pos same, fileText, List.flatMap_append, List.flatMap_singleton, ← fileText, ← later, same]
        exact Function.update_self _ _ _
      · rw [if_neg same, ← later]
        exact Function.update_of_ne (Ne.symm same) _ _
    | write turn =>
      change (Store.turn T (run T steps) turn).files jobId = _
      rw [turn_files]
      exact later
    | query databaseUrl fails missing => exact later
    | restart disk =>
      cases disk with
      | true => exact later
      | false => rfl

theorem emitted_concat (steps : List (Step I)) (s : Step I) : emitted (steps ++ [s]) = emitted steps ++ emitted [s] :=
  List.filterMap_append

theorem fileWrites_sublist (jobId : String) (steps : List (Step I)) :
    ((fileWrites jobId steps).map Prod.fst).Sublist (emittedFor jobId steps) := by
  induction steps using List.reverseRecOn with
  | nil => exact List.Sublist.slnil
  | append_singleton steps s later =>
    rw [fileWrites, List.foldl_append, ← fileWrites, emittedFor, emitted_concat, List.filter_append, ← emittedFor]
    change ((onFile jobId (fileWrites jobId steps) s).map Prod.fst).Sublist _
    cases s with
    | emit e kept databaseUrl executorTakes =>
      rw [onFile]
      by_cases same : e.jobId = jobId
      · have new : (emitted [Step.emit e kept databaseUrl executorTakes]).filter (fun e => e.jobId = jobId) =
            [e] := List.filter_cons_of_pos (decide_eq_true same)
        rw [if_pos same, new, List.map_append]
        exact later.append (List.Sublist.refl _)
      · rw [if_neg same]
        exact later.trans (List.sublist_append_left _ _)
    | write turn => exact later.trans (List.sublist_append_left _ _)
    | query databaseUrl fails missing => exact later.trans (List.sublist_append_left _ _)
    | restart disk =>
      cases disk with
      | true => exact later.trans (List.sublist_append_left _ _)
      | false => exact List.nil_sublist _

structure Holds (e : Emission I) (row : EventRow) : Prop where
  jobId : row.jobId = e.jobId
  eventType : row.eventType = e.eventType
  taken : T.takes e = some (row.payload, row.sessionId)

/-- The rows are those of calls that were made, in their order, and what is queued was called after them. -/
def Stored (steps : List (Step I)) (σ : Store I) : Prop :=
  ∃ stored, List.Forall₂ (Holds T) stored σ.rows ∧ (stored ++ σ.queue).Sublist (emitted steps)

theorem insert_stored {e : Emission I} {id : String} {now : Nat} {σ : Store I} {calls : List (Emission I)}
    (stored : List (Emission I)) (held : List.Forall₂ (Holds T) stored σ.rows)
    (called : (stored ++ e :: σ.queue).Sublist calls) :
    ∃ stored, List.Forall₂ (Holds T) stored (Store.insert T σ e id now).rows ∧
      (stored ++ (Store.insert T σ e id now).queue).Sublist calls := by
  rw [Store.insert]
  cases taken : T.takes e with
  | none =>
    refine ⟨stored, held, List.Sublist.trans ?_ called⟩
    exact (List.Sublist.refl stored).append (List.sublist_cons_self e σ.queue)
  | some columns =>
    refine ⟨stored ++ [e], ?_, ?_⟩
    · exact List.rel_append held (.cons ⟨rfl, rfl, taken⟩ .nil)
    · rw [List.append_assoc]
      exact called

theorem turn_stored (steps : List (Step I)) (σ : Store I) (turn : Turn) (rows : Stored T steps σ) :
    Stored T steps (σ.turn T turn) := by
  obtain ⟨stored, held, called⟩ := rows
  rw [Store.turn]
  split
  · exact ⟨stored, held, called⟩
  · rename_i e rest queued
    rw [queued] at called
    cases turn with
    | inserts id now =>
      exact insert_stored (σ := { σ with queue := rest }) T stored held called
    | fails missing =>
      refine ⟨stored, held, List.Sublist.trans ?_ called⟩
      exact (List.Sublist.refl stored).append (List.sublist_cons_self e rest)

theorem run_stored (steps : List (Step I)) : Stored T steps (run T steps) := by
  induction steps using List.reverseRecOn with
  | nil => exact ⟨[], .nil, List.Sublist.slnil⟩
  | append_singleton steps s later =>
    obtain ⟨stored, held, called⟩ := later
    rw [run_concat]
    cases s with
    | emit e kept databaseUrl executorTakes =>
      have new : emitted (steps ++ [.emit e kept databaseUrl executorTakes]) = emitted steps ++ [e] :=
        emitted_concat steps _
      refine ⟨stored, held, ?_⟩
      rw [new, step]
      dsimp only
      split
      · rw [← List.append_assoc]
        exact called.append (List.Sublist.refl [e])
      · exact called.trans (List.sublist_append_left _ _)
    | write turn =>
      obtain ⟨others, rows, calls⟩ := turn_stored T steps (run T steps) turn ⟨stored, held, called⟩
      refine ⟨others, rows, calls.trans ?_⟩
      rw [emitted_concat]
      exact List.sublist_append_left _ _
    | query databaseUrl fails missing =>
      refine ⟨stored, held, called.trans ?_⟩
      rw [emitted_concat]
      exact List.sublist_append_left _ _
    | restart disk =>
      refine ⟨stored, held, ?_⟩
      rw [emitted_concat, step, List.append_nil]
      exact (List.sublist_append_left stored _).trans (called.trans (List.sublist_append_left _ _))

theorem turn_times (σ : Store I) (turn : Turn) :
    ((σ.turn T turn).rows.map EventRow.createdAt).Sublist
      (σ.rows.map EventRow.createdAt ++ times [Step.write (I := I) turn]) := by
  rw [Store.turn]
  split
  · exact List.sublist_append_left _ _
  · cases turn with
    | inserts id now =>
      dsimp only [Store.insert]
      split
      · exact List.sublist_append_left _ _
      · rw [List.map_append]
        exact List.Sublist.refl _
    | fails missing => exact List.sublist_append_left _ _

theorem run_times (steps : List (Step I)) :
    ((run T steps).rows.map EventRow.createdAt).Sublist (times steps) := by
  induction steps using List.reverseRecOn with
  | nil => exact List.Sublist.slnil
  | append_singleton steps s later =>
    have split : times (steps ++ [s]) = times steps ++ times [s] := List.filterMap_append
    rw [run_concat, split]
    cases s with
    | emit e kept databaseUrl executorTakes => exact later.trans (List.sublist_append_left _ _)
    | write turn => exact (turn_times T (run T steps) turn).trans (later.append_right _)
    | query databaseUrl fails missing => exact later.trans (List.sublist_append_left _ _)
    | restart disk => exact later.trans (List.sublist_append_left _ _)

/-- Where the clock has gone on between any two inserts, the rows come in the order of their inserts. -/
theorem rows_sorted (steps : List (Step I)) (clock : (times steps).Pairwise (· < ·)) (p : EventRow → Bool) :
    ((run T steps).rows.filter p).mergeSort earlier = (run T steps).rows.filter p := by
  apply List.mergeSort_of_pairwise
  have stamps : ((run T steps).rows.map EventRow.createdAt).Pairwise (· < ·) :=
    clock.sublist (run_times T steps)
  have rows : (run T steps).rows.Pairwise fun a b => earlier a b = true := by
    apply (List.pairwise_map.mp stamps).imp
    intro a b before
    rw [earlier, decide_eq_true before, Bool.true_or]
  exact rows.sublist List.filter_sublist

/-- What `get_events` may tell of a call: its event, or the fields of its row, which has a time of its own
and a session where the event has none. -/
def Tells (e : Emission I) (v : Value) : Prop :=
  v = e.event ∨ ∃ fields, v = dict fields ∧
    ∀ k, k ∉ ["ts", "session_id"] ∨ (e.data.lookup k).isSome = true →
      fields.lookup k = (e.entries.lookup k).map fun v => T.normal (defaultStr v)

theorem row_tells (e : Emission I) (row : EventRow) (held : Holds T e row) : Tells T e (eventOf T row) := by
  refine .inr ⟨_, rfl, ?_⟩
  intro k told
  obtain ⟨distinct, same⟩ := T.keeps e _ _ held.taken
  rw [Emission.entries, entriesOf, lookup_update_distinct _ _ _ distinct, lookup_update_distinct _ _ _ e.distinct,
    same]
  cases given : e.data.lookup k with
  | some v => rfl
  | none =>
    have named : k ∉ ["ts", "session_id"] := told.resolve_right (by rw [given]; decide)
    rw [List.mem_cons, List.mem_singleton, not_or] at named
    rw [Option.map_none, Option.none_or, Option.none_or, held.jobId, held.eventType]
    by_cases job : k = "job_id"
    · rw [job]
      exact congrArg some (T.normal_str e.jobId).symm
    by_cases type : k = "event_type"
    · rw [type]
      exact congrArg some (T.normal_str e.eventType).symm
    simp [List.lookup_cons, beq_false_of_ne job, beq_false_of_ne type, beq_false_of_ne named.1,
      beq_false_of_ne named.2]

theorem eventsGet_told (steps : List (Step I)) (clock : (times steps).Pairwise (· < ·)) (jobId : String)
    (databaseUrl fails : Bool) : ∃ calls, calls.Sublist (emittedFor jobId steps) ∧
      List.Forall₂ (Tells T) calls (eventsGet T (run T steps) jobId databaseUrl fails) := by
  rw [eventsGet]
  split
  · obtain ⟨stored, held, called⟩ := run_stored T steps
    refine ⟨stored.filter fun e => e.jobId = jobId, ?_, ?_⟩
    · exact ((List.sublist_append_left _ _).trans called).filter _
    · rw [rows_sorted T steps clock, List.forall₂_map_right_iff]
      have rows : List.Forall₂ (Holds T) (stored.filter fun e => e.jobId = jobId)
          ((run T steps).rows.filter fun row => row.jobId = jobId) := by
        apply List.rel_filter _ held
        intro e row same
        simp [same.jobId]
      exact rows.imp fun e row same => row_tells T e row same
  · exact ⟨[], List.nil_sublist _, .nil⟩

theorem file_told (steps : List (Step I)) (jobId : String) : ∃ calls, calls.Sublist (emittedFor jobId steps) ∧
    List.Forall₂ (Tells T) calls (readEvents I (linesOf ((run T steps).files jobId))) := by
  obtain ⟨unread, whole⟩ := (readEvents_file (fileWrites jobId steps)).1
  obtain ⟨front, back, split, same⟩ := List.append_eq_map_iff.mp whole
  refine ⟨front, ?_, ?_⟩
  · have kept : front.Sublist (readable (fileWrites jobId steps)) := split ▸ List.sublist_append_left front back
    exact kept.trans ((readable_sublist _).trans (fileWrites_sublist jobId steps))
  · rw [run_files, ← same.1, List.forall₂_map_right_iff, List.forall₂_same]
    intro e member
    exact .inl rfl

/-- Every event that is told was emitted for that job; none is told twice, and none before an earlier one. -/
theorem events_faithful (steps : List (Step I)) (clock : (times steps).Pairwise (· < ·)) (jobId : String)
    (databaseUrl fails : Bool) : ∃ calls, calls.Sublist (emittedFor jobId steps) ∧
      List.Forall₂ (Tells T) calls (getEvents T (run T steps) jobId databaseUrl fails) := by
  rw [getEvents]
  split
  · exact file_told T steps jobId
  · exact eventsGet_told T steps clock jobId databaseUrl fails

def Store.answers (σ : Store I) (jobId : String) (databaseUrl fails : Bool) : Bool :=
  databaseUrl && !σ.missing && !fails && σ.rows.any fun row => row.jobId = jobId

theorem eventsGet_answers (σ : Store I) (jobId : String) (databaseUrl fails : Bool) :
    (eventsGet T σ jobId databaseUrl fails).length =
      if σ.answers jobId databaseUrl fails then σ.rows.countP fun row => row.jobId = jobId else 0 := by
  rw [eventsGet, Store.answers]
  cases open_table : databaseUrl && !σ.missing && !fails with
  | false => rfl
  | true =>
    rw [if_pos rfl, List.length_map, List.length_mergeSort, ← List.countP_eq_length_filter, Bool.true_and]
    cases present : σ.rows.any fun row => row.jobId = jobId with
    | true => rfl
    | false =>
      rw [List.any_eq_false] at present
      exact List.countP_eq_zero.mpr present

theorem getEvents_length (steps : List (Step I)) (jobId : String) (databaseUrl fails : Bool)
    (unraised : ∀ line ∈ linesOf ((run T steps).files jobId), readLine I line ≠ .raised) :
    (getEvents T (run T steps) jobId databaseUrl fails).length =
      if (run T steps).answers jobId databaseUrl fails then
        (run T steps).rows.countP fun row => row.jobId = jobId
      else (readable (fileWrites jobId steps)).length := by
  have told := eventsGet_answers T (run T steps) jobId databaseUrl fails
  rw [getEvents]
  cases answered : (run T steps).answers jobId databaseUrl fails with
  | false =>
    rw [answered] at told
    have nothing : (eventsGet T (run T steps) jobId databaseUrl fails).isEmpty = true := by
      rw [List.isEmpty_iff, ← List.length_eq_zero_iff]
      exact told
    rw [run_files] at unraised
    rw [nothing, if_pos rfl, run_files, (readEvents_file _).2 unraised, List.length_map]
    rfl
  | true =>
    rw [answered, if_pos rfl] at told
    have row : 0 < (run T steps).rows.countP fun row => row.jobId = jobId := by
      rw [Store.answers, Bool.and_eq_true, List.any_eq_true] at answered
      exact List.countP_pos_iff.mpr answered.2
    have some_told : (eventsGet T (run T steps) jobId databaseUrl fails).isEmpty = false := by
      rw [List.isEmpty_eq_false_iff, ← List.length_pos_iff, told]
      exact row
    rw [some_told, if_pos rfl]
    exact told

/-- As many are given back as were emitted exactly when the file has them all, each on its line. -/
theorem readable_emitted (steps : List (Step I)) (jobId : String) :
    (readable (fileWrites jobId steps)).length = (emittedFor jobId steps).length ↔
      (fileWrites jobId steps).length = (emittedFor jobId steps).length ∧ Whole (fileWrites jobId steps) := by
  have given := (readable_sublist (fileWrites jobId steps)).length_le
  have written := (fileWrites_sublist jobId steps).length_le
  rw [List.length_map] at given written
  rw [← readable_all]
  omega

/-- All the events of a job are told exactly when every one has its row, where the table answers, and
otherwise when every line has reached the file that is there. -/
theorem events_complete_iff (steps : List (Step I)) (clock : (times steps).Pairwise (· < ·)) (jobId : String)
    (databaseUrl fails : Bool)
    (unraised : ∀ line ∈ linesOf ((run T steps).files jobId), readLine I line ≠ .raised) :
    List.Forall₂ (Tells T) (emittedFor jobId steps) (getEvents T (run T steps) jobId databaseUrl fails) ↔
      if (run T steps).answers jobId databaseUrl fails then
        (run T steps).rows.countP (fun row => row.jobId = jobId) = (emittedFor jobId steps).length
      else
        (fileWrites jobId steps).length = (emittedFor jobId steps).length ∧ Whole (fileWrites jobId steps) := by
  have counted : List.Forall₂ (Tells T) (emittedFor jobId steps)
      (getEvents T (run T steps) jobId databaseUrl fails) ↔
      (getEvents T (run T steps) jobId databaseUrl fails).length = (emittedFor jobId steps).length := by
    constructor
    · intro all
      exact all.length_eq.symm
    · intro as_many
      obtain ⟨calls, among, told⟩ := events_faithful T steps clock jobId databaseUrl fails
      rw [← among.eq_of_length (told.length_eq.trans as_many)]
      exact told
  rw [counted, getEvents_length T steps jobId databaseUrl fails unraised]
  split
  · rfl
  · exact readable_emitted steps jobId

end

/-! A job with two events, whose second row is not written. -/

theorem oneTick_plain : "1.5".toList ≠ [] ∧ ∀ c ∈ "1.5".toList, isFloatChar c = true := floatText_plain "1.5" rfl

def oneTick : PyFloat := ⟨"1.5", some (mkRat (Int.ofNat 3) 2), oneTick_plain⟩

def tickInterpreter : Interpreter where
  numerals := { float := fun _ => oneTick, int := fun _ => none }
  raises _ := false
  yielded _ := 0

theorem defaultStrItems_lookup (kvs : List (String × Value)) :
    (defaultStrItems kvs).map Prod.fst = kvs.map Prod.fst ∧
      ∀ k, (defaultStrItems kvs).lookup k = (kvs.lookup k).map defaultStr := by
  induction kvs with
  | nil => exact ⟨rfl, fun _ => rfl⟩
  | cons kv rest later =>
    rw [defaultStrItems]
    refine ⟨congrArg (kv.1 :: ·) later.1, ?_⟩
    intro k
    rw [List.lookup_cons, List.lookup_cons, later.2]
    cases k == kv.1 <;> rfl

theorem tick_unraised (line : List Char) : readLine tickInterpreter line ≠ .raised := by
  have never : tickInterpreter.raises (strip (String.ofList line)) = false := rfl
  intro raised
  rw [readLine, never, if_neg Bool.false_ne_true] at raised
  by_cases empty : strip (String.ofList line) = ""
  · rw [if_pos empty] at raised
    cases raised
  · rw [if_neg empty] at raised
    cases read : JsonLines.loads tickInterpreter.numerals (strip (String.ofList line)) with
    | none =>
      rw [read] at raised
      cases raised
    | some v =>
      rw [read] at raised
      cases raised

def plainTable : EventTable tickInterpreter where
  takes e := some (defaultStrItems e.data, null)
  normal := id
  normal_str _ := rfl
  keeps := by
    intro e payload session taken
    have columns := Prod.mk.inj (Option.some.inj taken)
    rw [← columns.1, (defaultStrItems_lookup e.data).1]
    exact ⟨e.distinct, (defaultStrItems_lookup e.data).2⟩
  isoformat _ := "2026-01-01T00:00:00+00:00"

theorem tick_genuine : Genuine tickInterpreter.numerals oneTick := .inr ⟨by decide, rfl⟩

def started : Emission tickInterpreter where
  jobId := "job-1"
  eventType := "agent.started"
  data := [("agent_slug", str "genesis-research")]
  ts := oneTick
  distinct := by decide
  loaded := by simp [Loaded, LoadedItems, entriesOf, defaultStrItems, defaultStr, tick_genuine]

def finished : Emission tickInterpreter where
  jobId := "job-1"
  eventType := "job.completed"
  data := []
  ts := oneTick
  distinct := by decide
  loaded := by simp [Loaded, LoadedItems, entriesOf, defaultStrItems, defaultStr, tick_genuine]

def halfStored : List (Step tickInterpreter) :=
  [.emit started 200 true true, .write (.inserts "r1" 5), .emit finished 200 true true,
    .write (.fails false)]

theorem events_faithful_half : ∃ calls, calls.Sublist (emittedFor "job-1" halfStored) ∧
    List.Forall₂ (Tells plainTable) calls (getEvents plainTable (run plainTable halfStored) "job-1" true false) :=
  events_faithful plainTable halfStored (by decide) "job-1" true false

/-- The row that is missing is told by nothing, though the file has its line. -/
theorem events_complete_iff_half : ¬List.Forall₂ (Tells plainTable) (emittedFor "job-1" halfStored)
    (getEvents plainTable (run plainTable halfStored) "job-1" true false) := by
  have read : ∀ line ∈ linesOf ((run plainTable halfStored).files "job-1"),
      readLine tickInterpreter line ≠ .raised := fun line _ => tick_unraised line
  have answered : (run plainTable halfStored).answers "job-1" true false = true := by decide
  have rows : (run plainTable halfStored).rows.countP (fun row => row.jobId = "job-1") ≠
      (emittedFor "job-1" halfStored).length := by decide
  rw [events_complete_iff plainTable halfStored (by decide) "job-1" true false read, if_pos answered]
  exact rows

end GenesisAgents.EventLog
