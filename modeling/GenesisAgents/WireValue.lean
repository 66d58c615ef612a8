import GenesisAgents.RequestAuth

/-! JSON as `json.loads` leaves it before any model has validated it: its texts may hold lone surrogates,
which no `String` does. -/

namespace GenesisAgents

open Value

/-- A code point of a Python `str`: a character, or half of a surrogate pair. -/
inductive CodePoint where
  | char (c : Char)
  | surrogate (unit : Fin 2048)
  deriving DecidableEq

/-- A Python `str` -/
abbrev PyStr := List CodePoint

namespace PyStr

def of (s : String) : PyStr := s.toList.map .char

def char? : CodePoint → Option Char
  | .char c => some c
  | .surrogate _ => none

/-- `s.encode("utf-8")`, as the text it encodes; `none` is its `UnicodeEncodeError`. -/
def encode (s : PyStr) : Option String := (s.mapM char?).map String.ofList

/-- `s.isascii()` -/
def ascii (s : PyStr) : Bool :=
  s.all fun p =>
    match p with
    | .char c => c.toNat < 128
    | .surrogate _ => false

theorem mapM_chars (cs : List Char) : (cs.map CodePoint.char).mapM char? = some cs := by
  induction cs with
  | nil => rfl
  | cons c rest later =>
    rw [List.map_cons, List.mapM_cons, later]
    rfl

theorem encode_of (s : String) : (of s).encode = some s := by
  rw [encode, of, mapM_chars, Option.map_some, String.ofList_toList]

theorem mapM_char? (s : PyStr) (cs : List Char) (encoded : s.mapM char? = some cs) : s = cs.map CodePoint.char := by
  induction s generalizing cs with
  | nil =>
    rw [← Option.some.inj encoded]
    rfl
  | cons p rest later =>
    rw [List.mapM_cons, Option.bind_eq_bind, Option.bind_eq_some_iff] at encoded
    rcases encoded with ⟨c, first, encoded⟩
    rw [Option.bind_eq_bind, Option.bind_eq_some_iff] at encoded
    rcases encoded with ⟨tail, others, same⟩
    rw [← Option.some.inj same, later tail others, List.map_cons]
    cases p with
    | char d => rw [Option.some.inj first]
    | surrogate unit => cases first

theorem encode_eq_some (s : PyStr) (text : String) : s.encode = some text ↔ s = of text := by
  constructor
  · intro encoded
    rw [encode, Option.map_eq_some_iff] at encoded
    rcases encoded with ⟨cs, chars, rfl⟩
    rw [of, String.toList_ofList]
    exact mapM_char? s cs chars
  · rintro rfl
    exact encode_of text

theorem of_injective : Function.Injective of := by
  intro s t same
  rw [← Option.some.injEq, ← encode_of, ← encode_of, same]

theorem of_inj (s t : String) : of s = of t ↔ s = t := of_injective.eq_iff

theorem ascii_of (s : String) : (of s).ascii = isAscii s := by
  rw [ascii, of, isAscii, List.all_map]
  rfl

end PyStr

inductive WireValue where
  | null
  | bool (b : Bool)
  | int (n : Int)
  | float (x : PyFloat)
  | str (s : PyStr)
  | list (xs : List WireValue)
  | dict (items : List (PyStr × WireValue))
  deriving Inhabited

namespace WireValue

def isDict : WireValue → Bool
  | dict _ => true
  | _ => false

/-- `bool(v)` -/
def truthy : WireValue → Bool
  | null => false
  | bool b => b
  | int n => n != 0
  | float x => x.exact != some 0
  | str s => !s.isEmpty
  | list xs => !xs.isEmpty
  | dict items => !items.isEmpty

/-- `a or b` -/
def orElse (a b : WireValue) : WireValue := if a.truthy then a else b

/-- `d.get(key)`, on a value that is a dict -/
def get? : WireValue → String → Option WireValue
  | dict items, key => items.lookup (PyStr.of key)
  | _, _ => none

/-- `d.get(key)` as a value: a missing key reads as `None`. -/
def get (d : WireValue) (key : String) : WireValue := (d.get? key).getD null

/-- `d.pop(key, None)` without its result -/
def erase (d : WireValue) (key : String) : WireValue :=
  match d with
  | dict items => dict (items.filter fun item => item.1 != PyStr.of key)
  | v => v

def number? : WireValue → Option Rat
  | bool b => some (if b then 1 else 0)
  | int n => some n
  | float x => x.exact
  | _ => none

def leafEq : WireValue → WireValue → Bool
  | null, null => true
  | str s, str t => s == t
  | float x, float y => if x.exact.isSome then x.exact == y.exact else x.repr == y.repr
  | a, b => a.number?.isSome && a.number? == b.number?

mutual
/-- Python's `==` -/
def pyEq : WireValue → WireValue → Bool
  | list xs, b => match b with
    | list ys => pyEqList xs ys
    | _ => false
  | dict items, b => match b with
    | dict others => items.length == others.length && pyEqItems items others
    | _ => false
  | a, b => leafEq a b
def pyEqList : List WireValue → List WireValue → Bool
  | [], [] => true
  | x :: xs, y :: ys => pyEq x y && pyEqList xs ys
  | _, _ => false
def pyEqItems : List (PyStr × WireValue) → List (PyStr × WireValue) → Bool
  | [], _ => true
  | (k, v) :: rest, others => (match others.lookup k with
      | some w => pyEq v w
      | none => false) && pyEqItems rest others
end

/-! `str(v)` -/

/-- `repr` escapes every surrogate. -/
def reprPoint (U : Unicode) (quote : Char) : CodePoint → List Char
  | .char c => reprChar U quote c
  | .surrogate unit => ['\\', 'u'] ++ hexDigits 4 (55296 + unit)

def reprStr (U : Unicode) (s : PyStr) : String :=
  let quote := if s.contains (.char apostrophe) && !s.contains (.char '"') then '"' else apostrophe
  String.ofList (quote :: s.flatMap (reprPoint U quote) ++ [quote])

mutual
def repr (U : Unicode) : WireValue → String
  | null => "None"
  | bool b => if b then "True" else "False"
  | int n => toString n
  | float x => x.repr
  | str s => reprStr U s
  | list xs => "[" ++ String.intercalate ", " (reprList U xs) ++ "]"
  | dict items => "\x7b" ++ String.intercalate ", " (reprItems U items) ++ "\x7d"
def reprList (U : Unicode) : List WireValue → List String
  | [] => []
  | x :: xs => repr U x :: reprList U xs
def reprItems (U : Unicode) : List (PyStr × WireValue) → List String
  | [] => []
  | (k, v) :: rest => (reprStr U k ++ ": " ++ repr U v) :: reprItems U rest
end

/-- `str(v)` -/
def text (U : Unicode) : WireValue → PyStr
  | str s => s
  | v => PyStr.of (repr U v)

/-- `str(v or "")` -/
def textOr (U : Unicode) (v : WireValue) : PyStr := (v.orElse (str [])).text U

mutual
/-- The value whose texts are all encoded; `none` when a lone surrogate is in the way. -/
def encode : WireValue → Option Value
  | null => some .null
  | bool b => some (.bool b)
  | int n => some (.int n)
  | float x => some (.float x)
  | str s => s.encode.map .str
  | list xs => (encodeList xs).map .list
  | dict items => (encodeItems items).map .dict
def encodeList : List WireValue → Option (List Value)
  | [] => some []
  | x :: xs => match encode x, encodeList xs with
    | some v, some vs => some (v :: vs)
    | _, _ => none
def encodeItems : List (PyStr × WireValue) → Option (List (String × Value))
  | [] => some []
  | (k, x) :: rest => match k.encode, encode x, encodeItems rest with
    | some key, some v, some kvs => some ((key, v) :: kvs)
    | _, _, _ => none
end

theorem encode_shape (w : WireValue) (v : Value) (encoded : w.encode = some v) :
    match w with
    | null => v = .null
    | bool b => v = .bool b
    | int n => v = .int n
    | float x => v = .float x
    | str s => ∃ text, s = PyStr.of text ∧ v = .str text
    | list xs => ∃ vs, encodeList xs = some vs ∧ v = .list vs
    | dict items => ∃ kvs, encodeItems items = some kvs ∧ v = .dict kvs := by
  cases w with
  | str s =>
    rcases Option.map_eq_some_iff.mp encoded with ⟨text, chars, same⟩
    exact ⟨text, (PyStr.encode_eq_some s text).mp chars, same.symm⟩
  | list xs =>
    rcases Option.map_eq_some_iff.mp encoded with ⟨vs, items, same⟩
    exact ⟨vs, items, same.symm⟩
  | dict items =>
    rcases Option.map_eq_some_iff.mp encoded with ⟨kvs, pairs, same⟩
    exact ⟨kvs, pairs, same.symm⟩
  | null | bool _ | int _ | float _ => exact (Option.some.inj encoded).symm

theorem encodeList_cons (x : WireValue) (xs : List WireValue) (vs : List Value)
    (encoded : encodeList (x :: xs) = some vs) :
    ∃ v us, x.encode = some v ∧ encodeList xs = some us ∧ vs = v :: us := by
  rw [encodeList] at encoded
  split at encoded
  case h_1 v us head tail => exact ⟨v, us, head, tail, (Option.some.inj encoded).symm⟩
  case h_2 => contradiction

theorem encodeItems_cons (k : PyStr) (x : WireValue) (items : List (PyStr × WireValue))
    (kvs : List (String × Value)) (encoded : encodeItems ((k, x) :: items) = some kvs) :
    ∃ key v rest, k = PyStr.of key ∧ x.encode = some v ∧ encodeItems items = some rest ∧
      kvs = (key, v) :: rest := by
  rw [encodeItems] at encoded
  split at encoded
  case h_1 key v rest named head tail =>
    exact ⟨key, v, rest, (PyStr.encode_eq_some k key).mp named, head, tail, (Option.some.inj encoded).symm⟩
  case h_2 => contradiction

/-- `_canonical_json`; the text holds every string as it is, so a surrogate makes its UTF-8 fail. -/
def canonicalJson (v : WireValue) : Option String := v.encode.bind GenesisAgents.canonicalJson

mutual
theorem encode_jsonable : ∀ (w : WireValue) (v : Value), w.encode = some v → v.jsonable = true
  | null, v, encoded | bool _, v, encoded | int _, v, encoded | float _, v, encoded => by
      rw [← Option.some.inj encoded]
      rfl
  | str s, v, encoded => by
      rcases Option.map_eq_some_iff.mp encoded with ⟨text, _, rfl⟩
      rfl
  | list xs, v, encoded => by
      rcases Option.map_eq_some_iff.mp encoded with ⟨vs, items, rfl⟩
      exact encodeList_jsonable xs vs items
  | dict items, v, encoded => by
      rcases Option.map_eq_some_iff.mp encoded with ⟨kvs, pairs, rfl⟩
      exact encodeItems_jsonable items kvs pairs
theorem encodeList_jsonable : ∀ (xs : List WireValue) (vs : List Value), encodeList xs = some vs →
    jsonableList vs = true
  | [], vs, encoded => by
      rw [← Option.some.inj encoded]
      rfl
  | x :: xs, vs, encoded => by
      rcases encodeList_cons x xs vs encoded with ⟨v, us, head, tail, rfl⟩
      rw [jsonableList, encode_jsonable x v head, encodeList_jsonable xs us tail]
      rfl
theorem encodeItems_jsonable : ∀ (items : List (PyStr × WireValue)) (kvs : List (String × Value)),
    encodeItems items = some kvs → jsonableItems kvs = true
  | [], kvs, encoded => by
      rw [← Option.some.inj encoded]
      rfl
  | (k, x) :: rest, kvs, encoded => by
      rcases encodeItems_cons k x rest kvs encoded with ⟨key, v, others, -, head, tail, rfl⟩
      rw [jsonableItems, encode_jsonable x v head, encodeItems_jsonable rest others tail]
      rfl
end

theorem jsonableItems_perm (items others : List (String × Value)) (same : items.Perm others) :
    jsonableItems items = jsonableItems others := by
  induction same with
  | nil => rfl
  | cons item _ rest => rw [jsonableItems, jsonableItems, rest]
  | swap first second rest =>
    rw [jsonableItems, jsonableItems, jsonableItems, jsonableItems, Bool.and_left_comm]
  | trans _ _ first second => exact first.trans second

mutual
theorem sortKeys_jsonable : ∀ v : Value, (sortKeys v).jsonable = v.jsonable
  | .null | .bool _ | .int _ | .float _ | .str _ | .object _ => by simp [sortKeys, jsonable]
  | .list xs => by rw [sortKeys, jsonable, jsonable, sortKeysList_jsonable xs]
  | .dict kvs => by
      rw [sortKeys, jsonable, jsonable, ← sortKeysItems_jsonable kvs]
      exact jsonableItems_perm _ _ (List.perm_insertionSort _ _)
theorem sortKeysList_jsonable : ∀ xs : List Value, jsonableList (sortKeysList xs) = jsonableList xs
  | [] => rfl
  | x :: xs => by rw [sortKeysList, jsonableList, jsonableList, sortKeys_jsonable x, sortKeysList_jsonable xs]
theorem sortKeysItems_jsonable : ∀ kvs : List (String × Value),
    jsonableItems (sortKeysItems kvs) = jsonableItems kvs
  | [] => rfl
  | (k, v) :: rest => by
      rw [sortKeysItems, jsonableItems, jsonableItems, sortKeys_jsonable v, sortKeysItems_jsonable rest]
end

/-- `_canonical_json` raises on a lone surrogate and on nothing else. -/
theorem canonicalJson_isSome (w : WireValue) : w.canonicalJson.isSome = w.encode.isSome := by
  rw [canonicalJson]
  cases encoded : w.encode with
  | none => rfl
  | some v =>
    rw [Option.bind_some, GenesisAgents.canonicalJson, dumpsWith_isSome, sortKeys_jsonable,
      encode_jsonable w v encoded]
    rfl

/-! A value without surrogates reads as the value it encodes. -/

theorem lookup_encode (items : List (PyStr × WireValue)) (kvs : List (String × Value))
    (encoded : encodeItems items = some kvs) (key : String) :
    (items.lookup (PyStr.of key) = none ∧ kvs.lookup key = none) ∨
      ∃ w v, items.lookup (PyStr.of key) = some w ∧ kvs.lookup key = some v ∧ w.encode = some v := by
  induction items generalizing kvs with
  | nil =>
    rw [← Option.some.inj encoded]
    exact .inl ⟨rfl, rfl⟩
  | cons item rest later =>
    rcases item with ⟨k, x⟩
    rcases encodeItems_cons k x rest kvs encoded with ⟨name, v, tail, rfl, value, others, rfl⟩
    by_cases same : key = name
    · rw [same, List.lookup_cons_self, List.lookup_cons_self]
      exact .inr ⟨x, v, rfl, rfl, value⟩
    · rw [List.lookup_cons, List.lookup_cons, beq_false_of_ne same,
        beq_false_of_ne (mt (PyStr.of_inj key name).mp same)]
      exact later tail others

theorem get_encode (w : WireValue) (v : Value) (encoded : w.encode = some v) (key : String) :
    (w.get key).encode = some (v.get key) ∧ (w.get? key).isSome = (v.get? key).isSome := by
  cases w with
  | dict items =>
    rcases Option.map_eq_some_iff.mp encoded with ⟨kvs, pairs, rfl⟩
    rw [get, Value.get, getD, get?, get?_dict]
    rcases lookup_encode items kvs pairs key with ⟨missing, absent⟩ | ⟨w, v, found, known, same⟩
    · rw [missing, absent]
      exact ⟨rfl, rfl⟩
    · rw [found, known]
      exact ⟨same, rfl⟩
  | str s =>
    rcases Option.map_eq_some_iff.mp encoded with ⟨text, _, rfl⟩
    exact ⟨rfl, rfl⟩
  | list xs =>
    rcases Option.map_eq_some_iff.mp encoded with ⟨vs, _, rfl⟩
    exact ⟨rfl, rfl⟩
  | null | bool _ | int _ | float _ =>
    rw [← Option.some.inj encoded]
    exact ⟨rfl, rfl⟩

theorem encodeItems_length (items : List (PyStr × WireValue)) (kvs : List (String × Value))
    (encoded : encodeItems items = some kvs) : items.length = kvs.length := by
  induction items generalizing kvs with
  | nil =>
    rw [← Option.some.inj encoded]
    rfl
  | cons item rest later =>
    rcases item with ⟨k, x⟩
    rcases encodeItems_cons k x rest kvs encoded with ⟨key, v, tail, -, -, others, rfl⟩
    rw [List.length_cons, List.length_cons, later tail others]

theorem encodeList_length (xs : List WireValue) (vs : List Value) (encoded : encodeList xs = some vs) :
    xs.length = vs.length := by
  induction xs generalizing vs with
  | nil =>
    rw [← Option.some.inj encoded]
    rfl
  | cons x rest later =>
    rcases encodeList_cons x rest vs encoded with ⟨v, us, -, others, rfl⟩
    rw [List.length_cons, List.length_cons, later us others]

theorem isEmpty_of_length {α β : Type} (xs : List α) (ys : List β) (same : xs.length = ys.length) :
    xs.isEmpty = ys.isEmpty := by
  cases xs <;> cases ys <;> first | rfl | cases same

theorem reprPoint_of (U : Unicode) (quote : Char) (cs : List Char) :
    (cs.map CodePoint.char).flatMap (reprPoint U quote) = cs.flatMap (reprChar U quote) := by
  rw [List.flatMap_map]
  rfl

theorem reprStr_of (U : Unicode) (s : String) : reprStr U (PyStr.of s) = Value.reprStr U s := by
  have quoted : ∀ c : Char, (PyStr.of s).contains (.char c) = s.toList.contains c := by
    intro c
    rw [Bool.eq_iff_iff, List.contains_iff_mem, List.contains_iff_mem, PyStr.of]
    simp
  rw [reprStr, Value.reprStr, quoted, quoted, PyStr.of, reprPoint_of]

mutual
theorem repr_encode (U : Unicode) : ∀ (w : WireValue) (v : Value), w.encode = some v → w.repr U = v.repr U
  | null, v, encoded | bool _, v, encoded | int _, v, encoded | float _, v, encoded => by
      rw [← Option.some.inj encoded]
      rfl
  | str s, v, encoded => by
      rcases Option.map_eq_some_iff.mp encoded with ⟨text, chars, rfl⟩
      rw [repr, Value.repr, (PyStr.encode_eq_some s text).mp chars, reprStr_of]
  | list xs, v, encoded => by
      rcases Option.map_eq_some_iff.mp encoded with ⟨vs, items, rfl⟩
      rw [repr, Value.repr, reprList_encode U xs vs items]
  | dict items, v, encoded => by
      rcases Option.map_eq_some_iff.mp encoded with ⟨kvs, pairs, rfl⟩
      rw [repr, Value.repr, reprItems_encode U items kvs pairs]
theorem reprList_encode (U : Unicode) : ∀ (xs : List WireValue) (vs : List Value), encodeList xs = some vs →
    reprList U xs = Value.reprList U vs
  | [], vs, encoded => by
      rw [← Option.some.inj encoded]
      rfl
  | x :: xs, vs, encoded => by
      rcases encodeList_cons x xs vs encoded with ⟨v, us, head, tail, rfl⟩
      rw [reprList, Value.reprList, repr_encode U x v head, reprList_encode U xs us tail]
theorem reprItems_encode (U : Unicode) : ∀ (items : List (PyStr × WireValue)) (kvs : List (String × Value)),
    encodeItems items = some kvs → reprItems U items = Value.reprItems U kvs
  | [], kvs, encoded => by
      rw [← Option.some.inj encoded]
      rfl
  | (k, x) :: rest, kvs, encoded => by
      rcases encodeItems_cons k x rest kvs encoded with ⟨key, v, others, rfl, head, tail, rfl⟩
      rw [reprItems, Value.reprItems, reprStr_of, repr_encode U x v head, reprItems_encode U rest others tail]
end

theorem truthy_encode (w : WireValue) (v : Value) (encoded : w.encode = some v) : w.truthy = v.truthy := by
  cases w with
  | str s =>
    rcases Option.map_eq_some_iff.mp encoded with ⟨text, chars, rfl⟩
    rw [truthy, Value.truthy, (PyStr.encode_eq_some s text).mp chars, PyStr.of]
    rw [Bool.eq_iff_iff]
    simp [String.toList_eq_nil_iff]
  | list xs =>
    rcases Option.map_eq_some_iff.mp encoded with ⟨vs, items, rfl⟩
    have length := encodeList_length xs vs items
    rw [truthy, Value.truthy, isEmpty_of_length _ _ length]
  | dict items =>
    rcases Option.map_eq_some_iff.mp encoded with ⟨kvs, pairs, rfl⟩
    have length := encodeItems_length items kvs pairs
    rw [truthy, Value.truthy, isEmpty_of_length _ _ length]
  | null | bool _ | int _ | float _ =>
    rw [← Option.some.inj encoded]
    rfl

theorem text_encode (U : Unicode) (w : WireValue) (v : Value) (encoded : w.encode = some v) :
    w.text U = PyStr.of (v.text U) := by
  have representation := repr_encode U w v encoded
  cases w with
  | str s =>
    rcases Option.map_eq_some_iff.mp encoded with ⟨text, chars, rfl⟩
    exact (PyStr.encode_eq_some s text).mp chars
  | list xs =>
    rcases Option.map_eq_some_iff.mp encoded with ⟨vs, items, rfl⟩
    exact congrArg PyStr.of representation
  | dict items =>
    rcases Option.map_eq_some_iff.mp encoded with ⟨kvs, pairs, rfl⟩
    exact congrArg PyStr.of representation
  | null | bool _ | int _ | float _ =>
    rw [← Option.some.inj encoded]
    rfl

theorem orElse_encode (w x : WireValue) (v y : Value) (encoded : w.encode = some v) (other : x.encode = some y) :
    (w.orElse x).encode = some (v.orElse y) := by
  rw [orElse, Value.orElse, truthy_encode w v encoded]
  split
  · exact encoded
  · exact other

theorem textOr_encode (U : Unicode) (w : WireValue) (v : Value) (encoded : w.encode = some v) :
    w.textOr U = PyStr.of (GenesisAgents.textOr U v) :=
  text_encode U _ _ (orElse_encode w (str []) v (.str "") encoded rfl)

theorem filter_encode (items : List (PyStr × WireValue)) (kvs : List (String × Value))
    (encoded : encodeItems items = some kvs) (key : String) :
    encodeItems (items.filter fun item => item.1 != PyStr.of key) = some (kvs.filter fun kv => kv.1 != key) := by
  induction items generalizing kvs with
  | nil =>
    rw [← Option.some.inj encoded]
    rfl
  | cons item rest later =>
    rcases item with ⟨k, x⟩
    rcases encodeItems_cons k x rest kvs encoded with ⟨name, v, tail, rfl, value, others, rfl⟩
    rw [List.filter_cons, List.filter_cons]
    by_cases same : name = key
    · simp only [same, bne_self_eq_false, Bool.false_eq_true, if_false]
      exact later tail others
    · have apart : (PyStr.of name != PyStr.of key) = true :=
        bne_iff_ne.mpr (mt (PyStr.of_inj name key).mp same)
      rw [if_pos apart, if_pos (bne_iff_ne.mpr same), encodeItems, PyStr.encode_of, value, later tail others]

theorem erase_encode (w : WireValue) (v : Value) (encoded : w.encode = some v) (key : String) :
    (w.erase key).encode = some (v.erase key) := by
  cases w with
  | dict items =>
    rcases Option.map_eq_some_iff.mp encoded with ⟨kvs, pairs, rfl⟩
    exact congrArg (Option.map Value.dict) (filter_encode items kvs pairs key)
  | str s =>
    rcases Option.map_eq_some_iff.mp encoded with ⟨text, chars, rfl⟩
    exact encoded
  | list xs =>
    rcases Option.map_eq_some_iff.mp encoded with ⟨vs, items, rfl⟩
    exact encoded
  | null | bool _ | int _ | float _ =>
    rw [← Option.some.inj encoded]
    rfl

theorem isDict_encode (w : WireValue) (v : Value) (encoded : w.encode = some v) : w.isDict = v.isDict := by
  cases w with
  | str s =>
    rcases Option.map_eq_some_iff.mp encoded with ⟨text, _, rfl⟩
    rfl
  | list xs =>
    rcases Option.map_eq_some_iff.mp encoded with ⟨vs, _, rfl⟩
    rfl
  | dict items =>
    rcases Option.map_eq_some_iff.mp encoded with ⟨kvs, _, rfl⟩
    rfl
  | null | bool _ | int _ | float _ =>
    rw [← Option.some.inj encoded]
    rfl

theorem str_beq (s t : String) : (PyStr.of s == PyStr.of t) = (s == t) := by
  rw [Bool.eq_iff_iff, beq_iff_eq, beq_iff_eq, PyStr.of_inj]

theorem leafEq_encode (w x : WireValue) (v y : Value) (encoded : w.encode = some v) (other : x.encode = some y) :
    leafEq w x = Value.leafEq v y := by
  have shape := encode_shape w v encoded
  have shape' := encode_shape x y other
  cases w <;> cases x <;> dsimp only at shape shape'
  -- two texts are compared as they are encoded; all other pairs are compared as before
  case str.str =>
    rcases shape with ⟨text, rfl, rfl⟩
    rcases shape' with ⟨text', rfl, rfl⟩
    exact str_beq text text'
  all_goals
    first | subst shape | rcases shape with ⟨_, _, rfl⟩
    first | subst shape' | rcases shape' with ⟨_, _, rfl⟩
    rfl

mutual
theorem pyEq_encode : ∀ (w x : WireValue) (v y : Value), w.encode = some v → x.encode = some y →
    w.pyEq x = v.pyEq y
  | list xs, x, v, y, encoded, other => by
      rcases encode_shape _ v encoded with ⟨vs, items, rfl⟩
      have shape := encode_shape x y other
      cases x <;> dsimp only at shape
      case list ys =>
        rcases shape with ⟨us, items', rfl⟩
        rw [pyEq, Value.pyEq, pyEqList_encode xs ys vs us items items']
      all_goals
        first | subst shape | rcases shape with ⟨_, _, rfl⟩
        rw [pyEq, Value.pyEq] <;> nofun
  | dict items, x, v, y, encoded, other => by
      rcases encode_shape _ v encoded with ⟨kvs, pairs, rfl⟩
      have shape := encode_shape x y other
      cases x <;> dsimp only at shape
      case dict others =>
        rcases shape with ⟨kvs', pairs', rfl⟩
        rw [pyEq, Value.pyEq, encodeItems_length items kvs pairs, encodeItems_length others kvs' pairs',
          pyEqItems_encode items others kvs kvs' pairs pairs']
      all_goals
        first | subst shape | rcases shape with ⟨_, _, rfl⟩
        rw [pyEq, Value.pyEq] <;> nofun
  | null, x, v, y, encoded, other | bool _, x, v, y, encoded, other | int _, x, v, y, encoded, other
  | float _, x, v, y, encoded, other => by
      have same := leafEq_encode _ x v y encoded other
      rw [← Option.some.inj encoded] at same ⊢
      rw [pyEq, Value.pyEq, same] <;> nofun
  | str s, x, v, y, encoded, other => by
      have same := leafEq_encode (str s) x v y encoded other
      rcases encode_shape _ v encoded with ⟨text, rfl, rfl⟩
      rw [pyEq, Value.pyEq, same] <;> nofun
theorem pyEqList_encode : ∀ (xs ys : List WireValue) (vs us : List Value), encodeList xs = some vs →
    encodeList ys = some us → pyEqList xs ys = Value.pyEqList vs us
  | [], [], vs, us, encoded, other => by
      rw [← Option.some.inj encoded, ← Option.some.inj other]
      rfl
  | [], y :: ys, vs, us, encoded, other => by
      have length := encodeList_length _ us other
      rw [← Option.some.inj encoded]
      cases us with
      | nil => cases length
      | cons u us => rfl
  | x :: xs, [], vs, us, encoded, other => by
      have length := encodeList_length _ vs encoded
      rw [← Option.some.inj other]
      cases vs with
      | nil => cases length
      | cons v vs => rfl
  | x :: xs, y :: ys, vs, us, encoded, other => by
      rcases encodeList_cons x xs vs encoded with ⟨v, vs, head, tail, rfl⟩
      rcases encodeList_cons y ys us other with ⟨u, us, head', tail', rfl⟩
      rw [pyEqList, Value.pyEqList, pyEq_encode x y v u head head', pyEqList_encode xs ys vs us tail tail']
theorem pyEqItems_encode : ∀ (items others : List (PyStr × WireValue)) (kvs kvs' : List (String × Value)),
    encodeItems items = some kvs → encodeItems others = some kvs' →
      pyEqItems items others = Value.pyEqItems kvs kvs'
  | [], others, kvs, kvs', encoded, _ => by
      rw [← Option.some.inj encoded]
      rfl
  | (k, x) :: rest, others, kvs, kvs', encoded, other => by
      rcases encodeItems_cons k x rest kvs encoded with ⟨name, v, tail, rfl, value, remaining, rfl⟩
      rw [pyEqItems, Value.pyEqItems, pyEqItems_encode rest others tail kvs' remaining other]
      rcases lookup_encode others kvs' other name with ⟨missing, absent⟩ | ⟨w, u, found, known, same⟩
      · rw [missing, absent]
      · rw [found, known]
        dsimp only
        rw [pyEq_encode x w v u value same]
end

end WireValue

end GenesisAgents
