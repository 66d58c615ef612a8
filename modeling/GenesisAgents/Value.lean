import Mathlib.Data.Rat.Defs
import Mathlib.Data.List.Sort

/-! Python values as the gateway passes them around: parsed JSON, tool results and call arguments. -/

namespace GenesisAgents

def isFloatChar (c : Char) : Bool := c.isAlphanum || c == '.' || c == '+' || c == '-'

theorem floatText_plain (text : String)
    (checked : (!text.toList.isEmpty && text.toList.all isFloatChar) = true) :
    text.toList ≠ [] ∧ ∀ c ∈ text.toList, isFloatChar c = true := by
  simpa using checked

theorem zero_plain : "0.0".toList ≠ [] ∧ ∀ c ∈ "0.0".toList, isFloatChar c = true :=
  floatText_plain "0.0" rfl

theorem one_plain : "1.0".toList ≠ [] ∧ ∀ c ∈ "1.0".toList, isFloatChar c = true :=
  floatText_plain "1.0" rfl

/-- A Python float, carried as its `repr` and, unless it is nan or infinite, its exact value. -/
structure PyFloat where
  repr : String
  exact : Option Rat
  plain : repr.toList ≠ [] ∧ ∀ c ∈ repr.toList, isFloatChar c = true
  deriving DecidableEq, Repr

/-- JSON values; `object` is any other Python object, which `json.dumps` refuses. -/
inductive Value where
  | null
  | bool (b : Bool)
  | int (n : Int)
  | float (x : PyFloat)
  | str (s : String)
  | list (xs : List Value)
  | dict (items : List (String × Value))
  | object (text : String)
  deriving Repr, Inhabited

theorem except_bind_ok {ε α β : Type} (action : Except ε α) (next : α → Except ε β) (b : β)
    (done : (action >>= next) = .ok b) : ∃ a, action = .ok a ∧ next a = .ok b := by
  cases action with
  | error failure => contradiction
  | ok a => exact ⟨a, rfl, done⟩

namespace Value

/-- `bool(v)` -/
def truthy : Value → Bool
  | null => false
  | bool b => b
  | int n => n != 0
  | float x => x.exact != some 0
  | str s => s != ""
  | list xs => !xs.isEmpty
  | dict items => !items.isEmpty
  | object _ => true

/-- `a or b` -/
def orElse (a b : Value) : Value := if a.truthy then a else b

/-- `d.get(key)`, on a value that is a dict; `none` is Python's `None` default. -/
def get? : Value → String → Option Value
  | dict items, key => items.lookup key
  | _, _ => none

/-- `d.get(key, default)` -/
def getD (d : Value) (key : String) (default : Value) : Value := (d.get? key).getD default

/-- `d.get(key)` as a value: a missing key reads as `None`. -/
def get (d : Value) (key : String) : Value := d.getD key null

def isDict : Value → Bool
  | dict _ => true
  | _ => false

/-- The items of a dict; `dict(v or {})` on anything the gateway calls it with. -/
def items : Value → List (String × Value)
  | dict kvs => kvs
  | _ => []

/-- `d.pop(key, None)` without its result -/
def erase (d : Value) (key : String) : Value :=
  match d with
  | dict kvs => dict (kvs.filter fun kv => kv.1 != key)
  | v => v

/-- `d[key] = v`: an existing key keeps its place, a new one goes last. -/
def insert (d : Value) (key : String) (v : Value) : Value :=
  match d with
  | dict kvs =>
    if kvs.any fun kv => kv.1 = key then dict (kvs.map fun kv => if kv.1 = key then (key, v) else kv)
    else dict (kvs ++ [(key, v)])
  | other => other

/-- The exact number behind a value that Python compares as one; a bool counts as 0 or 1. -/
def number? : Value → Option Rat
  | bool b => some (if b then 1 else 0)
  | int n => some n
  | float x => x.exact
  | _ => none

/-- Equality of two values neither of which is a container. `json.loads` yields one shared nan
object, and containers take identical elements as equal, so nan equals itself here. -/
def leafEq : Value → Value → Bool
  | null, null => true
  | str s, str t => s == t
  | float x, float y => if x.exact.isSome then x.exact == y.exact else x.repr == y.repr
  | object s, object t => s == t
  | a, b => a.number?.isSome && a.number? == b.number?

mutual
/-- Python's `==`: numbers compare by value across types, dicts without regard to key order. -/
def pyEq : Value → Value → Bool
  | list xs, b => match b with
    | list ys => pyEqList xs ys
    | _ => false
  | dict kvs, b => match b with
    | dict kvs' => kvs.length == kvs'.length && pyEqItems kvs kvs'
    | _ => false
  | a, b => leafEq a b
def pyEqList : List Value → List Value → Bool
  | [], [] => true
  | x :: xs, y :: ys => pyEq x y && pyEqList xs ys
  | _, _ => false
def pyEqItems : List (String × Value) → List (String × Value) → Bool
  | [], _ => true
  | (k, v) :: rest, kvs' => (match kvs'.lookup k with
      | some w => pyEq v w
      | none => false) && pyEqItems rest kvs'
end

mutual
/-- Does `json.dumps` know the types of the value? -/
def jsonable : Value → Bool
  | list xs => jsonableList xs
  | dict kvs => jsonableItems kvs
  | object _ => false
  | _ => true
def jsonableList : List Value → Bool
  | [] => true
  | x :: xs => jsonable x && jsonableList xs
def jsonableItems : List (String × Value) → Bool
  | [] => true
  | (_, v) :: rest => jsonable v && jsonableItems rest
end

/-- `str` of an integer of more digits is a `ValueError`. -/
def maxStrDigits : Nat := 4300

mutual
def writable : Value → Bool
  | int n => n.natAbs < Nat.pow 10 maxStrDigits
  | list xs => writableList xs
  | dict kvs => writableItems kvs
  | _ => true
def writableList : List Value → Bool
  | [] => true
  | x :: xs => writable x && writableList xs
def writableItems : List (String × Value) → Bool
  | [] => true
  | (_, v) :: rest => writable v && writableItems rest
end

/-- Does `json.dumps` accept the value? -/
def dumpable (v : Value) : Bool := v.jsonable && v.writable

/-- `int(v)`; `ofText` reads a text, and `none` is an error. -/
def toInt (ofText : String → Option Int) : Value → Option Int
  | bool b => some (if b then 1 else 0)
  | int n => some n
  | float x => x.exact.map fun q => q.num.tdiv q.den
  | str s => ofText s
  | _ => none

/-! `str(v)`. Which characters `repr` escapes is a fact of the interpreter's Unicode tables. -/

structure Unicode where
  /-- `str.lower` -/
  lower : String → String
  /-- `str.isprintable` of one character outside ASCII -/
  printable : Char → Bool

def hexDigit (n : Nat) : Char := "0123456789abcdef".toList.getD n '0'

/-- The lowest `width` hexadecimal digits of `n`. -/
def hexDigits : Nat → Nat → List Char
  | 0, _ => []
  | width + 1, n => hexDigits width (n / 16) ++ [hexDigit (n % 16)]

def reprChar (U : Unicode) (quote c : Char) : List Char :=
  if c = quote ∨ c = '\\' then ['\\', c]
  else if c = '\n' then ['\\', 'n']
  else if c = '\r' then ['\\', 'r']
  else if c = '\t' then ['\\', 't']
  else if 32 ≤ c.toNat ∧ c.toNat < 127 then [c]
  else if 128 ≤ c.toNat ∧ U.printable c then [c]
  else if c.toNat < 256 then ['\\', 'x'] ++ hexDigits 2 c.toNat
  else if c.toNat < 65536 then ['\\', 'u'] ++ hexDigits 4 c.toNat
  else ['\\', 'U'] ++ hexDigits 8 c.toNat

def apostrophe : Char := Char.ofNat 39

def reprStr (U : Unicode) (s : String) : String :=
  let quote := if s.toList.contains apostrophe && !s.toList.contains '"' then '"' else apostrophe
  String.ofList (quote :: s.toList.flatMap (reprChar U quote) ++ [quote])

mutual
def repr (U : Unicode) : Value → String
  | null => "None"
  | bool b => if b then "True" else "False"
  | int n => toString n
  | float x => x.repr
  | str s => reprStr U s
  | list xs => "[" ++ String.intercalate ", " (reprList U xs) ++ "]"
  | dict kvs => "\x7b" ++ String.intercalate ", " (reprItems U kvs) ++ "\x7d"
  | object text => text
def reprList (U : Unicode) : List Value → List String
  | [] => []
  | x :: xs => repr U x :: reprList U xs
def reprItems (U : Unicode) : List (String × Value) → List String
  | [] => []
  | (k, v) :: rest => (reprStr U k ++ ": " ++ repr U v) :: reprItems U rest
end

/-- `str(v)` -/
def text (U : Unicode) : Value → String
  | str s => s
  | v => repr U v

/-- `str.isspace` of one character -/
def isSpace (c : Char) : Bool :=
  let n := c.toNat
  (9 ≤ n && n ≤ 13) || (28 ≤ n && n ≤ 32) || n == 133 || n == 160 || n == 5760 ||
    (8192 ≤ n && n ≤ 8202) || n == 8232 || n == 8233 || n == 8239 || n == 8287 || n == 12288

/-- `s.strip()` -/
def strip (s : String) : String :=
  String.ofList (((s.toList.dropWhile isSpace).reverse.dropWhile isSpace).reverse)

/-! `json.dumps` -/

/-- The options the repository passes to `json.dumps`. -/
structure JsonStyle where
  itemSeparator : String
  keySeparator : String
  ensureAscii : Bool

def JsonStyle.standard : JsonStyle := ⟨", ", ": ", true⟩

/-- `separators=(",", ":"), ensure_ascii=False` -/
def JsonStyle.compact : JsonStyle := ⟨",", ":", false⟩

/-- `separators=(",", ":")` -/
def JsonStyle.compactAscii : JsonStyle := ⟨",", ":", true⟩

/-- `\uXXXX` for one UTF-16 unit. -/
def unicodeEscape (unit : Nat) : List Char := ['\\', 'u'] ++ hexDigits 4 unit

def escapeChar (ensureAscii : Bool) (c : Char) : List Char :=
  if c = '"' then ['\\', '"']
  else if c = '\\' then ['\\', '\\']
  else if c = '\n' then ['\\', 'n']
  else if c = '\r' then ['\\', 'r']
  else if c = '\t' then ['\\', 't']
  else if c.toNat = 8 then ['\\', 'b']
  else if c.toNat = 12 then ['\\', 'f']
  else if c.toNat < 32 then unicodeEscape c.toNat
  else if c.toNat < 127 ∨ !ensureAscii then [c]
  else if c.toNat < 65536 then unicodeEscape c.toNat
  -- outside the basic plane: a surrogate pair
  else unicodeEscape (55296 + (c.toNat - 65536) / 1024) ++
    unicodeEscape (56320 + (c.toNat - 65536) % 1024)

def dumpsStr (style : JsonStyle) (s : String) : String :=
  String.ofList ('"' :: s.toList.flatMap (escapeChar style.ensureAscii) ++ ['"'])

def dumpsFloat (x : PyFloat) : String :=
  if x.repr = "nan" then "NaN" else if x.repr = "inf" then "Infinity"
  else if x.repr = "-inf" then "-Infinity" else x.repr

mutual
/-- `json.dumps(v)` in a style; `none` is the `TypeError` on an object it cannot encode. The limit on digits is
`writable`. -/
def dumpsWith (style : JsonStyle) : Value → Option String
  | null => some "null"
  | bool b => some (if b then "true" else "false")
  | int n => some (toString n)
  | float x => some (dumpsFloat x)
  | str s => some (dumpsStr style s)
  | list xs => (dumpsList style xs).map fun parts =>
      "[" ++ String.intercalate style.itemSeparator parts ++ "]"
  | dict kvs => (dumpsItems style kvs).map fun parts =>
      "\x7b" ++ String.intercalate style.itemSeparator parts ++ "\x7d"
  | object _ => none
def dumpsList (style : JsonStyle) : List Value → Option (List String)
  | [] => some []
  | x :: xs => match dumpsWith style x, dumpsList style xs with
    | some head, some tail => some (head :: tail)
    | _, _ => none
def dumpsItems (style : JsonStyle) : List (String × Value) → Option (List String)
  | [] => some []
  | (k, v) :: rest => match dumpsWith style v, dumpsItems style rest with
    | some head, some tail => some ((dumpsStr style k ++ style.keySeparator ++ head) :: tail)
    | _, _ => none
end

def dumps (v : Value) : Option String := dumpsWith .standard v

mutual
/-- The value with the keys of every dict in order: `sort_keys=True`. -/
def sortKeys : Value → Value
  | list xs => list (sortKeysList xs)
  | dict kvs => dict ((sortKeysItems kvs).insertionSort fun a b => a.1 ≤ b.1)
  | v => v
def sortKeysList : List Value → List Value
  | [] => []
  | x :: xs => sortKeys x :: sortKeysList xs
def sortKeysItems : List (String × Value) → List (String × Value)
  | [] => []
  | (k, v) :: rest => (k, sortKeys v) :: sortKeysItems rest
end

variable (style : JsonStyle)

mutual
theorem dumpsWith_isSome : ∀ v : Value, (v.dumpsWith style).isSome = v.jsonable
  | null | bool _ | int _ | float _ | str _ | object _ => by simp [dumpsWith, jsonable]
  | list xs => by simpa [dumpsWith, jsonable] using dumpsList_isSome xs
  | dict kvs => by simpa [dumpsWith, jsonable] using dumpsItems_isSome kvs
theorem dumpsList_isSome : ∀ xs : List Value, (dumpsList style xs).isSome = jsonableList xs
  | [] => rfl
  | x :: xs => by
      have head := dumpsWith_isSome x
      have tail := dumpsList_isSome xs
      cases first : dumpsWith style x <;> cases rest : dumpsList style xs <;>
        simp_all [dumpsList, jsonableList]
theorem dumpsItems_isSome :
    ∀ kvs : List (String × Value), (dumpsItems style kvs).isSome = jsonableItems kvs
  | [] => rfl
  | (k, v) :: kvs => by
      have head := dumpsWith_isSome v
      have tail := dumpsItems_isSome kvs
      cases first : dumpsWith style v <;> cases rest : dumpsItems style kvs <;>
        simp_all [dumpsItems, jsonableItems]
end

@[simp] theorem get?_dict (kvs : List (String × Value)) (key : String) :
    (dict kvs).get? key = kvs.lookup key := rfl

@[simp] theorem isDict_insert (d : Value) (key : String) (v : Value) :
    (d.insert key v).isDict = d.isDict := by
  cases d with
  | dict kvs =>
    unfold Value.insert
    dsimp only
    split <;> rfl
  | _ => rfl

theorem lookup_map_other (kvs : List (String × Value)) (key other : String) (v : Value)
    (distinct : other ≠ key) :
    (kvs.map fun kv => if kv.1 = key then (key, v) else kv).lookup other = kvs.lookup other := by
  induction kvs with
  | nil => rfl
  | cons kv rest later =>
    obtain ⟨name, w⟩ := kv
    by_cases same : name = key
    · subst same
      simpa [List.lookup_cons, beq_false_of_ne distinct] using later
    · simp [List.lookup_cons, later, same]

theorem lookup_map_self (kvs : List (String × Value)) (key : String) (v : Value)
    (present : kvs.any (fun kv => kv.1 = key) = true) :
    (kvs.map fun kv => if kv.1 = key then (key, v) else kv).lookup key = some v := by
  induction kvs with
  | nil => simp at present
  | cons kv rest later =>
    obtain ⟨name, w⟩ := kv
    by_cases same : name = key
    · simp [same]
    · have further := later (by simpa [same] using present)
      have apart : (key == name) = false := beq_false_of_ne (Ne.symm same)
      simpa [List.lookup_cons, same, apart] using further

theorem get?_insert_other (d : Value) (key other : String) (v : Value) (distinct : other ≠ key) :
    (d.insert key v).get? other = d.get? other := by
  cases d with
  | dict kvs =>
    unfold Value.insert
    dsimp only
    split
    · rw [get?_dict, get?_dict, lookup_map_other kvs key other v distinct]
    · rw [get?_dict, get?_dict, List.lookup_append]
      simp [List.lookup_cons, beq_false_of_ne distinct]
  | _ => rfl

theorem get_insert_other (d : Value) (key other : String) (v : Value) (distinct : other ≠ key) :
    (d.insert key v).get other = d.get other := by
  rw [get, get, getD, getD, get?_insert_other d key other v distinct]

theorem get_erase_other (d : Value) (key other : String) (distinct : other ≠ key) :
    (d.erase key).get other = d.get other := by
  cases d with
  | dict kvs =>
    have same : (kvs.filter fun kv => kv.1 != key).lookup other = kvs.lookup other := by
      induction kvs with
      | nil => rfl
      | cons kv rest later =>
        rcases kv with ⟨name, w⟩
        by_cases named : name = key
        · subst named
          simpa [List.lookup_cons, beq_false_of_ne distinct] using later
        · simp [named, List.lookup_cons, later]
    simp only [erase, get, getD, get?_dict, same]
  | _ => rfl

theorem get?_insert_self (d : Value) (key : String) (v : Value) (shape : d.isDict = true) :
    (d.insert key v).get? key = some v := by
  cases d with
  | dict kvs =>
    unfold Value.insert
    dsimp only
    split
    · rename_i present
      rw [get?_dict, lookup_map_self kvs key v present]
    · rename_i absent
      have missing : kvs.lookup key = none := by
        rw [List.lookup_eq_none_iff]
        intro kv member
        simp only [List.any_eq_true, decide_eq_true_eq, not_exists, not_and] at absent
        exact bne_iff_ne.mpr fun same => absent kv member same.symm
      rw [get?_dict, List.lookup_append, missing]
      simp
  | _ => simp [isDict] at shape

theorem get_insert_self (d : Value) (key : String) (v : Value) (shape : d.isDict = true) :
    (d.insert key v).get key = v := by
  rw [get, getD, get?_insert_self d key v shape, Option.getD_some]

theorem orElse_eq (a b v : Value) (either : a.orElse b = v) (distinct : b ≠ v) : a = v := by
  rw [orElse] at either
  split at either
  · exact either
  · exact absurd either distinct

theorem pyEq_str (v : Value) (text : String) : v.pyEq (str text) = true ↔ v = str text := by
  cases v with
  | float x => simpa [pyEq, leafEq, number?] using Option.isSome_iff_ne_none.mp
  | _ => simp [pyEq, leafEq, number?]

end Value

/-- `list(v or [])` -/
def listOr (v : Value) : Option (List Value) :=
  if v.truthy then
    match v with
    | .list xs => some xs
    | .dict kvs => some (kvs.map fun kv => .str kv.1)
    | .str s => some (s.toList.map fun c => .str c.toString)
    | _ => none
  else some []

theorem listOr_list (xs : List Value) : listOr (.list xs) = some xs := by
  cases xs <;> rfl

/-- `str(v or "")` -/
def textOr (U : Value.Unicode) (v : Value) : String := (v.orElse (.str "")).text U

theorem textOr_str (U : Value.Unicode) (s : String) : textOr U (.str s) = s := by
  rw [textOr, Value.orElse]
  by_cases empty : s = ""
  · simp [Value.truthy, empty, Value.text]
  · simp [Value.truthy, empty, Value.text]

def isSet (s : Option String) : Bool := s.getD "" != ""

/-- A text or `None`, as a value. -/
def optionValue (s : Option String) : Value := (s.map .str).getD .null

/-- `s[:n]` -/
def clip (n : Nat) (s : String) : String := String.ofList (s.toList.take n)

/-- `needle in hay` -/
def isSubstring (needle hay : String) : Bool :=
  hay.toList.tails.any fun tail => needle.toList.isPrefixOf tail

end GenesisAgents
