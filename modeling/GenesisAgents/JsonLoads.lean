import GenesisAgents.JsonValue
import GenesisAgents.Library.DecimalText
import Mathlib.Data.List.TakeWhile

/-! `json.loads`, and that it reads back what `json.dumps` wrote of a value that was loaded before. -/

namespace GenesisAgents

open Value JsonText

def hexDigit? (c : Char) : Option Nat :=
  if c.isDigit then some (c.toNat - 48)
  else if 97 ≤ c.toNat ∧ c.toNat ≤ 102 then some (c.toNat - 87)
  else if 65 ≤ c.toNat ∧ c.toNat ≤ 70 then some (c.toNat - 55)
  else none

/-- `_decode_uXXXX` -/
def decodeUnit : List Char → Option (Nat × List Char)
  | a :: b :: c :: d :: rest =>
    match hexDigit? a, hexDigit? b, hexDigit? c, hexDigit? d with
    | some a, some b, some c, some d => some (a * 4096 + b * 256 + c * 16 + d, rest)
    | _, _, _, _ => none
  | _ => none

/-- `BACKSLASH` -/
def backslash : List (Char × Char) :=
  [('"', '"'), ('\\', '\\'), ('/', '/'), ('b', Char.ofNat 8), ('f', Char.ofNat 12), ('n', '\n'),
    ('r', '\r'), ('t', '\t')]

/-- What follows `\u`. Half of a surrogate pair is no character and is refused. -/
def readUnicode (s : List Char) : Option (Char × List Char) :=
  match decodeUnit s with
  | none => none
  | some (unit, rest) =>
    if 55296 ≤ unit ∧ unit < 56320 then
      match rest with
      | '\\' :: 'u' :: rest =>
        match decodeUnit rest with
        | none => none
        | some (low, rest) =>
          if 56320 ≤ low ∧ low < 57344 then
            some (Char.ofNat (65536 + (unit - 55296) * 1024 + (low - 56320)), rest)
          else none
      | _ => none
    else if 56320 ≤ unit ∧ unit < 57344 then none
    else some (Char.ofNat unit, rest)

/-- One character of a string, in the strict mode of `json.loads`. -/
def readStrict : List Char → Option (Char × List Char)
  | [] => none
  | '\\' :: [] => none
  | '\\' :: c :: rest =>
    if c = 'u' then readUnicode rest else (backslash.lookup c).map fun c => (c, rest)
  | c :: rest => if c = '"' ∨ c.toNat < 32 then none else some (c, rest)

theorem hexDigit?_hexDigit : ∀ d < 16, hexDigit? (hexDigit d) = some d := by decide

theorem decodeUnit_digits (unit : Nat) (small : unit < 65536) (rest : List Char) :
    decodeUnit (hexDigits 4 unit ++ rest) = some (unit, rest) := by
  have digit (n : Nat) : hexDigit? (hexDigit (n % 16)) = some (n % 16) :=
    hexDigit?_hexDigit _ (Nat.mod_lt _ (by decide))
  change decodeUnit (hexDigit (unit / 16 / 16 / 16 % 16) :: hexDigit (unit / 16 / 16 % 16) ::
    hexDigit (unit / 16 % 16) :: hexDigit (unit % 16) :: rest) = _
  simp only [decodeUnit, digit, Option.some.injEq, Prod.mk.injEq, and_true]
  omega

theorem readStrict_unicodeEscape (unit : Nat) (rest : List Char) :
    readStrict (unicodeEscape unit ++ rest) = readUnicode (hexDigits 4 unit ++ rest) := rfl

theorem readUnicode_unit (unit : Nat) (small : unit < 65536)
    (plane : unit < 55296 ∨ 57344 ≤ unit) (rest : List Char) :
    readUnicode (hexDigits 4 unit ++ rest) = some (Char.ofNat unit, rest) := by
  have notHigh : ¬(55296 ≤ unit ∧ unit < 56320) := by omega
  have notLow : ¬(56320 ≤ unit ∧ unit < 57344) := by omega
  rw [readUnicode, decodeUnit_digits unit small]
  simp only [if_neg notHigh, if_neg notLow]

theorem readUnicode_pair (high low : Nat) (isHigh : 55296 ≤ high ∧ high < 56320)
    (isLow : 56320 ≤ low ∧ low < 57344) (rest : List Char) :
    readUnicode (hexDigits 4 high ++ (unicodeEscape low ++ rest)) =
      some (Char.ofNat (65536 + (high - 55296) * 1024 + (low - 56320)), rest) := by
  rw [readUnicode, decodeUnit_digits high (by omega)]
  simp only [if_pos isHigh, unicodeEscape, List.cons_append, List.nil_append,
    decodeUnit_digits low (by omega), if_pos isLow]

theorem readStrict_plain (c : Char) (rest : List Char) (noQuote : c ≠ '"') (noSlash : c ≠ '\\')
    (printed : 32 ≤ c.toNat) : readStrict (c :: rest) = some (c, rest) := by
  have kept : ¬(c = '"' ∨ c.toNat < 32) := by
    rintro (quote | control)
    · exact noQuote quote
    · omega
  unfold readStrict
  split
  · rename_i same
    contradiction
  · rename_i same
    exact absurd (List.cons.inj same).1 noSlash
  · rename_i same
    exact absurd (List.cons.inj same).1 noSlash
  · rename_i same
    obtain ⟨rfl, rfl⟩ := List.cons.inj same
    exact if_neg kept

theorem readStrict_escapeChar (ensureAscii : Bool) (c : Char) (rest : List Char) :
    readStrict (escapeChar ensureAscii c ++ rest) = some (c, rest) := by
  apply escapeChar_cases ensureAscii c fun text => readStrict (text ++ rest) = some (c, rest)
  · intro e listed
    simp only [shortEscapes, List.mem_cons, Prod.mk.injEq, List.not_mem_nil, or_false] at listed
    rcases listed with ⟨rfl, rfl⟩ | ⟨rfl, rfl⟩ | ⟨rfl, rfl⟩ | ⟨rfl, rfl⟩ | ⟨rfl, rfl⟩ | ⟨rfl, rfl⟩ |
      ⟨rfl, rfl⟩ <;> rfl
  · intro plane small
    rw [readStrict_unicodeEscape, readUnicode_unit c.toNat small plane, Char.ofNat_toNat]
  · intro quote slash printed
    exact readStrict_plain c rest quote slash printed
  · intro high low isHigh isLow whole
    rw [List.append_assoc, readStrict_unicodeEscape, readUnicode_pair high low isHigh isLow, whole,
      Char.ofNat_toNat]

/-- `ensure_ascii=True`, as `json.loads` reads it -/
def strictEscaping : Escaping where
  escape := escapeChar true
  read := readStrict
  read_escape := readStrict_escapeChar true
  read_quote _ := rfl

/-- `ensure_ascii=False`, as `json.loads` reads it -/
def strictPlainEscaping : Escaping where
  escape := escapeChar false
  read := readStrict
  read_escape := readStrict_escapeChar false
  read_quote _ := rfl

def compactStyle : Style := ⟨strictPlainEscaping, [], []⟩

theorem strictCompact_prints : JsonStyle.compact.Prints compactStyle := ⟨rfl, rfl, rfl⟩

theorem compact_blank : compactStyle.Blank where
  item := List.forall_mem_nil _
  key := List.forall_mem_nil _

def standardStyle : Style := ⟨strictEscaping, [' '], [' ']⟩

theorem standard_prints : JsonStyle.standard.Prints standardStyle := ⟨rfl, rfl, rfl⟩

theorem standard_blank : standardStyle.Blank where
  item := List.forall_mem_singleton.mpr rfl
  key := List.forall_mem_singleton.mpr rfl

/-- How Python reads numbers. -/
structure Numerals where
  /-- `float(text)` -/
  float : String → PyFloat
  /-- `int(text)` -/
  int : String → Option Int

def unsigned : List Char → List Char
  | '-' :: w => w
  | w => w

/-- What is left after `\d+` -/
def afterDigits : List Char → Option (List Char)
  | [] => none
  | c :: w => if c.isDigit then some (w.dropWhile Char.isDigit) else none

/-- What is left after `0|[1-9]\d*` -/
def afterInteger : List Char → Option (List Char)
  | '0' :: w => some w
  | w => afterDigits w

/-- What is left after `(\.\d+)?` -/
def afterFraction : List Char → Option (List Char)
  | '.' :: w => afterDigits w
  | w => some w

/-- What is left after `([eE][-+]?\d+)?` -/
def afterExponent : List Char → Option (List Char)
  | [] => some []
  | c :: w =>
    if c = 'e' ∨ c = 'E' then afterDigits (if w.head? = some '+' then w.tail else unsigned w)
    else some (c :: w)

def isInteger (w : String) : Bool := afterInteger (unsigned w.toList) = some []

/-- `NUMBER_RE`, with a fraction or an exponent -/
def isFloat (w : String) : Bool :=
  !isInteger w && ((afterInteger (unsigned w.toList)).bind fun rest =>
    (afterFraction rest).bind afterExponent) = some []

def integer : List Char → Int
  | '-' :: w => -(Nat.ofDigitChars 10 w 0 : Int)
  | w => Nat.ofDigitChars 10 w 0

def nan : PyFloat := ⟨"nan", none, floatText_plain "nan" rfl⟩

def infinity : PyFloat := ⟨"inf", none, floatText_plain "inf" rfl⟩

def minusInfinity : PyFloat := ⟨"-inf", none, floatText_plain "-inf" rfl⟩

/-- `null`, `true`, `false` and `_CONSTANTS` -/
def constants : List (String × Value) :=
  [("null", null), ("true", bool true), ("false", bool false), ("NaN", float nan),
    ("Infinity", float infinity), ("-Infinity", float minusInfinity)]

/-- `dict(pairs)`: the last value of a key counts. -/
def dictOfPairs (pairs : List (String × Value)) : Value :=
  pairs.foldl (fun d kv => d.insert kv.1 kv.2) (dict [])

section

variable (N : Numerals)

def ofWord (w : String) : Option Value :=
  match constants.lookup w with
  | some v => some v
  | none =>
    if isInteger w then some (int (integer w.toList))
    else if isFloat w then some (float (N.float w))
    else none

mutual
def ofJson : Json → Option Value
  | .word w => ofWord N (String.ofList w)
  | .string cs => some (str (String.ofList cs))
  | .array items => (ofItems items).map list
  | .object members => (ofMembers members).map dictOfPairs
def ofItems : List Json → Option (List Value)
  | [] => some []
  | x :: xs =>
    match ofJson x, ofItems xs with
    | some v, some vs => some (v :: vs)
    | _, _ => none
def ofMembers : List (List Char × Json) → Option (List (String × Value))
  | [] => some []
  | (k, x) :: rest =>
    match ofJson x, ofMembers rest with
    | some v, some kvs => some ((String.ofList k, v) :: kvs)
    | _, _ => none
end

/-- `json.loads`; `none` is its `JSONDecodeError`. -/
def loads (text : String) : Option Value := (readText readStrict text.toList).bind (ofJson N)

end

theorem digits_word (n : Nat) : ∀ c ∈ Nat.toDigits 10 n, c.isDigit = true := by
  rw [← Nat.toList_repr]
  exact DecimalText.repr_digits n

theorem afterDigits_word (w : List Char) (filled : w ≠ [])
    (digits : ∀ c ∈ w, c.isDigit = true) : afterDigits w = some [] := by
  cases w with
  | nil => contradiction
  | cons c w =>
    have rest : w.dropWhile Char.isDigit = [] :=
      List.dropWhile_eq_nil_iff.mpr fun d member => digits d (List.mem_cons_of_mem c member)
    rw [afterDigits, if_pos (digits c List.mem_cons_self), rest]

theorem afterInteger_toDigits (n : Nat) : afterInteger (Nat.toDigits 10 n) = some [] := by
  rcases Nat.eq_zero_or_pos n with rfl | positive
  · rfl
  · obtain ⟨c, rest, starts, nonzero⟩ := DecimalText.toDigits_starts n positive
    have digits := afterDigits_word _ Nat.toDigits_ne_nil (digits_word n)
    rw [starts] at digits ⊢
    unfold afterInteger
    split
    · rename_i same
      exact absurd (List.cons.inj same).1 nonzero
    · exact digits

theorem unsigned_digits (w : List Char) (digits : ∀ c ∈ w, c.isDigit = true) : unsigned w = w := by
  unfold unsigned
  split
  · exact absurd (digits '-' List.mem_cons_self) (by decide)
  · rfl

theorem integer_digits (w : List Char) (digits : ∀ c ∈ w, c.isDigit = true) :
    integer w = Nat.ofDigitChars 10 w 0 := by
  unfold integer
  split
  · exact absurd (digits '-' List.mem_cons_self) (by decide)
  · rfl

theorem toList_toString (n : Int) :
    (toString n).toList = if n < 0 then '-' :: Nat.toDigits 10 n.natAbs else Nat.toDigits 10 n.natAbs := by
  cases n with
  | ofNat n => exact Nat.toList_repr
  | negSucc n =>
    change ("-" ++ (n + 1).repr).toList = _
    rw [String.toList_append, Nat.toList_repr, if_pos (Int.negSucc_lt_zero n)]
    rfl

theorem isInteger_toString (n : Int) : isInteger (toString n) = true := by
  have read := afterInteger_toDigits n.natAbs
  rw [isInteger, toList_toString]
  split
  · simp [unsigned, read]
  · rw [unsigned_digits _ (digits_word n.natAbs), read]
    rfl

theorem integer_toString (n : Int) : integer (toString n).toList = n := by
  rw [toList_toString]
  split
  · rw [integer, Nat.ofDigitChars_ten_toDigits]
    omega
  · rw [integer_digits _ (digits_word n.natAbs), Nat.ofDigitChars_ten_toDigits]
    omega

theorem constant_mem (w : String) (v : Value) (found : constants.lookup w = some v) :
    (w, v) ∈ constants := by
  obtain ⟨front, back, split, -⟩ := List.lookup_eq_some_iff.mp found
  rw [split]
  exact List.mem_append_right front List.mem_cons_self

theorem constant_word (w : String) (v : Value) (found : constants.lookup w = some v) :
    isInteger w = false ∧ isFloat w = false := by
  have apart : ∀ name ∈ constants.map Prod.fst, isInteger name = false ∧ isFloat name = false := by
    decide
  exact apart w (List.mem_map_of_mem (constant_mem w v found))

/-! The values that have been loaded: no key occurs twice, and a float is the one its text reads as. -/

section

variable (N : Numerals)

/-- A float is nan, infinite, or what its own text reads as. -/
def Genuine (x : PyFloat) : Prop :=
  x ∈ [nan, infinity, minusInfinity] ∨ isFloat x.repr = true ∧ N.float x.repr = x

/-- `float(repr(x)) == x`, and the text of a finite float has a fraction or an exponent. -/
structure Numerals.Sound : Prop where
  reads : ∀ w, isFloat w = true → Genuine N (N.float w)

mutual
def Loaded : Value → Prop
  | float x => Genuine N x
  | list xs => LoadedList xs
  | dict kvs => (kvs.map Prod.fst).Nodup ∧ LoadedItems kvs
  | object _ => False
  | _ => True
def LoadedList : List Value → Prop
  | [] => True
  | x :: xs => Loaded x ∧ LoadedList xs
def LoadedItems : List (String × Value) → Prop
  | [] => True
  | (_, v) :: rest => Loaded v ∧ LoadedItems rest
end

/-! What is loaded is written and read back. -/

theorem ofWord_toString (n : Int) : ofWord N (toString n) = some (int n) := by
  have number := isInteger_toString n
  rw [ofWord]
  rcases found : constants.lookup (toString n) with _ | v
  · simp only [if_pos number, integer_toString]
  · rw [(constant_word _ v found).1] at number
    contradiction

theorem ofWord_dumpsFloat (x : PyFloat) (genuine : Genuine N x) :
    ofWord N (dumpsFloat x) = some (float x) := by
  rcases genuine with constant | ⟨number, reads⟩
  · simp only [List.mem_cons, List.not_mem_nil, or_false] at constant
    rcases constant with rfl | rfl | rfl <;> rfl
  · have finite : dumpsFloat x = x.repr := by
      rw [dumpsFloat]
      split_ifs with nan infinite minus
      · rw [nan] at number
        exact absurd number (by decide)
      · rw [infinite] at number
        exact absurd number (by decide)
      · rw [minus] at number
        exact absurd number (by decide)
      · rfl
    rw [finite, ofWord]
    rcases found : constants.lookup x.repr with _ | v
    · have fraction : isInteger x.repr = false := by
        rw [isFloat, Bool.and_eq_true, Bool.not_eq_true'] at number
        exact number.1
      simp only [fraction, Bool.false_eq_true, if_false, if_pos number, reads]
    · rw [(constant_word _ v found).2] at number
      contradiction

theorem insert_new (kvs : List (String × Value)) (k : String) (v : Value)
    (fresh : k ∉ kvs.map Prod.fst) : (dict kvs).insert k v = dict (kvs ++ [(k, v)]) := by
  have absent : ¬(kvs.any fun kv => kv.1 = k) = true := by
    intro present
    obtain ⟨kv, member, same⟩ := List.any_eq_true.mp present
    exact fresh (of_decide_eq_true same ▸ List.mem_map_of_mem member)
  exact if_neg absent

theorem dictOfPairs_distinct (kvs : List (String × Value)) (distinct : (kvs.map Prod.fst).Nodup) :
    dictOfPairs kvs = dict kvs := by
  have appends : ∀ rest done : List (String × Value), ((done ++ rest).map Prod.fst).Nodup →
      rest.foldl (fun d kv => d.insert kv.1 kv.2) (dict done) = dict (done ++ rest) := by
    intro rest
    induction rest with
    | nil =>
      intro done _
      rw [List.foldl_nil, List.append_nil]
    | cons kv rest later =>
      intro done distinct
      have fresh : kv.1 ∉ done.map Prod.fst := by
        rw [List.map_append, List.map_cons] at distinct
        exact fun member => (List.nodup_append.mp distinct).2.2 _ member _ List.mem_cons_self rfl
      rw [List.foldl_cons, insert_new done kv.1 kv.2 fresh, later _ (by simpa using distinct),
        List.append_assoc, List.singleton_append]
  exact appends kvs [] distinct

mutual
theorem ofJson_toJson : ∀ v : Value, Loaded N v → ofJson N (toJson v) = some v
  | null, _ => rfl
  | Value.bool true, _ => rfl
  | Value.bool false, _ => rfl
  | int n, _ => by rw [toJson, ofJson, String.ofList_toList, ofWord_toString]
  | float x, loaded => by rw [toJson, ofJson, String.ofList_toList, ofWord_dumpsFloat N x loaded]
  | str s, _ => by rw [toJson, ofJson, String.ofList_toList]
  | list xs, loaded => by
      rw [toJson, ofJson, ofItems_toJsonList xs loaded]
      rfl
  | dict kvs, loaded => by
      rw [toJson, ofJson, ofMembers_toJsonItems kvs loaded.2, Option.map_some,
        dictOfPairs_distinct kvs loaded.1]
theorem ofItems_toJsonList : ∀ xs : List Value, LoadedList N xs →
    ofItems N (toJsonList xs) = some xs
  | [], _ => rfl
  | x :: xs, loaded => by
      rw [toJsonList, ofItems, ofJson_toJson x loaded.1, ofItems_toJsonList xs loaded.2]
theorem ofMembers_toJsonItems : ∀ kvs : List (String × Value), LoadedItems N kvs →
    ofMembers N (toJsonItems kvs) = some kvs
  | [], _ => rfl
  | (k, v) :: rest, loaded => by
      rw [toJsonItems, ofMembers, ofJson_toJson v loaded.1, ofMembers_toJsonItems rest loaded.2]
      simp
end

theorem loads_print (style : Style) (strict : style.escaping.read = readStrict) (blank : style.Blank) (v : Value)
    (loaded : Loaded N v) (text : String) (printed : text.toList = print style (toJson v)) :
    loads N text = some v := by
  have read := readText_print style blank (toJson v) (toJson_solid v)
  rw [strict, ← printed] at read
  rw [loads, read, Option.bind_some, ofJson_toJson N v loaded]

/-- `json.loads(json.dumps(v, default=str)) == v` for a value that has been loaded before. -/
theorem loads_dumps (v : Value) (loaded : Loaded N v) :
    ∃ text, dumpsWith .standard (defaultStr v) = some text ∧ loads N text = some v := by
  obtain ⟨text, encoded, printed⟩ := dumpsWith_print _ _ standard_prints v
  exact ⟨text, encoded, loads_print N standardStyle rfl standard_blank v loaded text printed⟩

/-- `json.loads(json.dumps(v, separators=(",", ":"), ensure_ascii=False)) == v` -/
theorem loads_compact (v : Value) (loaded : Loaded N v) (text : String)
    (encoded : dumpsWith .compact v = some text) : loads N text = some v :=
  loads_print N compactStyle rfl compact_blank v loaded text
    (dumps_eq_print _ _ strictCompact_prints v text encoded)

/-! What `json.loads` returns has been loaded. -/

theorem loadedItems_iff (kvs : List (String × Value)) :
    LoadedItems N kvs ↔ ∀ kv ∈ kvs, Loaded N kv.2 := by
  induction kvs with
  | nil => simp [LoadedItems]
  | cons kv rest later => rw [LoadedItems, later, List.forall_mem_cons]

theorem insert_loaded (kvs : List (String × Value)) (k : String) (v : Value)
    (loaded : Loaded N (dict kvs)) (value : Loaded N v) : Loaded N ((dict kvs).insert k v) := by
  obtain ⟨distinct, items⟩ := loaded
  rw [loadedItems_iff] at items
  unfold Value.insert
  dsimp only
  split
  · have keys : (kvs.map fun kv => if kv.1 = k then (k, v) else kv).map Prod.fst = kvs.map Prod.fst := by
      rw [List.map_map]
      apply List.map_congr_left
      intro kv _
      rw [Function.comp_apply]
      split
      · rename_i same
        exact same.symm
      · rfl
    refine ⟨keys ▸ distinct, (loadedItems_iff N _).mpr fun kv member => ?_⟩
    obtain ⟨old, among, rfl⟩ := List.mem_map.mp member
    split
    · exact value
    · exact items old among
  · rename_i absent
    constructor
    · rw [List.map_append, List.nodup_append]
      refine ⟨distinct, List.nodup_singleton k, fun name member other same => ?_⟩
      rw [List.mem_singleton.mp same]
      rintro rfl
      obtain ⟨kv, among, named⟩ := List.mem_map.mp member
      exact absent (List.any_eq_true.mpr ⟨kv, among, decide_eq_true named⟩)
    · rw [loadedItems_iff]
      intro kv member
      rcases List.mem_append.mp member with old | new
      · exact items kv old
      · rw [List.mem_singleton.mp new]
        exact value

theorem dictOfPairs_loaded (pairs : List (String × Value)) (loaded : LoadedItems N pairs) :
    Loaded N (dictOfPairs pairs) := by
  have keeps : ∀ (rest : List (String × Value)) (d : Value), LoadedItems N rest →
      d.isDict = true → Loaded N d → Loaded N (rest.foldl (fun d kv => d.insert kv.1 kv.2) d) := by
    intro rest
    induction rest with
    | nil => exact fun _ _ _ holds => holds
    | cons kv rest later =>
      intro d loaded shape holds
      rw [List.foldl_cons]
      apply later _ loaded.2
      · rw [isDict_insert, shape]
      · cases d with
        | dict kvs => exact insert_loaded N kvs kv.1 kv.2 holds loaded.1
        | _ => contradiction
  exact keeps pairs (dict []) loaded rfl ⟨List.nodup_nil, trivial⟩

theorem ofWord_loaded (sound : N.Sound) (w : String) (v : Value) (reads : ofWord N w = some v) :
    Loaded N v := by
  rw [ofWord] at reads
  split at reads
  · rename_i constant found
    obtain rfl := Option.some.inj reads
    have member := List.mem_map_of_mem (f := Prod.snd) (constant_mem w constant found)
    simp only [constants, List.map_cons, List.map_nil, List.mem_cons, List.not_mem_nil,
      or_false] at member
    rcases member with rfl | rfl | rfl | rfl | rfl | rfl <;> simp [Loaded, Genuine]
  · split_ifs at reads with whole fraction
    · obtain rfl := Option.some.inj reads
      trivial
    · obtain rfl := Option.some.inj reads
      exact sound.reads w fraction

mutual
theorem ofJson_loaded (sound : N.Sound) : ∀ (j : Json) (v : Value), ofJson N j = some v → Loaded N v
  | .word w, v, reads => ofWord_loaded N sound _ v reads
  | .string cs, v, reads => by
      obtain rfl := Option.some.inj reads
      trivial
  | .array items, v, reads => by
      obtain ⟨vs, read, rfl⟩ := Option.map_eq_some_iff.mp reads
      exact ofItems_loaded sound items vs read
  | .object members, v, reads => by
      obtain ⟨kvs, read, rfl⟩ := Option.map_eq_some_iff.mp reads
      exact dictOfPairs_loaded N kvs (ofMembers_loaded sound members kvs read)
theorem ofItems_loaded (sound : N.Sound) : ∀ (items : List Json) (vs : List Value),
    ofItems N items = some vs → LoadedList N vs
  | [], vs, reads => by
      obtain rfl := Option.some.inj reads
      trivial
  | x :: xs, vs, reads => by
      rw [ofItems] at reads
      split at reads
      · rename_i head tail
        obtain rfl := Option.some.inj reads
        exact ⟨ofJson_loaded sound x _ head, ofItems_loaded sound xs _ tail⟩
      · contradiction
theorem ofMembers_loaded (sound : N.Sound) : ∀ (members : List (List Char × Json))
    (kvs : List (String × Value)), ofMembers N members = some kvs → LoadedItems N kvs
  | [], kvs, reads => by
      obtain rfl := Option.some.inj reads
      trivial
  | (k, x) :: rest, kvs, reads => by
      rw [ofMembers] at reads
      split at reads
      · rename_i head tail
        obtain rfl := Option.some.inj reads
        exact ⟨ofJson_loaded sound x _ head, ofMembers_loaded sound rest _ tail⟩
      · contradiction
end

theorem loads_loaded (sound : N.Sound) (text : String) (v : Value) (reads : loads N text = some v) :
    Loaded N v := by
  obtain ⟨j, -, read⟩ := Option.bind_eq_some_iff.mp reads
  exact ofJson_loaded N sound j v read

theorem loadedList_iff (xs : List Value) : LoadedList N xs ↔ ∀ x ∈ xs, Loaded N x := by
  induction xs with
  | nil => simp [LoadedList]
  | cons x xs later => rw [LoadedList, later, List.forall_mem_cons]

theorem loaded_get (d : Value) (key : String) (loaded : Loaded N d) : Loaded N (d.get key) := by
  cases d with
  | dict kvs =>
    rcases found : kvs.lookup key with _ | v
    · rw [Value.get, getD, get?_dict, found]
      trivial
    · obtain ⟨front, back, split, -⟩ := List.lookup_eq_some_iff.mp found
      rw [Value.get, getD, get?_dict, found]
      exact (loadedItems_iff N kvs).mp loaded.2 (key, v) (by rw [split]; simp)
  | _ => trivial

end

end GenesisAgents
