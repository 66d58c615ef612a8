import GenesisAgents.Value
import GenesisAgents.Library.JsonRead

/-! The JSON a Python value stands for, and what its canonical text says about it. -/

namespace GenesisAgents

open Value JsonText

/-! The escapes of `json.dumps` can be read back. -/

def hexValue (c : Char) : Nat := if c.isDigit then c.toNat - 48 else c.toNat - 87

def hexUnit (a b c d : Char) : Nat :=
  hexValue a * 4096 + hexValue b * 256 + hexValue c * 16 + hexValue d

/-- One character of a JSON string; a high surrogate takes the escape after it with it. -/
def readEscaped : List Char → Option (Char × List Char)
  | [] => none
  | '\\' :: 'u' :: a :: b :: c :: d :: rest =>
    let unit := hexUnit a b c d
    if 55296 ≤ unit ∧ unit < 56320 then
      match rest with
      | '\\' :: 'u' :: e :: f :: g :: h :: rest =>
        some (Char.ofNat (65536 + (unit - 55296) * 1024 + (hexUnit e f g h - 56320)), rest)
      | _ => none
    else some (Char.ofNat unit, rest)
  | '\\' :: 'n' :: rest => some ('\n', rest)
  | '\\' :: 'r' :: rest => some ('\r', rest)
  | '\\' :: 't' :: rest => some ('\t', rest)
  | '\\' :: 'b' :: rest => some (Char.ofNat 8, rest)
  | '\\' :: 'f' :: rest => some (Char.ofNat 12, rest)
  | '\\' :: c :: rest => some (c, rest)
  | '"' :: _ => none
  | c :: rest => some (c, rest)

theorem hexValue_hexDigit : ∀ d < 16, hexValue (hexDigit d) = d := by decide

theorem hexUnit_digits (unit : Nat) (small : unit < 65536) :
    ∃ a b c d, hexDigits 4 unit = [a, b, c, d] ∧ hexUnit a b c d = unit := by
  refine ⟨_, _, _, _, rfl, ?_⟩
  have digit (n : Nat) : hexValue (hexDigit (n % 16)) = n % 16 :=
    hexValue_hexDigit _ (Nat.mod_lt _ (by decide))
  simp only [hexUnit, digit]
  omega

theorem char_range (c : Char) : c.toNat < 55296 ∨ 57343 < c.toNat ∧ c.toNat < 1114112 := c.valid

theorem read_unicodeEscape (unit : Nat) (small : unit < 65536)
    (plane : unit < 55296 ∨ 56320 ≤ unit) (rest : List Char) :
    readEscaped (unicodeEscape unit ++ rest) = some (Char.ofNat unit, rest) := by
  rcases hexUnit_digits unit small with ⟨a, b, c, d, digits, value⟩
  have outside : ¬(55296 ≤ unit ∧ unit < 56320) := by omega
  rw [unicodeEscape, digits]
  simp only [List.cons_append, List.nil_append, readEscaped, value, if_neg outside]

theorem read_surrogates (high low : Nat) (isHigh : 55296 ≤ high ∧ high < 56320)
    (small : low < 65536) (rest : List Char) :
    readEscaped (unicodeEscape high ++ (unicodeEscape low ++ rest)) =
      some (Char.ofNat (65536 + (high - 55296) * 1024 + (low - 56320)), rest) := by
  rcases hexUnit_digits high (by omega) with ⟨a, b, c, d, digits, value⟩
  rcases hexUnit_digits low small with ⟨e, f, g, h, digits', value'⟩
  rw [unicodeEscape, unicodeEscape, digits, digits']
  simp only [List.cons_append, List.nil_append, readEscaped, value, value', if_pos isHigh]

theorem read_plain (c : Char) (rest : List Char) (noQuote : c ≠ '"') (noSlash : c ≠ '\\') :
    readEscaped (c :: rest) = some (c, rest) := by
  unfold readEscaped
  split <;> simp_all

def shortEscapes : List (Char × Char) :=
  [('"', '"'), ('\\', '\\'), ('n', '\n'), ('r', '\r'), ('t', '\t'), ('b', Char.ofNat 8),
    ('f', Char.ofNat 12)]

theorem escapeChar_cases (ensureAscii : Bool) (c : Char) (P : List Char → Prop)
    (short : ∀ e, (e, c) ∈ shortEscapes → P ['\\', e])
    (unit : c.toNat < 55296 ∨ 57344 ≤ c.toNat → c.toNat < 65536 → P (unicodeEscape c.toNat))
    (plain : c ≠ '"' → c ≠ '\\' → 32 ≤ c.toNat → P [c])
    (pair : ∀ high low, 55296 ≤ high ∧ high < 56320 → 56320 ≤ low ∧ low < 57344 →
      65536 + (high - 55296) * 1024 + (low - 56320) = c.toNat →
      P (unicodeEscape high ++ unicodeEscape low)) :
    P (escapeChar ensureAscii c) := by
  have same : Char.ofNat c.toNat = c := Char.ofNat_toNat c
  have range := char_range c
  have letter (e d : Char) (listed : (e, d) ∈ shortEscapes) (named : c = d) : P ['\\', e] :=
    short e (named ▸ listed)
  rw [escapeChar]
  by_cases quote : c = '"'
  · rw [if_pos quote]
    exact letter '"' _ (by simp [shortEscapes]) quote
  rw [if_neg quote]
  by_cases slash : c = '\\'
  · rw [if_pos slash]
    exact letter '\\' _ (by simp [shortEscapes]) slash
  rw [if_neg slash]
  by_cases newline : c = '\n'
  · rw [if_pos newline]
    exact letter 'n' _ (by simp [shortEscapes]) newline
  rw [if_neg newline]
  by_cases ret : c = '\r'
  · rw [if_pos ret]
    exact letter 'r' _ (by simp [shortEscapes]) ret
  rw [if_neg ret]
  by_cases tab : c = '\t'
  · rw [if_pos tab]
    exact letter 't' _ (by simp [shortEscapes]) tab
  rw [if_neg tab]
  by_cases back : c.toNat = 8
  · rw [if_pos back]
    exact letter 'b' (Char.ofNat 8) (by simp [shortEscapes]) (by rw [← same, back])
  rw [if_neg back]
  by_cases feed : c.toNat = 12
  · rw [if_pos feed]
    exact letter 'f' (Char.ofNat 12) (by simp [shortEscapes]) (by rw [← same, feed])
  rw [if_neg feed]
  by_cases control : c.toNat < 32
  · rw [if_pos control]
    exact unit (by omega) (by omega)
  rw [if_neg control]
  by_cases ascii : c.toNat < 127 ∨ (!ensureAscii) = true
  · rw [if_pos ascii]
    exact plain quote slash (by omega)
  rw [if_neg ascii]
  by_cases basic : c.toNat < 65536
  · rw [if_pos basic]
    exact unit (by omega) basic
  · rw [if_neg basic]
    exact pair _ _ (by omega) (by omega) (by omega)

theorem readEscaped_escapeChar (ensureAscii : Bool) (c : Char) (rest : List Char) :
    readEscaped (escapeChar ensureAscii c ++ rest) = some (c, rest) := by
  apply escapeChar_cases ensureAscii c fun text => readEscaped (text ++ rest) = some (c, rest)
  · intro e listed
    simp only [shortEscapes, List.mem_cons, Prod.mk.injEq, List.not_mem_nil, or_false] at listed
    rcases listed with ⟨rfl, rfl⟩ | ⟨rfl, rfl⟩ | ⟨rfl, rfl⟩ | ⟨rfl, rfl⟩ | ⟨rfl, rfl⟩ | ⟨rfl, rfl⟩ |
      ⟨rfl, rfl⟩ <;> rfl
  · intro plane small
    rw [read_unicodeEscape c.toNat small (by omega), Char.ofNat_toNat]
  · intro quote slash _
    exact read_plain c rest quote slash
  · intro high low isHigh isLow whole
    rw [List.append_assoc, read_surrogates high low isHigh (by omega), whole, Char.ofNat_toNat]

/-- `ensure_ascii=True` -/
def asciiEscaping : Escaping where
  escape := escapeChar true
  read := readEscaped
  read_escape := readEscaped_escapeChar true
  read_quote _ := rfl

/-- `ensure_ascii=False` -/
def plainEscaping : Escaping where
  escape := escapeChar false
  read := readEscaped
  read_escape := readEscaped_escapeChar false
  read_quote _ := rfl

def canonicalStyle : Style := ⟨asciiEscaping, [], []⟩

/-- A style of `json.dumps` is that of a printer. -/
structure Value.JsonStyle.Prints (style : JsonStyle) (printer : Style) : Prop where
  escape : printer.escaping.escape = escapeChar style.ensureAscii
  item : style.itemSeparator.toList = ',' :: printer.itemPad
  key : style.keySeparator.toList = ':' :: printer.keyPad

theorem compactAscii_prints : JsonStyle.compactAscii.Prints canonicalStyle := ⟨rfl, rfl, rfl⟩

theorem compact_prints : JsonStyle.compact.Prints ⟨plainEscaping, [], []⟩ := ⟨rfl, rfl, rfl⟩

/-! The JSON of a value. What `json.dumps` cannot encode becomes its text: `default=str`. -/

namespace Value

mutual
def toJson : Value → Json
  | null => .word "null".toList
  | bool b => .word (if b then "true" else "false").toList
  | int n => .word (toString n).toList
  | float x => .word (dumpsFloat x).toList
  | str s => .string s.toList
  | list xs => .array (toJsonList xs)
  | dict kvs => .object (toJsonItems kvs)
  | object text => .string text.toList
def toJsonList : List Value → List Json
  | [] => []
  | x :: xs => toJson x :: toJsonList xs
def toJsonItems : List (String × Value) → List (List Char × Json)
  | [] => []
  | (k, v) :: rest => (k.toList, toJson v) :: toJsonItems rest
end

mutual
def defaultStr : Value → Value
  | list xs => list (defaultStrList xs)
  | dict kvs => dict (defaultStrItems kvs)
  | object text => str text
  | v => v
def defaultStrList : List Value → List Value
  | [] => []
  | x :: xs => defaultStr x :: defaultStrList xs
def defaultStrItems : List (String × Value) → List (String × Value)
  | [] => []
  | (k, v) :: rest => (k, defaultStr v) :: defaultStrItems rest
end

/-- The JSON value: members in the order of their keys. -/
def jsonValue (v : Value) : Json := toJson (sortKeys v)

theorem intercalate_cons (sep : List Char) (part : List Char) (parts : List (List Char)) :
    sep.intercalate (part :: parts) = part ++ parts.flatMap (sep ++ ·) := by
  induction parts generalizing part with
  | nil => simp
  | cons next rest later => rw [List.intercalate_cons_cons, later, List.flatMap_cons]; simp

theorem printItems_eq (style : Style) (items : List Json) :
    printItems style items =
      items.flatMap (fun x => ',' :: style.itemPad ++ print style x) ++ [']'] := by
  induction items with
  | nil => rw [printItems]; rfl
  | cons x xs later => rw [printItems, later, List.flatMap_cons]; simp

def member (style : Style) (kv : List Char × Json) : List Char :=
  quote style kv.1 ++ ':' :: style.keyPad ++ print style kv.2

theorem printMembers_eq (style : Style) (members : List (List Char × Json)) :
    printMembers style members =
      members.flatMap (fun kv => ',' :: style.itemPad ++ member style kv) ++ ['\x7d'] := by
  induction members with
  | nil => rw [printMembers]; rfl
  | cons kv rest later =>
    rcases kv with ⟨k, x⟩
    rw [printMembers, later, List.flatMap_cons, member]
    simp

theorem print_array (printer : Style) (items : List Json) :
    print printer (.array items) =
      '[' :: ((',' :: printer.itemPad).intercalate (items.map (print printer)) ++ [']']) := by
  cases items with
  | nil => rw [print]; rfl
  | cons x xs =>
    rw [print, List.map_cons, intercalate_cons, printItems_eq, List.flatMap_map]
    simp

theorem print_object (printer : Style) (members : List (List Char × Json)) :
    print printer (.object members) =
      '\x7b' :: ((',' :: printer.itemPad).intercalate (members.map (member printer)) ++ ['\x7d']) := by
  rcases members with _ | ⟨⟨k, x⟩, rest⟩
  · rw [print]; rfl
  · rw [print, List.map_cons, intercalate_cons, printMembers_eq, List.flatMap_map, member]
    simp

section

variable (style : JsonStyle) (printer : Style)

theorem dumpsStr_toList (prints : style.Prints printer) (s : String) :
    (dumpsStr style s).toList = quote printer s.toList := by
  rw [dumpsStr, String.toList_ofList, quote, prints.escape]

mutual
theorem dumpsWith_print (prints : style.Prints printer) : ∀ v : Value, ∃ text,
    dumpsWith style (defaultStr v) = some text ∧ text.toList = print printer (toJson v)
  | null => ⟨_, rfl, by rw [toJson, print]⟩
  | bool b => ⟨_, rfl, by rw [toJson, print]⟩
  | int n => ⟨_, rfl, by rw [toJson, print]⟩
  | float x => ⟨_, rfl, by rw [toJson, print]⟩
  | str s => ⟨_, rfl, by rw [toJson, print, dumpsStr_toList style printer prints]⟩
  | object s => ⟨_, rfl, by rw [toJson, print, dumpsStr_toList style printer prints]⟩
  | list xs => by
      rcases dumpsList_print prints xs with ⟨parts, encoded, texts⟩
      refine ⟨_, by rw [defaultStr, dumpsWith, encoded]; rfl, ?_⟩
      rw [toJson, print_array, ← texts, ← prints.item, String.toList_append, String.toList_append,
        String.toList_intercalate]
      rfl
  | dict kvs => by
      rcases dumpsItems_print prints kvs with ⟨parts, encoded, texts⟩
      refine ⟨_, by rw [defaultStr, dumpsWith, encoded]; rfl, ?_⟩
      rw [toJson, print_object, ← texts, ← prints.item, String.toList_append, String.toList_append,
        String.toList_intercalate]
      rfl
theorem dumpsList_print (prints : style.Prints printer) : ∀ xs : List Value, ∃ parts,
    dumpsList style (defaultStrList xs) = some parts ∧
      parts.map String.toList = (toJsonList xs).map (print printer)
  | [] => ⟨[], by rw [defaultStrList, dumpsList], rfl⟩
  | x :: xs => by
      rcases dumpsWith_print prints x with ⟨text, encoded, same⟩
      rcases dumpsList_print prints xs with ⟨parts, rest, sames⟩
      refine ⟨text :: parts, by rw [defaultStrList, dumpsList, encoded, rest], ?_⟩
      rw [toJsonList, List.map_cons, List.map_cons, same, sames]
theorem dumpsItems_print (prints : style.Prints printer) : ∀ kvs : List (String × Value), ∃ parts,
    dumpsItems style (defaultStrItems kvs) = some parts ∧
      parts.map String.toList = (toJsonItems kvs).map (member printer)
  | [] => ⟨[], by rw [defaultStrItems, dumpsItems], rfl⟩
  | (k, v) :: rest => by
      rcases dumpsWith_print prints v with ⟨text, encoded, same⟩
      rcases dumpsItems_print prints rest with ⟨parts, others, sames⟩
      refine ⟨_ :: parts, by rw [defaultStrItems, dumpsItems, encoded, others], ?_⟩
      rw [toJsonItems, List.map_cons, List.map_cons, sames, member, String.toList_append,
        String.toList_append, dumpsStr_toList style printer prints, same, prints.key]
end

end

/-! Every word of it is one, without blanks. -/

theorem stops_not_floatChar : (wordStops ++ blanks).all (fun c => !isFloatChar c) = true := by rfl

theorem literal_of_floatChar (c : Char) (plain : isFloatChar c = true) : isLiteralChar c = true := by
  have unlisted : c ∉ wordStops ++ blanks := by
    intro member
    have other := List.all_eq_true.mp stops_not_floatChar c member
    rw [plain] at other
    contradiction
  rw [List.mem_append, not_or] at unlisted
  rw [isLiteralChar, isWordChar, isBlank, List.contains_eq_mem, List.contains_eq_mem,
    decide_eq_false unlisted.1, decide_eq_false unlisted.2]
  rfl

theorem solid_of_chars (text : String)
    (plain : text.toList ≠ [] ∧ ∀ c ∈ text.toList, isFloatChar c = true) :
    (Json.word text.toList).Solid :=
  ⟨plain.1, fun c member => literal_of_floatChar c (plain.2 c member)⟩

theorem dumpsFloat_solid (x : PyFloat) : (Json.word (dumpsFloat x).toList).Solid := by
  rw [dumpsFloat]
  split_ifs
  · exact solid_of_chars _ (floatText_plain _ rfl)
  · exact solid_of_chars _ (floatText_plain _ rfl)
  · exact solid_of_chars _ (floatText_plain _ rfl)
  · exact solid_of_chars _ x.plain

theorem natRepr_chars (n : Nat) : n.repr.toList ≠ [] ∧ ∀ c ∈ n.repr.toList, isFloatChar c = true := by
  rw [Nat.repr_eq_ofList_toDigits, String.toList_ofList]
  constructor
  · exact Nat.toDigits_ne_nil
  · intro c digit
    have decimal := Nat.isDigit_of_mem_toDigits (by decide) (by decide) digit
    simp [isFloatChar, Char.isAlphanum, decimal]

theorem toString_solid (n : Int) : (Json.word (toString n).toList).Solid := by
  cases n with
  | ofNat n => exact solid_of_chars _ (natRepr_chars n)
  | negSucc n =>
    change (Json.word ("-" ++ (n + 1).repr).toList).Solid
    refine solid_of_chars _ ⟨?_, ?_⟩
    · rw [String.toList_append]
      exact List.cons_ne_nil _ _
    · intro c inside
      rw [String.toList_append, List.mem_append] at inside
      rcases inside with sign | digit
      · obtain rfl : c = '-' := by simpa using sign
        decide
      · exact (natRepr_chars (n + 1)).2 c digit

mutual
theorem toJson_solid : ∀ v : Value, (toJson v).Solid
  | null => by rw [toJson]; exact solid_of_chars "null" (floatText_plain "null" rfl)
  | bool true => by rw [toJson]; exact solid_of_chars "true" (floatText_plain "true" rfl)
  | bool false => by rw [toJson]; exact solid_of_chars "false" (floatText_plain "false" rfl)
  | int n => by rw [toJson]; exact toString_solid n
  | float x => by rw [toJson]; exact dumpsFloat_solid x
  | str _ => by rw [toJson]; trivial
  | object _ => by rw [toJson]; trivial
  | list xs => by rw [toJson]; exact toJsonList_solid xs
  | dict kvs => by rw [toJson]; exact toJsonItems_solid kvs
theorem toJsonList_solid : ∀ xs : List Value, SolidItems (toJsonList xs)
  | [] => trivial
  | x :: xs => ⟨toJson_solid x, toJsonList_solid xs⟩
theorem toJsonItems_solid : ∀ kvs : List (String × Value), SolidMembers (toJsonItems kvs)
  | [] => trivial
  | (_, v) :: rest => ⟨toJson_solid v, toJsonItems_solid rest⟩
end

theorem toJson_plain (v : Value) : (toJson v).Plain := plain_of_solid _ (toJson_solid v)

/-- `json.dumps(v, sort_keys=True, separators=(",", ":"), default=str)` -/
def canonicalText (v : Value) : String :=
  (dumpsWith .compactAscii (defaultStr (sortKeys v))).getD ""

/-- The canonical text of a value determines its JSON value. -/
theorem canonicalText_inj (v w : Value) (same : canonicalText v = canonicalText w) :
    jsonValue v = jsonValue w := by
  rcases dumpsWith_print _ _ compactAscii_prints (sortKeys v) with ⟨text, encoded, printed⟩
  rcases dumpsWith_print _ _ compactAscii_prints (sortKeys w) with ⟨text', encoded', printed'⟩
  rw [canonicalText, canonicalText, encoded, encoded', Option.getD_some, Option.getD_some] at same
  rw [same, printed'] at printed
  exact (print_inj canonicalStyle _ _ (toJson_plain _) (toJson_plain _) printed).symm

/-! Values that are JSON need no default. -/

mutual
theorem defaultStr_jsonable : ∀ v : Value, v.jsonable = true → defaultStr v = v
  | null, _ | bool _, _ | int _, _ | float _, _ | str _, _ => rfl
  | object _, encodes => by simp [jsonable] at encodes
  | list xs, encodes => by rw [defaultStr, defaultStrList_jsonable xs (by simpa [jsonable] using encodes)]
  | dict kvs, encodes => by rw [defaultStr, defaultStrItems_jsonable kvs (by simpa [jsonable] using encodes)]
theorem defaultStrList_jsonable : ∀ xs : List Value, jsonableList xs = true → defaultStrList xs = xs
  | [], _ => rfl
  | x :: xs, encodes => by
      rw [jsonableList, Bool.and_eq_true] at encodes
      rw [defaultStrList, defaultStr_jsonable x encodes.1, defaultStrList_jsonable xs encodes.2]
theorem defaultStrItems_jsonable :
    ∀ kvs : List (String × Value), jsonableItems kvs = true → defaultStrItems kvs = kvs
  | [], _ => rfl
  | (k, v) :: rest, encodes => by
      rw [jsonableItems, Bool.and_eq_true] at encodes
      rw [defaultStrItems, defaultStr_jsonable v encodes.1, defaultStrItems_jsonable rest encodes.2]
end

theorem sortKeysList_str (names : List String) :
    sortKeysList (names.map str) = names.map str := by
  induction names with
  | nil => rfl
  | cons name rest later => rw [List.map_cons, sortKeysList, later, sortKeys.eq_3] <;> simp

theorem jsonableList_str (names : List String) : jsonableList (names.map str) = true := by
  induction names with
  | nil => rfl
  | cons name rest later => simpa [jsonableList, jsonable] using later

theorem sortKeys_optionValue (text : Option String) : sortKeys (optionValue text) = optionValue text := by
  cases text <;> rfl

theorem toJson_optionValue_inj (text other : Option String)
    (same : toJson (optionValue text) = toJson (optionValue other)) : text = other := by
  rcases text with _ | s <;> rcases other with _ | t
  · rfl
  · contradiction
  · contradiction
  · exact congrArg some (String.toList_inj.mp (Json.string.inj same))

/-- What `json.dumps` writes in a style is the print of the value. -/
theorem dumps_eq_print (style : JsonStyle) (printer : Style) (prints : style.Prints printer) (v : Value)
    (text : String) (encoded : dumpsWith style v = some text) :
    text.toList = print printer (toJson v) := by
  have encodes : v.jsonable = true := by rw [← dumpsWith_isSome style, encoded, Option.isSome_some]
  obtain ⟨other, encoded', printed⟩ := dumpsWith_print style printer prints v
  rw [defaultStr_jsonable v encodes, encoded] at encoded'
  rw [Option.some.inj encoded', printed]

end Value

end GenesisAgents
