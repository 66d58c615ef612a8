import GenesisAgents.JsonValue
import GenesisAgents.SuccessEnvelope
import GenesisAgents.Library.DecimalRounding
import GenesisAgents.Library.Tallies

/-! What the reports of `tools/finance_tool.py` and `tools/billing_tool.py` share: the checks of untyped
fields, the rounding of ratios, canonical JSON under the digit limit of the interpreter, and the
envelopes a report ends in. -/

namespace GenesisAgents.MoneyReports

open Value DecimalRounding

structure Reporting where
  isAlpha : Char → Bool
  isUpper : Char → Bool
  /-- Lower or title case -/
  isLower : Char → Bool
  isDigit : Char → Bool
  /-- The hexadecimal digest of the UTF-8 of a text. -/
  sha256 : String → String
  requestId : String
  generatedAt : String
  observedAt : String

inductive ReportError where
  | typeError | valueError | invalidOperation | overflow
  deriving DecidableEq

/-- `type(exc).__name__` -/
def ReportError.typeName : ReportError → String
  | typeError => "TypeError"
  | valueError => "ValueError"
  | invalidOperation => "InvalidOperation"
  | overflow => "Overflow"

/-- `type(v).__name__` -/
def typeName : Value → String
  | null => "NoneType"
  | .bool _ => "bool"
  | int _ => "int"
  | float _ => "float"
  | str _ => "str"
  | list _ => "list"
  | dict _ => "dict"
  | object _ => "object"

def violation (field rule receivedType : String) : Value :=
  dict [("field", str field), ("rule", str rule), ("received_type", str receivedType)]

def flagged (passes : Bool) (field rule : String) (v : Value) : List Value :=
  if passes then [] else [violation field rule (typeName v)]

/-- `_is_int(v) and v >= 0` -/
def isMoney : Value → Bool
  | int n => 0 ≤ n
  | _ => false

/-- `isinstance(v, str) and low <= len(v) <= high` -/
def isText (low high : Nat) : Value → Bool
  | str s => low ≤ s.length && s.length ≤ high
  | _ => false

/-- `v in names`, for a frozenset of texts; a list or a dict is not hashable. -/
def memberOf (names : List String) : Value → Except ReportError Bool
  | str s => .ok (names.contains s)
  | list _ | dict _ => .error .typeError
  | _ => .ok false

section

variable (R : Reporting)

/-- `_valid_currency` -/
def validCurrency : Value → Bool
  | str s => s.length == 3 && s.toList.all R.isAlpha &&
      (s.toList.any R.isUpper && s.toList.all fun c => !R.isLower c)
  | _ => false

/-- `s[low:high].isdigit()`, of a slice that is not empty -/
def digitsAt (low high : Nat) (s : List Char) : Bool := ((s.drop low).take (high - low)).all R.isDigit

def dateText (s : List Char) : Bool :=
  10 ≤ s.length && s.getD 4 ' ' == '-' && s.getD 7 ' ' == '-' && digitsAt R 0 4 s &&
    digitsAt R 5 7 s && digitsAt R 8 10 s

/-- `_valid_date` -/
def validDate : Value → Bool
  | str s => dateText R s.toList
  | _ => false

/-- `_valid_period` -/
def validPeriod : Value → Bool
  | str s =>
    let cs := s.toList
    (cs.length == 7 && cs.getD 4 ' ' == '-' && digitsAt R 0 4 cs && digitsAt R 5 7 cs) ||
      (cs.length == 21 && cs.getD 10 ' ' == '/' && dateText R (cs.take 10) && dateText R (cs.drop 11))
  | _ => false

def checkCurrency (field : String) (reportCurrency v : Value) : List Value :=
  if !validCurrency R v then [violation field "required_iso4217_uppercase_3" (typeName v)]
  else if !pyEq v reportCurrency then [violation field "must_equal_report_currency" "str"]
  else []

end

/-- `v or []`, of a list -/
def elementsOf : Value → List Value
  | list xs => xs
  | _ => []

/-- `for idx, element in enumerate(elements)`: the violations of each element. -/
def checkEach (check : Nat → Value → Except ReportError (List Value)) :
    Nat → List Value → Except ReportError (List Value)
  | _, [] => .ok []
  | idx, element :: rest => do
    let mine ← check idx element
    let others ← checkEach check (idx + 1) rest
    .ok (mine ++ others)

/-! Ratios. The default context of `decimal` has 28 digits and exponents up to 999999. -/

def precision : Nat := 28
def maxExponent : Nat := 999999

def decimalResult (v : Rat) : Except ReportError Rat :=
  let magnitude := roundDigits precision |v|
  if 10 ^ (maxExponent + 1) ≤ magnitude then .error .overflow
  else .ok (if v < 0 then -magnitude else magnitude)

/-- `int(value.quantize(Decimal("1"), rounding=ROUND_HALF_EVEN))` -/
def quantize (v : Rat) : Except ReportError Int :=
  let magnitude := halfEven |v|
  if 10 ^ precision ≤ magnitude then .error .invalidOperation
  else .ok (if v < 0 then -magnitude else magnitude)

/-- `_basis_points` -/
def basisPoints (numerator denominator : Int) : Except ReportError Int :=
  if denominator = 0 then .ok 0 else do
    let product ← decimalResult ((numerator : Rat) * 10000)
    let value ← decimalResult (product / denominator)
    quantize value

/-- `_divide_half_even` -/
def divideHalfEven (numerator denominator : Int) : Except ReportError Int :=
  if denominator = 0 then .ok 0 else do
    let value ← decimalResult ((numerator : Rat) / denominator)
    quantize value

/-! Canonical JSON. `str` of an integer of more than 4300 digits is a `ValueError`. -/

/-- `canonical_json` -/
def canonicalJson (v : Value) : Except ReportError String :=
  if writable v then .ok (canonicalText v) else .error .valueError

section

variable (R : Reporting)

/-- `sha256_hex` of an object -/
def sha256Hex (v : Value) : Except ReportError String := (canonicalJson v).map R.sha256

/-- `read_evidence`, of one source -/
def readEvidence (source queryFingerprint : String) (rowCount : Nat) (checksum : String) :
    List (String × Value) :=
  [("source", str source), ("unverified", bool (source == "caller_supplied")),
   ("query_fingerprint", str queryFingerprint), ("row_count", int rowCount),
   ("checksum", str checksum), ("as_of", str R.observedAt), ("observed_at", str R.observedAt)]

/-- `success(...)` of a `READ_ONLY` tool -/
def readSuccess (tool : String) (result evidence : List (String × Value)) : Value :=
  Envelope.stripBanned (dict [("ok", bool true), ("tool", str tool),
    ("contract_version", str Envelope.contractVersion), ("request_id", str R.requestId),
    ("mode", str "READ_ONLY"), ("idempotency_key", null), ("duplicate", bool false),
    ("result", dict result), ("evidence", dict evidence)])

theorem success_readSuccess (tool : String) (result : List (String × Value))
    (item : String × Value) (evidence : List (String × Value)) :
    Envelope.success R.requestId tool "READ_ONLY" (Envelope.ofValue (dict result))
      (Envelope.ofValue (dict (item :: evidence))) none false =
        .ok (Envelope.ofValue (readSuccess R tool result (item :: evidence))) := by
  rw [readSuccess, Envelope.ofValue_strip]
  rfl

def validationFailed (tool : String) (violations : List Value) : Value :=
  Envelope.failure R.requestId tool .validationFailed "Input violated the tool contract."
    [("violations", list violations)] none

def fromException (tool : String) (error : ReportError) : Value :=
  Envelope.failure R.requestId tool .upstreamTimeout
    (tool ++ " failed with an unhandled internal error.") [("exception_type", str error.typeName)]
    (some 2000)

/-- The `try` around a report. -/
def caught (tool : String) (body : Except ReportError Value) : Value :=
  match body with
  | .ok envelope => envelope
  | .error error => fromException R tool error

/-- `envelope["ok"] is True` -/
def Accepted (envelope : Value) : Prop := envelope.get? "ok" = some (bool true)

/-- `envelope["ok"] is True`, computed -/
def isAccepted (envelope : Value) : Bool :=
  match envelope.get? "ok" with
  | some (.bool b) => b
  | _ => false

theorem isAccepted_iff (envelope : Value) : isAccepted envelope = true ↔ Accepted envelope := by
  unfold isAccepted Accepted
  split
  · rename_i b read
    rw [read]
    simp
  · rename_i other
    exact ⟨fun same => absurd same Bool.false_ne_true, fun read => absurd read (other true)⟩

instance (envelope : Value) : Decidable (Accepted envelope) :=
  decidable_of_iff _ (isAccepted_iff envelope)

theorem validationFailed_refuses (tool : String) (violations : List Value) :
    ¬Accepted (validationFailed R tool violations) :=
  fun accepted => absurd (bool.inj (Option.some.inj accepted)) Bool.false_ne_true

theorem fromException_refuses (tool : String) (error : ReportError) :
    ¬Accepted (fromException R tool error) :=
  fun accepted => absurd (bool.inj (Option.some.inj accepted)) Bool.false_ne_true

theorem caught_accepted (tool : String) (body : Except ReportError Value)
    (accepted : Accepted (caught R tool body)) : body = .ok (caught R tool body) := by
  cases body with
  | ok envelope => rfl
  | error error => exact absurd accepted (fromException_refuses R tool error)

theorem sha256Hex_ok (v : Value) (checksum : String) (hashed : sha256Hex R v = .ok checksum) :
    checksum = R.sha256 (canonicalText v) := by
  unfold sha256Hex canonicalJson at hashed
  split at hashed
  · exact (Except.ok.inj hashed).symm
  · contradiction

end

theorem flagged_eq_nil (passes : Bool) (field rule : String) (v : Value) :
    flagged passes field rule v = [] ↔ passes = true := by
  cases passes <;> simp [flagged]

theorem isText_str (low high : Nat) (v : Value) (valid : isText low high v = true) : ∃ s, v = str s := by
  cases v with
  | str s => exact ⟨s, rfl⟩
  | _ => exact absurd valid Bool.false_ne_true

theorem validCurrency_str (R : Reporting) (v : Value) (valid : validCurrency R v = true) :
    ∃ s, v = str s := by
  cases v with
  | str s => exact ⟨s, rfl⟩
  | _ => exact absurd valid Bool.false_ne_true

theorem validDate_str (R : Reporting) (v : Value) (valid : validDate R v = true) : ∃ s, v = str s := by
  cases v with
  | str s => exact ⟨s, rfl⟩
  | _ => exact absurd valid Bool.false_ne_true

theorem validPeriod_str (R : Reporting) (v : Value) (valid : validPeriod R v = true) :
    ∃ s, v = str s := by
  cases v with
  | str s => exact ⟨s, rfl⟩
  | _ => exact absurd valid Bool.false_ne_true

/-- A list or a dict: not hashable. -/
def isContainer : Value → Bool
  | list _ | dict _ => true
  | _ => false

theorem memberOf_ok_iff (names : List String) (v : Value) :
    (∃ known, memberOf names v = .ok known) ↔ isContainer v = false := by
  cases v <;> simp [memberOf, isContainer]

theorem memberOf_true_iff (names : List String) (v : Value) :
    memberOf names v = .ok true ↔ ∃ s ∈ names, v = str s := by
  cases v <;> simp [memberOf]

theorem checkCurrency_eq_nil (R : Reporting) (field : String) (reportCurrency v : Value) :
    checkCurrency R field reportCurrency v = [] ↔
      validCurrency R v = true ∧ pyEq v reportCurrency = true := by
  unfold checkCurrency
  split
  · rename_i invalid
    simp at invalid
    simp [invalid]
  · rename_i valid
    simp at valid
    split
    · rename_i other
      simp at other
      simp [other]
    · rename_i same
      simp at same
      simp [valid, same]

section

variable (check : Nat → Value → Except ReportError (List Value))

theorem checkEach_ok_iff (returns : Value → Prop)
    (each : ∀ idx element, (∃ violations, check idx element = .ok violations) ↔ returns element)
    (elements : List Value) : ∀ idx, (∃ violations, checkEach check idx elements = .ok violations) ↔
      ∀ element ∈ elements, returns element := by
  induction elements with
  | nil => exact fun _ => iff_of_true ⟨[], rfl⟩ fun element member => absurd member List.not_mem_nil
  | cons element rest later =>
    intro idx
    rw [List.forall_mem_cons, ← each idx, ← later (idx + 1)]
    constructor
    · rintro ⟨violations, checked⟩
      rcases except_bind_ok _ _ _ checked with ⟨mine, first, tail⟩
      rcases except_bind_ok _ _ _ tail with ⟨others, second, -⟩
      exact ⟨⟨mine, first⟩, others, second⟩
    · rintro ⟨⟨mine, first⟩, others, second⟩
      exact ⟨mine ++ others, by simp only [checkEach, bind, Except.bind, first, second]⟩

theorem checkEach_clean_iff (valid : Value → Prop)
    (each : ∀ idx element, check idx element = .ok [] ↔ valid element)
    (elements : List Value) : ∀ idx, checkEach check idx elements = .ok [] ↔
      ∀ element ∈ elements, valid element := by
  induction elements with
  | nil => exact fun _ => iff_of_true rfl fun element member => absurd member List.not_mem_nil
  | cons element rest later =>
    intro idx
    rw [List.forall_mem_cons, ← each idx, ← later (idx + 1)]
    constructor
    · intro checked
      rcases except_bind_ok _ _ _ checked with ⟨mine, first, tail⟩
      rcases except_bind_ok _ _ _ tail with ⟨others, second, joined⟩
      obtain ⟨rfl, rfl⟩ := List.append_eq_nil_iff.mp (Except.ok.inj joined)
      exact ⟨first, second⟩
    · rintro ⟨first, second⟩
      simp only [checkEach, bind, Except.bind, first, second]
      rfl

end

def bannedKey (k : String) : Bool := Envelope.bannedResponseKeys.contains k

theorem stripItems_table {α : Type} (value : α → Value)
    (kept : ∀ n, Envelope.stripBanned (value n) = value n) (table : List (String × α)) :
    Envelope.stripItems (table.map fun entry => (entry.1, value entry.2)) =
      (table.filter fun entry => !bannedKey entry.1).map fun entry => (entry.1, value entry.2) := by
  induction table with
  | nil => rfl
  | cons entry rest later =>
    rw [List.map_cons, Envelope.stripItems, List.filter_cons, later, kept, ← bannedKey]
    cases bannedKey entry.1 <;> rfl

theorem stripList_kept (xs : List Value) (kept : ∀ x ∈ xs, Envelope.stripBanned x = x) :
    Envelope.stripList xs = xs := by
  induction xs with
  | nil => rfl
  | cons x rest later =>
    rw [List.forall_mem_cons] at kept
    rw [Envelope.stripList, kept.1, later kept.2]

theorem stripItems_kept (kvs : List (String × Value))
    (kept : ∀ entry ∈ kvs, bannedKey entry.1 = false ∧ Envelope.stripBanned entry.2 = entry.2) :
    Envelope.stripItems kvs = kvs := by
  induction kvs with
  | nil => rfl
  | cons entry rest later =>
    rw [List.forall_mem_cons] at kept
    rw [Envelope.stripItems, ← bannedKey, kept.1.1, kept.1.2, later kept.2]
    rfl

theorem mem_stripItems (kvs : List (String × Value)) (k : String) (v : Value)
    (left : (k, v) ∈ Envelope.stripItems kvs) :
    ∃ w, (k, w) ∈ kvs ∧ v = Envelope.stripBanned w := by
  induction kvs with
  | nil => exact absurd left List.not_mem_nil
  | cons entry rest later =>
    rw [Envelope.stripItems] at left
    split at left
    · rcases later left with ⟨w, there, stripped⟩
      exact ⟨w, List.mem_cons_of_mem entry there, stripped⟩
    · rcases List.mem_cons.mp left with here | there
      · obtain ⟨rfl, rfl⟩ := Prod.mk.inj here
        exact ⟨entry.2, List.mem_cons_self, rfl⟩
      · rcases later there with ⟨w, there, stripped⟩
        exact ⟨w, List.mem_cons_of_mem entry there, stripped⟩

theorem toJsonItems_eq_map (kvs : List (String × Value)) :
    toJsonItems kvs = kvs.map fun entry => (entry.1.toList, toJson entry.2) := by
  induction kvs with
  | nil => rfl
  | cons entry rest later => rw [toJsonItems, List.map_cons, later]

theorem sortKeysItems_eq_map (kvs : List (String × Value)) :
    sortKeysItems kvs = kvs.map fun entry => (entry.1, sortKeys entry.2) := by
  induction kvs with
  | nil => rfl
  | cons entry rest later => rw [sortKeysItems, List.map_cons, later]

theorem jsonValue_dict (kvs : List (String × Value)) : ∃ members, jsonValue (dict kvs) = .object members ∧
    members.Perm (kvs.map fun entry => (entry.1.toList, jsonValue entry.2)) := by
  refine ⟨_, by rw [jsonValue, sortKeys, toJson], ?_⟩
  rw [toJsonItems_eq_map, sortKeysItems_eq_map]
  refine ((List.perm_insertionSort _ _).map _).trans ?_
  rw [List.map_map]
  exact List.Perm.refl _

theorem jsonValue_dict_perm (kvs kvs' : List (String × Value))
    (same : jsonValue (dict kvs) = jsonValue (dict kvs')) :
    (kvs.map fun entry => (entry.1.toList, jsonValue entry.2)).Perm
      (kvs'.map fun entry => (entry.1.toList, jsonValue entry.2)) := by
  rcases jsonValue_dict kvs with ⟨members, object, order⟩
  rcases jsonValue_dict kvs' with ⟨members', object', order'⟩
  rw [object, object'] at same
  exact order.symm.trans (JsonText.Json.object.inj same ▸ order')

/-- Stripping a dict changes its JSON, when that changes one of its tables. -/
theorem jsonValue_stripItems (kvs : List (String × Value)) (k : String) (v : Value)
    (there : (k, v) ∈ kvs) (single : ∀ w, (k, w) ∈ kvs → w = v)
    (same : jsonValue (dict (Envelope.stripItems kvs)) = jsonValue (dict kvs)) :
    jsonValue (Envelope.stripBanned v) = jsonValue v := by
  have member : (k.toList, jsonValue v) ∈
      kvs.map fun entry => (entry.1.toList, jsonValue entry.2) := List.mem_map_of_mem there
  rw [← (jsonValue_dict_perm _ _ same).mem_iff] at member
  rcases List.mem_map.mp member with ⟨⟨k', v'⟩, left, equal⟩
  obtain ⟨name, json⟩ := Prod.mk.inj equal
  rw [String.toList_inj] at name
  subst name
  rcases mem_stripItems kvs k' v' left with ⟨w, present, rfl⟩
  rw [← single w present]
  exact json.trans (congrArg jsonValue (single w present).symm)

theorem jsonValue_table {α : Type} (value : α → Value) (table : List (String × α))
    (same : jsonValue (dict ((table.filter fun entry => !bannedKey entry.1).map
        fun entry => (entry.1, value entry.2))) =
      jsonValue (dict (table.map fun entry => (entry.1, value entry.2)))) :
    ∀ entry ∈ table, bannedKey entry.1 = false := by
  have lengths := (jsonValue_dict_perm _ _ same).length_eq
  simp only [List.length_map] at lengths
  intro entry member
  simpa using List.length_filter_eq_length_iff.mp lengths entry member

/-! A reporter with ASCII tables, whose hash is the text. -/

def sampleReporting : Reporting where
  isAlpha c := c.isAlpha
  isUpper c := c.isUpper
  isLower c := c.isLower
  isDigit c := c.isDigit
  sha256 text := text
  requestId := "r-1"
  generatedAt := "2024-03-01T00:00:00Z"
  observedAt := "2024-03-01T00:00:00Z"

end GenesisAgents.MoneyReports
