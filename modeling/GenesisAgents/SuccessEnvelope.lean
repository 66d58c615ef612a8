import GenesisAgents.Envelope

/-! `success` and `failure` of `tools/_envelope.py` on any Python values: beside dicts and lists there
are tuples, which `_strip_banned` does not enter, and the keys of a dict need not be texts. -/

namespace GenesisAgents.Envelope

inductive Key where
  | str (s : String)
  | other (text : String)
  deriving DecidableEq

inductive Obj where
  | null
  | bool (b : Bool)
  | int (n : Int)
  | float (x : PyFloat)
  | str (s : String)
  | list (xs : List Obj)
  | tuple (xs : List Obj)
  | dict (items : List (Key × Obj))
  /-- Anything else. -/
  | object (text : String)

def Key.banned : Key → Bool
  | .str s => bannedResponseKeys.contains s
  | .other _ => false

namespace Obj

/-- `d.get(key)`; `none` when the key is missing. -/
def get? : Obj → String → Option Obj
  | dict items, key => items.lookup (.str key)
  | _, _ => none

mutual
/-- `_strip_banned` -/
def strip : Obj → Obj
  | dict items => dict (stripEntries items)
  | list xs => list (stripAll xs)
  | v => v
def stripAll : List Obj → List Obj
  | [] => []
  | x :: xs => strip x :: stripAll xs
def stripEntries : List (Key × Obj) → List (Key × Obj)
  | [] => []
  | (k, v) :: rest => if k.banned then stripEntries rest else (k, strip v) :: stripEntries rest
end

mutual
def clean : Obj → Bool
  | dict items => cleanEntries items
  | list xs => cleanAll xs
  | tuple xs => cleanAll xs
  | _ => true
def cleanAll : List Obj → Bool
  | [] => true
  | x :: xs => clean x && cleanAll xs
def cleanEntries : List (Key × Obj) → Bool
  | [] => true
  | (k, v) :: rest => !k.banned && clean v && cleanEntries rest
end

mutual
/-- A tuple that is not below a banned key is clean. -/
def tuplesClean : Obj → Bool
  | dict items => tuplesCleanEntries items
  | list xs => tuplesCleanAll xs
  | tuple xs => cleanAll xs
  | _ => true
def tuplesCleanAll : List Obj → Bool
  | [] => true
  | x :: xs => tuplesClean x && tuplesCleanAll xs
def tuplesCleanEntries : List (Key × Obj) → Bool
  | [] => true
  | (k, v) :: rest => (k.banned || tuplesClean v) && tuplesCleanEntries rest
end

end Obj

open Obj

def modes : List String := ["READ_ONLY", "PROPOSE_ONLY", "APPROVAL_REQUIRED"]

/-- The `ValueError`s of `success`. -/
inductive Unproven where
  | unknownMode (mode : String)
  | missingEvidence (tool : String)
  | resultNotObject (tool : String)
  | readbackMissing (tool : String)

def Unproven.message (U : Value.Unicode) : Unproven → String
  | unknownMode mode => "unknown mode: " ++ Value.reprStr U mode
  | missingEvidence tool => tool ++ ": ok=true requires a non-empty evidence object " ++
      "(FINANCE-TOOL-CONTRACTS.md Section 5.3 rule 4)"
  | resultNotObject tool => tool ++ ": result must be an object"
  | readbackMissing tool =>
      tool ++ ": ok=true from an APPROVAL_REQUIRED tool requires readback_matches=true"

/-- A text or `None` -/
def optionalStr (s : Option String) : Obj := (s.map Obj.str).getD .null

def successFields (requestId tool mode : String) (result evidence : List (Key × Obj))
    (idempotencyKey : Option String) (duplicate : Bool) : List (Key × Obj) :=
  [(.str "ok", .bool true), (.str "tool", .str tool),
    (.str "contract_version", .str contractVersion), (.str "request_id", .str requestId),
    (.str "mode", .str mode), (.str "idempotency_key", optionalStr idempotencyKey),
    (.str "duplicate", .bool duplicate), (.str "result", .dict result),
    (.str "evidence", .dict evidence)]

/-- `evidence.get("readback_matches") is True` -/
def readbackMatches (evidence : List (Key × Obj)) : Bool :=
  match (dict evidence).get? "readback_matches" with
  | some (.bool true) => true
  | _ => false

/-- `success(...)`; `requestId` is the fresh uuid. -/
def success (requestId tool mode : String) (result evidence : Obj) (idempotencyKey : Option String)
    (duplicate : Bool) : Except Unproven Obj :=
  if !modes.contains mode then .error (.unknownMode mode)
  else match evidence with
    | .dict (item :: evidence) =>
      match result with
      | .dict result =>
        if mode = "APPROVAL_REQUIRED" ∧ !readbackMatches (item :: evidence) then
          .error (.readbackMissing tool)
        else .ok (strip (dict (successFields requestId tool mode result (item :: evidence)
          idempotencyKey duplicate)))
      | _ => .error (.resultNotObject tool)
    | _ => .error (.missingEvidence tool)

def failureFields (requestId tool : String) (code : Code) (message : String)
    (detail : List (Key × Obj)) (retryAfterMs : Option Int) : List (Key × Obj) :=
  let hint := if code.retryable then retryAfterMs else none
  [(.str "ok", .bool false), (.str "tool", .str tool),
    (.str "contract_version", .str contractVersion), (.str "request_id", .str requestId),
    (.str "error", .dict [(.str "code", .str code.name), (.str "retryable", .bool code.retryable),
      (.str "message", .str message), (.str "detail", .dict detail),
      (.str "retry_after_ms", (hint.map Obj.int).getD .null)])]

/-- `failure(...)`, with any values in its detail -/
def failureObject (requestId tool : String) (code : Code) (message : String)
    (detail : List (Key × Obj)) (retryAfterMs : Option Int) : Obj :=
  strip (dict (failureFields requestId tool code message detail retryAfterMs))

/-- The structural guarantees of the module, of one envelope. -/
structure Truthful (envelope : Obj) : Prop where
  clean : envelope.clean = true
  exactlyOne : (envelope.get? "result").isSome ≠ (envelope.get? "error").isSome
  evidence : envelope.get? "ok" = some (.bool true) →
    ∃ items, envelope.get? "evidence" = some (.dict items) ∧ items ≠ []
  readback : envelope.get? "ok" = some (.bool true) →
    envelope.get? "mode" = some (.str "APPROVAL_REQUIRED") →
      ∃ items, envelope.get? "evidence" = some (.dict items) ∧ readbackMatches items = true

/-! What is left of a value is clean exactly when its tuples were. -/

mutual
theorem clean_strip : ∀ v : Obj, v.strip.clean = v.tuplesClean
  | dict items => by
    rw [strip, clean, tuplesClean]
    exact cleanEntries_strip items
  | list xs => by
    rw [strip, clean, tuplesClean]
    exact cleanAll_strip xs
  | tuple _ | null | .bool _ | int _ | float _ | str _ | object _ => by simp [strip, clean, tuplesClean]
theorem cleanAll_strip : ∀ xs : List Obj, cleanAll (stripAll xs) = tuplesCleanAll xs
  | [] => rfl
  | x :: xs => by rw [stripAll, cleanAll, tuplesCleanAll, clean_strip x, cleanAll_strip xs]
theorem cleanEntries_strip :
    ∀ items : List (Key × Obj), cleanEntries (stripEntries items) = tuplesCleanEntries items
  | [] => rfl
  | (k, v) :: rest => by
    rw [stripEntries, tuplesCleanEntries]
    split
    · rename_i banned
      rw [banned, cleanEntries_strip rest]
      rfl
    · rename_i allowed
      rw [cleanEntries, clean_strip v, cleanEntries_strip rest, eq_false_of_ne_true allowed]
      rfl
end


theorem lookup_strip (items : List (Key × Obj)) (key : String) (allowed : key ∉ bannedResponseKeys) :
    (strip (dict items)).get? key = ((dict items).get? key).map strip := by
  rw [strip, Obj.get?, Obj.get?]
  induction items with
  | nil => rfl
  | cons entry rest later =>
    obtain ⟨k, v⟩ := entry
    rw [stripEntries]
    split
    · rename_i banned
      have other : (Key.str key == k) = false := by
        apply beq_false_of_ne
        rintro rfl
        exact allowed (by simpa [Key.banned] using banned)
      rw [later, List.lookup_cons, other]
    · rw [List.lookup_cons, List.lookup_cons]
      split
      · rfl
      · exact later

theorem strip_eq_nil (items : List (Key × Obj)) :
    stripEntries items = [] ↔ ∀ entry ∈ items, entry.1.banned = true := by
  induction items with
  | nil => simp [stripEntries]
  | cons entry rest later =>
    obtain ⟨k, v⟩ := entry
    rw [stripEntries, List.forall_mem_cons]
    split
    · rename_i banned
      rw [later, and_iff_right banned]
    · rename_i allowed
      exact iff_of_false (List.cons_ne_nil _ _) fun every => allowed every.1

theorem readback_strip (items : List (Key × Obj)) (matched : readbackMatches items = true) :
    readbackMatches (stripEntries items) = true := by
  have look := lookup_strip items "readback_matches" (by decide)
  rw [strip] at look
  rw [readbackMatches] at matched ⊢
  rw [look]
  split at matched
  · rename_i there
    rw [there]
    rfl
  · contradiction

/-! What a stripped envelope guarantees. -/

theorem tuplesClean_success (requestId tool mode : String) (result evidence : List (Key × Obj))
    (idempotencyKey : Option String) (duplicate : Bool) :
    (dict (successFields requestId tool mode result evidence idempotencyKey duplicate)).tuplesClean =
      ((dict result).tuplesClean && (dict evidence).tuplesClean) := by
  cases idempotencyKey <;>
    simp [successFields, optionalStr, tuplesClean, tuplesCleanEntries, Key.banned, bannedResponseKeys]

theorem tuplesClean_failure (requestId tool : String) (code : Code) (message : String)
    (detail : List (Key × Obj)) (retryAfterMs : Option Int) :
    (dict (failureFields requestId tool code message detail retryAfterMs)).tuplesClean =
      (dict detail).tuplesClean := by
  cases retryAfterMs <;> cases code <;>
    simp [failureFields, tuplesClean, tuplesCleanEntries, Key.banned, bannedResponseKeys, Code.retryable]

def Strippable (v : Obj) : Prop := v.tuplesClean = true

theorem success_spec (requestId tool mode : String) (result evidence : Obj)
    (idempotencyKey : Option String) (duplicate : Bool) (envelope : Obj)
    (succeeds : success requestId tool mode result evidence idempotencyKey duplicate = .ok envelope) :
    ∃ results items, result = .dict results ∧ evidence = .dict items ∧
      (mode = "APPROVAL_REQUIRED" → readbackMatches items = true) ∧
      envelope = strip (dict (successFields requestId tool mode results items idempotencyKey
        duplicate)) := by
  unfold success at succeeds
  split at succeeds
  · contradiction
  split at succeeds
  · rename_i item rest
    split at succeeds
    · rename_i results
      split at succeeds
      · contradiction
      · rename_i proven
        refine ⟨results, item :: rest, rfl, rfl, fun approval => ?_, (Except.ok.inj succeeds).symm⟩
        by_contra missing
        exact proven ⟨approval, by simpa using missing⟩
    · contradiction
  · contradiction

/-- A success is truthful exactly when its tuples carry no banned key and some key of its evidence is
not banned. -/
theorem success_truthful (requestId tool mode : String) (results items : List (Key × Obj))
    (idempotencyKey : Option String) (duplicate : Bool)
    (proven : mode = "APPROVAL_REQUIRED" → readbackMatches items = true) :
    Truthful (strip (dict (successFields requestId tool mode results items idempotencyKey duplicate))) ↔
      Strippable (.dict results) ∧ Strippable (.dict items) ∧
        ∃ entry ∈ items, entry.1.banned = false := by
  let fields := successFields requestId tool mode results items idempotencyKey duplicate
  have stripped : (strip (dict fields)).clean =
      ((dict results).tuplesClean && (dict items).tuplesClean) := by
    rw [clean_strip, tuplesClean_success]
  have evidence : (strip (dict fields)).get? "evidence" = some (dict (stripEntries items)) := by
    rw [lookup_strip fields "evidence" (by decide)]
    exact congrArg some (by rw [strip])
  have kept : stripEntries items ≠ [] ↔ ∃ entry ∈ items, entry.1.banned = false := by
    rw [ne_eq, strip_eq_nil]
    push Not
    simp only [Bool.not_eq_true]
  constructor
  · rintro ⟨clean, -, someEvidence, -⟩
    rw [stripped, Bool.and_eq_true] at clean
    obtain ⟨shown, there, nonempty⟩ := someEvidence rfl
    obtain rfl := Obj.dict.inj (Option.some.inj (evidence.symm.trans there))
    exact ⟨clean.1, clean.2, kept.mp nonempty⟩
  · rintro ⟨result, evidences, allowed⟩
    refine ⟨?_, ?_, fun _ => ⟨_, evidence, kept.mpr allowed⟩, fun _ approval => ⟨_, evidence, ?_⟩⟩
    · rw [stripped, Bool.and_eq_true]
      exact ⟨result, evidences⟩
    · rw [lookup_strip fields "result" (by decide), lookup_strip fields "error" (by decide)]
      exact Bool.false_ne_true.symm
    · rw [lookup_strip fields "mode" (by decide)] at approval
      exact readback_strip items (proven (Obj.str.inj (Option.some.inj approval)))

/-- A failure is truthful exactly when the tuples of its detail carry no banned key. -/
theorem failure_truthful (requestId tool : String) (code : Code) (message : String)
    (detail : List (Key × Obj)) (retryAfterMs : Option Int) :
    Truthful (failureObject requestId tool code message detail retryAfterMs) ↔
      Strippable (dict detail) := by
  let fields := failureFields requestId tool code message detail retryAfterMs
  have stripped : (strip (dict fields)).clean = (dict detail).tuplesClean := by
    rw [clean_strip, tuplesClean_failure]
  have refused : (strip (dict fields)).get? "ok" ≠ some (.bool true) := by
    rw [lookup_strip fields "ok" (by decide)]
    exact fun same => absurd (Obj.bool.inj (Option.some.inj same)) Bool.false_ne_true
  constructor
  · exact fun truthful => stripped.symm.trans truthful.clean
  · intro strippable
    change Truthful (strip (dict fields))
    refine ⟨stripped.trans strippable, ?_, fun ok => absurd ok refused, fun ok => absurd ok refused⟩
    rw [lookup_strip fields "result" (by decide), lookup_strip fields "error" (by decide)]
    exact Bool.false_ne_true

/-- Every envelope, of `success` and of `failure`, and what makes it truthful. -/
theorem envelopes_truthful_iff (requestId tool : String) :
    (∀ mode result evidence idempotencyKey duplicate envelope,
      success requestId tool mode result evidence idempotencyKey duplicate = .ok envelope →
        (Truthful envelope ↔ Strippable result ∧ Strippable evidence ∧
          ∃ items, evidence = .dict items ∧ ∃ entry ∈ items, entry.1.banned = false)) ∧
      ∀ code message detail retryAfterMs,
        Truthful (failureObject requestId tool code message detail retryAfterMs) ↔
          Strippable (dict detail) := by
  refine ⟨?_, failure_truthful requestId tool⟩
  intro mode result evidence idempotencyKey duplicate envelope succeeds
  obtain ⟨results, items, rfl, rfl, proven, rfl⟩ :=
    success_spec requestId tool mode result evidence idempotencyKey duplicate envelope succeeds
  rw [success_truthful requestId tool mode results items idempotencyKey duplicate proven]
  simp only [Obj.dict.injEq, exists_eq_left']

/-! JSON values are objects, and their envelopes are these. -/

mutual
def ofValue : Value → Obj
  | .null => .null
  | .bool b => .bool b
  | .int n => .int n
  | .float x => .float x
  | .str s => .str s
  | .list xs => .list (ofList xs)
  | .dict kvs => .dict (ofItems kvs)
  | .object text => .object text
def ofList : List Value → List Obj
  | [] => []
  | x :: xs => ofValue x :: ofList xs
def ofItems : List (String × Value) → List (Key × Obj)
  | [] => []
  | (k, v) :: rest => (.str k, ofValue v) :: ofItems rest
end

mutual
theorem ofValue_strip : ∀ v : Value, ofValue (stripBanned v) = (ofValue v).strip
  | .dict kvs => by rw [stripBanned, ofValue, ofValue, strip, ofItems_strip kvs]
  | .list xs => by rw [stripBanned, ofValue, ofValue, strip, ofList_strip xs]
  | .null | .bool _ | .int _ | .float _ | .str _ | .object _ => by simp [stripBanned, ofValue, strip]
theorem ofList_strip : ∀ xs : List Value, ofList (stripList xs) = stripAll (ofList xs)
  | [] => rfl
  | x :: xs => by rw [stripList, ofList, ofList, stripAll, ofValue_strip x, ofList_strip xs]
theorem ofItems_strip :
    ∀ kvs : List (String × Value), ofItems (stripItems kvs) = stripEntries (ofItems kvs)
  | [] => rfl
  | (k, v) :: rest => by
    rw [stripItems, ofItems, stripEntries, Key.banned]
    split
    · exact ofItems_strip rest
    · rw [ofItems, ofValue_strip v, ofItems_strip rest]
end

mutual
theorem ofValue_tuplesClean : ∀ v : Value, (ofValue v).tuplesClean = true
  | .dict kvs => by
    rw [ofValue, tuplesClean]
    exact ofItems_tuplesClean kvs
  | .list xs => by
    rw [ofValue, tuplesClean]
    exact ofList_tuplesClean xs
  | .null | .bool _ | .int _ | .float _ | .str _ | .object _ => by simp [ofValue, tuplesClean]
theorem ofList_tuplesClean : ∀ xs : List Value, tuplesCleanAll (ofList xs) = true
  | [] => rfl
  | x :: xs => by rw [ofList, tuplesCleanAll, ofValue_tuplesClean x, ofList_tuplesClean xs, Bool.and_self]
theorem ofItems_tuplesClean : ∀ kvs : List (String × Value), tuplesCleanEntries (ofItems kvs) = true
  | [] => rfl
  | (k, v) :: rest => by
    rw [ofItems, tuplesCleanEntries, ofValue_tuplesClean v, ofItems_tuplesClean rest, Bool.or_true,
      Bool.and_self]
end

/-! A note for evidence, and a note in a tuple. -/

theorem noted_evidence_untruthful :
    ¬∀ requestId tool mode result evidence idempotencyKey duplicate envelope,
      success requestId tool mode result evidence idempotencyKey duplicate = .ok envelope →
        Truthful envelope := by
  intro truthful
  have noted := truthful "r-1" "ledger_read" "READ_ONLY" (.dict [])
    (.dict [(.str "note", .str "not connected")]) none false _ rfl
  obtain ⟨items, there, nonempty⟩ := noted.evidence rfl
  exact nonempty (Obj.dict.inj (Option.some.inj there)).symm

theorem evidenced_success_truthful :
    Truthful (strip (dict (successFields "r-1" "ledger_read" "READ_ONLY" []
      [(.str "source", .str "ledger")] none false))) := by
  apply ((envelopes_truthful_iff "r-1" "ledger_read").1 "READ_ONLY" (.dict [])
    (.dict [(.str "source", .str "ledger")]) none false _ rfl).mpr
  exact ⟨rfl, rfl, _, rfl, (.str "source", .str "ledger"), List.mem_singleton_self _, rfl⟩

end GenesisAgents.Envelope
