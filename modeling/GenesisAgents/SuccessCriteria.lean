import GenesisAgents.PrincipalTokens

/-! `_check_success_criteria` of `agent_runtime.py`: what a result has to show before the run counts as
a success. -/

namespace GenesisAgents

open Value

/-! `>` of Python values. -/

/-- Where a number lies among the numbers; nan is nowhere. -/
inductive Magnitude where
  | nowhere
  | below
  | finite (q : Rat)
  | above

def Magnitude.greater : Magnitude → Magnitude → Bool
  | nowhere, _ | _, nowhere => false
  | finite q, finite r => r < q
  | above, above | below, _ => false
  | _, below | above, _ => true
  | finite _, above => false

namespace Value

def magnitude? : Value → Option Magnitude
  | bool b => some (.finite (if b then 1 else 0))
  | int n => some (.finite n)
  | float x =>
    match x.exact with
    | some q => some (.finite q)
    | none => some (if x.repr = "inf" then .above else if x.repr = "-inf" then .below else .nowhere)
  | _ => none

mutual
/-- `a > b`; `none` is the `TypeError` of values without an order. -/
def greater : Value → Value → Option Bool
  | list xs, b => match b with
    | list ys => greaterList xs ys
    | _ => none
  | str s, b => match b with
    | str t => some (t < s)
    | _ => none
  | a, b => match a.magnitude?, b.magnitude? with
    | some m, some n => some (m.greater n)
    | _, _ => none
def greaterList : List Value → List Value → Option Bool
  | [], _ => some false
  | _ :: _, [] => some true
  | x :: xs, y :: ys => if pyEq x y then greaterList xs ys else greater x y
end

end Value

inductive CriteriaError where
  | attributeError | typeError
  /-- What `int(...)` raises. -/
  | notAnInteger

structure CriteriaEval where
  ok : Bool
  failed : List Value

/-- `c.get("type") == name` -/
def typed (name : String) (c : Value) : Bool :=
  match c.get "type" with
  | str s => s == name
  | _ => false

/-- `c.get("config") or {}`, when it is a dict -/
def configOf (c : Value) : Except CriteriaError Value :=
  let config := (c.get "config").orElse (dict [])
  if config.isDict then .ok config else .error .attributeError

/-- `call.get("ok") is True` -/
def succeeded (call : Value) : Bool :=
  match call.get "ok" with
  | .bool b => b
  | _ => false

/-- `successful`, of a trace whose calls can be read -/
def successfulCalls (result : Value) : Except CriteriaError Nat :=
  let trace := (result.get "trace").orElse (dict [])
  if !trace.isDict then .error .attributeError
  else match iterated ((trace.get "tool_calls").orElse (list [])) with
    | none => .error .typeError
    | some calls =>
      if calls.all Value.isDict then .ok (calls.countP succeeded) else .error .attributeError

section

variable (U : Unicode) (N : Numerals)

/-- `int((c.get("config") or {}).get("count", 1))` -/
def minimumCalls (c : Value) : Except CriteriaError Int := do
  let config ← configOf c
  (toInt N.int (config.getD "count" (int 1))).elim (.error .notAnInteger) .ok

def notParseable : String := "response not parseable as JSON"

/-- `for k in keys: if k not in response_obj`. A list or a dict is not hashable. -/
def missingKeys (response : Value) : List Value → List String
  | [] => []
  | list _ :: _ | dict _ :: _ => [notParseable]
  | str s :: rest =>
    if (response.get? s).isSome then missingKeys response rest
    else ("missing key: " ++ s) :: missingKeys response rest
  | k :: rest => ("missing key: " ++ k.text U) :: missingKeys response rest

/-- `json.loads(result.get("response") or "{}")`, which refuses what is no text -/
def parsedResponse (response : Value) : Option Value :=
  match response.orElse (str "\x7b\x7d") with
  | str text => loads N text
  | _ => none

/-- The reasons of `contains_keys`. -/
def keyReasons (response keys : Value) : List String :=
  match parsedResponse N response with
  | none => [notParseable]
  | some (dict kvs) =>
    match iterated keys with
    | none => [notParseable]
    | some names => missingKeys U (dict kvs) names
  | some _ => ["response not a JSON object"]

/-- The reasons of `max_latency_s`. -/
def latencyReasons (result maxS : Value) : Except CriteriaError (List String) :=
  let elapsed := (result.getD "elapsed_s" (int 0)).orElse (int 0)
  match greater elapsed maxS with
  | none => .error .typeError
  | some true => .ok ["elapsed " ++ elapsed.text U ++ "s > " ++ maxS.text U ++ "s"]
  | some false => .ok []

/-- The reasons of `min_successful_tool_calls`. -/
def callReasons (result : Value) (minimum : Int) : Except CriteriaError (List String) := do
  let successful ← successfulCalls result
  if (successful : Int) < minimum then
    .ok ["successful tool calls " ++ toString successful ++ " < " ++ toString minimum]
  else .ok []

/-- Why a result fails a criterion; a type that is not known is passed. -/
def reasons (result c : Value) : Except CriteriaError (List String) := do
  if !c.isDict then .error .attributeError
  else if typed "non_empty" c then
    .ok (if (result.get "response").truthy then [] else ["response is empty"])
  else if typed "contains_keys" c then
    let config ← configOf c
    .ok (keyReasons U N (result.get "response") (config.getD "keys" (list [])))
  else if typed "max_latency_s" c then
    let config ← configOf c
    latencyReasons U result (config.getD "seconds" (int 300))
  else if typed "min_successful_tool_calls" c then
    let minimum ← minimumCalls N c
    callReasons result minimum
  else .ok []

/-- `for c in criteria` -/
def failures (result : Value) : List Value → Except CriteriaError (List Value)
  | [] => .ok []
  | c :: rest => do
    let mine ← reasons U N result c
    let others ← failures result rest
    .ok (mine.map (fun reason => dict [("type", c.get "type"), ("reason", str reason)]) ++ others)

/-- `any(c.get("type") == "min_successful_tool_calls" for c in criteria)` -/
def anyCounts : List Value → Except CriteriaError Bool
  | [] => .ok false
  | c :: rest =>
    if !c.isDict then .error .attributeError
    else if typed "min_successful_tool_calls" c then .ok true
    else anyCounts rest

def nonEmptyCriterion : Value := dict [("type", str "non_empty")]

def injectedCriterion : Value :=
  dict [("type", str "min_successful_tool_calls"), ("config", dict [("count", int 1)])]

/-- `criteria`, after the injection -/
def mergedCriteria (criteria : List Value) (requireToolEvidence : Bool) :
    Except CriteriaError (List Value) := do
  let criteria := if criteria.isEmpty then [nonEmptyCriterion] else criteria
  if requireToolEvidence then
    let supplied ← anyCounts criteria
    .ok (if supplied then criteria else criteria ++ [injectedCriterion])
  else .ok criteria

/-- `_check_success_criteria`; `None` for the criteria reads as the empty list. -/
def checkSuccessCriteria (criteria : List Value) (result : List (String × Value))
    (requireToolEvidence : Bool) : Except CriteriaError CriteriaEval := do
  let merged ← mergedCriteria criteria requireToolEvidence
  let failed ← failures U N (dict result) merged
  .ok { ok := failed.length == 0, failed := failed }

end

def HasKeys (N : Numerals) (response keys : Value) : Prop :=
  ∃ kvs names, parsedResponse N response = some (dict kvs) ∧ iterated keys = some names ∧
    ∀ k ∈ names, ∃ s, k = str s ∧ (kvs.lookup s).isSome = true

/-- The result meets a criterion that does not count tool calls. -/
structure Meets (N : Numerals) (result c : Value) : Prop where
  object : c.isDict = true
  nonEmpty : typed "non_empty" c = true → (result.get "response").truthy = true
  keys : typed "contains_keys" c = true → ∃ config, configOf c = .ok config ∧
    HasKeys N (result.get "response") (config.getD "keys" (list []))
  latency : typed "max_latency_s" c = true → ∃ config, configOf c = .ok config ∧
    greater ((result.getD "elapsed_s" (int 0)).orElse (int 0)) (config.getD "seconds" (int 300)) =
      some false

/-- Tool calls are counted, and every supplied count is satisfied by none. -/
def Waived (N : Numerals) (criteria : List Value) : Prop :=
  (∃ c ∈ criteria, typed "min_successful_tool_calls" c = true) ∧
    ∀ c ∈ criteria, typed "min_successful_tool_calls" c = true →
      ∃ minimum ≤ 0, minimumCalls N c = .ok minimum

/-- The trace of the result holds a tool call whose `ok` is `True`. -/
def SuccessfulCall (result : List (String × Value)) : Prop :=
  ∃ trace calls call, result.lookup "trace" = some (dict trace) ∧
    trace.lookup "tool_calls" = some (list calls) ∧ call ∈ calls ∧ call.get? "ok" = some (bool true)

theorem typed_unique (name other : String) (c : Value) (one : typed name c = true)
    (two : typed other c = true) : name = other := by
  unfold typed at one two
  split at one
  · rename_i s read
    rw [read] at two
    exact (eq_of_beq one).symm.trans (eq_of_beq two)
  · contradiction

theorem typed_object (name : String) (c : Value) (one : typed name c = true) : c.isDict = true := by
  cases c with
  | dict kvs => rfl
  | _ => contradiction

theorem succeeded_iff (call : Value) : succeeded call = true ↔ call.get? "ok" = some (bool true) := by
  unfold succeeded Value.get Value.getD
  cases call.get? "ok" with
  | none => simp
  | some v => cases v <;> simp

theorem iterated_object (v : Value) (elements : List Value) (read : iterated v = some elements)
    (x : Value) (member : x ∈ elements) (object : x.isDict = true) : v = list elements := by
  unfold iterated at read
  split at read
  · rw [Option.some.inj read]
  · rw [← Option.some.inj read] at member
    rcases List.mem_map.mp member with ⟨kv, -, rfl⟩
    contradiction
  · rw [← Option.some.inj read] at member
    rcases List.mem_map.mp member with ⟨c, -, rfl⟩
    contradiction
  · contradiction

theorem lookup_of_get (kvs : List (String × Value)) (key : String) (v : Value)
    (there : (dict kvs).get key = v) (filled : v ≠ null) : kvs.lookup key = some v := by
  rw [Value.get, getD, get?_dict] at there
  rcases found : kvs.lookup key with _ | w
  · rw [found] at there
    exact absurd there.symm filled
  · rw [found] at there
    exact congrArg some there

theorem successfulCalls_pos (result : List (String × Value)) (count : Nat) (positive : 1 ≤ count)
    (counted : successfulCalls (dict result) = .ok count) : SuccessfulCall result := by
  unfold successfulCalls at counted
  dsimp only at counted
  split at counted
  · contradiction
  split at counted
  · contradiction
  rename_i calls read
  split at counted
  · rename_i objects
    have enough : 0 < calls.countP succeeded := by
      rw [Except.ok.inj counted]
      exact positive
    rcases List.countP_pos_iff.mp enough with ⟨call, member, success⟩
    have object : call.isDict = true := List.all_eq_true.mp objects call member
    have read' := iterated_object _ calls read call member object
    have filled : list [] ≠ list calls := fun same => by
      rw [← Value.list.inj same] at member
      contradiction
    have given : (((dict result).get "trace").orElse (dict [])).get "tool_calls" = list calls :=
      orElse_eq _ _ _ read' filled
    rcases shape : ((dict result).get "trace").orElse (dict []) with _ | _ | _ | _ | _ | _ | trace | _
    case dict =>
      rw [shape] at given
      have there := lookup_of_get trace "tool_calls" _ given nofun
      have nonempty : dict [] ≠ dict trace := fun same => by
        rw [← Value.dict.inj same] at there
        contradiction
      have outer : (dict result).get "trace" = dict trace := orElse_eq _ _ _ shape nonempty
      exact ⟨trace, calls, call, lookup_of_get result "trace" _ outer nofun, there, member,
        (succeeded_iff call).mp success⟩
    all_goals
      rw [shape] at given
      contradiction
  · contradiction

section

variable (U : Unicode) (N : Numerals)

theorem missingKeys_nil (kvs : List (String × Value)) (names : List Value) :
    missingKeys U (dict kvs) names = [] ↔ ∀ k ∈ names, ∃ s, k = str s ∧ (kvs.lookup s).isSome = true := by
  induction names with
  | nil => exact iff_of_true rfl fun k member => absurd member List.not_mem_nil
  | cons k rest later =>
    rw [List.forall_mem_cons]
    cases k with
    | str s =>
      rw [missingKeys, get?_dict]
      split
      · rename_i there
        rw [later]
        exact ⟨fun others => ⟨⟨s, rfl, there⟩, others⟩, fun both => both.2⟩
      · rename_i missing
        refine iff_of_false (List.cons_ne_nil _ _) ?_
        rintro ⟨⟨s', same, there⟩, -⟩
        rw [Value.str.inj same] at missing
        exact missing there
    | _ =>
      refine iff_of_false (by simp [missingKeys]) ?_
      rintro ⟨⟨s, same, -⟩, -⟩
      contradiction

theorem keyReasons_nil (response keys : Value) :
    keyReasons U N response keys = [] ↔ HasKeys N response keys := by
  unfold keyReasons HasKeys
  split
  · rename_i unread
    refine iff_of_false (List.cons_ne_nil _ _) ?_
    rintro ⟨kvs, names, parsed, -⟩
    rw [unread] at parsed
    contradiction
  · rename_i kvs parsed
    rcases listed : iterated keys with _ | names
    · refine iff_of_false (List.cons_ne_nil _ _) ?_
      rintro ⟨-, names, -, same, -⟩
      contradiction
    · refine (missingKeys_nil U kvs names).trans ⟨fun each => ⟨kvs, names, parsed, rfl, each⟩, ?_⟩
      rintro ⟨kvs', names', parsed', same, each⟩
      rw [parsed] at parsed'
      rw [Value.dict.inj (Option.some.inj parsed'), Option.some.inj same]
      exact each
  · rename_i v other parsed
    refine iff_of_false (List.cons_ne_nil _ _) ?_
    rintro ⟨kvs, names, parsed', -⟩
    rw [parsed] at parsed'
    exact other kvs (Option.some.inj parsed')

theorem latencyReasons_nil (result maxS : Value) :
    latencyReasons U result maxS = .ok [] ↔
      greater ((result.getD "elapsed_s" (int 0)).orElse (int 0)) maxS = some false := by
  unfold latencyReasons
  dsimp only
  split <;> simp_all

theorem callReasons_nil (result : Value) (minimum : Int) :
    callReasons result minimum = .ok [] ↔
      ∃ successful : Nat, successfulCalls result = .ok successful ∧ minimum ≤ successful := by
  unfold callReasons
  rcases counted : successfulCalls result with raised | successful
  · exact iff_of_false nofun nofun
  · change (if (successful : Int) < minimum then _ else _) = _ ↔ _
    split
    · rename_i few
      refine iff_of_false nofun ?_
      rintro ⟨n, same, enough⟩
      rw [Except.ok.inj same] at few
      omega
    · rename_i enough
      exact iff_of_true rfl ⟨successful, rfl, by omega⟩

theorem reasons_nil (result c : Value) (uncounted : typed "min_successful_tool_calls" c = false) :
    reasons U N result c = .ok [] ↔ Meets N result c := by
  have alone (name other : String) (one : typed name c = true) (distinct : name ≠ other) :
      ¬typed other c = true := fun two => distinct (typed_unique name other c one two)
  unfold reasons
  split
  · rename_i noObject
    refine iff_of_false nofun fun meets => ?_
    rw [meets.object] at noObject
    contradiction
  rename_i object
  have isObject : c.isDict = true := by simpa using object
  split
  · rename_i kind
    have each : Meets N result c ↔ (result.get "response").truthy = true :=
      ⟨fun meets => meets.nonEmpty kind, fun filled => ⟨isObject, fun _ => filled,
        fun two => absurd two (alone _ _ kind (by decide)),
        fun two => absurd two (alone _ _ kind (by decide))⟩⟩
    rw [each]
    split <;> simp_all
  rename_i notEmpty
  split
  · rename_i kind
    have each : Meets N result c ↔ ∃ config, configOf c = .ok config ∧
        HasKeys N (result.get "response") (config.getD "keys" (list [])) :=
      ⟨fun meets => meets.keys kind, fun has => ⟨isObject, fun two => absurd two notEmpty,
        fun _ => has, fun two => absurd two (alone _ _ kind (by decide))⟩⟩
    rw [each]
    rcases configured : configOf c with raised | config
    · exact iff_of_false nofun nofun
    · change Except.ok _ = _ ↔ _
      simp [keyReasons_nil]
  rename_i noKeys
  split
  · rename_i kind
    have each : Meets N result c ↔ ∃ config, configOf c = .ok config ∧
        greater ((result.getD "elapsed_s" (int 0)).orElse (int 0)) (config.getD "seconds" (int 300)) =
          some false :=
      ⟨fun meets => meets.latency kind, fun quick => ⟨isObject, fun two => absurd two notEmpty,
        fun two => absurd two noKeys, fun _ => quick⟩⟩
    rw [each]
    rcases configured : configOf c with raised | config
    · exact iff_of_false nofun nofun
    · change latencyReasons U result _ = _ ↔ _
      rw [latencyReasons_nil]
      simp
  rename_i noLatency
  rw [if_neg (by simp [uncounted])]
  exact iff_of_true rfl ⟨isObject, fun two => absurd two notEmpty, fun two => absurd two noKeys,
    fun two => absurd two noLatency⟩

theorem reasons_counted (result c : Value) (counted : typed "min_successful_tool_calls" c = true) :
    reasons U N result c = .ok [] ↔ c.isDict = true ∧ ∃ minimum successful,
      minimumCalls N c = .ok minimum ∧ successfulCalls result = .ok successful ∧
        minimum ≤ (successful : Int) := by
  have alone (other : String) (distinct : "min_successful_tool_calls" ≠ other) :
      ¬typed other c = true := fun two => distinct (typed_unique _ other c counted two)
  unfold reasons
  rw [if_neg (alone "non_empty" (by decide)), if_neg (alone "contains_keys" (by decide)),
    if_neg (alone "max_latency_s" (by decide)), if_pos counted]
  split
  · rename_i noObject
    refine iff_of_false nofun fun both => ?_
    rw [both.1] at noObject
    contradiction
  · rename_i object
    rw [and_iff_right (by simpa using object)]
    rcases minimum : minimumCalls N c with raised | least
    · exact iff_of_false nofun nofun
    · change callReasons result least = _ ↔ _
      rw [callReasons_nil]
      simp

theorem failures_nil (result : Value) (criteria : List Value) :
    failures U N result criteria = .ok [] ↔ ∀ c ∈ criteria, reasons U N result c = .ok [] := by
  induction criteria with
  | nil => exact iff_of_true rfl fun c member => absurd member List.not_mem_nil
  | cons c rest later =>
    rw [List.forall_mem_cons, ← later, failures]
    rcases mine : reasons U N result c with raised | own
    · exact iff_of_false nofun fun both => nomatch both.1
    rcases others : failures U N result rest with raised | more
    · exact iff_of_false nofun fun both => nomatch both.2
    · change Except.ok _ = _ ↔ _
      simp

theorem check_passes (criteria : List Value) (result : List (String × Value)) (required : Bool) :
    (∃ eval, checkSuccessCriteria U N criteria result required = .ok eval ∧ eval.ok = true) ↔
      ∃ merged, mergedCriteria criteria required = .ok merged ∧
        ∀ c ∈ merged, reasons U N (dict result) c = .ok [] := by
  unfold checkSuccessCriteria
  rcases together : mergedCriteria criteria required with raised | merged
  · exact iff_of_false nofun nofun
  · simp only [Except.ok.injEq, exists_eq_left', ← failures_nil]
    change (∃ eval, (failures U N (dict result) merged >>= fun failed => _) = Except.ok eval ∧ _) ↔ _
    rcases failures U N (dict result) merged with raised | failed
    · exact iff_of_false nofun nofun
    · constructor
      · rintro ⟨eval, same, passed⟩
        rw [← Except.ok.inj same] at passed
        rw [List.length_eq_zero_iff.mp (eq_of_beq passed)]
      · intro none
        rw [Except.ok.inj none]
        exact ⟨_, rfl, rfl⟩

theorem anyCounts_supplied (criteria : List Value) (objects : ∀ c ∈ criteria, c.isDict = true) :
    anyCounts criteria = .ok (criteria.any (typed "min_successful_tool_calls")) := by
  induction criteria with
  | nil => rfl
  | cons c rest later =>
    rw [anyCounts, objects c List.mem_cons_self, List.any_cons]
    rcases typed "min_successful_tool_calls" c with _ | _
    · exact later fun c member => objects c (List.mem_cons_of_mem _ member)
    · rfl

theorem anyCounts_true (criteria : List Value) (supplied : anyCounts criteria = .ok true) :
    ∃ c ∈ criteria, typed "min_successful_tool_calls" c = true := by
  induction criteria with
  | nil => exact absurd (Except.ok.inj supplied) Bool.false_ne_true
  | cons c rest later =>
    rw [anyCounts] at supplied
    split at supplied
    · contradiction
    split at supplied
    · rename_i kind
      exact ⟨c, List.mem_cons_self, kind⟩
    · rcases later supplied with ⟨other, member, kind⟩
      exact ⟨other, List.mem_cons_of_mem _ member, kind⟩

/-- Merged criteria carry the injected count, or they are the supplied ones with a count among them. -/
theorem mergedCriteria_cases (criteria merged : List Value)
    (together : mergedCriteria criteria true = .ok merged) :
    injectedCriterion ∈ merged ∨
      merged = criteria ∧ ∃ c ∈ criteria, typed "min_successful_tool_calls" c = true := by
  unfold mergedCriteria at together
  dsimp only at together
  rw [if_pos rfl] at together
  rcases except_bind_ok _ _ _ together with ⟨supplied, asked, rest⟩
  cases supplied with
  | false =>
    rw [← Except.ok.inj rest]
    exact .inl (List.mem_append_right _ (List.mem_singleton_self _))
  | true =>
    right
    have kept : _ = merged := Except.ok.inj rest
    rw [if_pos rfl] at kept
    rcases empty : criteria.isEmpty with _ | _
    · rw [empty] at kept asked
      exact ⟨kept.symm, anyCounts_true _ asked⟩
    · rw [empty] at asked
      exact absurd (Except.ok.inj asked) Bool.false_ne_true

theorem mergedCriteria_supplied (criteria : List Value) (objects : ∀ c ∈ criteria, c.isDict = true)
    (counts : ∃ c ∈ criteria, typed "min_successful_tool_calls" c = true) :
    mergedCriteria criteria true = .ok criteria := by
  rcases counts with ⟨c, member, kind⟩
  have filled : criteria.isEmpty = false := by
    rw [List.isEmpty_eq_false_iff]
    exact List.ne_nil_of_mem member
  have supplied : criteria.any (typed "min_successful_tool_calls") = true :=
    List.any_eq_true.mpr ⟨c, member, kind⟩
  unfold mergedCriteria
  rw [filled]
  change (anyCounts criteria >>= fun supplied => _) = _
  rw [anyCounts_supplied criteria objects, supplied]
  rfl

def proseResult (response elapsed : Value) : List (String × Value) :=
  [("response", response), ("elapsed_s", elapsed)]

/-- The check guarantees a successful tool call, whatever the result, exactly when the criteria that
count tool calls are not all satisfied by none, or no result meets the others. -/
theorem evidence_guaranteed_iff (criteria : List Value) :
    (∀ result eval, checkSuccessCriteria U N criteria result true = .ok eval → eval.ok = true →
        SuccessfulCall result) ↔
      ¬(Waived N criteria ∧ ∃ result : List (String × Value), ∀ c ∈ criteria,
        typed "min_successful_tool_calls" c = false → Meets N (dict result) c) := by
  constructor
  · rintro guaranteed ⟨⟨counts, waived⟩, result, met⟩
    let prose := proseResult ((dict result).get "response") ((dict result).getD "elapsed_s" (int 0))
    have objects : ∀ c ∈ criteria, c.isDict = true := by
      intro c member
      rcases kind : typed "min_successful_tool_calls" c with _ | _
      · exact (met c member kind).object
      · exact typed_object _ c kind
    have passes : ∃ eval, checkSuccessCriteria U N criteria prose true = .ok eval ∧ eval.ok = true := by
      rw [check_passes]
      refine ⟨criteria, mergedCriteria_supplied criteria objects counts, fun c member => ?_⟩
      rcases kind : typed "min_successful_tool_calls" c with _ | _
      · have meets := met c member kind
        exact (reasons_nil U N _ c kind).mpr ⟨meets.object, meets.nonEmpty, meets.keys, meets.latency⟩
      · rcases waived c member kind with ⟨minimum, none, read⟩
        exact (reasons_counted U N _ c kind).mpr ⟨objects c member, minimum, 0, read, rfl, by simpa using none⟩
    rcases passes with ⟨eval, checked, passed⟩
    rcases guaranteed prose eval checked passed with ⟨trace, calls, call, found, -⟩
    contradiction
  · intro notWaived result eval checked passed
    rcases (check_passes U N criteria result true).mp ⟨eval, checked, passed⟩ with
      ⟨merged, together, every⟩
    rcases mergedCriteria_cases criteria merged together with injected | ⟨rfl, counts⟩
    · rcases (reasons_counted U N _ _ rfl).mp (every _ injected) with
        ⟨-, minimum, successful, read, counted, enough⟩
      have one : (1 : Int) = minimum := Except.ok.inj read
      exact successfulCalls_pos result successful (by omega) counted
    · by_contra missing
      refine notWaived ⟨⟨counts, fun c member kind => ?_⟩, result, fun c member kind =>
        (reasons_nil U N _ c kind).mp (every c member)⟩
      rcases (reasons_counted U N _ c kind).mp (every c member) with
        ⟨-, minimum, successful, read, counted, enough⟩
      refine ⟨minimum, ?_, read⟩
      by_contra positive
      exact missing (successfulCalls_pos result successful (by omega) counted)

end

def noCallsCriterion : Value :=
  dict [("type", str "min_successful_tool_calls"), ("config", dict [("count", int 0)])]

def plainTables : Unicode := ⟨id, fun _ => true⟩

def noNumerals : Numerals := ⟨fun _ => nan, fun _ => none⟩

theorem bundle_opts_out :
    ¬∀ (U : Unicode) (N : Numerals) (criteria : List Value) (result : List (String × Value))
      (eval : CriteriaEval), checkSuccessCriteria U N criteria result true = .ok eval →
        eval.ok = true → SuccessfulCall result := by
  intro guaranteed
  rcases guaranteed plainTables noNumerals [noCallsCriterion] [("response", str "done")] ⟨true, []⟩ rfl rfl with
    ⟨trace, calls, call, found, -⟩
  contradiction

end GenesisAgents
