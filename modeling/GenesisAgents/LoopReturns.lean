import GenesisAgents.DispatchSteps
import GenesisAgents.SuccessCriteria

/-! What `AgentRuntime._run_loop` of `agent_runtime.py` hands back: the dict of every way the loop ends,
and the steps of a run that let an exception through. -/

namespace GenesisAgents

open Value

/-- The clock of one tool call; `elapsed` is rounded. -/
structure CallTimes where
  started : PyFloat
  finished : PyFloat
  elapsed : PyFloat

structure LoopSurroundings where
  /-- `str(job_dir)` -/
  workspacePath : String
  started : PyFloat
  finished : PyFloat
  elapsed : PyFloat
  calls : Nat → CallTimes

inductive Escaped where
  | loop (error : Raised)
  | criteria (error : CriteriaError)

/-- `record["result_summary"]` -/
def recordSummary (U : Unicode) (result : Value) : String :=
  if result.isDict then clip 300 ((dumps result).getD "") else clip 300 (result.text U)

/-- `record["child_response_summary"]` -/
def childResponseSummary (U : Unicode) (result : Value) : Value :=
  let summary := (result.get "child_response_summary").orElse (str "")
  if !summary.truthy && (result.get "result").isDict then
    str (clip 300 (((result.get "result").getD "response" (str "")).text U))
  else summary

section

variable (S : Setting) (C : LoopSurroundings)

/-- The entry of `tool_call_records` for dispatch number `n`. -/
def recordValue (n : Nat) (r : ToolRecord) : Value :=
  let times := C.calls n
  let child := subagentRecord (dict r.arguments) r.result
  let linkage := if r.toolName.pyEq (str "genesis_call") ∧ r.result.isDict then
    [("target_agent_slug", child.childAgentSlug), ("child_job_id", child.childJobId),
     ("child_session_id", child.childSessionId), ("child_ok", child.childOk),
     ("child_response_summary", childResponseSummary S.unicode r.result)] else []
  dict ([("turn", int r.turn), ("tool_name", r.toolName), ("tool_call_id", str r.toolCallId),
    ("arguments", dict r.arguments), ("ok", bool r.ok),
    ("result_summary", str (recordSummary S.unicode r.result)), ("started_at", float times.started),
    ("finished_at", float times.finished), ("elapsed_s", float times.elapsed),
    ("parent_job_id", str S.jobId), ("parent_agent_slug", str S.slug)] ++ linkage)

/-- The entry of `subagent_records`. -/
def subagentValue (s : SubagentRecord) : Value :=
  dict [("parent_job_id", str S.jobId), ("parent_session_id", str S.sessionId),
    ("parent_agent_slug", str S.slug), ("child_job_id", s.childJobId),
    ("child_session_id", s.childSessionId), ("child_agent_slug", s.childAgentSlug),
    ("task", s.task), ("status", str (if s.childOk.truthy then "ok" else "failed")),
    ("child_ok", s.childOk), ("child_trace_uri", null), ("artifact_uris", list [])]

def resourceUsage (llmCalls : Nat) (totalTokens : Int) (filesWritten : Nat) : Value :=
  dict [("llm_calls", int llmCalls), ("total_tokens", int totalTokens),
    ("files_written", int filesWritten)]

def traceValue (answer : FinalAnswer) : Value :=
  dict [("job_id", str S.jobId), ("session_id", str S.sessionId), ("agent_slug", str S.slug),
    ("workspace_path", str C.workspacePath), ("artifact_count", int answer.filesWritten),
    ("tool_calls", list (answer.toolCalls.mapIdx (recordValue S C))),
    ("subagents", list (answer.subagents.map (subagentValue S))),
    ("started_at", float C.started), ("finished_at", float C.finished), ("status", str "ok")]

def answerItems (answer : FinalAnswer) : List (String × Value) :=
  [("ok", bool true), ("slug", str S.slug), ("response", answer.response),
   ("turns", int answer.turns), ("elapsed_s", float C.elapsed), ("job_id", str S.jobId),
   ("resource_usage",
     resourceUsage answer.llmCalls answer.totalTokens answer.filesWritten),
   ("trace", traceValue S C answer)]

end

/-- `routed.split("/")[0] if "/" in routed else routed` -/
def provider : Value → Except Raised Value
  | str s => .ok (str (String.ofList (s.toList.takeWhile (· != '/'))))
  | list xs => if xs.any (pyEq (str "/")) then .error .attributeError else .ok (list xs)
  | dict kvs => if (kvs.lookup "/").isSome then .error .attributeError else .ok (dict kvs)
  | _ => .error .typeError

def routedModel (swarmsync : Value) : Value := (swarmsync.get "routed_model").orElse (str "")

/-- `result["swarmsync"]` and `result["routing"]` -/
def routingItems : Option Value → Except Raised (List (String × Value))
  | none => .ok []
  | some swarmsync =>
    if swarmsync.truthy then do
      let routed := routedModel swarmsync
      let provider ← provider routed
      .ok [("swarmsync", swarmsync), ("routing", dict [("model", routed), ("provider", provider),
        ("tier", swarmsync.get "tier"), ("routing_reason", swarmsync.get "routing_reason"),
        ("estimated_cost", swarmsync.get "estimated_cost"),
        ("latency_ms", swarmsync.get "latency_ms")])]
    else .ok []

/-- `result` with the evaluation of its criteria -/
def evaluated (items : List (String × Value)) (eval : CriteriaEval) : Value :=
  let result := (dict items).insert "success_criteria_eval"
    (dict [("ok", bool eval.ok), ("failed", list eval.failed)])
  let result := if eval.ok then result else
    (result.insert "ok" (bool false)).insert "error" (str "success_criteria_failed")
  result.insert "trace"
    ((result.get "trace").insert "status" (str (if eval.ok then "ok" else "failed")))

section

variable (N : Numerals) (S : Setting) (C : LoopSurroundings) (criteria : List Value)

/-- From the final answer to `return result`. -/
def finish (answer : FinalAnswer) : Except Escaped Value := do
  let routing ← (routingItems answer.swarmsync).mapError .loop
  let items := answerItems S C answer ++ routing
  let eval ← (checkSuccessCriteria S.unicode N criteria items (!S.toolsAdvertised.isEmpty)).mapError
    .criteria
  .ok (evaluated items eval)

def failed (error : String) (rest : List (String × Value)) : Value :=
  dict ([("ok", bool false), ("error", str error)] ++ rest)

def returned : LoopResult → Except Escaped Value
  | .timeout completed => .ok (failed "timeout" [("slug", str S.slug), ("turns_completed", int completed)])
  | .llmCallLimitExceeded llmCalls => .ok (failed "llm_call_limit_exceeded"
      [("slug", str S.slug), ("llm_calls", int llmCalls), ("limit", int maxLlmCalls)])
  | .llmCallFailed type message =>
    .ok (failed "llm_call_failed" [("type", str type), ("message", str message)])
  | .tokenBudgetExceeded totalTokens => .ok (failed "token_budget_exceeded"
      [("slug", str S.slug), ("total_tokens", int totalTokens), ("limit", int maxTokensPerJob)])
  | .noChoicesInLlmResponse => .ok (failed "no_choices_in_llm_response" [])
  | .finalAnswer answer => finish N S C criteria answer
  | .maxTurnsReached turns llmCalls totalTokens filesWritten => .ok (failed "max_turns_reached"
      [("slug", str S.slug), ("turns", int turns),
       ("resource_usage", resourceUsage llmCalls totalTokens filesWritten)])
  | .raised error => .error (.loop error)

/-- `safe_params` -/
def safeParams : Value := (deploymentSideEffectAuthorized S.unicode S.params).2

/-- `_run_loop`. The first prompt takes the JSON of the parameters, unless they are empty. -/
def runLoopResult (W : World) : Except Escaped Value :=
  if (safeParams S).truthy && !(safeParams S).dumpable then .error (.loop .unencodable)
  else returned N S C criteria (runLoop S W).2

end

/-- A step that may let an exception through: the dispatch of a tool call, or the final answer, with
the state before it. -/
inductive LoopStep where
  | dispatches (σ : LoopState) (call : ToolCall)
  | answers (σ : LoopState)

section

variable (S : Setting) (W : World)

/-- The dispatches of `for tc in tool_calls`. -/
def callSteps : LoopState → List ToolCall → List LoopStep
  | _, [] => []
  | σ, call :: rest =>
    .dispatches σ call ::
      match dispatch S W σ call with
      | (σ', none) => callSteps σ' rest
      | (_, some _) => []

def turnSteps (σ₀ : LoopState) : List LoopStep :=
  let σ := { σ₀ with turn := σ₀.turn + 1 }
  if W.timedOut σ.turn then []
  else if maxLlmCalls ≤ σ.llmCalls then []
  else match W.llm σ.turn with
    | .raised _ _ => []
    | .responded response =>
      let σ := receive σ response
      if maxTokensPerJob < σ.totalTokens then []
      else match response.message with
        | none => []
        | some msg =>
          if msg.toolCalls.isEmpty then [.answers σ]
          else callSteps S W { σ with messages := σ.messages ++ [.assistant msg] } msg.toolCalls

def loopSteps : Nat → LoopState → List LoopStep
  | 0, _ => []
  | left + 1, σ =>
    turnSteps S W σ ++
      match turn S W σ with
      | (_, some _) => []
      | (σ', none) => loopSteps left σ'

def runSteps : List LoopStep := loopSteps S W maxTurns (initialState S)

/-- The local `deployment_authorized` is read before it is bound: the policy refused the call, and no
deployment call went before. -/
def ReadsUnbound (σ : LoopState) (call : ToolCall) : Prop :=
  call.reaches S = true ∧ (checkToolPolicy S.tables S.slug call.fnName).riskClass = .deployment ∧
    refusedByPolicy S call.fnName = true ∧ σ.deploymentAuthorized = none

structure SafeCall (σ : LoopState) (call : ToolCall) : Prop where
  object : call.args.isDict = true
  /-- The name can be looked up, and written into a refusal. -/
  named : call.hashable = true ∧ call.nameValue.dumpable = true
  bound : ¬ReadsUnbound S σ call
  awaited : Enters S W σ call → ∀ charged, W.tool σ.dispatched ≠ .cancelled charged
  /-- What the tool returns is JSON, unless its audit record is refused. -/
  encodes : Enters S W σ call → W.event σ.dispatched = true →
    ∀ result charged, W.tool σ.dispatched = .returned result charged → result.dumpable = true

def Routable (swarmsync : Value) : Prop :=
  match routedModel swarmsync with
  | str _ => True
  | list xs => xs.any (pyEq (str "/")) = false
  | dict kvs => kvs.lookup "/" = none
  | _ => False

/-- A criterion that can be evaluated on every result. -/
structure Evaluable (N : Numerals) (c : Value) : Prop where
  object : c.isDict = true
  keys : typed "contains_keys" c = true → ∃ config, configOf c = .ok config
  latency : typed "max_latency_s" c = true → ∃ config, configOf c = .ok config ∧
    (config.getD "seconds" (int 300)).magnitude?.isSome = true
  counted : typed "min_successful_tool_calls" c = true → ∃ minimum, minimumCalls N c = .ok minimum

def Harmless (N : Numerals) (criteria : List Value) : LoopStep → Prop
  | .dispatches σ call => SafeCall S W σ call
  | .answers σ => (∀ swarmsync, σ.lastSwarmsync = some swarmsync → swarmsync.truthy = true →
      Routable swarmsync) ∧ ∀ c ∈ criteria, Evaluable N c

end

/-! The criteria of a result the loop built. -/

structure Checkable (result : Value) : Prop where
  timed : ((result.getD "elapsed_s" (int 0)).orElse (int 0)).magnitude?.isSome = true
  traced : ∃ successful, successfulCalls result = .ok successful

theorem greater_isSome (a b : Value) (number : a.magnitude?.isSome = true) :
    (greater a b).isSome = b.magnitude?.isSome := by
  rcases measured : a.magnitude? with _ | m
  · rw [measured] at number
    contradiction
  cases a with
  | bool _ | int _ | float _ =>
    rw [greater, measured]
    · cases b.magnitude? <;> rfl
    all_goals exact nofun
  | _ => contradiction

section

variable (U : Unicode) (N : Numerals) (result : Value) (checkable : Checkable result)

include checkable

theorem latencyReasons_total (maxS : Value) :
    (∃ mine, latencyReasons U result maxS = .ok mine) ↔ maxS.magnitude?.isSome = true := by
  rw [← greater_isSome _ maxS checkable.timed, latencyReasons]
  split <;> simp_all

theorem callReasons_total (minimum : Int) : ∃ mine, callReasons result minimum = .ok mine := by
  rcases checkable.traced with ⟨successful, counted⟩
  rw [callReasons, counted]
  change ∃ mine, (if (successful : Int) < minimum then _ else _) = Except.ok mine
  split
  · exact ⟨_, rfl⟩
  · exact ⟨_, rfl⟩

/-- A criterion is evaluated without an exception exactly when it is evaluable. -/
theorem reasons_total (c : Value) : (∃ mine, reasons U N result c = .ok mine) ↔ Evaluable N c := by
  have alone (name other : String) (one : typed name c = true) (distinct : name ≠ other) :
      ¬typed other c = true := fun two => distinct (typed_unique name other c one two)
  unfold reasons
  split
  · rename_i noObject
    refine iff_of_false nofun fun evaluable => ?_
    rw [evaluable.object] at noObject
    contradiction
  rename_i object
  have isObject : c.isDict = true := by simpa using object
  split
  · rename_i kind
    exact iff_of_true ⟨_, rfl⟩ ⟨isObject, fun two => absurd two (alone _ _ kind (by decide)),
      fun two => absurd two (alone _ _ kind (by decide)),
      fun two => absurd two (alone _ _ kind (by decide))⟩
  split
  · rename_i kind
    have each : Evaluable N c ↔ ∃ config, configOf c = .ok config :=
      ⟨fun evaluable => evaluable.keys kind, fun configured => ⟨isObject, fun _ => configured,
        fun two => absurd two (alone _ _ kind (by decide)),
        fun two => absurd two (alone _ _ kind (by decide))⟩⟩
    rw [each]
    rcases configured : configOf c with raised | config
    · exact iff_of_false nofun nofun
    · exact iff_of_true ⟨_, rfl⟩ ⟨config, rfl⟩
  rename_i noKeys
  split
  · rename_i kind
    have each : Evaluable N c ↔ ∃ config, configOf c = .ok config ∧
        (config.getD "seconds" (int 300)).magnitude?.isSome = true :=
      ⟨fun evaluable => evaluable.latency kind, fun ordered => ⟨isObject,
        fun two => absurd two noKeys, fun _ => ordered,
        fun two => absurd two (alone _ _ kind (by decide))⟩⟩
    rw [each]
    rcases configured : configOf c with raised | config
    · exact iff_of_false nofun nofun
    · change (∃ mine, latencyReasons U result _ = .ok mine) ↔ _
      rw [latencyReasons_total U result checkable]
      simp
  rename_i noLatency
  split
  · rename_i kind
    have each : Evaluable N c ↔ ∃ minimum, minimumCalls N c = .ok minimum :=
      ⟨fun evaluable => evaluable.counted kind, fun counted => ⟨isObject,
        fun two => absurd two noKeys, fun two => absurd two noLatency, fun _ => counted⟩⟩
    rw [each]
    rcases minimum : minimumCalls N c with raised | least
    · exact iff_of_false nofun nofun
    · exact iff_of_true (callReasons_total result checkable least) ⟨least, rfl⟩
  · rename_i noCount
    exact iff_of_true ⟨_, rfl⟩ ⟨isObject, fun two => absurd two noKeys,
      fun two => absurd two noLatency, fun two => absurd two noCount⟩

theorem failures_total (criteria : List Value) :
    (∃ failed, failures U N result criteria = .ok failed) ↔ ∀ c ∈ criteria, Evaluable N c := by
  induction criteria with
  | nil => exact iff_of_true ⟨[], rfl⟩ fun c member => absurd member List.not_mem_nil
  | cons c rest later =>
    rw [List.forall_mem_cons, ← later, ← reasons_total U N result checkable c, failures]
    rcases reasons U N result c with raised | mine
    · refine iff_of_false ?_ ?_
      · rintro ⟨failed, same⟩
        cases same
      · rintro ⟨⟨reason, same⟩, -⟩
        cases same
    rcases failures U N result rest with raised | others
    · refine iff_of_false ?_ ?_
      · rintro ⟨failed, same⟩
        cases same
      · rintro ⟨-, ⟨failed, same⟩⟩
        cases same
    · exact iff_of_true ⟨_, rfl⟩ ⟨⟨mine, rfl⟩, ⟨others, rfl⟩⟩

end

theorem nonEmptyCriterion_evaluable (N : Numerals) : Evaluable N nonEmptyCriterion :=
  ⟨rfl, nofun, nofun, nofun⟩

theorem injectedCriterion_evaluable (N : Numerals) : Evaluable N injectedCriterion :=
  ⟨rfl, nofun, nofun, fun _ => ⟨1, rfl⟩⟩

theorem mergedCriteria_supplies (criteria merged : List Value) (required : Bool)
    (together : mergedCriteria criteria required = .ok merged) : ∀ c ∈ criteria, c ∈ merged := by
  intro c member
  have filled : criteria.isEmpty = false := List.isEmpty_eq_false_iff.mpr (List.ne_nil_of_mem member)
  unfold mergedCriteria at together
  rw [filled] at together
  cases required with
  | false => rwa [← Except.ok.inj together]
  | true =>
    rcases except_bind_ok _ _ _ together with ⟨supplied, -, rest⟩
    rw [← Except.ok.inj rest]
    cases supplied with
    | false => exact List.mem_append_left _ member
    | true => exact member

theorem mergedCriteria_evaluable (N : Numerals) (criteria : List Value) (required : Bool) :
    (∃ merged, mergedCriteria criteria required = .ok merged ∧ ∀ c ∈ merged, Evaluable N c) ↔
      ∀ c ∈ criteria, Evaluable N c := by
  constructor
  · rintro ⟨merged, together, every⟩ c member
    exact every c (mergedCriteria_supplies criteria merged required together c member)
  · intro every
    have basis : ∀ c ∈ (if criteria.isEmpty then [nonEmptyCriterion] else criteria), Evaluable N c := by
      split
      · intro c member
        rw [List.mem_singleton.mp member]
        exact nonEmptyCriterion_evaluable N
      · exact every
    unfold mergedCriteria
    generalize (if criteria.isEmpty then [nonEmptyCriterion] else criteria) = supplied at basis
    cases required with
    | false => exact ⟨supplied, rfl, basis⟩
    | true =>
      dsimp only
      rw [if_pos rfl, anyCounts_supplied supplied fun c member => (basis c member).object]
      refine ⟨_, rfl, ?_⟩
      split
      · exact basis
      · intro c member
        rcases List.mem_append.mp member with own | injected
        · exact basis c own
        · rw [List.mem_singleton.mp injected]
          exact injectedCriterion_evaluable N

theorem check_total (U : Unicode) (N : Numerals) (criteria : List Value) (items : List (String × Value))
    (required : Bool) (checkable : Checkable (dict items)) :
    (∃ eval, checkSuccessCriteria U N criteria items required = .ok eval) ↔
      ∀ c ∈ criteria, Evaluable N c := by
  rw [← mergedCriteria_evaluable N criteria required, checkSuccessCriteria]
  rcases mergedCriteria criteria required with raised | merged
  · exact iff_of_false nofun nofun
  · simp only [Except.ok.injEq, exists_eq_left']
    rw [← failures_total U N (dict items) checkable merged]
    change (∃ eval, (failures U N (dict items) merged >>= fun failed => _) = Except.ok eval) ↔ _
    rcases failures U N (dict items) merged with raised | failed
    · exact iff_of_false nofun nofun
    · exact iff_of_true ⟨_, rfl⟩ ⟨failed, rfl⟩

/-- A returned dict has a boolean at `ok`. -/
def HasOk (result : Value) : Prop := ∃ ok, result.get? "ok" = some (bool ok)

theorem provider_total (swarmsync : Value) :
    (∃ name, provider (routedModel swarmsync) = .ok name) ↔ Routable swarmsync := by
  unfold Routable
  cases routedModel swarmsync with
  | str s => exact iff_of_true ⟨_, rfl⟩ trivial
  | list xs => cases named : xs.any (pyEq (str "/")) <;> simp [provider, named]
  | dict kvs => cases found : kvs.lookup "/" <;> simp [provider, found]
  | _ => exact iff_of_false nofun id

theorem routingItems_total (swarmsync : Option Value) :
    (∃ routing, routingItems swarmsync = .ok routing) ↔
      ∀ metadata, swarmsync = some metadata → metadata.truthy = true → Routable metadata := by
  rcases swarmsync with _ | metadata
  · exact iff_of_true ⟨[], rfl⟩ nofun
  · simp only [Option.some.injEq, forall_eq']
    rw [routingItems]
    split
    · rename_i filled
      rw [forall_prop_of_true filled, ← provider_total]
      dsimp only
      rcases provider (routedModel metadata) with raised | name
      · exact iff_of_false nofun nofun
      · exact iff_of_true ⟨_, rfl⟩ ⟨name, rfl⟩
    · rename_i empty
      exact iff_of_true ⟨[], rfl⟩ fun filled => absurd filled empty

theorem magnitude_float (x : PyFloat) : (float x).magnitude?.isSome = true := by
  rw [magnitude?]
  cases x.exact <;> rfl

theorem iterated_calls (calls : List Value) :
    iterated ((list calls).orElse (list [])) = some calls := by
  cases calls <;> rfl

section

variable (S : Setting) (C : LoopSurroundings)

theorem answerItems_checkable (answer : FinalAnswer) (routing : List (String × Value)) :
    Checkable (dict (answerItems S C answer ++ routing)) where
  timed := by
    change (((float C.elapsed).orElse (int 0)).magnitude?).isSome = true
    rw [Value.orElse]
    split
    · exact magnitude_float C.elapsed
    · rfl
  traced := by
    let calls := answer.toolCalls.mapIdx (recordValue S C)
    have objects : calls.all Value.isDict = true := by
      rw [List.all_eq_true]
      intro call member
      rcases List.mem_mapIdx.mp member with ⟨n, small, rfl⟩
      rfl
    refine ⟨calls.countP succeeded, ?_⟩
    have trace : ((dict (answerItems S C answer ++ routing)).get "trace").orElse (dict []) =
      traceValue S C answer := rfl
    have found : (traceValue S C answer).get "tool_calls" = list calls := rfl
    rw [successfulCalls, trace, found, iterated_calls]
    exact if_pos objects

end

theorem evaluated_ok (items : List (String × Value)) (eval : CriteriaEval)
    (succeeded : items.lookup "ok" = some (bool true)) :
    (evaluated items eval).get? "ok" = some (bool eval.ok) := by
  unfold evaluated
  dsimp only
  rw [get?_insert_other _ _ _ _ (by decide)]
  cases eval.ok with
  | true =>
    rw [if_pos rfl, get?_insert_other _ _ _ _ (by decide)]
    exact succeeded
  | false =>
    rw [if_neg Bool.false_ne_true, get?_insert_other _ _ _ _ (by decide)]
    exact get?_insert_self _ _ _ (by rw [isDict_insert]; rfl)

section

variable (N : Numerals) (S : Setting) (C : LoopSurroundings) (criteria : List Value) (W : World)

theorem finish_total (σ : LoopState) (content : Value) :
    (∃ result, finish N S C criteria (finalAnswer σ content) = .ok result ∧ HasOk result) ↔
      Harmless S W N criteria (.answers σ) := by
  rw [Harmless, ← routingItems_total, finish]
  change (∃ result, ((routingItems σ.lastSwarmsync).mapError Escaped.loop >>= _) = Except.ok result ∧ _) ↔ _
  rcases routingItems σ.lastSwarmsync with raised | routing
  · exact iff_of_false nofun fun both => nomatch both.1
  · have checkable := answerItems_checkable S C (finalAnswer σ content) routing
    rw [and_iff_right ⟨routing, rfl⟩,
      ← check_total S.unicode N criteria _ (!S.toolsAdvertised.isEmpty) checkable]
    change (∃ result, ((checkSuccessCriteria S.unicode N criteria _ _).mapError Escaped.criteria >>= _) =
      Except.ok result ∧ _) ↔ _
    rcases checkSuccessCriteria S.unicode N criteria _ _ with raised | eval
    · exact iff_of_false nofun nofun
    · exact iff_of_true ⟨_, rfl, eval.ok, evaluated_ok _ eval rfl⟩ ⟨eval, rfl⟩

end

section

variable (S : Setting) (W : World)

theorem conclude_goes_iff (σ : LoopState) (call : ToolCall) (branch : Branch) (attempt : Attempt) :
    (conclude S W σ call branch attempt).2 = none ↔
      call.args.isDict = true ∧ (answer W σ call attempt).dumpable = true := by
  refine ⟨fun goes => ?_, fun both => conclude_continues S W σ call branch attempt both.1 both.2⟩
  unfold conclude at goes
  dsimp only at goes
  split at goes
  · rename_i items object
    rw [object]
    split at goes
    · rename_i encodes
      exact ⟨rfl, encodes⟩
    · contradiction
  · contradiction

theorem policyChain_unbound_iff (σ : LoopState) (fnName : String) (args : Value)
    (deployment : (checkToolPolicy S.tables S.slug fnName).riskClass = .deployment) :
    (policyChain S W σ fnName args (checkToolPolicy S.tables S.slug fnName)).deploymentAuthorized =
      none ↔ refusedByPolicy S fnName = true ∧ σ.deploymentAuthorized = none := by
  unfold policyChain refusedByPolicy
  rw [Bool.or_eq_true]
  split
  · rename_i denied
    simp [denied]
  split
  · rename_i escalated
    simp [escalated]
  · rename_i allowed kept
    simp [allowed, kept]

theorem approvalChain_unbound_iff (σ : LoopState) (fnName : String) (policy : Policy)
    (authorized : Option Bool) :
    approvalChain σ fnName policy authorized = .unbound ↔
      policy.riskClass = .deployment ∧ authorized = none := by
  have quota : quotaChain σ fnName ≠ .unbound := by
    rw [quotaChain]
    split <;> simp
  unfold approvalChain
  split
  · rename_i deployment
    rcases authorized with _ | _ | _
    · exact iff_of_true rfl ⟨deployment, rfl⟩
    · exact iff_of_false (by simp) (by simp)
    · exact iff_of_false quota (by simp)
  · rename_i other
    exact iff_of_false quota fun both => other both.1

/-- A dispatch reads the unbound local exactly when the policy refused a deployment call before any
other was decided. -/
theorem attempt_missing_iff (σ : LoopState) (call : ToolCall) (hashable : call.hashable = true) :
    (callBranch S W σ call).attempt = none ↔ ReadsUnbound S σ call := by
  unfold ReadsUnbound
  by_cases reaches : call.reaches S = true
  · rw [callBranch_reached S W σ call reaches,
      dispatchBranch_reached S W σ call.fnName call.args (named_of_reaches S call reaches).2,
      and_iff_right reaches]
    dsimp only
    have unbound := approvalChain_unbound_iff σ call.fnName (checkToolPolicy S.tables S.slug call.fnName)
      (policyChain S W σ call.fnName call.args (checkToolPolicy S.tables S.slug call.fnName)).deploymentAuthorized
    split
    · rename_i verdict
      have both := unbound.mp verdict
      exact iff_of_true rfl ⟨both.1, (policyChain_unbound_iff S W σ call.fnName call.args both.1).mp both.2⟩
    all_goals
      rename_i verdict
      refine iff_of_false nofun fun reads => ?_
      rw [unbound.mpr ⟨reads.1, (policyChain_unbound_iff S W σ call.fnName call.args reads.1).mpr reads.2⟩]
        at verdict
      contradiction
  · rcases callBranch_early S W σ call (by simpa using reaches) hashable with ⟨refusal, -, same⟩
    rw [same]
    exact iff_of_false nofun fun reads => reaches reads.1

/-! What the loop says itself is JSON; the count of the files in it stays within its limit. -/

theorem quotaChain_dumpable (σ : LoopState) (bounded : σ.filesWritten ≤ maxFilesWritten) (fnName : String)
    (result : Value) (refused : quotaChain σ fnName = .refuse result) : result.dumpable = true := by
  rw [quotaChain] at refused
  split at refused
  · rw [← Verdict.refuse.inj refused]
    have few (n : Nat) (most : n ≤ maxFilesWritten) : n < 10 ^ maxStrDigits := by
      calc
        n ≤ 20 := most
        _ < 10 ^ 2 := by decide
        _ ≤ 10 ^ maxStrDigits := Nat.pow_le_pow_right (by decide) (by decide)
    simp [fileWriteLimitExceeded, dumpable, jsonable, jsonableItems, writable, writableItems,
      few σ.filesWritten bounded, few maxFilesWritten le_rfl]
  · contradiction

theorem approvalChain_dumpable (σ : LoopState) (bounded : σ.filesWritten ≤ maxFilesWritten) (fnName : String)
    (policy : Policy) (authorized : Option Bool) (result : Value)
    (refused : approvalChain σ fnName policy authorized = .refuse result) :
    result.dumpable = true := by
  unfold approvalChain at refused
  split at refused
  · rcases authorized with _ | _ | _
    · contradiction
    · rw [← Verdict.refuse.inj refused]
      rfl
    · exact quotaChain_dumpable σ bounded fnName result refused
  · exact quotaChain_dumpable σ bounded fnName result refused

theorem runTool_unentered (σ : LoopState) (fnName : String) (args : Value)
    (clashes : kwargsBind args ≠ true) :
    (runTool S W σ fnName args).toolResult.dumpable = true := by
  rw [runTool, if_neg clashes]
  rfl

theorem attempt_unentered (σ : LoopState) (bounded : σ.filesWritten ≤ maxFilesWritten) (call : ToolCall)
    (attempt : Attempt) (hashable : call.hashable = true)
    (attempted : (callBranch S W σ call).attempt = some attempt) (stays : ¬Enters S W σ call) :
    attempt.toolResult.dumpable = true ↔ call.nameValue.dumpable = true := by
  by_cases reaches : call.reaches S = true
  · have text : call.nameValue.dumpable = true := by
      rw [(hashable_of_named call _ (named_of_reaches S call reaches).1).2]
      rfl
    refine iff_of_true ?_ text
    rw [callBranch_reached S W σ call reaches,
      dispatchBranch_reached S W σ call.fnName call.args (named_of_reaches S call reaches).2] at attempted
    dsimp only at attempted
    split at attempted
    · contradiction
    · rename_i result verdict
      rw [← Option.some.inj attempted]
      exact approvalChain_dumpable σ bounded call.fnName _ _ result verdict
    · rename_i verdict
      rw [← Option.some.inj attempted]
      dsimp only
      unfold executeTool
      split
      · rename_i readOnly
        exact runTool_unentered S W σ call.fnName call.args fun binds =>
          stays ⟨reaches, verdict, .inl readOnly, binds⟩
      · dsimp only
        split
        · rename_i stored
          exact runTool_unentered S W σ call.fnName call.args fun binds =>
            stays ⟨reaches, verdict, .inr stored, binds⟩
        · rfl
  · rcases callBranch_early S W σ call (by simpa using reaches) hashable with ⟨refusal, encodes, same⟩
    rw [same] at attempted
    rw [← Option.some.inj attempted, ← encodes]
    rfl

theorem attempt_executed (σ : LoopState) (call : ToolCall) (attempt : Attempt)
    (attempted : (callBranch S W σ call).attempt = some attempt) (executed : attempt.toolExecuted = true) :
    call.nameValue.dumpable = true := by
  by_cases reaches : call.reaches S = true
  · rw [(hashable_of_named call _ (named_of_reaches S call reaches).1).2]
    rfl
  · rcases callBranch_unreached S W σ call (by simpa using reaches) with missing | ⟨refusal, refused⟩
    · rw [missing] at attempted
      contradiction
    · rw [refused] at attempted
      rw [← Option.some.inj attempted] at executed
      contradiction

theorem replyResult_dumpable (reply : ToolReply) :
    (replyResult reply).dumpable = true ↔
      ∀ result charged, reply = .returned result charged → result.dumpable = true := by
  cases reply with
  | raised type message charged => exact iff_of_true rfl nofun
  | returned value charged => exact ⟨fun encodes _ _ same => (ToolReply.returned.inj same).1 ▸ encodes,
      fun each => each value charged rfl⟩
  | cancelled charged => exact iff_of_true rfl nofun

/-- What is answered is JSON exactly when the name is, and the returned value is or is not answered. -/
theorem answer_dumpable_iff (σ : LoopState) (bounded : σ.filesWritten ≤ maxFilesWritten) (call : ToolCall)
    (attempt : Attempt) (hashable : call.hashable = true)
    (attempted : (callBranch S W σ call).attempt = some attempt) :
    (answer W σ call attempt).dumpable = true ↔ call.nameValue.dumpable = true ∧
      (Enters S W σ call → W.event σ.dispatched = true →
        ∀ result charged, W.tool σ.dispatched = .returned result charged → result.dumpable = true) := by
  rw [answer]
  by_cases enters : Enters S W σ call
  · have ran := attempt_entered S W σ call attempt attempted enters
    have named := attempt_executed S W σ call attempt attempted ran.executed
    rw [ran.executed, ran.result, Bool.true_and, forall_prop_of_true enters, and_iff_right named]
    cases W.event σ.dispatched with
    | false => exact iff_of_true rfl (by simp)
    | true =>
      rw [forall_prop_of_true rfl]
      exact replyResult_dumpable _
  · have stays := attempt_unentered S W σ bounded call attempt hashable attempted enters
    have vacuous : Enters S W σ call → W.event σ.dispatched = true →
        ∀ result charged, W.tool σ.dispatched = .returned result charged → result.dumpable = true :=
      fun entered => absurd entered enters
    rw [and_iff_left vacuous, ← stays]
    split
    · rename_i unrecorded
      rw [Bool.and_eq_true] at unrecorded
      exact iff_of_true rfl (stays.mpr (attempt_executed S W σ call attempt attempted unrecorded.1))
    · exact Iff.rfl

theorem dispatch_goes_iff (σ : LoopState) (bounded : σ.filesWritten ≤ maxFilesWritten) (call : ToolCall) :
    (dispatch S W σ call).2 = none ↔ SafeCall S W σ call := by
  rcases hashes : call.hashable with _ | _
  · rw [dispatch, callBranch_unhashable S W σ call hashes]
    refine iff_of_false (by simp) fun safe => ?_
    rw [safe.named.1] at hashes
    contradiction
  have missing := attempt_missing_iff S W σ call hashes
  rw [dispatch]
  rcases attempted : (callBranch S W σ call).attempt with _ | attempt
  · exact iff_of_false (by simp) fun safe => safe.bound (missing.mp attempted)
  have encodes := answer_dumpable_iff S W σ bounded call attempt hashes attempted
  have awaits := attempt_cancelled_iff S W σ call attempt attempted
  have bound : ¬ReadsUnbound S σ call := fun reads => by
    rw [missing.mpr reads] at attempted
    contradiction
  dsimp only
  rcases cancelled : attempt.cancelled with _ | _
  · rw [if_neg Bool.false_ne_true]
    refine (conclude_goes_iff S W σ call _ attempt).trans ⟨fun both => ?_, fun safe => ?_⟩
    · have answered := encodes.mp both.2
      exact ⟨both.1, ⟨hashes, answered.1⟩, bound, awaits.mp cancelled, answered.2⟩
    · exact ⟨safe.object, encodes.mpr ⟨safe.named.2, safe.encodes⟩⟩
  · rw [if_pos rfl]
    refine iff_of_false (by simp [abandon]) fun safe => ?_
    rw [awaits.mpr safe.awaited] at cancelled
    contradiction

theorem runTool_filesWritten (σ : LoopState) (fnName : String) (args : Value) :
    (runTool S W σ fnName args).filesWritten = σ.filesWritten ∨
      fnName = "file_write" ∧ (runTool S W σ fnName args).filesWritten = σ.filesWritten + 1 := by
  unfold runTool
  split
  · cases W.tool σ.dispatched with
    | returned value charged =>
      dsimp only
      split
      · rename_i written
        simp only [Bool.and_eq_true, beq_iff_eq] at written
        exact .inr ⟨written.1.1, rfl⟩
      · exact .inl rfl
    | raised type message charged => exact .inl rfl
    | cancelled charged => exact .inl rfl
  · exact .inl rfl

theorem executeTool_filesWritten (σ : LoopState) (fnName : String) (args : Value) (policy : Policy) :
    (executeTool S W σ fnName args policy).filesWritten = σ.filesWritten ∨
      fnName = "file_write" ∧ (executeTool S W σ fnName args policy).filesWritten = σ.filesWritten + 1 := by
  have ran := runTool_filesWritten S W σ fnName args
  unfold executeTool
  split
  · exact ran
  · dsimp only
    split
    · exact ran
    · exact .inl rfl

theorem approvalChain_quota (σ : LoopState) (policy : Policy) (authorized : Option Bool)
    (approved : approvalChain σ "file_write" policy authorized = .proceed) : σ.filesWritten < maxFilesWritten := by
  have quota (proceeds : quotaChain σ "file_write" = .proceed) : σ.filesWritten < maxFilesWritten := by
    by_contra full
    rw [quotaChain, if_pos ⟨rfl, not_lt.mp full⟩] at proceeds
    contradiction
  unfold approvalChain at approved
  split at approved
  · rcases authorized with _ | _ | _
    · contradiction
    · contradiction
    · exact quota approved
  · exact quota approved

theorem attempt_filesWritten (σ : LoopState) (bounded : σ.filesWritten ≤ maxFilesWritten) (call : ToolCall)
    (attempt : Attempt) (attempted : (callBranch S W σ call).attempt = some attempt) :
    attempt.filesWritten ≤ maxFilesWritten := by
  by_cases reaches : call.reaches S = true
  · rw [callBranch_reached S W σ call reaches,
      dispatchBranch_reached S W σ call.fnName call.args (named_of_reaches S call reaches).2] at attempted
    dsimp only at attempted
    split at attempted
    · contradiction
    · rw [← Option.some.inj attempted]
      exact bounded
    · rename_i approved
      rw [← Option.some.inj attempted]
      dsimp only
      rcases executeTool_filesWritten S W σ call.fnName call.args
        (checkToolPolicy S.tables S.slug call.fnName) with same | ⟨writes, more⟩
      · rw [same]
        exact bounded
      · rw [more]
        rw [writes] at approved
        exact approvalChain_quota σ _ _ approved
  · rcases callBranch_unreached S W σ call (by simpa using reaches) with missing | ⟨refusal, refused⟩
    · rw [missing] at attempted
      contradiction
    · rw [refused] at attempted
      rw [← Option.some.inj attempted]
      exact bounded

theorem conclude_filesWritten (σ : LoopState) (call : ToolCall) (branch : Branch) (attempt : Attempt) :
    (conclude S W σ call branch attempt).1.filesWritten = attempt.filesWritten := by
  unfold conclude
  dsimp only
  split
  · split <;> rfl
  · rfl

theorem dispatch_filesWritten (σ : LoopState) (bounded : σ.filesWritten ≤ maxFilesWritten) (call : ToolCall) :
    (dispatch S W σ call).1.filesWritten ≤ maxFilesWritten := by
  rw [dispatch]
  split
  · rename_i attempt attempted
    have kept := attempt_filesWritten S W σ bounded call attempt attempted
    split
    · exact kept
    · rw [conclude_filesWritten]
      exact kept
  · exact bounded

variable (N : Numerals) (C : LoopSurroundings) (criteria : List Value)

theorem callSteps_harmless (calls : List ToolCall) : ∀ σ, σ.filesWritten ≤ maxFilesWritten →
    ((dispatchAll S W σ calls).2 = none ↔
      ∀ step ∈ callSteps S W σ calls, Harmless S W N criteria step) := by
  induction calls with
  | nil => exact fun σ _ => iff_of_true rfl fun step member => absurd member List.not_mem_nil
  | cons call rest later =>
    intro σ bounded
    have first := dispatch_goes_iff S W σ bounded call
    have next := dispatch_filesWritten S W σ bounded call
    rw [dispatchAll, callSteps, List.forall_mem_cons]
    rcases outcome : dispatch S W σ call with ⟨σ', _ | error⟩ <;> rw [outcome] at first next
    · refine (later σ' next).trans ⟨fun others => ⟨first.mp rfl, others⟩, fun both => both.2⟩
    · refine iff_of_false (by simp) fun both => ?_
      have goes := first.mpr both.1
      contradiction

/-- A turn that ends the loop returns a dict exactly when its steps are harmless. -/
theorem turnSteps_harmless (σ : LoopState) (bounded : σ.filesWritten ≤ maxFilesWritten) :
    (∀ ending, (turn S W σ).2 = some ending →
        ∃ result, returned N S C criteria ending = .ok result ∧ HasOk result) ↔
      ∀ step ∈ turnSteps S W σ, Harmless S W N criteria step := by
  have quiet (ending : LoopResult) (early : ∃ result, returned N S C criteria ending = .ok result ∧
      HasOk result) : (∀ other, some ending = some other →
        ∃ result, returned N S C criteria other = .ok result ∧ HasOk result) ↔
      ∀ step ∈ ([] : List LoopStep), Harmless S W N criteria step :=
    iff_of_true (fun other same => Option.some.inj same ▸ early)
      fun step member => absurd member List.not_mem_nil
  rw [turn, turnSteps]
  dsimp only
  by_cases late : W.timedOut (σ.turn + 1) = true
  · rw [if_pos late, if_pos late]
    exact quiet (.timeout _) ⟨_, rfl, false, rfl⟩
  rw [if_neg late, if_neg late]
  by_cases many : maxLlmCalls ≤ σ.llmCalls
  · rw [if_pos many, if_pos many]
    exact quiet (.llmCallLimitExceeded _) ⟨_, rfl, false, rfl⟩
  rw [if_neg many, if_neg many]
  rcases W.llm (σ.turn + 1) with ⟨type, message⟩ | response <;> dsimp only
  · exact quiet (.llmCallFailed type message) ⟨_, rfl, false, rfl⟩
  have kept : (receive { σ with turn := σ.turn + 1 } response).filesWritten ≤ maxFilesWritten := bounded
  generalize receive { σ with turn := σ.turn + 1 } response = received at kept
  by_cases costly : maxTokensPerJob < received.totalTokens
  · rw [if_pos costly, if_pos costly]
    exact quiet (.tokenBudgetExceeded _) ⟨_, rfl, false, rfl⟩
  rw [if_neg costly, if_neg costly]
  rcases response.message with _ | msg <;> dsimp only
  · exact quiet .noChoicesInLlmResponse ⟨_, rfl, false, rfl⟩
  cases msg.toolCalls.isEmpty with
  | true =>
    simp only [if_true, Option.some.injEq, forall_eq', List.forall_mem_singleton]
    exact finish_total N S C criteria W received msg.content
  | false =>
    rw [if_neg Bool.false_ne_true, if_neg Bool.false_ne_true]
    have goes := callSteps_harmless S W N criteria msg.toolCalls
      { received with messages := received.messages ++ [.assistant msg] } kept
    rw [← goes]
    rcases dispatchAll S W _ msg.toolCalls with ⟨σ', _ | error⟩
    · exact iff_of_true (by simp) rfl
    · refine iff_of_false (fun returns => ?_) (by simp)
      rcases returns _ rfl with ⟨result, same, -⟩
      contradiction

theorem loopSteps_harmless (left : Nat) : ∀ σ, σ.filesWritten ≤ maxFilesWritten →
    ((∃ result, returned N S C criteria (turns S W left σ).2 = .ok result ∧ HasOk result) ↔
      ∀ step ∈ loopSteps S W left σ, Harmless S W N criteria step) := by
  induction left with
  | zero => exact fun σ _ => iff_of_true ⟨_, rfl, false, rfl⟩ fun step member => absurd member List.not_mem_nil
  | succ left later =>
    intro σ bounded
    have first := turnSteps_harmless S W N C criteria σ bounded
    have next := turn_invariant S W (fun σ => σ.filesWritten ≤ maxFilesWritten) (fun _ holds => holds)
      (fun _ _ holds => holds) (fun _ _ holds => holds)
      (fun σ call holds => dispatch_filesWritten S W σ holds call) σ bounded
    rw [turns, loopSteps, List.forall_mem_append, ← first]
    rcases outcome : turn S W σ with ⟨σ', _ | ending⟩
    · rw [outcome] at next
      exact (later σ' next).trans (and_iff_right (by simp)).symm
    · refine ⟨fun returns => ⟨?_, fun step member => absurd member List.not_mem_nil⟩, fun both => both.1 ending rfl⟩
      intro other same
      rwa [← Option.some.inj same]

theorem dispatchAll_turn (calls : List ToolCall) : ∀ σ, (dispatchAll S W σ calls).1.turn = σ.turn := by
  induction calls with
  | nil => exact fun σ => rfl
  | cons call rest later =>
    intro σ
    have kept := (dispatch_counters S W σ call).1
    rw [dispatchAll]
    rcases outcome : dispatch S W σ call with ⟨σ', _ | error⟩ <;> rw [outcome] at kept
    · exact (later σ').trans kept
    · exact kept

theorem turn_turn (σ : LoopState) : (turn S W σ).1.turn = σ.turn + 1 := by
  rw [turn]
  dsimp only
  split
  · rfl
  split
  · rfl
  split
  · rfl
  rename_i response replied
  split
  · rfl
  split
  · rfl
  rename_i msg chosen
  split
  · rfl
  · have kept := dispatchAll_turn S W msg.toolCalls
      { receive { σ with turn := σ.turn + 1 } response with
        messages := (receive { σ with turn := σ.turn + 1 } response).messages ++ [.assistant msg] }
    rcases outcome : dispatchAll S W _ msg.toolCalls with ⟨σ', _ | error⟩ <;> rw [outcome] at kept <;>
      exact kept

theorem turns_turn (left : Nat) : ∀ σ, (turns S W left σ).1.turn ≤ σ.turn + left := by
  induction left with
  | zero => exact fun σ => le_rfl
  | succ left later =>
    intro σ
    have next := turn_turn S W σ
    rw [turns]
    rcases outcome : turn S W σ with ⟨σ', _ | ending⟩ <;> rw [outcome] at next <;> dsimp only at next ⊢
    · have rest := later σ'
      omega
    · omega

/-- The loop stays within its turn limit. It returns a dict with a boolean at `ok` exactly when the
parameters are JSON, if there are any, and no step of the run lets an exception through. -/
theorem loop_returns_iff :
    (runLoop S W).1.turn ≤ maxTurns ∧
      ((∃ result, runLoopResult N S C criteria W = .ok result ∧ HasOk result) ↔
        ((safeParams S).truthy = true → (safeParams S).dumpable = true) ∧
          ∀ step ∈ runSteps S W, Harmless S W N criteria step) := by
  refine ⟨?_, ?_⟩
  · have bounded := turns_turn S W maxTurns (initialState S)
    rwa [show (initialState S).turn = 0 from rfl, Nat.zero_add] at bounded
  · rw [runSteps, ← loopSteps_harmless S W N C criteria maxTurns (initialState S) (Nat.zero_le _), runLoopResult]
    split
    · rename_i opaqueParams
      rw [Bool.and_eq_true, Bool.not_eq_true'] at opaqueParams
      refine iff_of_false nofun fun both => ?_
      rw [both.1 opaqueParams.1] at opaqueParams
      exact absurd opaqueParams.2 (by decide)
    · rename_i plain
      rw [and_iff_right fun filled => by simpa [filled] using plain]
      rfl

end

/-! A call whose arguments decode to a list. -/

def listCall : ToolCall :=
  { id := some "call-1", name := some (str "web_search"), arguments := some (list []) }

def listWorld : World :=
  { mailWorld with
    llm := fun turn => .responded
      { swarmsync := none, totalTokens := some 100
        message := some { content := str "done", toolCalls := if turn = 1 then [listCall] else [] } } }

def midnight : LoopSurroundings :=
  let zero : PyFloat := ⟨"0.0", some 0, zero_plain⟩
  ⟨"/tmp/job-1", zero, zero, zero, fun _ => ⟨zero, zero, zero⟩⟩

theorem list_arguments_raise :
    ¬∀ (S : Setting) (W : World) (N : Numerals) (C : LoopSurroundings) (criteria : List Value),
      (runLoop S W).1.turn ≤ maxTurns ∧
        ∃ result, runLoopResult N S C criteria W = .ok result ∧ HasOk result := by
  intro returns
  rcases returns mailSetting listWorld noNumerals midnight [] with ⟨-, result, returned, -⟩
  have raises : runLoopResult noNumerals mailSetting midnight [] listWorld =
      .error (.loop .attributeError) := rfl
  rw [raises] at returned
  contradiction

end GenesisAgents
