import GenesisAgents.Envelope

/-! `AgentRuntime._run_loop` of `agent_runtime.py` up to the final answer: turns, limits, and the
dispatch of every tool call. The replies of the model, the tools, the grant store and the audit
store come from a `World`; everything the loop does to them is recorded in order. -/

namespace GenesisAgents

open Value

def maxTurns : Nat := 10
def maxLlmCalls : Nat := 10
def maxTokensPerJob : Int := 50000
def maxFilesWritten : Nat := 20

/-- What the loop reads of a skill bundle, defaults already filled in. -/
structure Bundle where
  slug : String
  systemPrompt : String
  toolsAdvertised : List String
  tokenBudget : Int
  conduitBudgetCents : Int

/-- The names `augment_tools_advertised` adds for an accounting specialist. -/
def financeosTools : List String :=
  ["financeos_invoice_proof", "financeos_verify_api", "financeos_get_invoice_proof",
   "financeos_get_verify_api"]

def appendMissing (tools : List String) (name : String) : List String :=
  if tools.contains name then tools else tools ++ [name]

def augmentToolsAdvertised (agentSlug : String) (tools : List String) : List String :=
  if "genesis-e4l-".toList.isPrefixOf agentSlug.toList then
    financeosTools.foldl appendMissing (appendMissing tools "xero_scoped_invoke")
  else tools

/-- What stays fixed during one call of `_run_loop`. -/
structure Setting where
  unicode : Unicode
  tables : PolicyTables
  /-- The names registered in `tools._TOOLS`. -/
  registry : List String
  bundle : Bundle
  task : String
  params : Value
  jobId : String
  sessionId : String
  delegationChain : List String
  delegationDepth : Nat
  delegatedAllowedRisks : Option (List Risk)

namespace Setting

def slug (S : Setting) : String := S.bundle.slug

def toolsAdvertised (S : Setting) : List String :=
  augmentToolsAdvertised S.slug S.bundle.toolsAdvertised

end Setting

/-- The signed grant and its owner, stripped from the parameters before the model sees them. -/
structure DeploymentContext where
  grant : String
  principalId : String
  tenantId : String
  deriving DecidableEq

def deploymentSideEffectAuthorized (U : Unicode) (params : Value) : DeploymentContext × Value :=
  let clean := dict params.items
  let context : DeploymentContext :=
    { grant := textOr U (clean.get "_action_grant")
      principalId := textOr U (clean.get "_request_principal_id")
      tenantId := textOr U (clean.get "_request_tenant_id") }
  (context, (((clean.erase "_action_grant").erase "_request_principal_id").erase
    "_request_tenant_id").erase "_deployment_approval_token")

/-- One tool call of a model reply. The name is any JSON; `arguments` is `none` when `json.loads` raises on its
text. -/
structure ToolCall where
  id : Option String
  name : Option Value
  arguments : Option Value

namespace ToolCall

def tcId (call : ToolCall) : String := call.id.getD "unknown"
def nameValue (call : ToolCall) : Value := call.name.getD (str "")
def args (call : ToolCall) : Value := call.arguments.getD (dict [])

def fnName? (call : ToolCall) : Option String :=
  match call.nameValue with
  | str fnName => some fnName
  | _ => none

def fnName (call : ToolCall) : String := call.fnName?.getD ""

/-- `is_prohibited` looks the name up in sets: a list or an object is not hashable. -/
def hashable (call : ToolCall) : Bool :=
  match call.nameValue with
  | list _ => false
  | dict _ => false
  | _ => true

end ToolCall

structure AssistantMessage where
  content : Value
  toolCalls : List ToolCall

structure LlmResponse where
  /-- `response["swarmsync"]`, when it is a dict. -/
  swarmsync : Option Value
  /-- `int(usage.get("total_tokens", 0) or 0)`; `none` when reading it raises. -/
  totalTokens : Option Int
  /-- `choices[0]["message"]`; `none` when there are no choices. -/
  message : Option AssistantMessage

inductive LlmReply where
  | raised (type message : String)
  | responded (response : LlmResponse)

/-- What awaiting a tool yields; `charged` is what the call added to this job's delegated tokens. -/
inductive ToolReply where
  | raised (type message : String) (charged : Int)
  /-- A container that `json.dumps` cannot walk, because it holds itself or nests too deep, is an `object`. -/
  | returned (result : Value) (charged : Int)
  /-- An exception that is no `Exception`: the task is cancelled while it waits for the tool. -/
  | cancelled (charged : Int)

def ToolReply.charged : ToolReply → Int
  | raised _ _ charged => charged
  | returned _ charged => charged
  | cancelled charged => charged

/-- The outside of the loop. Replies to dispatch number `n` are read at `n`. -/
structure World where
  timedOut : Nat → Bool
  llm : Nat → LlmReply
  requestId : Nat → String
  /-- Does `consume_action_grant` return? -/
  grant : Nat → Bool
  /-- Does `append_tool_intent` return? -/
  intent : Nat → Bool
  tool : Nat → ToolReply
  /-- Does `append_tool_event` return? -/
  event : Nat → Bool

structure ToolContext where
  parentJobId : String
  sessionId : String
  agentSlug : String
  allowedXeroOperations : Value
  scopeMapVersion : Value
  executionRealm : Value
  delegationChain : List String
  delegationDepth : Nat
  remainingTokenBudget : Int
  remainingCostBudgetCents : Int

/-- The keyword names of the context: the same name among the arguments is a `TypeError`. -/
def contextKeys : List String :=
  ["_bridge", "_job_dir", "_runtime", "_parent_job_id", "_session_id", "_parent_agent_slug",
   "_agent_slug", "_allowed_xero_operations", "_scope_map_version", "_execution_realm",
   "_delegation_chain", "_delegation_depth", "_remaining_token_budget",
   "_remaining_cost_budget_cents"]

inductive Effect where
  | consumeGrant (context : DeploymentContext) (tool : String) (args : Value) (accepted : Bool)
  | appendIntent (sessionId tool : String) (args : Value) (stored : Bool)
  | invoke (tool : String) (args : Value) (context : ToolContext)
  | appendEvent (sessionId tool : String) (args outputs : Value) (stored : Bool)

inductive Message where
  | system (content : String)
  | user (task : String) (params : Value)
  | assistant (message : AssistantMessage)
  /-- The content is `json.dumps(result)`, cut at four megabytes. -/
  | tool (toolCallId : String) (result : Value)

structure ToolRecord where
  turn : Nat
  toolName : Value
  toolCallId : String
  arguments : List (String × Value)
  ok : Bool
  result : Value

structure SubagentRecord where
  childJobId : Value
  childSessionId : Value
  childAgentSlug : Value
  task : Value
  childOk : Value

/-- What escapes the loop. -/
inductive Raised where
  | unboundLocal | attributeError | typeError
  /-- `json.dumps` refuses the value: an object it does not know, or an integer of too many digits. -/
  | unencodable
  | cancelled
  deriving DecidableEq, Repr

/-- The account of one tool call: the refusal computed for it, whether its tool was called, and the
message appended for it (`none` when the loop raised first). -/
structure Dispatch where
  call : ToolCall
  refusal : Option Value
  invoked : Bool
  appended : Option Message

structure LoopState where
  turn : Nat
  llmCalls : Nat
  totalTokens : Int
  filesWritten : Nat
  messages : List Message
  toolCallRecords : List ToolRecord
  subagentRecords : List SubagentRecord
  lastSwarmsync : Option Value
  /-- The local `deployment_authorized`; `none` while unbound. -/
  deploymentAuthorized : Option Bool
  delegatedTokensSpent : Int
  delegatedCentsSpent : Int
  effects : List Effect
  dispatches : List Dispatch

namespace LoopState

def dispatched (σ : LoopState) : Nat := σ.dispatches.length

end LoopState

/-- The local `deployment_context` -/
def Setting.deploymentContext (S : Setting) : DeploymentContext :=
  (deploymentSideEffectAuthorized S.unicode S.params).1

def initialState (S : Setting) : LoopState :=
  { turn := 0, llmCalls := 0, totalTokens := 0, filesWritten := 0
    messages := [.system S.bundle.systemPrompt,
      .user S.task (deploymentSideEffectAuthorized S.unicode S.params).2]
    toolCallRecords := [], subagentRecords := [], lastSwarmsync := none
    deploymentAuthorized := none, delegatedTokensSpent := 0, delegatedCentsSpent := 0
    effects := [], dispatches := [] }

/-- `remaining_delegation_budget` -/
def remainingDelegationBudget (S : Setting) (σ : LoopState) : Int × Int :=
  (max 0 (S.bundle.tokenBudget - σ.totalTokens - σ.delegatedTokensSpent),
   max 0 (S.bundle.conduitBudgetCents - σ.delegatedCentsSpent))

def toolContext (S : Setting) (σ : LoopState) : ToolContext :=
  let remaining := remainingDelegationBudget S σ
  { parentJobId := S.jobId, sessionId := S.sessionId, agentSlug := S.slug
    allowedXeroOperations := S.params.get "allowed_xero_operations"
    scopeMapVersion := S.params.get "scope_map_version"
    executionRealm := S.params.get "execution_realm"
    delegationChain := S.delegationChain ++ [S.slug], delegationDepth := S.delegationDepth
    remainingTokenBudget := remaining.1, remainingCostBudgetCents := remaining.2 }

/-! The refusals the loop writes itself. -/

def refusalResult (error tool : String) (rest : List (String × Value)) : Value :=
  dict ([("ok", bool false), ("error", str error), ("tool", str tool)] ++ rest)

def toolNotAllowed (tool : String) : Value := refusalResult "tool_not_allowed" tool []

def toolPolicyDenied (tool : String) (risk : Risk) : Value :=
  refusalResult "tool_policy_denied" tool [("risk_class", str risk.name)]

def delegationPrivilegeEscalation (tool : String) (risk : Risk) : Value :=
  refusalResult "delegation_privilege_escalation" tool [("risk_class", str risk.name)]

def deploymentApprovalRequired (tool : String) : Value :=
  refusalResult "deployment_approval_required" tool [("risk_class", str Risk.deployment.name)]

def fileWriteLimitExceeded (filesWritten : Nat) : Value :=
  dict [("ok", bool false), ("error", str "file_write_limit_exceeded"),
    ("files_written", int filesWritten), ("limit", int maxFilesWritten)]

def auditPreflightFailed (tool : String) : Value := refusalResult "audit_preflight_failed" tool []

def auditAppendFailed (tool : String) : Value := refusalResult "audit_append_failed" tool []

def toolException (type message : String) : Value :=
  dict [("ok", bool false), ("error", str "tool_exception"), ("type", str type),
    ("message", str message)]

/-- What the first `if`/`elif` chain of the policy branch leaves: `tool_result` when it set one,
and the local `deployment_authorized`. -/
structure PolicyOutcome where
  toolResult : Option Value
  deploymentAuthorized : Option Bool
  effects : List Effect

def escalates (S : Setting) (risk : Risk) : Bool :=
  match S.delegatedAllowedRisks with
  | none => false
  | some risks => !risks.contains risk

def policyChain (S : Setting) (W : World) (σ : LoopState) (fnName : String) (args : Value)
    (policy : Policy) : PolicyOutcome :=
  if !policy.ok then
    ⟨some (toolPolicyDenied fnName policy.riskClass), σ.deploymentAuthorized, []⟩
  else if escalates S policy.riskClass then
    ⟨some (delegationPrivilegeEscalation fnName policy.riskClass), σ.deploymentAuthorized, []⟩
  else if policy.riskClass = .deployment then
    let accepted := W.grant σ.dispatched
    ⟨none, some accepted,
      [.consumeGrant S.deploymentContext fnName args accepted]⟩
  else ⟨none, σ.deploymentAuthorized, []⟩

inductive Verdict where
  /-- `deployment_authorized` is read before it is bound. -/
  | unbound
  | refuse (result : Value)
  | proceed

def quotaChain (σ : LoopState) (fnName : String) : Verdict :=
  if fnName = "file_write" ∧ maxFilesWritten ≤ σ.filesWritten then
    .refuse (fileWriteLimitExceeded σ.filesWritten)
  else .proceed

/-- The second `if`/`elif` chain. It is not an `else` of the first one: it also runs after a refusal. -/
def approvalChain (σ : LoopState) (fnName : String) (policy : Policy)
    (deploymentAuthorized : Option Bool) : Verdict :=
  if policy.riskClass = .deployment then
    match deploymentAuthorized with
    | none => .unbound
    | some false => .refuse (deploymentApprovalRequired fnName)
    | some true => quotaChain σ fnName
  else quotaChain σ fnName

/-- The end of one dispatch, before the audit record: `tool_result`, `tool_executed`, whether the
tool function was entered and its await cancelled, and the counters. -/
structure Attempt where
  toolResult : Value
  toolExecuted : Bool
  invoked : Bool
  cancelled : Bool
  filesWritten : Nat
  delegatedTokensSpent : Int
  effects : List Effect

def Attempt.refused (σ : LoopState) (result : Value) : Attempt :=
  { toolResult := result, toolExecuted := false, invoked := false, cancelled := false
    filesWritten := σ.filesWritten, delegatedTokensSpent := σ.delegatedTokensSpent, effects := [] }

/-- `tool(**args, **ctx)` raises before it enters the tool unless `args` is a mapping whose keys do
not clash with the context. -/
def kwargsBind (args : Value) : Bool :=
  args.isDict && args.items.all fun kv => !contextKeys.contains kv.1

def runTool (S : Setting) (W : World) (σ : LoopState) (fnName : String) (args : Value) : Attempt :=
  if kwargsBind args then
    let reply := W.tool σ.dispatched
    let result := match reply with
      | .raised type message _ => toolException type message
      | .returned value _ => value
      | .cancelled _ => null
    let written := match reply with
      | .returned value _ => fnName == "file_write" && value.isDict && (value.get "ok").truthy
      | _ => false
    let cancelled := match reply with
      | .cancelled _ => true
      | _ => false
    { toolResult := result, toolExecuted := true, invoked := true, cancelled := cancelled
      filesWritten := if written then σ.filesWritten + 1 else σ.filesWritten
      delegatedTokensSpent := σ.delegatedTokensSpent + max 0 reply.charged
      effects := [.invoke fnName args (toolContext S σ)] }
  else
    { Attempt.refused σ (toolException "TypeError" "invalid keyword arguments") with
      toolExecuted := true }

def executeTool (S : Setting) (W : World) (σ : LoopState) (fnName : String) (args : Value)
    (policy : Policy) : Attempt :=
  if policy.riskClass = .readOnly then runTool S W σ fnName args
  else
    let stored := W.intent σ.dispatched
    let intent := Effect.appendIntent S.sessionId fnName args stored
    let attempt := if stored then runTool S W σ fnName args
      else Attempt.refused σ (auditPreflightFailed fnName)
    { attempt with effects := intent :: attempt.effects }

/-- Every branch of the dispatch: the refusal it computed, the local `deployment_authorized`, and
the attempt, which is missing when the unbound local is read. -/
structure Branch where
  refusal : Option Value
  deploymentAuthorized : Option Bool
  attempt : Option Attempt

def dispatchBranch (S : Setting) (W : World) (σ : LoopState) (fnName : String) (args : Value) :
    Branch :=
  if isProhibited S.tables fnName S.slug then
    let refusal := Envelope.prohibitedRefusal (W.requestId σ.dispatched) fnName
      (prohibitionGroup S.tables fnName) (str S.slug)
    ⟨some refusal, σ.deploymentAuthorized, some (.refused σ refusal)⟩
  else if !S.registry.contains fnName || !S.toolsAdvertised.contains fnName then
    let refusal := toolNotAllowed fnName
    ⟨some refusal, σ.deploymentAuthorized, some (.refused σ refusal)⟩
  else
    let policy := checkToolPolicy S.tables S.slug fnName
    let outcome := policyChain S W σ fnName args policy
    let attempt := match approvalChain σ fnName policy outcome.deploymentAuthorized with
      | .unbound => none
      | .refuse result => some { Attempt.refused σ result with effects := outcome.effects }
      | .proceed =>
        let attempt := executeTool S W σ fnName args policy
        some { attempt with effects := outcome.effects ++ attempt.effects }
    ⟨outcome.toolResult, outcome.deploymentAuthorized, attempt⟩

/-- The branch of a call: a name that is no text is refused as unknown, and one that is not hashable has no
attempt. -/
def callBranch (S : Setting) (W : World) (σ : LoopState) (call : ToolCall) : Branch :=
  match call.fnName? with
  | some fnName => dispatchBranch S W σ fnName call.args
  | none =>
    if call.hashable then
      let refusal := dict [("ok", bool false), ("error", str "tool_not_allowed"), ("tool", call.nameValue)]
      ⟨some refusal, σ.deploymentAuthorized, some (.refused σ refusal)⟩
    else ⟨none, σ.deploymentAuthorized, none⟩

/-- `record["target_agent_slug"]` and the other delegation fields of a `genesis_call` result. -/
def subagentRecord (args result : Value) : SubagentRecord :=
  { childJobId := result.get "child_job_id"
    childSessionId := result.get "child_session_id"
    childAgentSlug := (result.get "target_agent_slug").orElse (result.getD "agent" (str ""))
    task := args.getD "task" (str "")
    childOk := result.getD "child_ok" (bool (result.get "ok").truthy) }

def toolRecord (σ : LoopState) (call : ToolCall) (items : List (String × Value)) (result : Value) :
    ToolRecord :=
  { turn := σ.turn, toolName := call.nameValue, toolCallId := call.tcId
    arguments := items.filter fun kv => !"_".toList.isPrefixOf kv.1.toList
    ok := result.isDict && (result.get "ok").truthy
    result := result }

/-- The result left after the audit record: an executed call that cannot be recorded fails. -/
def answer (W : World) (σ : LoopState) (call : ToolCall) (attempt : Attempt) : Value :=
  if attempt.toolExecuted && !W.event σ.dispatched then auditAppendFailed call.fnName
  else attempt.toolResult

/-- From the audit record to the history message. The record reads `args.items()`, and both the
record of a dict result and the message go through `json.dumps`. -/
def conclude (S : Setting) (W : World) (σ : LoopState) (call : ToolCall) (branch : Branch)
    (attempt : Attempt) : LoopState × Option Raised :=
  let stored := W.event σ.dispatched
  let outputs := if attempt.toolResult.isDict then attempt.toolResult else dict [("ok", bool false)]
  let events := if attempt.toolExecuted then
    [Effect.appendEvent S.sessionId call.fnName call.args outputs stored] else []
  let result := answer W σ call attempt
  let account (appended : Option Message) : Dispatch :=
    { call := call, refusal := branch.refusal, invoked := attempt.invoked, appended := appended }
  let base : LoopState :=
    { σ with
      filesWritten := attempt.filesWritten
      deploymentAuthorized := branch.deploymentAuthorized
      delegatedTokensSpent := attempt.delegatedTokensSpent
      effects := σ.effects ++ attempt.effects ++ events }
  match call.args with
  | .dict items =>
    if result.dumpable then
      let message := Message.tool call.tcId result
      ({ base with
          toolCallRecords := σ.toolCallRecords ++ [toolRecord σ call items result]
          subagentRecords := if call.fnName = "genesis_call" ∧ result.isDict
            then σ.subagentRecords ++ [subagentRecord call.args result] else σ.subagentRecords
          messages := σ.messages ++ [message]
          dispatches := σ.dispatches ++ [account (some message)] }, none)
    else ({ base with dispatches := σ.dispatches ++ [account none] }, some .unencodable)
  | _ => ({ base with dispatches := σ.dispatches ++ [account none] }, some .attributeError)

def abandon (σ : LoopState) (call : ToolCall) (branch : Branch) (attempt : Attempt) :
    LoopState × Option Raised :=
  ({ σ with
      filesWritten := attempt.filesWritten
      deploymentAuthorized := branch.deploymentAuthorized
      delegatedTokensSpent := attempt.delegatedTokensSpent
      effects := σ.effects ++ attempt.effects
      dispatches := σ.dispatches ++
        [{ call := call, refusal := branch.refusal, invoked := attempt.invoked, appended := none }] },
    some .cancelled)

/-- One iteration of `for tc in tool_calls`. -/
def dispatch (S : Setting) (W : World) (σ : LoopState) (call : ToolCall) :
    LoopState × Option Raised :=
  let branch := callBranch S W σ call
  match branch.attempt with
  | some attempt =>
    if attempt.cancelled then abandon σ call branch attempt else conclude S W σ call branch attempt
  | none =>
    ({ σ with
        deploymentAuthorized := branch.deploymentAuthorized
        dispatches := σ.dispatches ++
          [{ call := call, refusal := branch.refusal, invoked := false, appended := none }] },
      some (if call.hashable then .unboundLocal else .typeError))

def dispatchAll (S : Setting) (W : World) : LoopState → List ToolCall → LoopState × Option Raised
  | σ, [] => (σ, none)
  | σ, call :: rest =>
    match dispatch S W σ call with
    | (σ', none) => dispatchAll S W σ' rest
    | (σ', some error) => (σ', some error)

/-- The answer the loop ends with, before the success criteria are evaluated on it. -/
structure FinalAnswer where
  response : Value
  turns : Nat
  llmCalls : Nat
  totalTokens : Int
  filesWritten : Nat
  toolCalls : List ToolRecord
  subagents : List SubagentRecord
  swarmsync : Option Value

inductive LoopResult where
  | timeout (turnsCompleted : Nat)
  | llmCallLimitExceeded (llmCalls : Nat)
  | llmCallFailed (type message : String)
  | tokenBudgetExceeded (totalTokens : Int)
  | noChoicesInLlmResponse
  | finalAnswer (answer : FinalAnswer)
  | maxTurnsReached (turns llmCalls : Nat) (totalTokens : Int) (filesWritten : Nat)
  | raised (error : Raised)

def finalAnswer (σ : LoopState) (content : Value) : FinalAnswer :=
  { response := content, turns := σ.turn, llmCalls := σ.llmCalls, totalTokens := σ.totalTokens
    filesWritten := σ.filesWritten, toolCalls := σ.toolCallRecords
    subagents := σ.subagentRecords, swarmsync := σ.lastSwarmsync }

def receive (σ : LoopState) (response : LlmResponse) : LoopState :=
  { σ with
    llmCalls := σ.llmCalls + 1
    lastSwarmsync := response.swarmsync.orElse fun _ => σ.lastSwarmsync
    totalTokens := σ.totalTokens + response.totalTokens.getD 0 }

/-- One turn; `none` continues the loop. -/
def turn (S : Setting) (W : World) (σ₀ : LoopState) : LoopState × Option LoopResult :=
  let σ := { σ₀ with turn := σ₀.turn + 1 }
  if W.timedOut σ.turn then (σ, some (.timeout (σ.turn - 1)))
  else if maxLlmCalls ≤ σ.llmCalls then (σ, some (.llmCallLimitExceeded σ.llmCalls))
  else match W.llm σ.turn with
    | .raised type message => (σ, some (.llmCallFailed type message))
    | .responded response =>
      let σ := receive σ response
      if maxTokensPerJob < σ.totalTokens then (σ, some (.tokenBudgetExceeded σ.totalTokens))
      else match response.message with
        | none => (σ, some .noChoicesInLlmResponse)
        | some msg =>
          if msg.toolCalls.isEmpty then (σ, some (.finalAnswer (finalAnswer σ msg.content)))
          else
            let σ := { σ with messages := σ.messages ++ [.assistant msg] }
            match dispatchAll S W σ msg.toolCalls with
            | (σ', none) => (σ', none)
            | (σ', some error) => (σ', some (.raised error))

/-- `while turn < MAX_TURNS`, with the turns that are left. -/
def turns (S : Setting) (W : World) : Nat → LoopState → LoopState × LoopResult
  | 0, σ => (σ, .maxTurnsReached σ.turn σ.llmCalls σ.totalTokens σ.filesWritten)
  | left + 1, σ =>
    match turn S W σ with
    | (σ', some result) => (σ', result)
    | (σ', none) => turns S W left σ'

def runLoop (S : Setting) (W : World) : LoopState × LoopResult :=
  turns S W maxTurns (initialState S)

end GenesisAgents
