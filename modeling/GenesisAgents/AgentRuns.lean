import GenesisAgents.DispatchSteps
import GenesisAgents.EscrowOwnership

/-! From a request to the runs of the loop: both branches of `verify_agent_principal`,
`execute_agent` of `agent_runtime.py`, and `genesis_call`, through which a run starts a child. -/

namespace GenesisAgents

open Value

/-! `verify_agent_principal` of `main.py`. -/

/-- `GATEWAY_API_KEY` and `AGENT_GATEWAY_SECRET` -/
structure GatewayKeys where
  apiKey : Option String
  gatewaySecret : Option String

structure CallerHeaders where
  envelope : Headers
  apiKey : Option String
  gatewaySecret : Option String

def AuthFailure.refusal : AuthFailure → Refusal
  | .authentication detail => ⟨401, detail⟩
  | _ => ⟨500, "Internal Server Error"⟩

def invalidApiKey : Refusal := ⟨401, "Invalid or missing X-Agent-Api-Key"⟩

def checkKey (given expected : String) (otherwise : Except Refusal Unit) : Except Refusal Unit :=
  match compareDigest given expected with
  | .error failure => .error failure.refusal
  | .ok true => .ok ()
  | .ok false => otherwise

def verifyGatewayKey (keys : GatewayKeys) (headers : CallerHeaders) : Except Refusal Unit :=
  if isSet keys.apiKey then
    checkKey (headers.apiKey.getD "") (keys.apiKey.getD "")
      (if isSet keys.gatewaySecret then
        checkKey (headers.gatewaySecret.getD "") (keys.gatewaySecret.getD "") (.error invalidApiKey)
      else .error invalidApiKey)
  else .error ⟨503, "Gateway authentication is not configured"⟩

def legacyGatewayPrincipal (now : Int) : Principal :=
  { principalId := "legacy:gateway", tenantId := "legacy", clientId := "legacy-gateway"
    scopes := ["agent.invoke", "agent.list", "agent.health", "job.read", "artifact.read"]
    authMethod := "legacy_gateway", expiresAt := now + 60 }

/-- `verify_agent_principal`; its AP2 branch is `verifyAgentPrincipal`. -/
def callingPrincipal (A : Authority) (keys : GatewayKeys) (now : Moment) (body : Value)
    (headers : CallerHeaders) (routeSlug : String) : Except Refusal Principal :=
  if isSet headers.envelope.version || isSet headers.envelope.pubkey then
    (verifyAgentPrincipal A now body headers.envelope routeSlug).mapError AuthFailure.refusal
  else (verifyGatewayKey keys headers).map fun _ => legacyGatewayPrincipal now.current

/-! `dict(params)` -/

def unpackPair : Value → Option (Value × Value)
  | list [key, v] => some (key, v)
  | dict [(key, _), (other, _)] => some (str key, str other)
  | str s => match s.toList with
    | [key, other] => some (str (String.singleton key), str (String.singleton other))
    | _ => none
  | _ => none

def hashable : Value → Bool
  | list _ => false
  | dict _ => false
  | _ => true

/-- One element; a key that is no text stays in the dict, where nothing reads it. -/
def insertPair (d element : Value) : Option Value :=
  match unpackPair element with
  | some (str key, v) => some (d.insert key v)
  | some (key, _) => if hashable key then some d else none
  | none => none

/-- `none` when it raises. -/
def dictOf : Value → Option Value
  | dict items => some (dict items)
  | list elements => elements.foldlM insertPair (dict [])
  | _ => none

/-! `execute_agent` -/

/-- A file of `skill_bundles`. -/
structure SkillBundle where
  slug : String
  systemPrompt : String
  toolsAdvertised : List String
  tokenBudget : Option Int
  conduitBudgetCents : Option Int

structure Platform where
  authority : Authority
  keys : GatewayKeys
  deployment : Deployment
  columns : Columns
  /-- What a `jsonb` column gives back for what was written. -/
  readJson : Value → Value
  loadBundle : String → Option SkillBundle
  registry : List String
  /-- The prompt of an accounting specialist; `none` when its packs do not load. -/
  enrichPrompt : SkillBundle → Value → String → Option String
  /-- Does the vault hold a buyer session for the job? -/
  buyerSession : String → Bool

structure AgentCall where
  slug : String
  task : String
  params : Value
  jobId : String
  sessionId : String
  delegationChain : List String
  delegationDepth : Nat
  delegatedAllowedRisks : Option (List Risk)
  inheritedTokenBudget : Option Int
  inheritedCostBudgetCents : Option Int

/-- A call of `_run_loop`. -/
structure AgentRun where
  setting : Setting
  /-- Are the parameters a mapping? Anything else raises when the context of a tool reads it. -/
  mapping : Bool

def inheritBudget (own : Option Int) : Option Int → Option Int
  | none => own
  | some inherited => some (min (own.getD inherited) (max 0 inherited))

def specializedPrompt (E : Platform) (bundle : SkillBundle) (call : AgentCall) : Option String :=
  if e4lSpecialists.contains bundle.slug then E.enrichPrompt bundle call.params call.task
  else some bundle.systemPrompt

/-- A job with a buyer session is refused; what is no mapping cannot be a dict. -/
def loopParams (E : Platform) (bundle : SkillBundle) (call : AgentCall) : Option Value :=
  if bundle.toolsAdvertised.contains "conduit" && E.buyerSession call.jobId then none
  else dictOf (call.params.orElse (dict []))

/-- `execute_agent` up to the loop; `none` when it ends before the first turn. -/
def executeAgent (E : Platform) (call : AgentCall) : Option AgentRun := do
  let bundle ← E.loadBundle call.slug
  let systemPrompt ← specializedPrompt E bundle call
  let params ← loopParams E bundle call
  some
    { setting :=
        { unicode := E.deployment.unicode, tables := productionTables, registry := E.registry
          bundle :=
            { slug := bundle.slug, systemPrompt := systemPrompt
              toolsAdvertised := bundle.toolsAdvertised
              tokenBudget := (inheritBudget bundle.tokenBudget call.inheritedTokenBudget).getD 4000
              conduitBudgetCents :=
                (inheritBudget bundle.conduitBudgetCents call.inheritedCostBudgetCents).getD 0 }
          task := call.task, params := params, jobId := call.jobId, sessionId := call.sessionId
          delegationChain := call.delegationChain, delegationDepth := call.delegationDepth
          delegatedAllowedRisks := call.delegatedAllowedRisks }
      mapping := call.params.isDict }

def Effect.needsContext : Effect → Bool
  | .invoke _ _ _ => true
  | .appendEvent _ _ _ _ _ => true
  | _ => false

/-- What a run does; parameters that are no mapping end it at the first tool context. -/
def AgentRun.effects (run : AgentRun) (W : World) : List Effect :=
  if run.mapping then (runLoop run.setting W).1.effects
  else (runLoop run.setting W).1.effects.takeWhile fun effect => !effect.needsContext

/-! `genesis_call` -/

def maxDelegationDepth : Nat := 3

def delegationTargets : List (String × List String) :=
  [("genesis-meta",
    ["genesis-research", "genesis-finance", "genesis-pricing", "genesis-legal", "genesis-analyst",
     "genesis-content", "genesis-marketing", "genesis-seo", "genesis-support"])]

/-- The call of `execute_agent` for the child; `none` when the delegation is refused or raises. -/
def genesisCall (E : Platform) (args : Value) (context : ToolContext)
    (childJobId childSessionId : String) : Option AgentCall :=
  match args.get? "agent", args.get? "task" with
  | some (str agent), some (str task) =>
    match E.loadBundle agent with
    | none => none
    | some target =>
      if !((delegationTargets.lookup context.agentSlug).getD []).contains target.slug then none
      else if maxDelegationDepth ≤ context.delegationDepth then none
      else if context.delegationChain.contains target.slug || target.slug == context.agentSlug then
        none
      else some
        { slug := target.slug, task := task, params := (args.get "params").orElse (dict [])
          jobId := childJobId, sessionId := childSessionId
          delegationChain := context.delegationChain ++ [context.agentSlug]
          delegationDepth := context.delegationDepth + 1
          delegatedAllowedRisks := some (productionTables.allowedRisks context.agentSlug)
          inheritedTokenBudget := some context.remainingTokenBudget
          inheritedCostBudgetCents := some context.remainingCostBudgetCents }
  | _, _ => none

def rootCall (slug task : String) (params : Value) (jobId sessionId : String) : AgentCall :=
  { slug := slug, task := task, params := params, jobId := jobId, sessionId := sessionId
    delegationChain := [], delegationDepth := 0, delegatedAllowedRisks := none
    inheritedTokenBudget := none, inheritedCostBudgetCents := none }

/-- The calls of `execute_agent` a route leads to: at once, or by the worker from the new row. -/
inductive Starts (E : Platform) : Execution → AgentCall → Prop
  | sync (slug prompt : String) (params : Value) (jobId sessionId : String) :
      Starts E (.runtime slug prompt params) (rootCall slug prompt params jobId sessionId)
  | worker {new : NewJob} {opened : Bool} {keyed : String → Option JobId} {id : JobId}
      {createdAt : Int} {row : JobRow} (sessionId : String)
      (stored : createJob E.columns keyed new id createdAt = some (.inserted row)) :
      Starts E (.enqueue new opened) (rootCall row.agentSlug row.prompt
        ((E.readJson row.params).orElse (dict [])) row.id sessionId)

/-- The runs that come of what a route hands over, with what happens around them. -/
inductive Caused (E : Platform) (work : Execution) : AgentRun → World → Prop
  | root {call : AgentCall} {run : AgentRun} (W : World) (starts : Starts E work call)
      (executed : executeAgent E call = some run) : Caused E work run W
  | child {parent child : AgentRun} {W : World} {args : Value} {context : ToolContext}
      {childJobId childSessionId : String} {call : AgentCall} (W' : World)
      (above : Caused E work parent W)
      (invoked : .invoke "genesis_call" args context ∈ parent.effects W)
      (delegated : genesisCall E args context childJobId childSessionId = some call)
      (executed : executeAgent E call = some child) : Caused E work child W'

/-- A request that was authenticated and that its route accepted. -/
structure Invocation (E : Platform) where
  route : Route
  slug : String
  body : Value
  headers : CallerHeaders
  now : Moment
  principal : Principal
  work : Execution
  authenticated : callingPrincipal E.authority E.keys now body headers slug = .ok principal
  accepted : handle E.deployment route slug body principal = .ok work

end GenesisAgents
