import GenesisAgents.AgentRuns
import GenesisAgents.DeploymentGate

/-! Whose grants a run spends. The identity at the deployment gate is read from the parameters, and
these come from the body of the request: the gateway writes the caller nowhere into them. -/

namespace GenesisAgents

open Value

section

variable (S : Setting) (W : World)

structure ReachesGrant (tool : String) : Prop where
  reached : reachesPolicy S tool = true
  accepted : (checkToolPolicy S.tables S.slug tool).ok = true
  deploys : (checkToolPolicy S.tables S.slug tool).riskClass = .deployment
  within : escalates S .deployment = false

def Effect.isConsumption : Effect → Bool
  | .consumeGrant _ _ _ _ => true
  | _ => false

theorem runTool_spends_nothing (σ : LoopState) (fnName : String) (args : Value) :
    ∀ effect ∈ (runTool S W σ fnName args).effects, effect.isConsumption = false := by
  unfold runTool
  split
  · simp [Effect.isConsumption]
  · simp [Attempt.refused]

theorem executeTool_spends_nothing (σ : LoopState) (fnName : String) (args : Value)
    (policy : Policy) :
    ∀ effect ∈ (executeTool S W σ fnName args policy).effects, effect.isConsumption = false := by
  have ran := runTool_spends_nothing S W σ fnName args
  unfold executeTool
  split
  · exact ran
  · intro effect member
    rcases List.mem_cons.mp member with rfl | member
    · rfl
    · split at member
      · exact ran effect member
      · contradiction

theorem eventEffects_spend_nothing (σ : LoopState) (call : ToolCall) (attempt : Attempt) :
    ∀ effect ∈ eventEffects S W σ call attempt, effect.isConsumption = false := by
  rw [eventEffects]
  split
  · simp [Effect.isConsumption]
  · simp

theorem policyChain_consumes (σ : LoopState) (fnName : String) (args : Value)
    (reached : reachesPolicy S fnName = true) (effect : Effect)
    (member : effect ∈ (policyChain S W σ fnName args
      (checkToolPolicy S.tables S.slug fnName)).effects) :
    ReachesGrant S fnName ∧
      effect = .consumeGrant S.deploymentContext fnName args (W.grant σ.dispatched) := by
  rw [policyChain] at member
  split at member
  · contradiction
  split at member
  · contradiction
  split at member
  · rename_i ok within deploys
    rw [deploys] at within
    exact ⟨⟨reached, by simpa using ok, deploys, by simpa using within⟩,
      List.mem_singleton.mp member⟩
  · contradiction

/-- Every call of `consume_action_grant` in a step presents the context of the run. -/
theorem step_consumes (step : DispatchStep) (effect : Effect)
    (member : effect ∈ step.effects S W) (spends : effect.isConsumption = true) :
    ReachesGrant S step.call.fnName ∧ effect =
      .consumeGrant S.deploymentContext step.call.fnName step.call.args
        (W.grant step.before.dispatched) := by
  rw [DispatchStep.effects] at member
  rcases attempted : step.attempt S W with _ | attempt
  · simp [attempted] at member
  rw [attempted, Option.elim_some] at member
  rcases List.mem_append.mp member with own | event
  · rw [DispatchStep.attempt] at attempted
    by_cases reaches : step.call.reaches S = true
    · have reached := (named_of_reaches S step.call reaches).2
      rw [callBranch_reached S W _ _ reaches, dispatchBranch_reached S W _ _ _ reached] at attempted
      dsimp only at attempted
      have chain := policyChain_consumes S W step.before step.call.fnName step.call.args reached
      split at attempted
      · contradiction
      · obtain rfl := Option.some.inj attempted
        exact chain effect own
      · obtain rfl := Option.some.inj attempted
        rcases List.mem_append.mp own with gate | tool
        · exact chain effect gate
        · have silent := executeTool_spends_nothing S W step.before step.call.fnName
            step.call.args _ effect tool
          rw [silent] at spends
          contradiction
    · rcases callBranch_unreached S W step.before step.call (by simpa using reaches) with
        missing | ⟨refusal, refused⟩
      · rw [missing] at attempted
        contradiction
      · rw [refused] at attempted
        obtain rfl := Option.some.inj attempted
        contradiction
  · have silent := eventEffects_spend_nothing S W step.before step.call attempt effect event
    rw [silent] at spends
    contradiction

theorem runLoop_consumes (effect : Effect) (member : effect ∈ (runLoop S W).1.effects)
    (spends : effect.isConsumption = true) :
    ∃ tool args accepted, ReachesGrant S tool ∧
      effect = .consumeGrant S.deploymentContext tool args accepted := by
  rcases runLoop_trace S W with ⟨steps, trace⟩
  rw [(trace_ledger S W trace).effects] at member
  rcases List.mem_flatMap.mp member with ⟨step, -, own⟩
  have consumed := step_consumes S W step effect own spends
  exact ⟨_, _, _, consumed.1, consumed.2⟩

end

/-! A tool that reaches the grant store can be asked for. -/

def askingWorld (tool : String) : World :=
  { timedOut := fun _ => false
    llm := fun turn => if turn = 1 then .responded
        { swarmsync := none, totalTokens := some 0
          message := some { content := null, toolCalls := [⟨none, some (str tool), none⟩] } }
      else .raised "RuntimeError" "no reply"
    requestId := fun _ => "", grant := fun _ => false, intent := fun _ => true
    tool := fun _ => .raised "RuntimeError" "no tool" 0, event := fun _ => true }

theorem dispatch_refused (S : Setting) (W : World) (σ : LoopState) (tool : String)
    (reaches : ReachesGrant S tool) (denied : W.grant σ.dispatched = false) :
    (dispatch S W σ ⟨none, some (str tool), none⟩).2 = none ∧
      (dispatch S W σ ⟨none, some (str tool), none⟩).1.effects =
        σ.effects ++ [.consumeGrant S.deploymentContext tool (dict []) false] := by
  have outcome : policyChain S W σ tool (dict []) (checkToolPolicy S.tables S.slug tool) =
      ⟨none, some false, [.consumeGrant S.deploymentContext tool (dict []) false]⟩ := by
    rw [policyChain, reaches.deploys, reaches.accepted, reaches.within, denied]
    rfl
  have approved : approvalChain σ tool (checkToolPolicy S.tables S.slug tool) (some false) =
      .refuse (deploymentApprovalRequired tool) := by
    unfold approvalChain
    rw [if_pos reaches.deploys]
  have branch : dispatchBranch S W σ tool (dict []) =
      ⟨none, some false, some { Attempt.refused σ (deploymentApprovalRequired tool) with
        effects := [.consumeGrant S.deploymentContext tool (dict []) false] }⟩ := by
    rw [dispatchBranch_reached S W σ tool (dict []) reaches.reached]
    simp only [outcome, approved]
  have named : callBranch S W σ ⟨none, some (str tool), none⟩ = dispatchBranch S W σ tool (dict []) := rfl
  rw [dispatch, named, branch]
  simp only [Attempt.refused, Bool.false_eq_true, if_false]
  exact ⟨conclude_continues S W σ _ _ _ rfl rfl, conclude_effects_eq S W σ _ _ _ rfl⟩

theorem asked_effects (S : Setting) (tool : String) (reaches : ReachesGrant S tool) :
    (runLoop S (askingWorld tool)).1.effects =
      [.consumeGrant S.deploymentContext tool (dict []) false] := by
  have refused (σ : LoopState) := dispatch_refused S (askingWorld tool) σ tool reaches rfl
  have free : (0 : Int) ≤ maxTokensPerJob := by decide
  have replies : Replies (askingWorld tool) (initialState S)
      { swarmsync := none, totalTokens := some 0
        message := some { content := null, toolCalls := [⟨none, some (str tool), none⟩] } }
      { content := null, toolCalls := [⟨none, some (str tool), none⟩] } :=
    { inTime := rfl, allowed := Nat.zero_lt_succ 9, reply := rfl, affordable := free, chosen := rfl }
  have ran (σ : LoopState) : dispatchAll S (askingWorld tool) σ [⟨none, some (str tool), none⟩] =
      ((dispatch S (askingWorld tool) σ ⟨none, some (str tool), none⟩).1, none) := by
    rw [dispatchAll_continues S _ σ _ [] (refused σ).1, dispatchAll]
  have first := turn_asks S (askingWorld tool) _ _ _ _ replies rfl (ran _)
  have counters (σ : LoopState) := dispatch_counters S (askingWorld tool) σ ⟨none, some (str tool), none⟩
  have fails (σ : LoopState) (once : σ.turn = 1) (called : σ.llmCalls = 1) :
      turn S (askingWorld tool) σ =
        ({ σ with turn := σ.turn + 1 }, some (.llmCallFailed "RuntimeError" "no reply")) := by
    rw [turn]
    simp only [askingWorld, once, called]
    rfl
  have budget : maxTurns = 8 + 1 + 1 := rfl
  rw [runLoop, budget, turns, first]
  dsimp only
  rw [turns, fails _ (counters _).1 (counters _).2.1]
  exact (refused _).2

theorem run_consumes (run : AgentRun) (W : World) (effect : Effect)
    (member : effect ∈ run.effects W) (spends : effect.isConsumption = true) :
    ∃ tool args accepted, ReachesGrant run.setting tool ∧
      effect = .consumeGrant run.setting.deploymentContext tool args accepted := by
  rw [AgentRun.effects] at member
  split at member
  · exact runLoop_consumes run.setting W effect member spends
  · exact runLoop_consumes run.setting W effect (List.takeWhile_subset _ member) spends

theorem asked_run_effects (run : AgentRun) (tool : String)
    (reaches : ReachesGrant run.setting tool) :
    run.effects (askingWorld tool) =
      [.consumeGrant run.setting.deploymentContext tool (dict []) false] := by
  rw [AgentRun.effects, asked_effects run.setting tool reaches]
  split <;> rfl

/-- What `execute_agent` passes on to the loop. -/
structure HandsOver (call : AgentCall) (run : AgentRun) : Prop where
  tables : run.setting.tables = productionTables
  params : dictOf (call.params.orElse (dict [])) = some run.setting.params
  risks : run.setting.delegatedAllowedRisks = call.delegatedAllowedRisks

theorem executeAgent_handsOver (E : Platform) (call : AgentCall) (run : AgentRun)
    (executed : executeAgent E call = some run) : HandsOver call run := by
  simp only [executeAgent, Option.bind_eq_bind, Option.bind_eq_some_iff] at executed
  rcases executed with ⟨bundle, -, systemPrompt, -, params, converted, same⟩
  unfold loopParams at converted
  split at converted
  · contradiction
  · obtain rfl := Option.some.inj same
    exact ⟨rfl, converted, rfl⟩

theorem genesisCall_risks (E : Platform) (args : Value) (context : ToolContext)
    (childJobId childSessionId : String) (call : AgentCall)
    (delegated : genesisCall E args context childJobId childSessionId = some call) :
    call.delegatedAllowedRisks = some (productionTables.allowedRisks "genesis-meta") := by
  unfold genesisCall at delegated
  split at delegated
  · split at delegated
    · contradiction
    · rename_i target found
      split_ifs at delegated with foreign deep cyclic
      obtain rfl := Option.some.inj delegated
      have parent : context.agentSlug = "genesis-meta" := by
        by_contra other
        have unlisted : delegationTargets.lookup context.agentSlug = none := by
          simp [delegationTargets, other]
        rw [unlisted] at foreign
        simp at foreign
      simp only [parent]
  · contradiction

/-- A delegated run never comes to the grant store: its parent has no deployment to pass on. -/
theorem child_reaches_nothing (E : Platform) (args : Value) (context : ToolContext)
    (childJobId childSessionId : String) (call : AgentCall) (child : AgentRun)
    (delegated : genesisCall E args context childJobId childSessionId = some call)
    (executed : executeAgent E call = some child) (tool : String) :
    ¬ReachesGrant child.setting tool := by
  intro reaches
  have within := reaches.within
  rw [escalates, (executeAgent_handsOver E call child executed).risks,
    genesisCall_risks E args context childJobId childSessionId call delegated] at within
  exact absurd within (by decide)

/-- Every call of `consume_action_grant` presents the principal, and what it could spend was issued to
the principal. -/
structure OwnGrants (P : Principal) (effects : List Effect) : Prop where
  context : ∀ context tool args accepted, .consumeGrant context tool args accepted ∈ effects →
    context.principalId = P.principalId ∧ context.tenantId = P.tenantId
  spendable : ∀ context tool args accepted, .consumeGrant context tool args accepted ∈ effects →
    ∀ A issued current spend, Decodes A issued → Honest A issued (context.use tool args) →
      checkGrant A (context.use tool args) current = .ok spend →
        ∃ r ∈ issued, context.grant = grantToken A (r.encoded A) ∧
          r.principalId = P.principalId ∧ r.tenantId = P.tenantId

theorem ownGrants_of_context (P : Principal) (effects : List Effect)
    (own : ∀ context tool args accepted, .consumeGrant context tool args accepted ∈ effects →
      context.principalId = P.principalId ∧ context.tenantId = P.tenantId) : OwnGrants P effects where
  context := own
  spendable := by
    intro context tool args accepted member A issued current spend decodes honest checked
    have presented := own context tool args accepted member
    rcases checked_agrees A issued decodes _ honest current spend checked with
      ⟨r, among, carries, terms⟩
    refine ⟨r, among, carries_token A _ r carries, ?_, ?_⟩
    · exact terms.principalId.symm.trans presented.1
    · exact terms.tenantId.symm.trans presented.2

/-- The parameters carry the ids of the principal. -/
def NamesCaller (S : Setting) (P : Principal) : Prop :=
  textOr S.unicode (S.params.get "_request_principal_id") = P.principalId ∧
    textOr S.unicode (S.params.get "_request_tenant_id") = P.tenantId

theorem insertPair_isDict (d element d' : Value) (shape : d.isDict = true)
    (inserted : insertPair d element = some d') : d'.isDict = true := by
  unfold insertPair at inserted
  split at inserted
  · obtain rfl := Option.some.inj inserted
    rw [isDict_insert, shape]
  · split at inserted
    · rw [← Option.some.inj inserted, shape]
    · contradiction
  · contradiction

theorem foldlM_isDict (elements : List Value) :
    ∀ d d' : Value, d.isDict = true → elements.foldlM insertPair d = some d' →
      d'.isDict = true := by
  induction elements with
  | nil =>
    intro d d' shape same
    rw [← Option.some.inj same, shape]
  | cons element rest later =>
    intro d d' shape folded
    rw [List.foldlM_cons, Option.bind_eq_bind, Option.bind_eq_some_iff] at folded
    rcases folded with ⟨next, inserted, folded⟩
    exact later next d' (insertPair_isDict d element next shape inserted) folded

theorem dictOf_isDict (v d : Value) (converted : dictOf v = some d) : d.isDict = true := by
  unfold dictOf at converted
  split at converted
  · rw [← Option.some.inj converted]
    rfl
  · exact foldlM_isDict _ _ _ rfl converted
  · contradiction

theorem namesCaller_iff (E : Platform) (call : AgentCall) (run : AgentRun) (P : Principal)
    (executed : executeAgent E call = some run) :
    NamesCaller run.setting P ↔ run.setting.deploymentContext.principalId = P.principalId ∧
      run.setting.deploymentContext.tenantId = P.tenantId := by
  have shape := dictOf_isDict _ _ (executeAgent_handsOver E call run executed).params
  have whole : dict run.setting.params.items = run.setting.params := by
    cases params : run.setting.params with
    | dict items => rfl
    | _ =>
      rw [params] at shape
      contradiction
  rw [NamesCaller, Setting.deploymentContext, deploymentSideEffectAuthorized]
  simp only [whole]

theorem names_of_ownGrants (E : Platform) (call : AgentCall) (run : AgentRun) (P : Principal)
    (executed : executeAgent E call = some run) (tool : String)
    (reaches : ReachesGrant run.setting tool)
    (own : OwnGrants P (run.effects (askingWorld tool))) : NamesCaller run.setting P := by
  rw [asked_run_effects run tool reaches] at own
  exact (namesCaller_iff E call run P executed).mpr
    (own.context _ _ _ _ (List.mem_singleton.mpr rfl))

theorem ownGrants_of_root (E : Platform) (call : AgentCall) (run : AgentRun) (P : Principal)
    (executed : executeAgent E call = some run) (W : World)
    (safe : NamesCaller run.setting P ∨ ∀ tool, ¬ReachesGrant run.setting tool) :
    OwnGrants P (run.effects W) := by
  refine ownGrants_of_context P _ ?_
  intro context tool args accepted member
  rcases run_consumes run W _ member rfl with ⟨tool', args', accepted', reaches, same⟩
  have context_eq := (Effect.consumeGrant.inj same).1
  rcases safe with names | closed
  · rw [context_eq]
    exact (namesCaller_iff E call run P executed).mp names
  · exact absurd reaches (closed tool')

/-- The runs of a request spend grants of its principal exactly when every run it starts names that
principal in its parameters or has no tool that needs a grant. -/
theorem grants_of_caller_iff (E : Platform) (request : Invocation E) :
    (∀ run W, Caused E request.work run W → OwnGrants request.principal (run.effects W)) ↔
      ∀ call run, Starts E request.work call → executeAgent E call = some run →
        NamesCaller run.setting request.principal ∨ ∀ tool, ¬ReachesGrant run.setting tool := by
  constructor
  · intro own call run starts executed
    by_cases names : NamesCaller run.setting request.principal
    · exact .inl names
    · refine .inr fun tool reaches => names ?_
      exact names_of_ownGrants E call run _ executed tool reaches
        (own run (askingWorld tool) (.root _ starts executed))
  · intro safe run W caused
    cases caused with
    | root W starts executed =>
      exact ownGrants_of_root E _ run _ executed W (safe _ run starts executed)
    | child W' above invoked delegated executed =>
      exact ownGrants_of_root E _ run _ executed W (.inr fun tool =>
        child_reaches_nothing E _ _ _ _ _ run delegated executed tool)

/-! Where the parameters come from: the gateway copies the keys of the gate out of the body. -/

/-- The keys `_deployment_side_effect_authorized` strips. -/
def gateKeys : List String := ["_action_grant", "_request_principal_id", "_request_tenant_id"]

def Execution.handed : Execution → Option Value
  | .runtime _ _ params => some params
  | .router _ => none
  | .enqueue new _ => some new.params

def callerParams (route : Route) (body : Value) : Value :=
  match route with
  | .run => dict (body.get "task").items
  | .jobs => body.getD "params" (dict [])

theorem scopedRuntimeParams_gate (D : Deployment) (body : RunRequest) (principal : Principal)
    (params : Value) (narrowed : scopedRuntimeParams D body principal = .ok params) (key : String)
    (gate : key ∈ gateKeys) : params.get key = (dict body.task.items).get key := by
  have free : key ≠ "resolved_context" ∧ key ≠ "description" := by
    simp only [gateKeys, List.mem_cons, List.not_mem_nil, or_false] at gate
    rcases gate with rfl | rfl | rfl <;> decide
  have kept (context : Value) :
      (((dict body.task.items).insert "resolved_context" context).erase "description").get key =
        (dict body.task.items).get key := by
    rw [get_erase_other _ _ _ free.2, get_insert_other _ _ _ _ free.1]
  rw [scopedRuntimeParams] at narrowed
  split at narrowed
  · rw [← Except.ok.inj narrowed]
    exact kept (list [])
  · split at narrowed
    · contradiction
    · rename_i items _ _
      rcases cleaned : items.mapM (cleanContextItem D principal.tenantId) with refusal | clean
      · rw [cleaned] at narrowed
        contradiction
      · rw [cleaned] at narrowed
        rw [← Except.ok.inj narrowed]
        exact kept (list clean)
  · contradiction

theorem runAgent_handed (D : Deployment) (slug : String) (body : RunRequest)
    (principal : Principal) (work : Execution) (params : Value)
    (accepted : runAgent D slug body principal = .ok work) (handed : work.handed = some params) :
    scopedRuntimeParams D body principal = .ok params := by
  rw [runAgent] at accepted
  dsimp only at accepted
  split at accepted
  · contradiction
  split at accepted
  · contradiction
  split at accepted
  · contradiction
  · contradiction
  split at accepted
  · -- a live test goes to the persona router
    split at accepted <;> split at accepted <;> cases accepted <;> cases handed
  split at accepted
  · rw [runAsync] at accepted
    split at accepted
    · contradiction
    rcases except_bind_ok _ _ _ accepted with ⟨narrowed, found, accepted⟩
    rcases except_bind_ok _ _ _ accepted with ⟨escrow, -, accepted⟩
    rcases except_bind_ok _ _ _ accepted with ⟨webhook, -, accepted⟩
    rcases except_bind_ok _ _ _ accepted with ⟨priceTierCents, -, accepted⟩
    rw [← Except.ok.inj accepted] at handed
    have same : narrowed = params := Option.some.inj handed
    rw [found, same]
  split at accepted
  · rcases except_bind_ok _ _ _ accepted with ⟨narrowed, found, accepted⟩
    have last : work = .runtime (resolveBundleSlug D slug) (buildUserPrompt D.unicode body) narrowed := by
      dsimp only at accepted
      split at accepted
      · rcases except_bind_ok _ _ _ accepted with ⟨escrowId, -, accepted⟩
        exact (Except.ok.inj accepted).symm
      · exact (Except.ok.inj accepted).symm
    rw [last] at handed
    have same : narrowed = params := Option.some.inj handed
    rw [found, same]
  · cases accepted
    cases handed

theorem parseRunRequest_task (body : Value) (request : RunRequest)
    (parsed : parseRunRequest body = some request) : request.task = body.get "task" := by
  unfold parseRunRequest at parsed
  split at parsed
  · simp only [Option.bind_eq_bind, Option.bind_eq_some_iff] at parsed
    rcases parsed with ⟨_, -, _, -, _, -, _, -, _, -, _, -, _, -, same⟩
    rw [← Option.some.inj same]
  · contradiction

/-- The identity a run presents is what the caller wrote into the body, whoever the caller is. -/
theorem handed_gate (E : Platform) (request : Invocation E) (params : Value)
    (handed : request.work.handed = some params) (key : String) (gate : key ∈ gateKeys) :
    params.get key = (callerParams request.route request.body).get key := by
  have accepted := request.accepted
  rcases route : request.route with _ | _
  · rw [route, handle] at accepted
    split at accepted
    · contradiction
    · rename_i body parsed
      have narrowed := runAgent_handed _ _ body _ _ params accepted handed
      rw [scopedRuntimeParams_gate _ body _ params narrowed key gate, parseRunRequest_task _ body parsed]
      rfl
  · rw [route, handle, submitJob] at accepted
    split at accepted
    · contradiction
    split at accepted
    · contradiction
    split at accepted
    · contradiction
    · rw [← Except.ok.inj accepted] at handed
      rw [← Option.some.inj handed]
      rfl

/-! A gateway-key caller whose job spends the grants of `service:cato`. -/

def builderPlatform : Platform where
  authority := { unicode := researchDeployment.unicode, fromisoformat := fun _ => .invalid
                 ed25519 := fun _ _ _ => false, registry := none }
  keys := ⟨some "gateway-key", none⟩
  deployment := researchDeployment
  columns := plainColumns
  readJson := id
  loadBundle slug := if slug = "genesis-builder" then some
      { slug := "genesis-builder", systemPrompt := "", toolsAdvertised := ["github_tool"]
        tokenBudget := some 16000, conduitBudgetCents := some 500 }
    else none
  registry := ["github_tool"]
  enrichPrompt _ _ _ := none
  buyerSession _ := false

def borrowedParams : Value :=
  dict [("_action_grant", str "grant-of-cato"), ("_request_principal_id", str "service:cato"),
    ("_request_tenant_id", str "e4l")]

def borrowingInvocation : Invocation builderPlatform where
  route := .jobs
  slug := "genesis-builder"
  body := dict [("prompt", str "release"), ("params", borrowedParams)]
  headers := ⟨⟨none, none⟩, some "gateway-key", none⟩
  now := { current := 1800000000, sweepClock := 1800000000, available := true, store := [] }
  principal := legacyGatewayPrincipal 1800000000
  work := .enqueue (submittedJob "genesis-builder"
    (dict [("prompt", str "release"), ("params", borrowedParams)])
    (legacyGatewayPrincipal 1800000000)) false
  authenticated := by rfl
  accepted := by rfl

def borrowedRow : JobRow :=
  { JobRow.queued "job-1" "genesis-builder" 1800000000 with
    prompt := "release", params := borrowedParams, tenantId := some "legacy"
    ownerPrincipalId := some "legacy:gateway" }

def borrowedRun : AgentRun :=
  { setting :=
      { builderSetting "" with
        bundle := { (builderSetting "").bundle with tokenBudget := 16000, conduitBudgetCents := 500 }
        params := borrowedParams }
    mapping := true }

theorem borrowed_starts : Starts builderPlatform borrowingInvocation.work
    (rootCall "genesis-builder" "release" borrowedParams "job-1" "session-1") := by
  have stored : createJob builderPlatform.columns (fun _ => none)
      (submittedJob "genesis-builder"
        (dict [("prompt", str "release"), ("params", borrowedParams)])
        (legacyGatewayPrincipal 1800000000)) "job-1" 1800000000 = some (.inserted borrowedRow) := by
    rfl
  exact .worker "session-1" stored

theorem borrowed_executed : executeAgent builderPlatform
    (rootCall "genesis-builder" "release" borrowedParams "job-1" "session-1") = some borrowedRun := by
  rw [executeAgent]
  rfl

theorem borrowed_reaches : ReachesGrant borrowedRun.setting "github_tool" where
  reached := builder_reached ""
  accepted := builder_policy.1
  deploys := builder_policy.2
  within := rfl

/-- The job of the gateway-key caller presents `service:cato` to the grant store. -/
theorem identity_borrowed :
    ¬∀ (E : Platform) (request : Invocation E), ∀ run W, Caused E request.work run W →
      OwnGrants request.principal (run.effects W) := by
  intro hold
  have own := hold builderPlatform borrowingInvocation borrowedRun (askingWorld "github_tool")
    (.root _ borrowed_starts borrowed_executed)
  have names := names_of_ownGrants builderPlatform _ borrowedRun _ borrowed_executed "github_tool"
    borrowed_reaches own
  have presented : textOr borrowedRun.setting.unicode (str "service:cato") = "legacy:gateway" :=
    names.1
  rw [textOr_str] at presented
  exact absurd presented (by decide)

end GenesisAgents
