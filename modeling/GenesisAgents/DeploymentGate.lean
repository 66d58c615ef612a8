import GenesisAgents.DispatchSteps
import GenesisAgents.GrantReplay
import Mathlib.Data.List.Dedup

/-! The deployment gate: a deployment tool is entered only after a grant was consumed for that very
call, so a run deploys no more often than it consumes grants, as long as the store keeps them spent. -/

namespace GenesisAgents

open Value

/-- The call of `consume_action_grant` the loop makes for a tool. -/
def DeploymentContext.use (context : DeploymentContext) (tool : String) (args : Value) : GrantUse :=
  { token := context.grant, principalId := context.principalId, tenantId := context.tenantId
    tool := tool, args := args }

def Effect.consumed? : Effect → Option GrantUse
  | .consumeGrant context tool args true => some (context.use tool args)
  | _ => none

/-- The calls of `consume_action_grant` that returned. -/
def consumed (effects : List Effect) : List GrantUse := effects.filterMap Effect.consumed?

def grantsConsumed (effects : List Effect) : List String :=
  ((consumed effects).map GrantUse.token).dedup

def deployments (tables : PolicyTables) (effects : List Effect) : List (String × Value) :=
  (effects.filterMap Effect.invocation?).filter fun call =>
    getToolRiskByName tables call.1 = .deployment

section

variable (S : Setting) (W : World)

/-- Each deployment of the step comes after a grant accepted for its tool and arguments, presented
with the principal and tenant of the run. -/
def GrantedStep (step : DispatchStep) : Prop :=
  ∀ tool args context before after,
    step.effects S W = before ++ .invoke tool args context :: after →
    getToolRiskByName S.tables tool = .deployment →
    .consumeGrant S.deploymentContext tool args true ∈ before

/-! The verdict that stays from an earlier call is one for the same risk of the same agent. -/

/-- The policy and the delegation let the run reach a deployment tool. -/
def OpenToDeployment : Prop :=
  .deployment ∈ S.tables.allowedRisks S.slug ∧ escalates S .deployment = false

def VerdictBound (σ : LoopState) : Prop := σ.deploymentAuthorized ≠ none → OpenToDeployment S

theorem conclude_verdict (σ : LoopState) (call : ToolCall) (branch : Branch) (attempt : Attempt) :
    (conclude S W σ call branch attempt).1.deploymentAuthorized = branch.deploymentAuthorized := by
  unfold conclude
  dsimp only
  split
  · split <;> rfl
  · rfl

theorem dispatch_verdict (σ : LoopState) (call : ToolCall) :
    (dispatch S W σ call).1.deploymentAuthorized =
      (callBranch S W σ call).deploymentAuthorized := by
  rw [dispatch]
  split
  · split
    · rfl
    · exact conclude_verdict S W σ call _ _
  · rfl

theorem policy_allows (fnName : String)
    (accepted : (checkToolPolicy S.tables S.slug fnName).ok = true) :
    (checkToolPolicy S.tables S.slug fnName).riskClass ∈ S.tables.allowedRisks S.slug := by
  unfold checkToolPolicy at *
  split at accepted
  · contradiction
  split at accepted
  · contradiction
  · rename_i clear free
    rw [if_neg clear, if_neg free]
    simpa using accepted

theorem policyChain_verdict (σ : LoopState) (fnName : String) (args : Value)
    (holds : VerdictBound S σ)
    (bound : (policyChain S W σ fnName args
      (checkToolPolicy S.tables S.slug fnName)).deploymentAuthorized ≠ none) :
    OpenToDeployment S := by
  rw [policyChain] at bound
  split at bound
  · exact holds bound
  split at bound
  · exact holds bound
  split at bound
  · rename_i ok within deploys
    have allowed := policy_allows S fnName (by simpa using ok)
    rw [deploys] at allowed within
    exact ⟨allowed, by simpa using within⟩
  · exact holds bound

theorem dispatch_verdictBound (σ : LoopState) (call : ToolCall) (holds : VerdictBound S σ) :
    VerdictBound S (dispatch S W σ call).1 := by
  intro bound
  rw [dispatch_verdict, callBranch] at bound
  split at bound
  · rw [dispatchBranch] at bound
    split at bound
    · exact holds bound
    split at bound
    · exact holds bound
    · exact policyChain_verdict S W σ _ call.args holds bound
  split at bound
  · exact holds bound
  · exact holds bound

theorem trace_verdictBound {σ : LoopState} {steps : List DispatchStep} (trace : Trace S W σ steps) :
    VerdictBound S σ := by
  exact trace_invariant S W (VerdictBound S) (fun bound => absurd rfl bound)
    (fun _ holds => holds) (fun _ _ holds => holds) (fun _ _ holds => holds)
    (dispatch_verdictBound S W) trace

/-! Where deployment is open, the tables of the repository accept every deployment tool. -/

theorem human_not_deployment : ∀ tool ∈ productionTables.humanOnlyTools,
    getToolRiskByName productionTables tool ≠ .deployment := by
  decide

theorem policy_accepts (production : S.tables = productionTables) (fnName : String)
    (clear : isProhibited S.tables fnName S.slug = false)
    (deploys : getToolRiskByName S.tables fnName = .deployment) (opened : OpenToDeployment S) :
    (checkToolPolicy S.tables S.slug fnName).ok = true := by
  rw [checkToolPolicy_ok S.tables S.slug fnName clear, isToolAllowed, deploys]
  have free : fnName ∉ S.tables.humanOnlyTools := by
    intro human
    rw [production] at human deploys
    exact human_not_deployment fnName human deploys
  simp [free, opened.1]

/-- Behind an entered deployment tool stands the grant of its own call. -/
theorem entered_consumed (production : S.tables = productionTables) (step : DispatchStep)
    (attempt : Attempt) (holds : VerdictBound S step.before) (entered : Entered S W step attempt)
    (deploys : getToolRiskByName S.tables step.call.fnName = .deployment) :
    (policyChain S W step.before step.call.fnName step.call.args
      (checkToolPolicy S.tables S.slug step.call.fnName)).effects =
        [.consumeGrant S.deploymentContext step.call.fnName step.call.args true] := by
  have clear := clear_of_reached S step.call.fnName (named_of_reaches S step.call entered.reached).2
  have risk := checkToolPolicy_riskClass S.tables S.slug step.call.fnName clear
  rw [deploys] at risk
  have verdict : (policyChain S W step.before step.call.fnName step.call.args
      (checkToolPolicy S.tables S.slug step.call.fnName)).deploymentAuthorized = some true := by
    have approved := entered.approved
    unfold approvalChain at approved
    rw [if_pos risk] at approved
    split at approved
    · contradiction
    · contradiction
    · assumption
  have opened := policyChain_verdict S W step.before step.call.fnName step.call.args holds
    (by rw [verdict]; exact Option.some_ne_none true)
  have accepted := policy_accepts S production step.call.fnName clear deploys opened
  have within : escalates S (checkToolPolicy S.tables S.slug step.call.fnName).riskClass = false := by
    rw [risk]
    exact opened.2
  rw [policyChain, if_neg (by simp [accepted]), if_neg (by simp [within]), if_pos risk] at verdict ⊢
  rw [Option.some.inj verdict]

theorem step_granted (production : S.tables = productionTables) (step : DispatchStep)
    (holds : VerdictBound S step.before) : GrantedStep S W step := by
  intro tool args context before after whole deploys
  rcases entered_of_split S W step tool args context before after whole with
    ⟨rfl, rfl, attempt, entered, rfl, -⟩
  rw [entered_consumed S W production step attempt holds entered deploys]
  simp

theorem deployments_append (first second : List Effect) :
    deployments S.tables (first ++ second) =
      deployments S.tables first ++ deployments S.tables second := by
  rw [deployments, List.filterMap_append, List.filter_append]
  rfl

theorem consumed_append (first second : List Effect) :
    consumed (first ++ second) = consumed first ++ consumed second := List.filterMap_append

theorem deployments_step (step : DispatchStep) :
    deployments S.tables (step.effects S W) =
      ((step.attempt S W).elim [] fun attempt =>
        if attempt.invoked then [(step.call.fnName, step.call.args)] else []).filter
          fun call => getToolRiskByName S.tables call.1 = .deployment := by
  rw [deployments, step_invocations]

theorem step_deployments (production : S.tables = productionTables) (step : DispatchStep)
    (holds : VerdictBound S step.before) :
    (deployments S.tables (step.effects S W)).length ≤ (consumed (step.effects S W)).length := by
  rw [deployments_step]
  rcases attempted : step.attempt S W with _ | attempt
  · exact Nat.zero_le _
  · rw [Option.elim_some]
    by_cases invoked : attempt.invoked = true
    · rw [if_pos invoked]
      by_cases deploys : getToolRiskByName S.tables step.call.fnName = .deployment
      · have entered := entered_of_invoked S W step attempt attempted invoked
        have granted := entered_consumed S W production step attempt holds entered deploys
        have spent : (consumed (step.effects S W)).length =
            1 + (consumed (intentEffects S step.call.fnName step.call.args ++
              [.invoke step.call.fnName step.call.args (toolContext S step.before)] ++
              eventEffects S W step.before step.call attempt)).length := by
          rw [DispatchStep.effects, attempted, Option.elim_some, entered.effects, granted, consumed]
          simp [consumed, Effect.consumed?, Nat.add_comm]
        have single := List.length_filter_le
          (fun call : String × Value => decide (getToolRiskByName S.tables call.1 = .deployment))
          [(step.call.fnName, step.call.args)]
        rw [List.length_singleton] at single
        omega
      · simp [deploys]
    · rw [if_neg invoked]
      exact Nat.zero_le _

theorem steps_deployments (steps : List DispatchStep)
    (each : ∀ step ∈ steps, (deployments S.tables (step.effects S W)).length ≤
      (consumed (step.effects S W)).length) :
    (deployments S.tables (steps.flatMap (DispatchStep.effects S W))).length ≤
      (consumed (steps.flatMap (DispatchStep.effects S W))).length := by
  induction steps with
  | nil => exact Nat.le_refl _
  | cons step rest later =>
    have own := each step List.mem_cons_self
    have others := later fun other member => each other (List.mem_cons_of_mem _ member)
    rw [List.flatMap_cons, deployments_append, consumed_append, List.length_append,
      List.length_append]
    exact Nat.add_le_add own others

end

/-- The successful consumptions of a run are calls of the shared grant store that returned, each one
a call of its own. -/
def Served (σ : GrantState) (uses : List GrantUse) : Prop :=
  ∃ entries : List (GrantUse × Nat), entries.map Prod.fst = uses ∧
    (entries.map Prod.snd).Nodup ∧
    ∀ entry ∈ entries, ∃ spend, σ.calls[entry.2]? = some (.returned entry.1 spend)

theorem returned_unique (σ : GrantState) (once : σ.SingleUse) (i j : Nat) (use use' : GrantUse)
    (spend spend' : Spend) (left : σ.calls[i]? = some (.returned use spend))
    (right : σ.calls[j]? = some (.returned use' spend')) (same : use.token = use'.token) : i = j := by
  rw [GrantState.SingleUse, GrantState.successes, List.nodup_iff_pairwise_ne, List.pairwise_map,
    List.pairwise_filterMap, List.pairwise_iff_getElem] at once
  rcases List.getElem?_eq_some_iff.mp left with ⟨inside, left⟩
  rcases List.getElem?_eq_some_iff.mp right with ⟨inside', right⟩
  rcases Nat.lt_trichotomy i j with before | equal | after
  · exact absurd same (once i j inside inside' before _ (by rw [left]; rfl) _ (by rw [right]; rfl))
  · exact equal
  · exact absurd same.symm
      (once j i inside' inside after _ (by rw [right]; rfl) _ (by rw [left]; rfl))

theorem served_distinct (σ : GrantState) (once : σ.SingleUse) (uses : List GrantUse)
    (served : Served σ uses) : (uses.map GrantUse.token).Nodup := by
  rcases served with ⟨entries, rfl, apart, returned⟩
  rw [List.nodup_iff_pairwise_ne, List.pairwise_map] at apart
  rw [List.map_map, List.nodup_iff_pairwise_ne, List.pairwise_map]
  refine apart.imp_of_mem ?_
  intro entry other inside inside' distinct same
  rcases returned entry inside with ⟨spend, left⟩
  rcases returned other inside' with ⟨spend', right⟩
  exact distinct (returned_unique σ once entry.2 other.2 _ _ spend spend' left right same)

section

variable (S : Setting) (W : World)

/-- A run whose grants are served by a store with timely sweeps deploys with the grant of the very
call, and no more often than it consumes grants. -/
theorem deployments_granted (production : S.tables = productionTables) (A : GrantAuthority)
    (issued : List GrantRequest) (distinct : (issued.map GrantRequest.jti).Nodup)
    (decodes : Decodes A issued) (clock : Int) (events : List GrantEvent)
    (honest : ∀ use, .arrive use ∈ events → Honest A issued use)
    (timely : ExpiringKeys.Timely (GrantState.run A (GrantState.start clock) events).transactions)
    (served : Served (GrantState.run A (GrantState.start clock) events)
      (consumed (runLoop S W).1.effects)) :
    ∃ steps, Trace S W (runLoop S W).1 steps ∧
      (runLoop S W).1.effects = steps.flatMap (DispatchStep.effects S W) ∧
      (∀ step ∈ steps, GrantedStep S W step) ∧
      (deployments S.tables (runLoop S W).1.effects).length ≤
        (grantsConsumed (runLoop S W).1.effects).length := by
  rcases runLoop_trace S W with ⟨steps, trace⟩
  have ledger := trace_ledger S W trace
  have bound : ∀ step ∈ steps, VerdictBound S step.before := by
    intro step member
    rcases List.append_of_mem member with ⟨earlier, later, whole⟩
    exact trace_verdictBound S W (trace_before S W trace earlier step later whole)
  have counted := steps_deployments S W steps fun step member =>
    step_deployments S W production step (bound step member)
  rw [← ledger.effects] at counted
  have balanced := run_balanced A clock events
  have once := (singleUse_iff_jtis A issued distinct decodes clock events honest).mpr
    (balanced.nodup_iff.mpr timely)
  have apart := served_distinct _ once _ served
  refine ⟨steps, trace, ledger.effects, fun step member => ?_, ?_⟩
  · exact step_granted S W production step (bound step member)
  · rw [grantsConsumed, List.Nodup.dedup apart, List.length_map]
    exact counted

end

/-! A deployment call that passes every check is executed. -/

section

variable (S : Setting) (W : World) (σ : LoopState) (call : ToolCall)

structure Deployable : Prop where
  reached : call.reaches S = true
  accepted : (checkToolPolicy S.tables S.slug call.fnName).ok = true
  deploys : (checkToolPolicy S.tables S.slug call.fnName).riskClass = .deployment
  within : escalates S .deployment = false
  unmetered : call.fnName ≠ "file_write"
  binds : kwargsBind call.args = true
  granted : W.grant σ.dispatched = true
  stored : W.intent σ.dispatched = true
  recorded : W.event σ.dispatched = true
  returned : ∃ value charged, W.tool σ.dispatched = .returned value charged ∧ value.dumpable = true

theorem callBranch_deployable (ready : Deployable S W σ call) :
    callBranch S W σ call =
      ⟨none, some true, some { runTool S W σ call.fnName call.args with
        effects := [.consumeGrant S.deploymentContext call.fnName call.args true,
          .appendIntent S.sessionId call.fnName call.args true,
          .invoke call.fnName call.args (toolContext S σ)] }⟩ := by
  have outcome : policyChain S W σ call.fnName call.args
      (checkToolPolicy S.tables S.slug call.fnName) =
        ⟨none, some true, [.consumeGrant S.deploymentContext call.fnName call.args true]⟩ := by
    rw [policyChain, ready.deploys, ready.accepted, ready.within, ready.granted]
    rfl
  have approved : approvalChain σ call.fnName (checkToolPolicy S.tables S.slug call.fnName)
      (some true) = .proceed := by
    unfold approvalChain
    rw [if_pos ready.deploys]
    simp only [quotaChain, ready.unmetered, false_and, if_false]
  have risky : (checkToolPolicy S.tables S.slug call.fnName).riskClass ≠ .readOnly := by
    rw [ready.deploys]
    decide
  have ran : (runTool S W σ call.fnName call.args).effects =
      [.invoke call.fnName call.args (toolContext S σ)] := by
    rw [runTool, if_pos ready.binds]
  rw [callBranch_reached S W σ call ready.reached,
    dispatchBranch_reached S W σ call.fnName call.args (named_of_reaches S call ready.reached).2]
  simp only [outcome, approved, executeTool, if_neg risky, ready.stored, if_true, ran]
  rfl

theorem eventEffects_consumed (attempt : Attempt) :
    consumed (eventEffects S W σ call attempt) = [] := by
  rw [eventEffects]
  split <;> rfl

theorem dispatch_deployable (ready : Deployable S W σ call) :
    (dispatch S W σ call).2 = none ∧
      consumed (dispatch S W σ call).1.effects =
        consumed σ.effects ++ [S.deploymentContext.use call.fnName call.args] ∧
      deployments S.tables (dispatch S W σ call).1.effects =
        deployments S.tables σ.effects ++ [(call.fnName, call.args)] := by
  rcases ready.returned with ⟨value, charged, reply, encodes⟩
  have branch := callBranch_deployable S W σ call ready
  have binds := ready.binds
  rw [kwargsBind, Bool.and_eq_true] at binds
  have risk : getToolRiskByName S.tables call.fnName = .deployment := by
    have clear := clear_of_reached S call.fnName (named_of_reaches S call ready.reached).2
    rw [← checkToolPolicy_riskClass S.tables S.slug call.fnName clear, ready.deploys]
  refine ⟨?_, ?_, ?_⟩
  · rw [dispatch, branch]
    dsimp only
    have awaited : (runTool S W σ call.fnName call.args).cancelled = false := by
      rw [runTool, if_pos ready.binds, reply]
    rw [awaited, if_neg Bool.false_ne_true]
    refine conclude_continues S W σ call _ _ binds.1 ?_
    simp only [answer, ready.recorded, Bool.not_true, Bool.and_false, Bool.false_eq_true, if_false]
    rw [runTool, if_pos ready.binds, reply]
    exact encodes
  · rw [dispatch_effects, consumed_append, DispatchStep.effects, DispatchStep.attempt, branch,
      Option.elim_some, consumed_append, eventEffects_consumed]
    rfl
  · rw [dispatch_effects, deployments_append, deployments_step, DispatchStep.attempt, branch,
      Option.elim_some, runTool, if_pos ready.binds]
    simp [risk]

end

/-! A run that deploys twice with the grant that the store spends twice. -/

def builderSetting (grant : String) : Setting :=
  { unicode := { lower := id, printable := fun _ => true }
    tables := productionTables, registry := ["github_tool"]
    bundle := { slug := "genesis-builder", systemPrompt := "", toolsAdvertised := ["github_tool"]
                tokenBudget := 50000, conduitBudgetCents := 0 }
    task := "release"
    params := dict [("_action_grant", str grant), ("_request_principal_id", str "service:cato"),
      ("_request_tenant_id", str "e4l")]
    jobId := "job-1", sessionId := "session-1", delegationChain := [], delegationDepth := 0
    delegatedAllowedRisks := none }

def deployCall : ToolCall :=
  { id := some "call-1", name := some (str "github_tool"), arguments := some deployArgs }

def builderWorld (asks : List ToolCall) : World :=
  { timedOut := fun _ => false
    llm := fun turn => .responded
      { swarmsync := none, totalTokens := some 100
        message := some { content := str "done", toolCalls := if turn = 1 then asks else [] } }
    requestId := fun _ => "request-1", grant := fun _ => true, intent := fun _ => true
    tool := fun _ => .returned (dict [("ok", bool true)]) 0, event := fun _ => true }

theorem builder_policy :
    (checkToolPolicy productionTables "genesis-builder" "github_tool").ok = true ∧
      (checkToolPolicy productionTables "genesis-builder" "github_tool").riskClass = .deployment := by
  decide

theorem builder_reached (grant : String) :
    reachesPolicy (builderSetting grant) "github_tool" = true := by
  have clear : isProhibited productionTables "github_tool" "genesis-builder" = false := by
    decide
  have listed : (augmentToolsAdvertised "genesis-builder" ["github_tool"]).contains "github_tool" =
      true := by
    decide
  have tables : isProhibited (builderSetting grant).tables "github_tool" (builderSetting grant).slug =
      isProhibited productionTables "github_tool" "genesis-builder" := rfl
  have advertised : (builderSetting grant).toolsAdvertised =
      augmentToolsAdvertised "genesis-builder" ["github_tool"] := rfl
  have registered : (builderSetting grant).registry.contains "github_tool" = true := by
    simp [builderSetting]
  rw [reachesPolicy, tables, clear, registered, advertised, listed]
  rfl

theorem builder_deployable (grant : String) (asks : List ToolCall) (σ : LoopState) :
    Deployable (builderSetting grant) (builderWorld asks) σ deployCall where
  reached := by
    rw [ToolCall.reaches]
    exact builder_reached grant
  accepted := builder_policy.1
  deploys := builder_policy.2
  within := rfl
  unmetered := by decide
  binds := by decide
  granted := rfl
  stored := rfl
  recorded := rfl
  returned := ⟨_, _, rfl, rfl⟩

def builderAsked (grant : String) (asks : List ToolCall) : LoopState :=
  { initialState (builderSetting grant) with
    turn := 1, llmCalls := 1, totalTokens := 100
    messages := (initialState (builderSetting grant)).messages ++
      [.assistant { content := str "done", toolCalls := asks }] }

structure BuilderLedger (grant : String) (count : Nat) (σ σ' : LoopState) : Prop where
  turn : σ'.turn = σ.turn
  llmCalls : σ'.llmCalls = σ.llmCalls
  totalTokens : σ'.totalTokens = σ.totalTokens
  consumed : consumed σ'.effects = consumed σ.effects ++
    List.replicate count ((builderSetting grant).deploymentContext.use "github_tool" deployArgs)
  deployments : deployments productionTables σ'.effects =
    deployments productionTables σ.effects ++ List.replicate count ("github_tool", deployArgs)

theorem builder_dispatched (grant : String) (asks : List ToolCall) (count : Nat) :
    ∀ σ, ∃ σ', dispatchAll (builderSetting grant) (builderWorld asks) σ
      (List.replicate count deployCall) = (σ', none) ∧ BuilderLedger grant count σ σ' := by
  induction count with
  | zero =>
    intro σ
    exact ⟨σ, rfl, rfl, rfl, rfl, (List.append_nil _).symm, (List.append_nil _).symm⟩
  | succ count later =>
    intro σ
    have once := dispatch_deployable _ _ _ _ (builder_deployable grant asks σ)
    have counters := dispatch_counters (builderSetting grant) (builderWorld asks) σ deployCall
    rcases later (dispatch (builderSetting grant) (builderWorld asks) σ deployCall).1 with
      ⟨σ', ran, ledger⟩
    refine ⟨σ', ?_, ?_⟩
    · rw [List.replicate_succ, dispatchAll_continues _ _ _ _ _ once.1, ran]
    · constructor
      · rw [ledger.turn, counters.1]
      · rw [ledger.llmCalls, counters.2.1]
      · rw [ledger.totalTokens, counters.2.2]
      · rw [ledger.consumed, once.2.1, List.append_assoc]
        rfl
      · have deployed := ledger.deployments
        have own : deployments productionTables (dispatch (builderSetting grant)
            (builderWorld asks) σ deployCall).1.effects =
              deployments productionTables σ.effects ++ [("github_tool", deployArgs)] := once.2.2
        rw [deployed, own, List.append_assoc]
        rfl

/-- A run that asks for some deployments makes them all, each with the same grant. -/
theorem builder_run (grant : String) (count : Nat) (asked_once : 0 < count) :
    consumed (runLoop (builderSetting grant)
        (builderWorld (List.replicate count deployCall))).1.effects =
      List.replicate count ((builderSetting grant).deploymentContext.use "github_tool" deployArgs) ∧
    deployments productionTables (runLoop (builderSetting grant)
        (builderWorld (List.replicate count deployCall))).1.effects =
      List.replicate count ("github_tool", deployArgs) := by
  rcases builder_dispatched grant (List.replicate count deployCall) count
    (builderAsked grant (List.replicate count deployCall)) with ⟨σ', ran, ledger⟩
  generalize asked : List.replicate count deployCall = asks at *
  have calls : σ'.llmCalls = 1 := ledger.llmCalls
  have spent : σ'.totalTokens = 100 := ledger.totalTokens
  have cheap : (100 : Int) ≤ maxTokensPerJob := by decide
  have asking : Replies (builderWorld asks) (initialState (builderSetting grant))
      { swarmsync := none, totalTokens := some 100
        message := some { content := str "done", toolCalls := asks } }
      { content := str "done", toolCalls := asks } :=
    { inTime := rfl, allowed := Nat.zero_lt_succ 9, reply := rfl
      affordable := cheap, chosen := rfl }
  have answering : Replies (builderWorld asks) σ'
      { swarmsync := none, totalTokens := some 100
        message := some { content := str "done", toolCalls := [] } }
      { content := str "done", toolCalls := [] } :=
    { inTime := rfl
      allowed := by
        rw [calls]
        decide
      reply := by
        rw [ledger.turn]
        rfl
      affordable := by
        simp only [replied, receive, spent]
        decide
      chosen := rfl }
  have nonempty : asks.isEmpty = false := by
    rw [← asked, List.isEmpty_eq_false_iff]
    exact List.ne_nil_of_length_pos (by simpa using asked_once)
  have first := turn_asks (builderSetting grant) _ _ _ _ _ asking nonempty ran
  have second := turn_answers (builderSetting grant) _ _ _ _ answering rfl
  have same : (runLoop (builderSetting grant) (builderWorld asks)).1.effects = σ'.effects := by
    have budget : maxTurns = 8 + 1 + 1 := rfl
    rw [runLoop, budget, turns, first]
    dsimp only
    rw [turns, second]
    rfl
  rw [same, ledger.consumed, ledger.deployments]
  exact ⟨rfl, rfl⟩

theorem builder_context (grant : String) :
    (builderSetting grant).deploymentContext = ⟨grant, "service:cato", "e4l"⟩ := by
  have texts : (builderSetting grant).deploymentContext =
      ⟨textOr (builderSetting grant).unicode (str grant),
        textOr (builderSetting grant).unicode (str "service:cato"),
        textOr (builderSetting grant).unicode (str "e4l")⟩ := rfl
  rw [texts, textOr_str, textOr_str, textOr_str]

def builderGrant : String := (firstGrant.use deployAuthority).token

theorem builder_use : (builderSetting builderGrant).deploymentContext.use "github_tool" deployArgs =
    firstGrant.use deployAuthority := by
  rw [builder_context]
  rfl

/-- The grant of the run is spent twice between the sweeps, so it deploys twice with one grant. -/
theorem deployed_twice_with_one_grant :
    ¬∀ (S : Setting) (W : World) (A : GrantAuthority) (issued : List GrantRequest) (clock : Int)
      (events : List GrantEvent), S.tables = productionTables →
      (issued.map GrantRequest.jti).Nodup → Decodes A issued →
      (∀ use, .arrive use ∈ events → Honest A issued use) →
      Served (GrantState.run A (GrantState.start clock) events)
        (consumed (runLoop S W).1.effects) →
      ∃ steps, Trace S W (runLoop S W).1 steps ∧
        (runLoop S W).1.effects = steps.flatMap (DispatchStep.effects S W) ∧
        (∀ step ∈ steps, GrantedStep S W step) ∧
        (deployments S.tables (runLoop S W).1.effects).length ≤
          (grantsConsumed (runLoop S W).1.effects).length := by
  intro hold
  have ran := builder_run builderGrant 2 (by decide)
  have served : Served (GrantState.run deployAuthority (GrantState.start 1800000300) doubleSpend)
      (consumed (runLoop (builderSetting builderGrant)
        (builderWorld (List.replicate 2 deployCall))).1.effects) := by
    rw [ran.1, builder_use, Served, doubleSpend_calls]
    refine ⟨[(firstGrant.use deployAuthority, 0), (firstGrant.use deployAuthority, 1)], rfl,
      by decide, ?_⟩
    intro entry member
    refine ⟨firstGrant.spend 1800000300, ?_⟩
    rcases List.mem_cons.mp member with rfl | member
    · rfl
    · rw [List.mem_singleton.mp member]
      rfl
  rcases hold (builderSetting builderGrant) (builderWorld (List.replicate 2 deployCall))
    deployAuthority [firstGrant, secondGrant] 1800000300 doubleSpend rfl deploy_distinct
    deploy_decodes deploy_honest served with ⟨-, -, -, -, few⟩
  have tables : (builderSetting builderGrant).tables = productionTables := rfl
  rw [tables, ran.2, grantsConsumed, ran.1] at few
  generalize (builderSetting builderGrant).deploymentContext.use "github_tool" deployArgs = use at few
  simp at few

def singleSpend : List GrantEvent :=
  [.arrive (firstGrant.use deployAuthority), .transact 0 true]

theorem singleSpend_state :
    GrantState.run deployAuthority (GrantState.start 1800000300) singleSpend =
      spendState 1800000300 [(firstGrant.jti, 1800000300)]
        [.returned (firstGrant.use deployAuthority) (firstGrant.spend 1800000300)]
        [firstGrant.spend 1800000300] := by
  have arrived := arrive_spendState deployAuthority 1800000300 [] [] [] firstGrant
    firstGrant_usable (by decide) (by decide)
  have spent : ExpiringKeys.consume [] (firstGrant.spend 1800000300).transaction =
      some [(firstGrant.jti, 1800000300)] := by decide
  have begins : GrantState.start 1800000300 = spendState 1800000300 [] [] [] := rfl
  rw [singleSpend, GrantState.run, begins, Runs.run_cons, arrived, Runs.run_cons]
  rw [transact_spendState _ _ _ _ _ _ 0 _ _ rfl spent, Runs.run_nil]
  rfl

theorem singleSpend_timely : ExpiringKeys.Timely
    (GrantState.run deployAuthority (GrantState.start 1800000300) singleSpend).transactions := by
  rw [singleSpend_state]
  intro past c future whole key expires first
  rcases past with _ | ⟨earlier, past⟩
  · contradiction
  · have short := congrArg List.length whole
    simp [spendState] at short

theorem singleSpend_honest : ∀ use, .arrive use ∈ singleSpend →
    Honest deployAuthority [firstGrant, secondGrant] use := by
  intro use member
  refine deploy_honest use ?_
  simp only [singleSpend, List.mem_cons, GrantEvent.arrive.injEq, reduceCtorEq, List.not_mem_nil,
    or_false] at member
  rw [member]
  exact List.mem_cons_self

theorem singleSpend_served :
    Served (GrantState.run deployAuthority (GrantState.start 1800000300) singleSpend)
      (consumed (runLoop (builderSetting builderGrant)
        (builderWorld (List.replicate 1 deployCall))).1.effects) := by
  rw [(builder_run builderGrant 1 (by decide)).1, builder_use, Served, singleSpend_state]
  refine ⟨[(firstGrant.use deployAuthority, 0)], rfl, by decide, ?_⟩
  intro entry member
  rw [List.mem_singleton.mp member]
  exact ⟨firstGrant.spend 1800000300, rfl⟩

theorem deployed_once_with_one_grant :
    ∃ steps, Trace (builderSetting builderGrant) (builderWorld (List.replicate 1 deployCall))
        (runLoop (builderSetting builderGrant) (builderWorld (List.replicate 1 deployCall))).1
        steps ∧
      (runLoop (builderSetting builderGrant) (builderWorld (List.replicate 1 deployCall))).1.effects =
        steps.flatMap (DispatchStep.effects (builderSetting builderGrant)
          (builderWorld (List.replicate 1 deployCall))) ∧
      (∀ step ∈ steps, GrantedStep (builderSetting builderGrant)
        (builderWorld (List.replicate 1 deployCall)) step) ∧
      (deployments (builderSetting builderGrant).tables (runLoop (builderSetting builderGrant)
        (builderWorld (List.replicate 1 deployCall))).1.effects).length ≤
        (grantsConsumed (runLoop (builderSetting builderGrant)
          (builderWorld (List.replicate 1 deployCall))).1.effects).length :=
  deployments_granted (builderSetting builderGrant) (builderWorld (List.replicate 1 deployCall)) rfl
    deployAuthority [firstGrant, secondGrant] deploy_distinct deploy_decodes 1800000300 singleSpend
    singleSpend_honest singleSpend_timely singleSpend_served

end GenesisAgents
