import GenesisAgents.Delegations
import Mathlib.Algebra.Order.BigOperators.Group.List
import Mathlib.Algebra.Ring.Int.Defs

/-! The budget of a delegating run: what its loop hands to each child, what `genesis_call` charges
back when the child is done, and what the child used. Only two exits of the loop report usage. -/

namespace GenesisAgents

open Value

def LlmReply.usage : LlmReply → Int
  | .raised _ _ => 0
  | .responded response => response.totalTokens.getD 0

/-- The usage of the first `calls` responses. -/
def tokensUsed (W : World) (calls : Nat) : Int :=
  ((List.range calls).map fun n => (W.llm (n + 1)).usage).sum

theorem tokensUsed_succ (W : World) (calls : Nat) :
    tokensUsed W (calls + 1) = tokensUsed W calls + (W.llm (calls + 1)).usage := by
  rw [tokensUsed, tokensUsed, List.range_succ, List.map_append, List.sum_append]
  simp

/-- `resource_usage.total_tokens` of a result. -/
def LoopResult.reportedTokens : LoopResult → Option Int
  | .finalAnswer answer => some answer.totalTokens
  | .maxTurnsReached _ _ totalTokens _ => some totalTokens
  | _ => none

section

variable (S : Setting) (W : World)

structure Counted (σ : LoopState) : Prop where
  calls : σ.llmCalls = σ.turn
  tokens : σ.totalTokens = tokensUsed W σ.llmCalls

theorem dispatchAll_counters (calls : List ToolCall) : ∀ σ : LoopState,
    (dispatchAll S W σ calls).1.turn = σ.turn ∧
      (dispatchAll S W σ calls).1.llmCalls = σ.llmCalls ∧
      (dispatchAll S W σ calls).1.totalTokens = σ.totalTokens := by
  induction calls with
  | nil => exact fun _ => ⟨rfl, rfl, rfl⟩
  | cons call rest later =>
    intro σ
    have first := dispatch_counters S W σ call
    rw [dispatchAll]
    rcases outcome : dispatch S W σ call with ⟨σ', _ | error⟩
    · rw [outcome] at first
      have after := later σ'
      exact ⟨after.1.trans first.1, after.2.1.trans first.2.1, after.2.2.trans first.2.2⟩
    · rw [outcome] at first
      exact first

structure TurnCounts (σ' : LoopState) (result : Option LoopResult) : Prop where
  tokens : σ'.totalTokens = tokensUsed W σ'.llmCalls
  continues : result = none → σ'.llmCalls = σ'.turn
  reported : ∀ ended, result = some ended → ∀ total, ended.reportedTokens = some total →
    total = σ'.totalTokens

theorem TurnCounts.silent {σ' : LoopState} {ended : LoopResult}
    (tokens : σ'.totalTokens = tokensUsed W σ'.llmCalls) (quiet : ended.reportedTokens = none) :
    TurnCounts W σ' (some ended) where
  tokens := tokens
  continues := by simp
  reported := by
    rintro _ ⟨⟩ total reported
    rw [quiet] at reported
    contradiction

theorem receive_tokens (σ : LoopState) (response : LlmResponse) (counted : Counted W σ)
    (reply : W.llm (σ.turn + 1) = .responded response) :
    (receive { σ with turn := σ.turn + 1 } response).totalTokens =
      tokensUsed W (receive { σ with turn := σ.turn + 1 } response).llmCalls := by
  calc
    σ.totalTokens + response.totalTokens.getD 0
        = tokensUsed W σ.llmCalls + (W.llm (σ.llmCalls + 1)).usage := by
          rw [counted.tokens, counted.calls, reply, LlmReply.usage]
    _ = tokensUsed W (σ.llmCalls + 1) := (tokensUsed_succ W σ.llmCalls).symm

theorem turn_counts (σ : LoopState) (counted : Counted W σ) :
    TurnCounts W (turn S W σ).1 (turn S W σ).2 := by
  unfold turn
  dsimp only
  split
  · exact .silent W counted.tokens rfl
  split
  · exact .silent W counted.tokens rfl
  split
  · exact .silent W counted.tokens rfl
  · rename_i response reply
    have tokens := receive_tokens W σ response counted reply
    split
    · exact .silent W tokens rfl
    split
    · exact .silent W tokens rfl
    split
    · -- the final answer reports the counter itself
      refine ⟨tokens, by simp, ?_⟩
      rintro _ ⟨⟩ total reported
      exact (Option.some.inj reported).symm
    · rename_i msg _ _
      have counters := dispatchAll_counters S W msg.toolCalls
        { receive { σ with turn := σ.turn + 1 } response with
          messages := (receive { σ with turn := σ.turn + 1 } response).messages ++
            [.assistant msg] }
      split
      · rename_i σ' ran
        rw [ran] at counters
        refine ⟨?_, fun _ => ?_, by simp⟩
        · rw [counters.2.2, counters.2.1]
          exact tokens
        · rw [counters.1, counters.2.1]
          exact congrArg (· + 1) counted.calls
      · rename_i σ' error ran
        rw [ran] at counters
        refine .silent W ?_ rfl
        rw [counters.2.2, counters.2.1]
        exact tokens

theorem turns_counts (left : Nat) : ∀ σ, Counted W σ →
    (turns S W left σ).1.totalTokens = tokensUsed W (turns S W left σ).1.llmCalls ∧
      ∀ total, (turns S W left σ).2.reportedTokens = some total →
        total = (turns S W left σ).1.totalTokens := by
  induction left with
  | zero =>
    intro σ counted
    exact ⟨counted.tokens, fun total reported => (Option.some.inj reported).symm⟩
  | succ left later =>
    intro σ counted
    have once := turn_counts S W σ counted
    rw [turns]
    rcases outcome : turn S W σ with ⟨σ', _ | result⟩
    · rw [outcome] at once
      exact later σ' ⟨once.continues rfl, once.tokens⟩
    · rw [outcome] at once
      exact ⟨once.tokens, once.reported result rfl⟩

theorem initial_counted : Counted W (initialState S) := ⟨rfl, rfl⟩

end

/-! What a dispatch adds to the ledger of the job. -/

section

variable (S : Setting) (W : World)

def Attempt.chargedTokens (W : World) (σ : LoopState) (attempt : Attempt) : Int :=
  if attempt.invoked then max 0 (W.tool σ.dispatched).charged else 0

theorem runTool_charges (σ : LoopState) (fnName : String) (args : Value) :
    (runTool S W σ fnName args).delegatedTokensSpent =
      σ.delegatedTokensSpent + (runTool S W σ fnName args).chargedTokens W σ := by
  unfold runTool Attempt.chargedTokens
  split
  · rfl
  · exact (Int.add_zero _).symm

theorem executeTool_charges (σ : LoopState) (fnName : String) (args : Value) (policy : Policy) :
    (executeTool S W σ fnName args policy).delegatedTokensSpent =
      σ.delegatedTokensSpent + (executeTool S W σ fnName args policy).chargedTokens W σ := by
  unfold executeTool
  split
  · exact runTool_charges S W σ fnName args
  · dsimp only
    split
    · exact runTool_charges S W σ fnName args
    · exact (Int.add_zero _).symm

theorem dispatchBranch_charges (σ : LoopState) (fnName : String) (args : Value) (attempt : Attempt)
    (attempted : (dispatchBranch S W σ fnName args).attempt = some attempt) :
    attempt.delegatedTokensSpent = σ.delegatedTokensSpent + attempt.chargedTokens W σ := by
  by_cases reached : reachesPolicy S fnName = true
  · rw [dispatchBranch_reached S W σ fnName args reached] at attempted
    dsimp only at attempted
    split at attempted
    · contradiction
    · obtain rfl := Option.some.inj attempted
      exact (Int.add_zero _).symm
    · obtain rfl := Option.some.inj attempted
      exact executeTool_charges S W σ fnName args _
  · rcases dispatchBranch_early S W σ fnName args (by simpa using reached) with ⟨refusal, -, same⟩
    rw [same] at attempted
    obtain rfl := Option.some.inj attempted
    exact (Int.add_zero _).symm

theorem callBranch_charges (σ : LoopState) (call : ToolCall) (attempt : Attempt)
    (attempted : (callBranch S W σ call).attempt = some attempt) :
    attempt.delegatedTokensSpent = σ.delegatedTokensSpent + attempt.chargedTokens W σ := by
  by_cases reaches : call.reaches S = true
  · rw [callBranch_reached S W σ call reaches] at attempted
    exact dispatchBranch_charges S W σ call.fnName call.args attempt attempted
  · rcases callBranch_unreached S W σ call (by simpa using reaches) with missing | ⟨refusal, refused⟩
    · rw [missing] at attempted
      contradiction
    · rw [refused] at attempted
      obtain rfl := Option.some.inj attempted
      exact (Int.add_zero _).symm

theorem conclude_spent (σ : LoopState) (call : ToolCall) (branch : Branch) (attempt : Attempt) :
    (conclude S W σ call branch attempt).1.delegatedTokensSpent = attempt.delegatedTokensSpent ∧
      (conclude S W σ call branch attempt).1.delegatedCentsSpent = σ.delegatedCentsSpent := by
  unfold conclude
  dsimp only
  split
  · split <;> exact ⟨rfl, rfl⟩
  · exact ⟨rfl, rfl⟩

theorem dispatch_spent (σ : LoopState) (call : ToolCall) :
    (dispatch S W σ call).1.delegatedTokensSpent = σ.delegatedTokensSpent +
        (DispatchStep.attempt S W ⟨σ, call⟩).elim 0 (Attempt.chargedTokens W σ) ∧
      (dispatch S W σ call).1.delegatedCentsSpent = σ.delegatedCentsSpent := by
  have charges := callBranch_charges S W σ call
  unfold dispatch DispatchStep.attempt
  dsimp only
  rcases branch : callBranch S W σ call with ⟨refusal, authorized, _ | attempt⟩
  · exact ⟨(Int.add_zero _).symm, rfl⟩
  rw [branch] at charges
  dsimp only
  split
  · exact ⟨charges attempt rfl, rfl⟩
  · have spent := conclude_spent S W σ call ⟨refusal, authorized, some attempt⟩ attempt
    exact ⟨spent.1.trans (charges attempt rfl), spent.2⟩

end

/-! A child and how its call of `execute_agent` ends. -/

inductive ChildEnd where
  /-- Before the first turn. -/
  | unstarted
  /-- The loop returned its result, or raised an error of its own. -/
  | ended (run : AgentRun) (W : World)
  /-- Another exception left the loop in the turn. -/
  | thrown (run : AgentRun) (W : World) (turn : Nat)

namespace ChildEnd

def tokens : ChildEnd → Int
  | unstarted => 0
  | ended run W => tokensUsed W (runLoop run.setting W).1.llmCalls
  | thrown run W turn => tokensUsed W (turns run.setting W turn (initialState run.setting)).1.llmCalls

/-- `int(usage.get("total_tokens", 0) or 0)` of the result, when there is one. -/
def charge : ChildEnd → Int
  | ended run W => ((runLoop run.setting W).2.reportedTokens).getD 0
  | _ => 0

def reports : ChildEnd → Bool
  | ended run W => ((runLoop run.setting W).2.reportedTokens).isSome
  | _ => false

theorem charge_eq (outcome : ChildEnd) :
    outcome.charge = if outcome.reports then outcome.tokens else 0 := by
  cases outcome with
  | unstarted => rfl
  | thrown => rfl
  | ended run W =>
    have counts := turns_counts run.setting W maxTurns _ (initial_counted run.setting W)
    rw [charge, reports, tokens]
    rcases reported : (runLoop run.setting W).2.reportedTokens with _ | total
    · rfl
    · have same : total = (runLoop run.setting W).1.totalTokens := counts.2 total reported
      exact same.trans counts.1

end ChildEnd

/-- Does the loop of the run need no context for a tool, or have the parameters to build one? -/
def AgentRun.completes (run : AgentRun) (W : World) : Bool :=
  run.mapping || (runLoop run.setting W).1.effects.all fun effect => !effect.needsContext

/-- A child of a run; `cents` is what its browser spent, which no result carries. -/
structure Child where
  jobId : String
  sessionId : String
  cents : Nat
  outcome : ChildEnd

section

variable (T : DelegationTables) (E : Platform)

def ChildEnd.Of (call : AgentCall) : ChildEnd → Prop
  | unstarted => True
  | ended run W => executeAgentUnder T E call = some run ∧ run.completes W = true
  | thrown run _ turn => executeAgentUnder T E call = some run ∧ turn ≤ maxTurns

variable (S : Setting) (W : World) (children : Nat → Child)

namespace DispatchStep

def child (step : DispatchStep) : Child := children step.before.dispatched

/-- The call of `execute_agent` a step makes through `genesis_call`. -/
def starts (step : DispatchStep) : Option AgentCall :=
  (step.attempt S W).bind fun attempt =>
    if attempt.invoked && step.call.fnName == "genesis_call" then
      genesisCallUnder T E step.call.args (toolContext S step.before)
        (step.child children).jobId (step.child children).sessionId
    else none

end DispatchStep

/-- A moment of a run of the loop, after `steps`. The tools answer as `genesis_call` does: the result
of a child is charged to this job, and nothing else is. -/
structure DelegatingRun (σ : LoopState) (steps : List DispatchStep) : Prop where
  trace : Trace S W σ steps
  charged : ∀ step ∈ steps, ∀ attempt, step.attempt S W = some attempt → attempt.invoked = true →
    (W.tool step.before.dispatched).charged =
      if (step.starts T E S W children).isSome then (step.child children).outcome.charge else 0
  outcomes : ∀ step ∈ steps, ∀ call, step.starts T E S W children = some call →
    (step.child children).outcome.Of T E call

def overChildren (amount : Child → Int) (steps : List DispatchStep) : Int :=
  (steps.map fun step =>
    if (step.starts T E S W children).isSome then amount (step.child children) else 0).sum

theorem overChildren_concat (amount : Child → Int) (steps : List DispatchStep)
    (step : DispatchStep) :
    overChildren T E S W children amount (steps ++ [step]) =
      overChildren T E S W children amount steps +
        if (step.starts T E S W children).isSome then amount (step.child children) else 0 := by
  rw [overChildren, overChildren, List.map_append, List.sum_append]
  simp

theorem DelegatingRun.initial (σ : LoopState) (earlier later : List DispatchStep)
    (step : DispatchStep)
    (run : DelegatingRun T E S W children σ (earlier ++ step :: later)) :
    DelegatingRun T E S W children step.before earlier where
  trace := trace_before S W run.trace earlier step later rfl
  charged := fun s member => run.charged s (List.mem_append_left _ member)
  outcomes := fun s member => run.outcomes s (List.mem_append_left _ member)

/-- The ledger of the job: what the children so far were charged with, and no cent. -/
theorem delegatingRun_spent (σ : LoopState) (steps : List DispatchStep)
    (run : DelegatingRun T E S W children σ steps) :
    σ.delegatedTokensSpent =
        overChildren T E S W children (fun child => max 0 child.outcome.charge) steps ∧
      σ.delegatedCentsSpent = 0 := by
  rcases run with ⟨trace, charged, outcomes⟩
  clear outcomes
  induction trace with
  | start => exact ⟨rfl, rfl⟩
  | nextTurn _ sofar => exact sofar charged
  | received _ _ sofar => exact sofar charged
  | remembered _ _ sofar => exact sofar charged
  | @dispatched σ steps call _ sofar =>
    have before := sofar fun step member => charged step (List.mem_append_left _ member)
    have spent := dispatch_spent S W σ call
    refine ⟨?_, spent.2.trans before.2⟩
    rw [spent.1, overChildren_concat, before.1]
    congr 1
    have own := charged ⟨σ, call⟩ (List.mem_append_right _ (List.mem_singleton.mpr rfl))
    rcases attempted : DispatchStep.attempt S W ⟨σ, call⟩ with _ | attempt
    · rw [DispatchStep.starts, attempted]
      rfl
    · rw [Option.elim_some, Attempt.chargedTokens]
      split
      · rename_i invoked
        rw [show (W.tool σ.dispatched).charged = _ from own attempt attempted invoked]
        split <;> rfl
      · rename_i skipped
        rw [DispatchStep.starts, attempted]
        simp [skipped]

/-- The budgets handed over are what the parent's turns and the earlier children have left. -/
structure WithinTree (step : DispatchStep) (usedTokens usedCents : Int) (call : AgentCall) :
    Prop where
  tokens : ∃ budget, call.inheritedTokenBudget = some budget ∧
    budget ≤ max 0 (S.bundle.tokenBudget - step.before.totalTokens - usedTokens)
  cents : ∃ budget, call.inheritedCostBudgetCents = some budget ∧
    budget ≤ max 0 (S.bundle.conduitBudgetCents - usedCents)

def Child.usedTokens (child : Child) : Int := child.outcome.tokens

def Child.usedCents (child : Child) : Int := child.cents

/-- The tokens of a child that lives to report them. -/
def Child.reportedTokens (child : Child) : Int :=
  if child.outcome.reports then max 0 child.outcome.tokens else 0

/-- The children that report account for all that was used, or for all that is left; and no cent
was spent, or there is none to spend. -/
structure AccountedFor (step : DispatchStep) (earlier : List DispatchStep) : Prop where
  tokens : overChildren T E S W children Child.usedTokens earlier ≤
      overChildren T E S W children Child.reportedTokens earlier ∨
    S.bundle.tokenBudget - step.before.totalTokens ≤
      overChildren T E S W children Child.reportedTokens earlier
  cents : overChildren T E S W children Child.usedCents earlier = 0 ∨
    S.bundle.conduitBudgetCents ≤ 0

theorem charged_eq_reported (child : Child) :
    max 0 child.outcome.charge = child.reportedTokens := by
  rw [ChildEnd.charge_eq, Child.reportedTokens]
  split <;> rfl

theorem overChildren_cents_nonneg (steps : List DispatchStep) :
    0 ≤ overChildren T E S W children Child.usedCents steps := by
  apply List.sum_nonneg
  intro amount member
  rcases List.mem_map.mp member with ⟨step, -, rfl⟩
  split
  · exact Int.natCast_nonneg _
  · exact le_refl 0

theorem floored_le_iff (total charged used : Int) :
    max 0 (total - charged) ≤ max 0 (total - used) ↔ used ≤ charged ∨ total ≤ charged := by
  omega

/-- What a child is handed: the rest of the budgets under the ledger. -/
theorem starts_handed (steps : List DispatchStep) (step : DispatchStep) (call : AgentCall)
    (run : DelegatingRun T E S W children step.before steps)
    (starts : step.starts T E S W children = some call) :
    call.inheritedTokenBudget = some (max 0 (S.bundle.tokenBudget - step.before.totalTokens -
        overChildren T E S W children Child.reportedTokens steps)) ∧
      call.inheritedCostBudgetCents = some (max 0 S.bundle.conduitBudgetCents) := by
  have spent := delegatingRun_spent T E S W children step.before steps run
  simp only [charged_eq_reported] at spent
  rw [DispatchStep.starts, Option.bind_eq_some_iff] at starts
  rcases starts with ⟨attempt, -, called⟩
  split at called
  · have handed := genesisCallUnder_delegated T E _ _ _ _ call called
    refine ⟨?_, ?_⟩
    · rw [handed.tokens, toolContext, remainingDelegationBudget, spent.1]
    · rw [handed.cents, toolContext, remainingDelegationBudget, spent.2, Int.sub_zero]
  · contradiction

theorem withinTree_iff (steps : List DispatchStep) (step : DispatchStep)
    (call : AgentCall) (run : DelegatingRun T E S W children step.before steps)
    (starts : step.starts T E S W children = some call) :
    WithinTree S step (overChildren T E S W children Child.usedTokens steps)
        (overChildren T E S W children Child.usedCents steps) call ↔
      AccountedFor T E S W children step steps := by
  have handed := starts_handed T E S W children steps step call run starts
  have tokens := floored_le_iff (S.bundle.tokenBudget - step.before.totalTokens)
    (overChildren T E S W children Child.reportedTokens steps)
    (overChildren T E S W children Child.usedTokens steps)
  have cents := overChildren_cents_nonneg T E S W children steps
  constructor
  · rintro ⟨⟨budget, given, fits⟩, ⟨cost, paid, within⟩⟩
    rw [handed.1, Option.some.injEq] at given
    rw [handed.2, Option.some.injEq] at paid
    rw [← given] at fits
    refine ⟨tokens.mp fits, ?_⟩
    omega
  · rintro ⟨counted, unspent⟩
    refine ⟨⟨_, handed.1, tokens.mpr counted⟩, ⟨_, handed.2, ?_⟩⟩
    omega

/-- In a run every child is handed a budget of the whole tree exactly when, whenever one is started,
the children before it are accounted for. -/
theorem budget_per_tree_iff (σ : LoopState) (steps : List DispatchStep)
    (run : DelegatingRun T E S W children σ steps) :
    (∀ earlier step later call, steps = earlier ++ step :: later →
      step.starts T E S W children = some call →
        WithinTree S step (overChildren T E S W children Child.usedTokens earlier)
          (overChildren T E S W children Child.usedCents earlier) call) ↔
      ∀ earlier step later call, steps = earlier ++ step :: later →
        step.starts T E S W children = some call →
          AccountedFor T E S W children step earlier := by
  have each (earlier later : List DispatchStep) (step : DispatchStep) (call : AgentCall)
      (whole : steps = earlier ++ step :: later)
      (starts : step.starts T E S W children = some call) :=
    withinTree_iff T E S W children earlier step call
      (DelegatingRun.initial T E S W children σ earlier later step (whole ▸ run)) starts
  constructor
  · intro within earlier step later call whole starts
    exact (each earlier later step call whole starts).mp
      (within earlier step later call whole starts)
  · intro accounted earlier step later call whole starts
    exact (each earlier later step call whole starts).mpr
      (accounted earlier step later call whole starts)

end

/-! A child that is cut off after sixty thousand tokens, and the sibling that is handed the whole
budget. -/

def delegation (agent : String) : ToolCall :=
  ⟨none, some (str "genesis_call"), some (dict [("agent", str agent), ("task", str "look")])⟩

def twoDelegations : AssistantMessage :=
  { content := null, toolCalls := [delegation "genesis-research", delegation "genesis-content"] }

def siblingsWorld : World :=
  { delegatingWorld "" with
    llm := fun turn => if turn = 1 then .responded
        { swarmsync := none, totalTokens := some 0, message := some twoDelegations }
      else .raised "RuntimeError" "no reply" }

def wastefulWorld : World :=
  { siblingsWorld with
    llm := fun _ => .responded
      { swarmsync := none, totalTokens := some 60000
        message := some { content := str "done", toolCalls := [] } } }

def plannerSetting : Setting := { metaRun.setting with tables := productionTables }

def researcherRun : AgentRun :=
  { researchRun with
    setting :=
      { researchRun.setting with
        tables := productionTables
        delegatedAllowedRisks := some (productionTables.allowedRisks "genesis-meta") } }

def siblings : Nat → Child
  | 0 => { jobId := "child-1", sessionId := "child-1", cents := 0
           outcome := .ended researcherRun wastefulWorld }
  | _ => { jobId := "child-2", sessionId := "child-2", cents := 0, outcome := .unstarted }

def askedState : LoopState :=
  { replied (initialState plannerSetting)
      { swarmsync := none, totalTokens := some 0, message := some twoDelegations } with
    messages := (initialState plannerSetting).messages ++ [.assistant twoDelegations] }

def firstStep : DispatchStep := ⟨askedState, delegation "genesis-research"⟩

def secondStep : DispatchStep :=
  ⟨(dispatch plannerSetting siblingsWorld askedState (delegation "genesis-research")).1,
    delegation "genesis-content"⟩

theorem siblings_trace : Trace plannerSetting siblingsWorld
    (dispatch plannerSetting siblingsWorld secondStep.before secondStep.call).1
    [firstStep, secondStep] :=
  .dispatched secondStep.call (.dispatched firstStep.call
    (.remembered twoDelegations (.received _ (.nextTurn .start))))

theorem siblings_charge (n : Nat) : (siblings n).outcome.charge = 0 := by
  cases n <;> rfl

theorem firstStep_starts : firstStep.starts productionDelegation (hopPlatform.serving hopFiles)
    plannerSetting siblingsWorld siblings =
      some { hopCall metaRun researchRun 24000 with
        delegatedAllowedRisks := some (productionTables.allowedRisks "genesis-meta") } := by
  rfl

theorem secondStep_starts : secondStep.starts productionDelegation (hopPlatform.serving hopFiles)
    plannerSetting siblingsWorld siblings =
      some { hopCall metaRun contentRun 24000 with
        delegationChain := ["genesis-meta", "genesis-meta"], delegationDepth := 1
        delegatedAllowedRisks := some (productionTables.allowedRisks "genesis-meta") } := by
  rfl

theorem researcher_executed :
    executeAgentUnder productionDelegation (hopPlatform.serving hopFiles)
      { hopCall metaRun researchRun 24000 with
        delegatedAllowedRisks := some (productionTables.allowedRisks "genesis-meta") } =
      some researcherRun := by
  rfl

theorem siblings_run : DelegatingRun productionDelegation (hopPlatform.serving hopFiles)
    plannerSetting siblingsWorld siblings
    (dispatch plannerSetting siblingsWorld secondStep.before secondStep.call).1
    [firstStep, secondStep] where
  trace := siblings_trace
  charged := by
    intro step _ attempt _ _
    rw [DispatchStep.child, siblings_charge, ite_self]
    rfl
  outcomes := by
    intro step member call starts
    rcases List.mem_cons.mp member with rfl | member
    · rw [firstStep_starts] at starts
      rw [← Option.some.inj starts]
      exact ⟨researcher_executed, rfl⟩
    · obtain rfl := List.mem_singleton.mp member
      trivial

theorem siblings_accounted_iff :
    DelegatingRun productionDelegation (hopPlatform.serving hopFiles) plannerSetting siblingsWorld
        siblings (dispatch plannerSetting siblingsWorld secondStep.before secondStep.call).1
        [firstStep, secondStep] ∧
      ((∀ earlier step later call, [firstStep, secondStep] = earlier ++ step :: later →
        step.starts productionDelegation (hopPlatform.serving hopFiles) plannerSetting siblingsWorld
          siblings = some call →
          WithinTree plannerSetting step
            (overChildren productionDelegation (hopPlatform.serving hopFiles) plannerSetting
              siblingsWorld siblings Child.usedTokens earlier)
            (overChildren productionDelegation (hopPlatform.serving hopFiles) plannerSetting
              siblingsWorld siblings Child.usedCents earlier) call) ↔
        ∀ earlier step later call, [firstStep, secondStep] = earlier ++ step :: later →
          step.starts productionDelegation (hopPlatform.serving hopFiles) plannerSetting
            siblingsWorld siblings = some call →
            AccountedFor productionDelegation (hopPlatform.serving hopFiles) plannerSetting
              siblingsWorld siblings step earlier) :=
  ⟨siblings_run, budget_per_tree_iff productionDelegation (hopPlatform.serving hopFiles)
    plannerSetting siblingsWorld siblings _ _ siblings_run⟩

/-- The first child uses sixty thousand tokens; the second is handed all of the twenty-four
thousand. -/
theorem sibling_handed_all :
    ¬∀ (T : DelegationTables) (E : Platform) (S : Setting) (W : World) (children : Nat → Child)
      (σ : LoopState) (steps : List DispatchStep), DelegatingRun T E S W children σ steps →
        ∀ earlier step later call, steps = earlier ++ step :: later →
          step.starts T E S W children = some call →
            WithinTree S step (overChildren T E S W children Child.usedTokens earlier)
              (overChildren T E S W children Child.usedCents earlier) call := by
  intro hold
  have within := (hold _ _ _ _ _ _ _ siblings_run [firstStep] secondStep [] _ rfl
    secondStep_starts).tokens
  have used : overChildren productionDelegation (hopPlatform.serving hopFiles) plannerSetting
      siblingsWorld siblings Child.usedTokens [firstStep] = 60000 := by
    rw [overChildren, List.map_singleton, firstStep_starts]
    rfl
  rcases within with ⟨budget, handed, fits⟩
  rw [used] at fits
  obtain rfl := Option.some.inj handed
  exact absurd fits (by decide)

end GenesisAgents
