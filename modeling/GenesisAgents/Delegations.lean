import GenesisAgents.GrantContext
import Mathlib.Data.List.Chain

/-! Chains of `genesis_call` delegations under any tables: who may be called, how deep, and with
which risks the callee runs. A hop knows its own agent and the one it calls, nothing of the risks
its own run was handed. -/

namespace GenesisAgents

open Value

/-! `bundle_loader.py` -/

/-- `skill_bundles`. A file is named by the slug it holds, and no name is an alias of another. -/
structure BundleFiles (D : Deployment) where
  /-- The file of a stem, when there is one; its content is `none` when it does not parse. -/
  read : String → Option (Option SkillBundle)
  named : ∀ stem bundle, read stem = some (some bundle) → bundle.slug = stem
  plain : ∀ stem, (read stem).isSome = true → resolveBundleSlug D stem = stem

def bundleCandidates (D : Deployment) (slug : String) : List String :=
  let resolved := resolveBundleSlug D slug
  ([resolved, slug, replaceUnderscores slug, replaceUnderscores resolved].filter (· != "")).eraseDups

namespace BundleFiles

variable {D : Deployment} (files : BundleFiles D)

def loadBundle (slug : String) : Option SkillBundle :=
  ((bundleCandidates D slug).findSome? files.read).join

theorem loadBundle_file (slug : String) (bundle : SkillBundle)
    (loaded : files.loadBundle slug = some bundle) :
    bundle.slug ≠ "" ∧ files.read bundle.slug = some (some bundle) := by
  have found := Option.join_eq_some_iff.mp loaded
  rcases List.exists_of_findSome?_eq_some found with ⟨stem, candidate, content⟩
  have nonempty : stem ≠ "" := by
    have kept := List.mem_eraseDups.mp candidate
    simpa using (List.mem_filter.mp kept).2
  rw [files.named stem bundle content]
  exact ⟨nonempty, content⟩

theorem loadBundle_again (slug : String) (bundle : SkillBundle)
    (loaded : files.loadBundle slug = some bundle) :
    files.loadBundle bundle.slug = some bundle := by
  rcases files.loadBundle_file slug bundle loaded with ⟨nonempty, content⟩
  have resolved : resolveBundleSlug D bundle.slug = bundle.slug := by
    apply files.plain
    rw [content]
    rfl
  have first : (bundle.slug != "") = true := by simpa using nonempty
  rw [loadBundle, bundleCandidates, resolved, List.filter_cons, if_pos first, List.eraseDups_cons,
    List.findSome?_cons, content]
  rfl

end BundleFiles

/-- `BUNDLE_SLUG_ALIASES` -/
def bundleSlugAliases : List (String × String) :=
  [("genesis_meta_agent", "genesis-meta"), ("genesis_meta_x402", "genesis-meta"),
   ("legal_agent", "genesis-legal"), ("genesis_legal_x402", "genesis-legal"),
   ("onboarding_agent", "genesis-onboarding"), ("genesis_hr_x402", "genesis-hr"),
   ("genesis-data-pipeline-agent", "genesis-data-pipeline"),
   ("genesis-data-pipeline", "genesis-data-pipeline"),
   ("genesis-ai-vision-api", "genesis-ai-vision"),
   ("genesis-workflow-automator", "genesis-workflow-automator"),
   ("genesis_domain", "genesis-domain"), ("genesis_maintenance", "genesis-maintenance"),
   ("genesis_pricing", "genesis-pricing")]

def bundleStems : List String :=
  ["genesis-ai-vision", "genesis-analyst", "genesis-billing", "genesis-builder",
   "genesis-commerce", "genesis-content", "genesis-data-pipeline", "genesis-deploy",
   "genesis-domain", "genesis-e4l-ap", "genesis-e4l-ar", "genesis-e4l-cash", "genesis-e4l-close",
   "genesis-e4l-cogs-cm", "genesis-e4l-commissions", "genesis-e4l-controller",
   "genesis-e4l-fs-integrity", "genesis-e4l-intercompany", "genesis-e4l-journals",
   "genesis-e4l-revenue", "genesis-e4l-shopify", "genesis-e4l-stripe", "genesis-e4l-treasury",
   "genesis-email", "genesis-finance", "genesis-hr", "genesis-legal", "genesis-maintenance",
   "genesis-marketing", "genesis-meta", "genesis-onboarding", "genesis-pricing", "genesis-qa",
   "genesis-research", "genesis-security", "genesis-seo", "genesis-support",
   "genesis-workflow-automator"]

theorem bundleStems_plain (D : Deployment) (aliases : D.bundleAliases = bundleSlugAliases) :
    ∀ stem ∈ bundleStems, resolveBundleSlug D stem = stem := by
  intro stem member
  rw [resolveBundleSlug, aliases]
  revert stem
  decide +kernel

def shippedFiles (D : Deployment) (aliases : D.bundleAliases = bundleSlugAliases)
    (content : String → Option SkillBundle) : BundleFiles D where
  read stem := if stem ∈ bundleStems then
      some ((content stem).map fun bundle => { bundle with slug := stem })
    else none
  named := by
    intro stem bundle found
    split at found
    · rcases Option.map_eq_some_iff.mp (Option.some.inj found) with ⟨_, -, rfl⟩
      rfl
    · contradiction
  plain := by
    intro stem present
    split at present
    · exact bundleStems_plain D aliases stem ‹_›
    · contradiction

def Platform.serving (E : Platform) (files : BundleFiles E.deployment) : Platform :=
  { E with loadBundle := files.loadBundle }

theorem Platform.serving_loadBundle (E : Platform) (files : BundleFiles E.deployment) :
    (E.serving files).loadBundle = files.loadBundle := by
  rw [Platform.serving]

/-! `genesis_call` and `execute_agent` under any tables -/

/-- `DELEGATION_TARGETS`, and `SLUG_ALLOWED_RISKS` among the tables of the policy. -/
structure DelegationTables where
  delegationTargets : List (String × List String)
  policy : PolicyTables

def productionDelegation : DelegationTables := ⟨delegationTargets, productionTables⟩

section

variable (T : DelegationTables) (E : Platform)

def genesisCallUnder (args : Value) (context : ToolContext) (childJobId childSessionId : String) :
    Option AgentCall :=
  match args.get? "agent", args.get? "task" with
  | some (str agent), some (str task) =>
    match E.loadBundle agent with
    | none => none
    | some target =>
      if !((T.delegationTargets.lookup context.agentSlug).getD []).contains target.slug then none
      else if maxDelegationDepth ≤ context.delegationDepth then none
      else if context.delegationChain.contains target.slug || target.slug == context.agentSlug then
        none
      else some
        { slug := target.slug, task := task, params := (args.get "params").orElse (dict [])
          jobId := childJobId, sessionId := childSessionId
          delegationChain := context.delegationChain ++ [context.agentSlug]
          delegationDepth := context.delegationDepth + 1
          delegatedAllowedRisks := some (T.policy.allowedRisks context.agentSlug)
          inheritedTokenBudget := some context.remainingTokenBudget
          inheritedCostBudgetCents := some context.remainingCostBudgetCents }
  | _, _ => none

theorem genesisCall_production (args : Value) (context : ToolContext)
    (childJobId childSessionId : String) :
    genesisCallUnder productionDelegation E args context childJobId childSessionId =
      genesisCall E args context childJobId childSessionId := rfl

def AgentRun.under (tables : PolicyTables) (run : AgentRun) : AgentRun :=
  { run with setting := { run.setting with tables := tables } }

/-- The tables are read in the loop only. -/
def executeAgentUnder (call : AgentCall) : Option AgentRun :=
  (executeAgent E call).map (AgentRun.under T.policy)

theorem executeAgent_production (call : AgentCall) :
    executeAgentUnder productionDelegation E call = executeAgent E call := by
  rw [executeAgentUnder]
  rcases executed : executeAgent E call with _ | run
  · rfl
  · have tables := (executeAgent_handsOver E call run executed).tables
    rw [Option.map_some, AgentRun.under, productionDelegation, ← tables]

/-- What a delegation that is let through has passed, and what it hands to the child. -/
structure Delegated (context : ToolContext) (call : AgentCall) : Prop where
  loaded : ∃ agent bundle, E.loadBundle agent = some bundle ∧ call.slug = bundle.slug
  target : call.slug ∈ (T.delegationTargets.lookup context.agentSlug).getD []
  shallow : context.delegationDepth < maxDelegationDepth
  uncalled : call.slug ∉ context.delegationChain
  notSelf : call.slug ≠ context.agentSlug
  chain : call.delegationChain = context.delegationChain ++ [context.agentSlug]
  depth : call.delegationDepth = context.delegationDepth + 1
  risks : call.delegatedAllowedRisks = some (T.policy.allowedRisks context.agentSlug)
  tokens : call.inheritedTokenBudget = some context.remainingTokenBudget
  cents : call.inheritedCostBudgetCents = some context.remainingCostBudgetCents

theorem genesisCallUnder_delegated (args : Value) (context : ToolContext)
    (childJobId childSessionId : String) (call : AgentCall)
    (accepted : genesisCallUnder T E args context childJobId childSessionId = some call) :
    Delegated T E context call := by
  unfold genesisCallUnder at accepted
  split at accepted
  · split at accepted
    · contradiction
    · rename_i agent task _ _ _ target found
      split_ifs at accepted with foreign deep cyclic
      obtain rfl := Option.some.inj accepted
      have fresh : target.slug ∉ context.delegationChain ∧ target.slug ≠ context.agentSlug := by
        simpa using cyclic
      exact
        { loaded := ⟨agent, target, found, rfl⟩
          target := by simpa using foreign
          shallow := not_le.mp deep
          uncalled := fresh.1
          notSelf := fresh.2
          chain := rfl
          depth := rfl
          risks := rfl
          tokens := rfl
          cents := rfl }
  · contradiction

/-- What `execute_agent` makes of the place in the chain. -/
structure Inherits (call : AgentCall) (run : AgentRun) : Prop where
  slug : ∃ bundle, E.loadBundle call.slug = some bundle ∧ run.setting.slug = bundle.slug
  chain : run.setting.delegationChain = call.delegationChain
  depth : run.setting.delegationDepth = call.delegationDepth
  risks : run.setting.delegatedAllowedRisks = call.delegatedAllowedRisks

theorem executeAgentUnder_inherits (call : AgentCall) (run : AgentRun)
    (executed : executeAgentUnder T E call = some run) : Inherits E call run := by
  rcases Option.map_eq_some_iff.mp executed with ⟨plain, started, rfl⟩
  simp only [executeAgent, Option.bind_eq_bind, Option.bind_eq_some_iff] at started
  rcases started with ⟨bundle, found, systemPrompt, -, params, -, same⟩
  obtain rfl := Option.some.inj same
  exact ⟨⟨bundle, found, rfl⟩, rfl, rfl, rfl⟩

end

section

variable (T : DelegationTables) (E : Platform)

/-- The runs from the root of a request to a delegated agent, the latest first. -/
inductive DelegationChain : List AgentRun → Prop
  | root {slug task jobId sessionId : String} {params : Value} {run : AgentRun}
      (executed : executeAgentUnder T E (rootCall slug task params jobId sessionId) = some run) :
      DelegationChain [run]
  | delegate {parent child : AgentRun} {above : List AgentRun} {W : World} {args : Value}
      {context : ToolContext} {childJobId childSessionId : String} {call : AgentCall}
      (sofar : DelegationChain (parent :: above))
      (invoked : .invoke "genesis_call" args context ∈ parent.effects W)
      (delegated : genesisCallUnder T E args context childJobId childSessionId = some call)
      (executed : executeAgentUnder T E call = some child) :
      DelegationChain (child :: parent :: above)

end

namespace AgentRun

def slug (run : AgentRun) : String := run.setting.slug

theorem invoke_context (run : AgentRun) (W : World) (tool : String) (args : Value)
    (context : ToolContext) (member : .invoke tool args context ∈ run.effects W) :
    ∃ σ, context = toolContext run.setting σ := by
  have within : .invoke tool args context ∈ (runLoop run.setting W).1.effects := by
    rw [effects] at member
    split at member
    · exact member
    · exact List.takeWhile_subset _ member
  rcases runLoop_invokes run.setting W tool args context within with ⟨step, -, -, -, -, same⟩
  exact ⟨step.before, same⟩

end AgentRun

structure ChainTip (T : DelegationTables) (run : AgentRun) (above : List AgentRun) : Prop where
  distinct : ((run :: above).map AgentRun.slug).Nodup
  listed : ∀ agent ∈ above, agent.slug ∈ run.setting.delegationChain
  depth : run.setting.delegationDepth = above.length
  bounded : above.length ≤ maxDelegationDepth
  risks : run.setting.delegatedAllowedRisks =
    above.head?.map fun parent => T.policy.allowedRisks parent.slug

section

variable (T : DelegationTables) (E : Platform) (files : BundleFiles E.deployment)

theorem chainTip_root (slug task jobId sessionId : String) (params : Value) (run : AgentRun)
    (executed : executeAgentUnder T (E.serving files)
      (rootCall slug task params jobId sessionId) = some run) : ChainTip T run [] := by
  have inherits := executeAgentUnder_inherits T _ _ run executed
  exact
    { distinct := List.nodup_singleton _
      listed := by simp
      depth := inherits.depth
      bounded := Nat.zero_le _
      risks := inherits.risks }

theorem chainTip_delegate (parent child : AgentRun) (above : List AgentRun) (W : World)
    (args : Value) (context : ToolContext) (childJobId childSessionId : String) (call : AgentCall)
    (tip : ChainTip T parent above)
    (invoked : .invoke "genesis_call" args context ∈ parent.effects W)
    (delegated : genesisCallUnder T (E.serving files) args context childJobId childSessionId =
      some call)
    (executed : executeAgentUnder T (E.serving files) call = some child) :
    ChainTip T child (parent :: above) := by
  rcases parent.invoke_context W _ args context invoked with ⟨σ, rfl⟩
  have passed := genesisCallUnder_delegated T _ args _ _ _ call delegated
  have inherits := executeAgentUnder_inherits T _ call child executed
  have named : child.slug = call.slug := by
    rcases passed.loaded with ⟨agent, bundle, loaded, target⟩
    rcases inherits.slug with ⟨again, reloaded, same⟩
    rw [Platform.serving_loadBundle] at loaded reloaded
    rw [target, files.loadBundle_again agent bundle loaded] at reloaded
    rw [AgentRun.slug, same, ← Option.some.inj reloaded, target]
  have earlier : ∀ agent ∈ parent :: above,
      agent.slug ∈ parent.setting.delegationChain ++ [parent.slug] := by
    intro agent member
    rcases List.mem_cons.mp member with rfl | member
    · exact List.mem_append_right _ (List.mem_singleton.mpr rfl)
    · exact List.mem_append_left _ (tip.listed agent member)
  have uncalled : call.slug ∉ parent.setting.delegationChain ++ [parent.slug] := passed.uncalled
  have shallow : parent.setting.delegationDepth < maxDelegationDepth := passed.shallow
  constructor
  · rw [List.map_cons, List.nodup_cons]
    refine ⟨fun repeated => ?_, tip.distinct⟩
    rcases List.mem_map.mp repeated with ⟨agent, member, same⟩
    apply uncalled
    rw [← named, ← same]
    exact earlier agent member
  · intro agent member
    rw [inherits.chain, passed.chain]
    exact List.mem_append_left _ (earlier agent member)
  · calc
      child.setting.delegationDepth = parent.setting.delegationDepth + 1 :=
        inherits.depth.trans passed.depth
      _ = (parent :: above).length := by rw [tip.depth, List.length_cons]
  · rw [tip.depth] at shallow
    exact shallow
  · exact inherits.risks.trans passed.risks

theorem chain_tip (agents : List AgentRun) (chain : DelegationChain T (E.serving files) agents) :
    ∀ run above, agents = run :: above → ChainTip T run above := by
  induction chain with
  | root executed =>
    intro run above same
    obtain ⟨rfl, rfl⟩ := List.cons.inj same
    exact chainTip_root T E files _ _ _ _ _ _ executed
  | delegate sofar invoked delegated executed tip =>
    intro run above same
    obtain ⟨rfl, rfl⟩ := List.cons.inj same
    exact chainTip_delegate T E files _ _ _ _ _ _ _ _ _ (tip _ _ rfl) invoked delegated executed

/-- The agent `delegator` may take no risk that `caller` may not. -/
def Within (delegator caller : AgentRun) : Prop :=
  T.policy.allowedRisks delegator.slug ⊆ T.policy.allowedRisks caller.slug

instance : IsTrans AgentRun (Within T) :=
  ⟨fun _ _ _ lower upper => List.Subset.trans lower upper⟩

/-- Each delegated agent runs with risks that every agent before it may take. -/
def NeverWidens (agents : List AgentRun) : Prop :=
  agents.Pairwise fun child ancestor => ∃ risks,
    child.setting.delegatedAllowedRisks = some risks ∧
      risks ⊆ T.policy.allowedRisks ancestor.slug

theorem neverWidens_delegate (parent child : AgentRun) (above : List AgentRun)
    (tip : ChainTip T child (parent :: above)) :
    NeverWidens T (child :: parent :: above) ↔
      (∀ ancestor ∈ above, Within T parent ancestor) ∧ NeverWidens T (parent :: above) := by
  have handed (ancestor : AgentRun) : (∃ risks, child.setting.delegatedAllowedRisks = some risks ∧
      risks ⊆ T.policy.allowedRisks ancestor.slug) ↔ Within T parent ancestor := by
    rw [tip.risks, Within]
    simp
  rw [NeverWidens, List.pairwise_cons]
  simp only [handed, List.forall_mem_cons]
  exact and_congr_left fun _ => and_iff_right (List.Subset.refl _)

theorem neverWidens_iff (agents : List AgentRun)
    (chain : DelegationChain T (E.serving files) agents) :
    NeverWidens T agents ↔ agents.tail.Pairwise (Within T) := by
  induction chain with
  | root executed => simp [NeverWidens]
  | delegate sofar invoked delegated executed hop =>
    have tip := chain_tip T E files _ (.delegate sofar invoked delegated executed) _ _ rfl
    rw [neverWidens_delegate T _ _ _ tip, hop, List.tail_cons, List.tail_cons, List.pairwise_cons]

/-- No agent is called twice and the depth is bounded, whatever the tables hold. The risks of a
delegated agent stay within those of all agents before it exactly when each agent that calls on
may itself take no more than the agent that called it. -/
theorem delegation_narrows_iff (agents : List AgentRun)
    (chain : DelegationChain T (E.serving files) agents) :
    (agents.map AgentRun.slug).Nodup ∧ agents.length ≤ maxDelegationDepth + 1 ∧
      (NeverWidens T agents ↔ agents.tail.IsChain (Within T)) := by
  have tips := chain_tip T E files agents chain
  rw [List.isChain_iff_pairwise]
  refine ⟨?_, ?_, neverWidens_iff T E files agents chain⟩
  · cases chain with
    | root => exact (tips _ _ rfl).distinct
    | delegate => exact (tips _ _ rfl).distinct
  · cases chain with
    | root => exact Nat.succ_le_succ (tips _ _ rfl).bounded
    | delegate => exact Nat.succ_le_succ (tips _ _ rfl).bounded

end

/-! A second hop: the researcher is told to call on, and may use the network, which its caller may
not. -/

def delegatingWorld (agent : String) : World :=
  { askingWorld "genesis_call" with
    llm := fun turn => if turn = 1 then .responded
        { swarmsync := none, totalTokens := some 0
          message := some
            { content := null
              toolCalls := [⟨none, some (str "genesis_call"),
                some (dict [("agent", str agent), ("task", str "look")])⟩] } }
      else .raised "RuntimeError" "no reply"
    tool := fun _ => .returned (dict [("ok", bool true)]) 0 }

def researchHop : DelegationTables where
  delegationTargets :=
    [("genesis-meta", ["genesis-research"]), ("genesis-research", ["genesis-content"])]
  policy :=
    { productionTables with
      slugAllowedRisks := [("genesis-meta", [.readOnly, .subagent]),
        ("genesis-research", [.readOnly, .subagent, .network])] }

def hopPlatform : Platform :=
  { builderPlatform with
    deployment := { researchDeployment with bundleAliases := bundleSlugAliases }
    registry := ["genesis_call"] }

def hopFiles : BundleFiles hopPlatform.deployment :=
  shippedFiles hopPlatform.deployment rfl fun _ => some
    { slug := "", systemPrompt := "", toolsAdvertised := ["genesis_call"]
      tokenBudget := some 24000, conduitBudgetCents := some 100 }

def hopRun (slug task jobId : String) (chain : List String) (depth : Nat)
    (risks : Option (List Risk)) : AgentRun :=
  { setting :=
      { unicode := researchDeployment.unicode, tables := researchHop.policy
        registry := ["genesis_call"]
        bundle :=
          { slug := slug, systemPrompt := "", toolsAdvertised := ["genesis_call"]
            tokenBudget := 24000, conduitBudgetCents := 100 }
        task := task, params := dict [], jobId := jobId, sessionId := jobId
        delegationChain := chain, delegationDepth := depth, delegatedAllowedRisks := risks }
    mapping := true }

def metaRun : AgentRun := hopRun "genesis-meta" "plan" "job-1" [] 0 none

def researchRun : AgentRun :=
  hopRun "genesis-research" "look" "child-1" ["genesis-meta", "genesis-meta"] 1
    (some [.readOnly, .subagent])

def contentRun : AgentRun :=
  hopRun "genesis-content" "look" "child-2"
    ["genesis-meta", "genesis-meta", "genesis-research", "genesis-research"] 2
    (some [.readOnly, .subagent, .network])

theorem meta_executed : executeAgentUnder researchHop (hopPlatform.serving hopFiles)
    (rootCall "genesis-meta" "plan" (dict []) "job-1" "job-1") = some metaRun := by
  rfl

def onlyContext (run : AgentRun) : ToolContext :=
  toolContext run.setting (replied (initialState run.setting)
    { swarmsync := none, totalTokens := some 0, message := none })

theorem meta_invokes : .invoke "genesis_call"
    (dict [("agent", str "genesis-research"), ("task", str "look")])
    (onlyContext metaRun) ∈
      metaRun.effects (delegatingWorld "genesis-research") := by
  apply List.mem_of_getElem? (i := 1)
  rfl

theorem research_invokes : .invoke "genesis_call"
    (dict [("agent", str "genesis-content"), ("task", str "look")])
    (onlyContext researchRun) ∈
      researchRun.effects (delegatingWorld "genesis-content") := by
  apply List.mem_of_getElem? (i := 1)
  rfl

def hopCall (caller callee : AgentRun) (budget : Int) : AgentCall :=
  { slug := callee.slug, task := "look", params := dict [], jobId := callee.setting.jobId
    sessionId := callee.setting.jobId, delegationChain := callee.setting.delegationChain
    delegationDepth := callee.setting.delegationDepth
    delegatedAllowedRisks := some (researchHop.policy.allowedRisks caller.slug)
    inheritedTokenBudget := some budget, inheritedCostBudgetCents := some 100 }

theorem research_called : genesisCallUnder researchHop (hopPlatform.serving hopFiles)
    (dict [("agent", str "genesis-research"), ("task", str "look")]) (onlyContext metaRun)
    "child-1" "child-1" = some (hopCall metaRun researchRun 24000) := by
  rfl

theorem research_executed : executeAgentUnder researchHop (hopPlatform.serving hopFiles)
    (hopCall metaRun researchRun 24000) = some researchRun := by
  rfl

theorem content_called : genesisCallUnder researchHop (hopPlatform.serving hopFiles)
    (dict [("agent", str "genesis-content"), ("task", str "look")]) (onlyContext researchRun)
    "child-2" "child-2" = some (hopCall researchRun contentRun 24000) := by
  rfl

theorem content_executed : executeAgentUnder researchHop (hopPlatform.serving hopFiles)
    (hopCall researchRun contentRun 24000) = some contentRun := by
  rfl

theorem research_chain :
    DelegationChain researchHop (hopPlatform.serving hopFiles) [researchRun, metaRun] :=
  .delegate (.root meta_executed) meta_invokes research_called research_executed

theorem content_chain :
    DelegationChain researchHop (hopPlatform.serving hopFiles)
      [contentRun, researchRun, metaRun] :=
  .delegate research_chain research_invokes content_called content_executed

theorem research_chain_narrows :
    DelegationChain researchHop (hopPlatform.serving hopFiles) [researchRun, metaRun] ∧
      ([researchRun, metaRun].map AgentRun.slug).Nodup ∧
      [researchRun, metaRun].length ≤ maxDelegationDepth + 1 ∧
      (NeverWidens researchHop [researchRun, metaRun] ↔
        [researchRun, metaRun].tail.IsChain (Within researchHop)) :=
  ⟨research_chain, delegation_narrows_iff researchHop hopPlatform hopFiles _ research_chain⟩

/-- The writer runs with `network`, which the agent that started the chain may not use. -/
theorem hop_widens :
    ¬∀ (T : DelegationTables) (E : Platform) (files : BundleFiles E.deployment)
      (agents : List AgentRun), DelegationChain T (E.serving files) agents →
        (agents.map AgentRun.slug).Nodup ∧ agents.length ≤ maxDelegationDepth + 1 ∧
          NeverWidens T agents := by
  intro hold
  have narrow := (hold researchHop hopPlatform hopFiles _ content_chain).2.2
  rcases (List.pairwise_cons.mp narrow).1 metaRun (by simp) with ⟨risks, handed, within⟩
  have risky : Risk.network ∈ risks := by
    rw [← Option.some.inj handed]
    decide
  exact absurd (within risky) (by decide)

section

variable (E : Platform) (files : BundleFiles E.deployment)

theorem delegator_is_meta (policy : PolicyTables) (parent : AgentRun) (W : World) (args : Value)
    (context : ToolContext) (childJobId childSessionId : String) (call : AgentCall)
    (invoked : .invoke "genesis_call" args context ∈ parent.effects W)
    (delegated : genesisCallUnder ⟨delegationTargets, policy⟩ (E.serving files) args context
      childJobId childSessionId = some call) : parent.slug = "genesis-meta" := by
  rcases parent.invoke_context W _ args context invoked with ⟨σ, rfl⟩
  have target : call.slug ∈ (delegationTargets.lookup parent.slug).getD [] :=
    (genesisCallUnder_delegated _ _ args _ _ _ call delegated).target
  by_contra other
  have unlisted : delegationTargets.lookup parent.slug = none := by
    simp [delegationTargets, other]
  rw [unlisted] at target
  contradiction

/-- With the targets of the file no agent that is called calls on, so the risks never widen. -/
theorem production_never_widens (policy : PolicyTables) (agents : List AgentRun)
    (chain : DelegationChain ⟨delegationTargets, policy⟩ (E.serving files) agents) :
    NeverWidens ⟨delegationTargets, policy⟩ agents := by
  rw [neverWidens_iff _ E files agents chain]
  cases chain with
  | root => exact List.Pairwise.nil
  | delegate sofar invoked delegated executed =>
    have caller := delegator_is_meta E files policy _ _ _ _ _ _ _ invoked delegated
    cases sofar with
    | root => exact List.pairwise_singleton _ _
    | delegate before invoked' delegated' executed' =>
      have callers := delegator_is_meta E files policy _ _ _ _ _ _ _ invoked' delegated'
      have tip := chain_tip _ E files _ (.delegate before invoked' delegated' executed') _ _ rfl
      have distinct := tip.distinct
      rw [List.map_cons, List.map_cons, caller, callers] at distinct
      simp at distinct

end

end GenesisAgents
