import GenesisAgents.XeroPosts
import GenesisAgents.DispatchSteps

/-! Does a scoped Xero call keep to the operations that the job was dispatched with? The parameter
`allowed_xero_operations` of a job on its way through the tool context into `xero_scoped_invoke`. -/

namespace GenesisAgents

open Value

/-! The call with the context of the run loop. -/

/-- The parameters of `xero_scoped_invoke` that have a name. -/
def xeroParameters : List String :=
  ["operation", "payload", "entity_key", "verify_api_run_id", "agent_slug", "_job_dir"]

/-- The part of the context that the tool looks for among its other keyword arguments. -/
def ToolContext.keywords (context : ToolContext) : List (String × Value) :=
  [("_parent_agent_slug", str context.agentSlug), ("_agent_slug", str context.agentSlug),
    ("_allowed_xero_operations", context.allowedXeroOperations),
    ("_scope_map_version", context.scopeMapVersion), ("_execution_realm", context.executionRealm)]

/-- The call of `tool(**args, **ctx)`; `none` when it raises before it enters the tool. -/
def boundXero (args : Value) (context : ToolContext) : Option XeroCall :=
  if kwargsBind args then
    (args.get? "operation").map fun operation =>
      { operation := operation
        payload := args.get "payload"
        entityKey := args.getD "entity_key" (str "")
        verifyApiRunId := args.getD "verify_api_run_id" (str "")
        agentSlug := args.getD "agent_slug" (str "")
        kwargs := dict ((args.items.filter fun kv => !xeroParameters.contains kv.1) ++ context.keywords) }
  else none

def invokeXero (X : XeroTool) (σ : XeroState) (args : Value) (context : ToolContext)
    (exchange : BridgeExchange) : XeroState × ToolReturn :=
  match boundXero args context with
  | none => (σ, .raised)
  | some call => xeroScopedInvoke X σ call exchange

/-- The operation went to the bridge, or the call reports it done. -/
def Carried (before : XeroState) (after : XeroState × ToolReturn) : Prop :=
  after.1.posts ≠ before.posts ∨ ∃ result, after.2 = .returned result ∧ result.get "ok" = Value.bool true

/-- What is carried out is an operation that the job lists and the scope map allows to its agent. -/
def KeepsToAllowlist (X : XeroTool) (σ : XeroState) (S : Setting) (args : Value) (context : ToolContext)
    (exchange : BridgeExchange) : Prop :=
  Carried σ (invokeXero X σ args context exchange) →
    ∃ name, args.get "operation" = str name ∧
      (∃ listed, S.params.get "allowed_xero_operations" = list listed ∧ str name ∈ listed) ∧
      ∃ why, operationAllowed X.scopeMap (strip S.slug) (str name) = some (true, why)

def BridgeTakes (X : XeroTool) (σ : XeroState) (key : String) (exchange : BridgeExchange) : Prop :=
  if X.bridgeUrl = "" then (recordIdempotency X σ.file key).2 = false
  else allowedBridgeUrl X = some true ∧ exchange.replies ≠ []

def PassesOtherGates (X : XeroTool) (σ : XeroState) (args : Value) (context : ToolContext)
    (exchange : BridgeExchange) : Prop :=
  ∃ call slug verifyId why, boundXero args context = some call ∧ identify X call = .ok (slug, verifyId) ∧
    checkIdempotency X σ.file (idempotencyKey verifyId (text X.unicode call.operation) slug) = some false ∧
    operationAllowed X.scopeMap slug call.operation = some (true, why) ∧
    BridgeTakes X σ (idempotencyKey verifyId (text X.unicode call.operation) slug) exchange

theorem lookup_keywords (args : Value) (context : ToolContext) (key : String) (bound : kwargsBind args = true)
    (own : key ∈ contextKeys) :
    (dict ((args.items.filter fun kv => !xeroParameters.contains kv.1) ++ context.keywords)).get key =
      (dict context.keywords).get key := by
  have absent : (args.items.filter fun kv => !xeroParameters.contains kv.1).lookup key = none := by
    rw [kwargsBind, Bool.and_eq_true, List.all_eq_true] at bound
    rw [List.lookup_eq_none_iff]
    intro entry member
    have free := bound.2 entry (List.mem_filter.mp member).1
    rw [Bool.not_eq_true', List.contains_eq_mem, decide_eq_false_iff_not] at free
    simp only [bne_iff_ne, ne_eq]
    rintro rfl
    exact free own
  rw [Value.get, Value.get, getD, getD, get?, get?, List.lookup_append, absent, Option.none_or]

section

variable (args : Value) (context : ToolContext) (call : XeroCall)
  (bound : boundXero args context = some call)

include bound

theorem bound_operation : args.get "operation" = call.operation := by
  rw [boundXero] at bound
  split at bound
  · rcases given : args.get? "operation" with _ | operation
    · rw [given] at bound
      cases bound
    · rw [given] at bound
      rw [Value.get, getD, given, ← Option.some.inj bound]
      rfl
  · cases bound

theorem bound_keyword (key : String) (own : key ∈ contextKeys) :
    call.kwargs.get key = (dict context.keywords).get key := by
  rw [boundXero] at bound
  split at bound
  · rename_i binds
    rcases given : args.get? "operation" with _ | operation
    · rw [given] at bound
      cases bound
    · rw [given] at bound
      rw [← Option.some.inj bound]
      exact lookup_keywords args context key binds own
  · cases bound

theorem trusted_runtime (named : strip context.agentSlug ≠ "") :
    trustedAgentSlug call = some (strip context.agentSlug) := by
  have parent := bound_keyword args context call bound "_parent_agent_slug" (by decide)
  have injected : setText (call.kwargs.get "_parent_agent_slug") = some (strip context.agentSlug) := by
    rw [parent]
    exact if_neg named
  rw [trustedAgentSlug, injected]

theorem bound_allowlist :
    dispatchAllowedOperations call.kwargs =
      match context.allowedXeroOperations with
      | list listed => some (listed.filterMap fun item =>
          match item with
          | str s => if s = "" then none else some s
          | _ => none)
      | _ => none := by
  rw [dispatchAllowedOperations, bound_keyword args context call bound "_allowed_xero_operations" (by decide)]
  rfl

end

theorem identify_trusted (X : XeroTool) (call : XeroCall) (slug verifyId : String)
    (identified : identify X call = .ok (slug, verifyId)) : trustedAgentSlug call = some slug := by
  rw [identify] at identified
  split at identified
  · cases identified
  · rename_i trusted found
    split at identified
    · cases identified
    · split at identified
      · cases identified
      · cases identified
      · split at identified
        · cases identified
        · rw [found, (Prod.mk.inj (Except.ok.inj identified)).1]

theorem scopeGates_ok_iff (X : XeroTool) (call : XeroCall) (slug : String) :
    scopeGates X call slug = .ok () ↔
      dispatchDenies call = false ∧ ∃ why, operationAllowed X.scopeMap slug call.operation = some (true, why) := by
  rw [scopeGates]
  by_cases denied : dispatchDenies call = true
  · rw [if_pos denied]
    simp [denied]
  · rw [if_neg denied]
    have let_in := Bool.eq_false_iff.mpr denied
    rcases operationAllowed X.scopeMap slug call.operation with _ | ⟨_ | _, why⟩
    · simp
    · simp
    · simp [let_in]

theorem admission_ok_iff (X : XeroTool) (seen : String → Option Bool) (call : XeroCall) (triple : XeroTriple) :
    admission X seen call = .ok triple ↔
      identify X call = .ok (triple.slug, triple.verifyId) ∧ triple.operation = text X.unicode call.operation ∧
        seen triple.key = some false ∧ scopeGates X call triple.slug = .ok () := by
  constructor
  · intro admitted
    rw [admission] at admitted
    rcases except_bind_ok _ _ _ admitted with ⟨⟨slug, verifyId⟩, identified, admitted⟩
    dsimp only at admitted
    split at admitted
    · cases admitted
    · cases admitted
    · rename_i unseen
      rcases except_bind_ok _ _ _ admitted with ⟨⟨⟩, gated, admitted⟩
      obtain rfl := Except.ok.inj admitted
      exact ⟨identified, rfl, unseen, gated⟩
  · rintro ⟨identified, named, unseen, gated⟩
    rcases triple with ⟨slug, operation, verifyId⟩
    obtain rfl : operation = text X.unicode call.operation := named
    simp only [admission, identified, bind, Except.bind, unseen, gated]
    rfl

def Declined (result : ToolReturn) : Prop := result = .raised ∨ ∃ error rest, result = failure error rest

theorem Declined.not_done {result : ToolReturn} (declined : Declined result) :
    ¬ ∃ v, result = .returned v ∧ v.get "ok" = Value.bool true := by
  rintro ⟨v, rfl, done⟩
  rcases declined with raised | ⟨error, rest, failed⟩
  · cases raised
  · rw [ToolReturn.returned.inj failed] at done
    cases done

theorem identify_refuses (X : XeroTool) (call : XeroCall) (result : ToolReturn)
    (refused : identify X call = .error result) : Declined result := by
  rw [identify] at refused
  split at refused
  · exact .inl (Except.error.inj refused).symm
  · split at refused
    · exact .inr ⟨_, _, (Except.error.inj refused).symm⟩
    · split at refused
      · exact .inl (Except.error.inj refused).symm
      · exact .inr ⟨_, _, (Except.error.inj refused).symm⟩
      · split at refused
        · exact .inr ⟨_, _, (Except.error.inj refused).symm⟩
        · cases refused

theorem scopeGates_refuses (X : XeroTool) (call : XeroCall) (slug : String) (result : ToolReturn)
    (refused : scopeGates X call slug = .error result) : Declined result := by
  rw [scopeGates] at refused
  split at refused
  · exact .inr ⟨_, _, (Except.error.inj refused).symm⟩
  · split at refused
    · exact .inl (Except.error.inj refused).symm
    · cases refused
    · exact .inr ⟨_, _, (Except.error.inj refused).symm⟩

theorem admission_refuses (X : XeroTool) (seen : String → Option Bool) (call : XeroCall) (result : ToolReturn)
    (refused : admission X seen call = .error result) : Declined result := by
  rcases identified : identify X call with early | ⟨slug, verifyId⟩
  · rw [admission, identified] at refused
    rw [← Except.error.inj refused]
    exact identify_refuses X call early identified
  · simp only [admission, identified, bind, Except.bind] at refused
    split at refused
    · rw [← Except.error.inj refused]
      exact .inl rfl
    · rw [← Except.error.inj refused]
      exact .inr ⟨_, _, rfl⟩
    · rcases gated : scopeGates X call slug with late | ⟨⟩
      · rw [gated] at refused
        rw [← Except.error.inj refused]
        exact scopeGates_refuses X call slug late gated
      · rw [gated] at refused
        cases refused

theorem not_carried (σ : XeroState) (result : ToolReturn) (declined : Declined result) :
    ¬ Carried σ (σ, result) := by
  rintro (moved | done)
  · exact moved rfl
  · exact declined.not_done done

theorem unsent_of_replies (exchange : BridgeExchange) (none_ : exchange.replies = []) :
    exchange.outcome = .unsent := by
  rw [BridgeExchange.replies] at none_
  rcases way : exchange.redirects.take (BridgeExchange.maxRedirects - 1) with _ | ⟨redirect, rest⟩
  · rw [way] at none_
    cases outcome : exchange.outcome with
    | unsent => rfl
    | lost =>
      rw [outcome] at none_
      cases none_
    | answered status data =>
      rw [outcome] at none_
      cases none_
  · rw [way] at none_
    cases none_

theorem sendPost_carried_iff (X : XeroTool) (σ : XeroState) (call : XeroCall) (triple : XeroTriple)
    (exchange : BridgeExchange) :
    Carried σ (sendPost X σ call triple exchange) ↔ exchange.replies ≠ [] := by
  constructor
  · intro carried none_
    rw [sendPost, unsent_of_replies exchange none_, none_] at carried
    rcases carried with moved | ⟨result, returned, -⟩
    · exact moved (List.append_nil _)
    · cases returned
  · intro sent
    refine .inl ?_
    rw [sendPost_posts]
    intro same
    exact sent (List.map_eq_nil_iff.mp (List.append_right_eq_self.mp same))

theorem carried_iff (X : XeroTool) (σ : XeroState) (call : XeroCall) (exchange : BridgeExchange) :
    Carried σ (xeroScopedInvoke X σ call exchange) ↔
      ∃ triple, admission X (checkIdempotency X σ.file) call = .ok triple ∧
        BridgeTakes X σ triple.key exchange := by
  rw [xeroScopedInvoke]
  rcases admitted : admission X (checkIdempotency X σ.file) call with refused | triple
  · have never := not_carried σ refused (admission_refuses X _ call refused admitted)
    simp [never]
  · simp only [Except.ok.injEq, exists_eq_left', BridgeTakes]
    by_cases dry : X.bridgeUrl = ""
    · rw [if_pos dry, if_pos dry]
      rcases writes : recordIdempotency X σ.file triple.key with ⟨file, _ | _⟩
      · simp only [recorded, writes, iff_true]
        exact .inr ⟨_, rfl, rfl⟩
      · simp only [recorded, writes, Bool.true_eq_false, iff_false]
        rintro (moved | ⟨v, returned, _⟩)
        · exact moved rfl
        · cases returned
    · rw [if_neg dry, if_neg dry]
      rcases allowedBridgeUrl X with _ | _ | _
      · simp [not_carried σ .raised (.inl rfl)]
      · simp [not_carried σ _ (.inr ⟨_, _, rfl⟩)]
      · simp [sendPost_carried_iff]

theorem carried_passes (X : XeroTool) (σ : XeroState) (args : Value) (context : ToolContext)
    (exchange : BridgeExchange) (call : XeroCall) (bound : boundXero args context = some call)
    (carried : Carried σ (xeroScopedInvoke X σ call exchange)) :
    ∃ slug, trustedAgentSlug call = some slug ∧ scopeGates X call slug = .ok () ∧
      PassesOtherGates X σ args context exchange := by
  rcases (carried_iff X σ call exchange).mp carried with ⟨⟨slug, operation, verifyId⟩, admitted, takes⟩
  rcases (admission_ok_iff X _ call _).mp admitted with ⟨identified, rfl, unseen, gated⟩
  rcases (scopeGates_ok_iff X call slug).mp gated with ⟨_, why, allowed⟩
  exact ⟨slug, identify_trusted X call slug verifyId identified, gated,
    call, slug, verifyId, why, bound, identified, unseen, allowed, takes⟩

/-- An allowlist that is no list stops nothing. -/
theorem passes_carried (X : XeroTool) (σ : XeroState) (args : Value) (context : ToolContext)
    (exchange : BridgeExchange) (passes : PassesOtherGates X σ args context exchange)
    (shapeless : ∀ listed, context.allowedXeroOperations ≠ list listed) :
    Carried σ (invokeXero X σ args context exchange) := by
  rcases passes with ⟨call, slug, verifyId, why, bound, identified, unseen, allowed, takes⟩
  have unlisted : dispatchDenies call = false := by
    rw [dispatchDenies, bound_allowlist args context call bound]
    cases shape : context.allowedXeroOperations with
    | list listed => exact absurd shape (shapeless listed)
    | _ => rfl
  have gated := (scopeGates_ok_iff X call slug).mpr ⟨unlisted, why, allowed⟩
  have admitted := (admission_ok_iff X (checkIdempotency X σ.file) call
    ⟨slug, text X.unicode call.operation, verifyId⟩).mpr ⟨identified, rfl, unseen, gated⟩
  rw [invokeXero, bound]
  exact (carried_iff X σ call exchange).mpr ⟨_, admitted, takes⟩

theorem listed_of_let_in (args : Value) (context : ToolContext) (call : XeroCall)
    (bound : boundXero args context = some call) (listed : List Value)
    (shape : context.allowedXeroOperations = list listed) (let_in : dispatchDenies call = false) :
    ∃ name, call.operation = str name ∧ str name ∈ listed := by
  rw [dispatchDenies, bound_allowlist args context call bound, shape] at let_in
  cases operation : call.operation with
  | str name =>
    rw [operation] at let_in
    simp only [Bool.not_eq_false', List.contains_eq_mem, decide_eq_true_eq, List.mem_filterMap] at let_in
    rcases let_in with ⟨item, member, kept⟩
    refine ⟨name, rfl, ?_⟩
    cases item with
    | str s =>
      dsimp only at kept
      split at kept
      · cases kept
      · rwa [← Option.some.inj kept]
    | _ => cases kept
  | _ => rw [operation] at let_in; cases let_in

/-- A call keeps to the allowlist of its job exactly when that is a list or another gate stops the call. -/
theorem xero_keeps_to_allowlist_iff (X : XeroTool) (σ : XeroState) (S : Setting) (loop : LoopState)
    (args : Value) (exchange : BridgeExchange) (named : strip S.slug ≠ "") :
    KeepsToAllowlist X σ S args (toolContext S loop) exchange ↔
      (∃ listed, S.params.get "allowed_xero_operations" = list listed) ∨
        ¬ PassesOtherGates X σ args (toolContext S loop) exchange := by
  constructor
  · intro keeps
    by_contra neither
    rw [not_or, not_exists, not_not] at neither
    rcases keeps (passes_carried X σ args _ exchange neither.2 neither.1) with ⟨_, _, ⟨listed, shape, _⟩, _⟩
    exact neither.1 listed shape
  · intro either carried
    rcases bound : boundXero args (toolContext S loop) with _ | call
    · rw [invokeXero, bound] at carried
      exact absurd carried (not_carried σ .raised (.inl rfl))
    · rw [invokeXero, bound] at carried
      rcases carried_passes X σ args _ exchange call bound carried with ⟨slug, trusted, gated, passes⟩
      rcases either with ⟨listed, shape⟩ | stopped
      · rw [trusted_runtime args (toolContext S loop) call bound named] at trusted
        rcases (scopeGates_ok_iff X call slug).mp gated with ⟨let_in, why, allowed⟩
        rcases listed_of_let_in args _ call bound listed shape let_in with ⟨name, operation, member⟩
        refine ⟨name, ?_, ⟨listed, shape, member⟩, why, ?_⟩
        · rw [bound_operation args _ call bound, operation]
        · have same : strip S.slug = slug := Option.some.inj trusted
          rw [← operation, same, allowed]
      · exact absurd passes stopped

/-! An allowlist that is one name and no list. -/

def payablesSetting : Setting where
  unicode := { lower := id, printable := fun _ => true }
  tables := productionTables
  registry := ["xero_scoped_invoke"]
  bundle := { slug := "genesis-e4l-ap", systemPrompt := "", toolsAdvertised := []
              tokenBudget := 50000, conduitBudgetCents := 0 }
  task := "read the trial balance"
  params := dict [("allowed_xero_operations", str "get_trial_balance")]
  jobId := "job-1"
  sessionId := "session-1"
  delegationChain := []
  delegationDepth := 0
  delegatedAllowedRisks := none

def draftBillArgs : Value :=
  dict [("operation", str "create_draft_bill"), ("verify_api_run_id", str "verify-test-001")]

theorem unlisted_bill_posted :
    ¬ ∀ (X : XeroTool) (σ : XeroState) (S : Setting) (loop : LoopState) (args : Value)
      (exchange : BridgeExchange),
      strip S.slug ≠ "" → S.params.get "allowed_xero_operations" ≠ null →
        KeepsToAllowlist X σ S args (toolContext S loop) exchange := by
  intro keeps
  have posted : Carried .start (invokeXero payablesJob .start draftBillArgs
      (toolContext payablesSetting (initialState payablesSetting)) ⟨[], .answered 200 (some (dict []))⟩) :=
    .inr ⟨_, rfl, rfl⟩
  rcases keeps payablesJob .start payablesSetting (initialState payablesSetting) draftBillArgs
    ⟨[], .answered 200 (some (dict []))⟩ (by decide) (by simp [payablesSetting, Value.get, getD, get?]) posted with
    ⟨_, _, ⟨listed, shape, _⟩, _⟩
  cases shape

theorem payables_keeps_to_allowlist_iff :
    KeepsToAllowlist payablesJob .start payablesSetting draftBillArgs
        (toolContext payablesSetting (initialState payablesSetting)) ⟨[], .answered 200 (some (dict []))⟩ ↔
      (∃ listed, payablesSetting.params.get "allowed_xero_operations" = list listed) ∨
        ¬ PassesOtherGates payablesJob .start draftBillArgs
          (toolContext payablesSetting (initialState payablesSetting)) ⟨[], .answered 200 (some (dict []))⟩ :=
  xero_keeps_to_allowlist_iff payablesJob .start payablesSetting (initialState payablesSetting) draftBillArgs
    ⟨[], .answered 200 (some (dict []))⟩ (by decide)

end GenesisAgents
