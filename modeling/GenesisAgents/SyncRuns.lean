import GenesisAgents.DurableSessions
import GenesisAgents.LoopReturns
import GenesisAgents.Negotiations

/-! A synchronous run, from the escrow of the buyer to the response: `run_agent` of `main.py` behind the
gates of `Gateway`, with `_raise_for_runtime_failure` and the fallback to the router. -/

namespace GenesisAgents.SyncRuns

open Value Negotiations

/-- `escrow_id_sync` -/
def syncEscrow (D : Deployment) (slug : String) (bundle : GatewayBundle) (body : RunRequest) (params : Value) :
    Except Refusal (Option String) :=
  let price := params.get "price_tier_cents"
  let buyer := params.get "buyer_wallet_id"
  if D.escrowOk && !skipsInternalEscrow body && price.truthy && buyer.truthy && bundle.walletId.truthy then
    initiate D slug price buyer bundle.walletId
  else .ok none

/-- How `execute_agent` ends; an exception may be an `HTTPException`. -/
inductive AgentEnd where
  | returned (result : Value)
  | raised (typeName : String) (http : Option (Nat × Value))
  | cancelled

structure Course where
  agent : AgentEnd
  /-- `ok` in the reply of the escrow client to the one move; `none` when that is cancelled. -/
  escrowReply : Option Bool
  /-- The escrow service has made the move; a reply that is lost does not tell. -/
  moved : Bool
  confirmed : escrowReply = some true → moved = true
  /-- `calculate_split`; `none` when it raises. -/
  split : Int → Option Value
  /-- `bundle.get("name", display_name)` -/
  bundleName : Value
  router : Nat → RouterReply

inductive Source where
  | runtime | router
  deriving DecidableEq

inductive Ending where
  /-- 200 with the JSON of the payload -/
  | answered (source : Source) (payload : Value)
  | refused (status : Nat) (detail : Value)
  /-- Another exception. The one of the run is logged, and the route goes on with the router. -/
  | raised
  | cancelled

def Ending.served : Ending → Bool
  | answered _ _ => true
  | _ => false

def Ending.delivers : Ending → Bool
  | answered .runtime _ => true
  | _ => false

theorem Ending.delivers_of_unserved {ending : Ending} (unserved : ending.served = false) : ending.delivers = false := by
  cases ending with
  | answered source payload => cases unserved
  | refused | raised | cancelled => rfl

/-- `_runtime_error_status` -/
def runtimeErrorStatus (U : Unicode) (result : Value) : Nat :=
  let error := (result.getD "error" (str "agent_failure")).text U
  let message := (result.getD "message" (str "")).text U
  let combined := U.lower (error ++ " " ++ message)
  if error = "timeout" then 504
  else if ["429", "too many requests", "rate limit"].any fun word => isSubstring word combined then 429
  else if ["402", "credit", "payment required"].any fun word => isSubstring word combined then 402
  else if error = "success_criteria_failed" then 422
  else if ["tool_not_allowed", "file_write_limit_exceeded", "token_budget_exceeded",
      "llm_call_limit_exceeded"].contains error then 429
  else 502

def failureDetail (slug : String) (result : Value) : Value :=
  dict [("error", result.getD "error" (str "agent_failure")), ("message", result.getD "message" (str "")),
    ("type", result.get "type"), ("agentSlug", str slug)]

/-- `Optional[str]` -/
def isOptionalText : Value → Bool
  | str _ => true
  | null => true
  | _ => false

/-- An entry that is left out where it is `None`. -/
def given (key : String) : Value → List (String × Value)
  | null => []
  | v => [(key, v)]

def routerRouting (swarmsync : Option Value) : Except Raised (List (String × Value)) :=
  match swarmsync.filter truthy with
  | none => .ok []
  | some swarmsync => do
    let routed := routedModel swarmsync
    let provider ← provider routed
    .ok [("swarmsync", swarmsync), ("routing", dict [("model", routed), ("provider", provider),
      ("tier", swarmsync.get "tier"), ("routing_reason", swarmsync.get "routing_reason"),
      ("estimated_cost", swarmsync.get "estimated_cost")])]

section

variable (D : Deployment) (W : Settings) (slug bundleSlug : String) (body : RunRequest) (C : Course)

def askRouter : Ending :=
  match (callLlmRouter W C.router).1 with
  | .error (.http refusal) => .refused refusal.status (str refusal.detail)
  | .error .other => .raised
  | .ok reply =>
    match routerRouting reply.swarmsync with
    | .error _ => .raised
    | .ok routing =>
      let payload := dict ([("ok", bool true), ("slug", str bundleSlug), ("response", str reply.text)] ++
        given "usage" reply.usage ++ given "model" reply.model ++ routing)
      if payload.dumpable then .answered .router payload else .raised

/-- From the result to the response: `_raise_for_runtime_failure` stands between them. -/
def respond (result : Value) : Ending :=
  let result := if isSet body.escrowId && result.isDict then
    result.insert "external_escrow_id" (optionValue body.escrowId) else result
  if result.isDict && !(result.getD "ok" (bool true)).truthy then
    .refused (runtimeErrorStatus D.unicode result) (failureDetail slug result)
  else if result.dumpable && isOptionalText C.bundleName then .answered .runtime result
  else .raised

def settled (escrowId : String) (split : Value) (ok : Bool) : Value :=
  dict [("escrow_id", str escrowId), ("status", str "SETTLED"), ("split", split), ("settle_response_ok", bool ok)]

def refunded (escrowId : String) (ok : Bool) : Value :=
  dict [("escrow_id", str escrowId), ("status", str "REFUNDED"), ("release_response_ok", bool ok)]

/-- The `try` around the run, with the moves that it asks the escrow service for. -/
def attempt (price : Value) (escrowId : Option String) : List (String × EscrowMove) × Ending :=
  match C.agent, escrowId.filter (· ≠ "") with
  | .cancelled, _ => ([], .cancelled)
  | .raised _ http, none => ([], http.elim .raised fun error => .refused error.1 error.2)
  | .raised typeName http, some escrowId => ([(escrowId, .release ("runtime_exception:" ++ typeName))],
      if C.escrowReply.isNone then .cancelled else http.elim .raised fun error => .refused error.1 error.2)
  | .returned result, none => ([], respond D slug body C result)
  | .returned result, some escrowId =>
    if !result.isDict then ([], respond D slug body C result)
    else if (result.get "ok").truthy then
      ([(escrowId, .complete)],
        match C.escrowReply with
        | none => .cancelled
        | some ok =>
          match (intOf D price).bind C.split with
          | none => .raised
          | some split => respond D slug body C (result.insert "escrow" (settled escrowId split ok)))
    else
      ([(escrowId, .release ((result.getD "error" (str "agent_failure")).text D.unicode))],
        match C.escrowReply with
        | none => .cancelled
        | some ok => respond D slug body C (result.insert "escrow" (refunded escrowId ok)))

/-- What the route does once the escrow is open: its moves, and what the caller gets. -/
def syncRun (price : Value) (escrowId : Option String) : List (String × EscrowMove) × Ending :=
  match attempt D slug body C price escrowId with
  | (moves, .raised) => (moves, askRouter W bundleSlug C)
  | run => run

end

theorem runSync_escrow (D : Deployment) (slug bundleSlug : String) (bundle : GatewayBundle) (body : RunRequest)
    (principal : Principal) (userPrompt : String) :
    runSync D slug bundleSlug bundle body principal userPrompt =
      (scopedRuntimeParams D body principal).bind fun params =>
        (syncEscrow D slug bundle body params).map fun _ => .runtime bundleSlug userPrompt params := by
  rw [runSync]
  cases scopedRuntimeParams D body principal with
  | error refusal => rfl
  | ok params =>
    change (if _ then _ else _) = (syncEscrow D slug bundle body params).map _
    rw [syncEscrow]
    split
    · cases initiate D slug (params.get "price_tier_cents") (params.get "buyer_wallet_id") bundle.walletId <;> rfl
    · rfl

theorem syncEscrow_own (D : Deployment) (slug : String) (bundle : GatewayBundle) (body : RunRequest)
    (params : Value) (escrowId : String) (opened : syncEscrow D slug bundle body params = .ok (some escrowId)) :
    D.escrowOk = true ∧ isSet body.escrowId = false ∧ body.skipInternalEscrow = false ∧
      ∃ cents, intOf D (params.get "price_tier_cents") = some cents := by
  rw [syncEscrow] at opened
  split at opened
  · rename_i guard
    rw [Bool.and_eq_true, Bool.and_eq_true, Bool.and_eq_true, Bool.and_eq_true, Bool.not_eq_true',
      skipsInternalEscrow, Bool.or_eq_false_iff] at guard
    rw [initiate] at opened
    cases price : intOf D (params.get "price_tier_cents") with
    | none =>
      rw [price] at opened
      cases opened
    | some cents => exact ⟨guard.1.1.1.1, guard.1.1.1.2.1, guard.1.1.1.2.2, cents, rfl⟩
  · cases opened

/-! A dict that the runtime returns has a boolean at `ok`. -/

/-- The call whose loop ran in that world, and how the route sees it end. -/
structure Ran (N : Numerals) (U : Unicode) (S : Setting) (L : LoopSurroundings) (criteria : List Value)
    (world : World) (call : InnerCall) (C : Course) : Prop where
  loop : ∀ items, call.loop = .returned items → runLoopResult N S L criteria world = .ok (dict items)
  agent : ∀ result, C.agent = .returned result → (call.executeAgentInner N U).2 = .returned result

theorem finish_hasOk (N : Numerals) (S : Setting) (L : LoopSurroundings) (criteria : List Value)
    (answer : FinalAnswer) (result : Value) (done : finish N S L criteria answer = .ok result) : HasOk result := by
  rw [finish] at done
  cases routing : (routingItems answer.swarmsync).mapError Escaped.loop with
  | error raised =>
    rw [routing] at done
    cases done
  | ok items =>
    rw [routing] at done
    change ((checkSuccessCriteria S.unicode N criteria (answerItems S L answer ++ items) _).mapError
      Escaped.criteria >>= _) = _ at done
    cases checked : (checkSuccessCriteria S.unicode N criteria (answerItems S L answer ++ items)
        (!S.toolsAdvertised.isEmpty)).mapError Escaped.criteria with
    | error raised =>
      rw [checked] at done
      cases done
    | ok eval =>
      rw [checked] at done
      rw [← Except.ok.inj done]
      exact ⟨eval.ok, evaluated_ok _ eval rfl⟩

theorem runLoopResult_hasOk (N : Numerals) (S : Setting) (L : LoopSurroundings) (criteria : List Value)
    (world : World) (result : Value) (done : runLoopResult N S L criteria world = .ok result) : HasOk result := by
  rw [runLoopResult] at done
  split at done
  · cases done
  · cases ending : (runLoop S world).2 with
    | finalAnswer answer =>
      rw [ending] at done
      exact finish_hasOk N S L criteria answer result done
    | raised error =>
      rw [ending] at done
      cases done
    | timeout | llmCallLimitExceeded | llmCallFailed | tokenBudgetExceeded | noChoicesInLlmResponse
    | maxTurnsReached =>
      rw [ending] at done
      rw [← Except.ok.inj done]
      exact ⟨false, rfl⟩

theorem runStage_hasOk (call : InnerCall) (bridge : Bool) (result : Value)
    (loop : ∀ items, call.loop = .returned items → HasOk (dict items))
    (done : (call.runStage bridge).2 = .returned result) : HasOk result := by
  unfold InnerCall.runStage at done
  dsimp only at done
  split at done
  · cases done
  · cases ran : call.loop with
    | returned items =>
      rw [ran] at done
      have same : dict items = result := CallEnd.returned.inj done
      rw [← same]
      exact loop items ran
    | raised | cancelled =>
      rw [ran] at done
      cases done

theorem executeAgentInner_hasOk (N : Numerals) (U : Unicode) (call : InnerCall) (result : Value)
    (loop : ∀ items, call.loop = .returned items → HasOk (dict items))
    (done : (call.executeAgentInner N U).2 = .returned result) : HasOk result := by
  have refused (error : String) (same : CallEnd.returned (call.refusal error) = .returned result) : HasOk result := by
    rw [← CallEnd.returned.inj same]
    exact ⟨false, rfl⟩
  rw [InnerCall.executeAgentInner] at done
  split at done
  · rw [← CallEnd.returned.inj done]
    exact ⟨false, rfl⟩
  · dsimp only at done
    split at done
    · exact refused _ done
    · split at done
      · rename_i bundle jobDir _ _ _
        rw [InnerCall.startStage] at done
        dsimp only at done
        rw [InnerCall.bridgeStage] at done
        split at done
        · cases done
        · dsimp only at done
          split at done
          · exact refused _ done
          · exact runStage_hasOk call _ result loop done
      · cases done

theorem Ran.hasOk {N : Numerals} {U : Unicode} {S : Setting} {L : LoopSurroundings} {criteria : List Value}
    {world : World} {call : InnerCall} {C : Course} (ran : Ran N U S L criteria world call C) (result : Value)
    (returned : C.agent = .returned result) : HasOk result := by
  apply executeAgentInner_hasOk N U call result _ (ran.agent result returned)
  intro items looped
  exact runLoopResult_hasOk N S L criteria world (dict items) (ran.loop items looped)

theorem hasOk_isDict {result : Value} (has : HasOk result) : result.isDict = true := by
  obtain ⟨ok, found⟩ := has
  cases result with
  | dict items => rfl
  | _ => cases found

theorem hasOk_get {result : Value} (has : HasOk result) : result.get? "ok" = some (bool (result.get "ok").truthy) := by
  obtain ⟨ok, found⟩ := has
  rw [Value.get, Value.getD, found]
  rfl

section

variable (D : Deployment) (W : Settings) (slug bundleSlug : String) (body : RunRequest) (C : Course)
  (price : Value)

theorem syncRun_moves (escrowId : Option String) :
    (syncRun D W slug bundleSlug body C price escrowId).1 = (attempt D slug body C price escrowId).1 := by
  rw [syncRun]
  split
  · rename_i moves same
    rw [same]
  · rfl

def Succeeded : Prop := ∃ result, C.agent = .returned result ∧ (result.get "ok").truthy = true

def Failed : Prop := (∃ typeName http, C.agent = .raised typeName http) ∨
  ∃ result, C.agent = .returned result ∧ (result.get "ok").truthy = false

def asked (own : String) : List (String × EscrowMove) :=
  match C.agent with
  | .cancelled => []
  | .raised typeName _ => [(own, .release ("runtime_exception:" ++ typeName))]
  | .returned result =>
    if !result.isDict then []
    else if (result.get "ok").truthy then [(own, .complete)]
    else [(own, .release ((result.getD "error" (str "agent_failure")).text D.unicode))]

theorem attempt_moves (escrowId : Option String) (own : String) (held : escrowId.filter (· ≠ "") = some own) :
    (attempt D slug body C price escrowId).1 = asked D C own := by
  rw [attempt, asked, held]
  cases C.agent with
  | cancelled | raised => rfl
  | returned result =>
    dsimp only
    split
    · rfl
    · split <;> rfl

theorem asked_ends (own : String) (object : ∀ result, C.agent = .returned result → result.isDict = true) :
    (asked D C own).length ≤ 1 ∧ (∀ move ∈ asked D C own, move.1 = own) ∧
      ((own, EscrowMove.complete) ∈ asked D C own ↔ Succeeded C) ∧
        ((∃ reason, (own, EscrowMove.release reason) ∈ asked D C own) ↔ Failed C) := by
  rw [asked, Succeeded, Failed]
  cases ended : C.agent with
  | cancelled => simp
  | raised => simp
  | returned result =>
    have dict := object result ended
    cases ok : (result.get "ok").truthy <;> simp [dict, ok]

/-- The route moves its own escrow and no other, at most once, and the way the run has ended. -/
theorem sync_moves (N : Numerals) (S : Setting) (L : LoopSurroundings) (criteria : List Value)
    (world : World) (call : InnerCall) (ran : Ran N D.unicode S L criteria world call C) (bundle : GatewayBundle)
    (params : Value) (escrowId : Option String)
    (opened : syncEscrow D slug bundle body params = .ok escrowId) :
    let moves := (syncRun D W slug bundleSlug body C (params.get "price_tier_cents") escrowId).1
    moves.length ≤ 1 ∧
      (∀ move ∈ moves, isSet body.escrowId = false ∧ body.skipInternalEscrow = false ∧
        escrowId = some move.1 ∧ move.1 ≠ "") ∧
      (∀ own, escrowId = some own → own ≠ "" →
        ((own, EscrowMove.complete) ∈ moves ↔ Succeeded C) ∧
          ((∃ reason, (own, EscrowMove.release reason) ∈ moves) ↔ Failed C)) := by
  dsimp only
  rw [syncRun_moves]
  cases held : escrowId.filter (· ≠ "") with
  | none =>
    have still : (attempt D slug body C (params.get "price_tier_cents") escrowId).1 = [] := by
      rw [attempt, held]
      cases C.agent <;> rfl
    rw [still]
    refine ⟨Nat.zero_le 1, fun move moved => absurd moved List.not_mem_nil, ?_⟩
    intro own same filled
    rw [same, Option.filter_some, decide_eq_true filled] at held
    cases held
  | some own =>
    obtain ⟨same, filled⟩ := Option.filter_eq_some_iff.mp held
    have ends := asked_ends D C own fun result returned => hasOk_isDict (ran.hasOk result returned)
    rw [attempt_moves D slug body C _ escrowId own held]
    refine ⟨ends.1, fun move moved => ?_, fun other isOther _ => ?_⟩
    · have gates := syncEscrow_own D slug bundle body params own (same ▸ opened)
      rw [ends.2.1 move moved]
      exact ⟨gates.2.1, gates.2.2.1, same, decide_eq_true_eq.mp filled⟩
    · rw [← Option.some.inj (same.symm.trans isOther)]
      exact ends.2.2

def paidDeployment : Deployment :=
  { researchDeployment with escrowOk := true, initiateEscrow := fun _ => ⟨true, some "escrow-1"⟩ }

def paidBundle : GatewayBundle :=
  { slug := "genesis-research", jobMode := none, priceTierDefaultCents := null, walletId := str "wallet-agent" }

def paidBody : RunRequest :=
  { prompt := some "summarise", input := null, task := null, testContext := false, mode := none, escrowId := none
    callbackUrl := none, skipInternalEscrow := false }

def paidParams : Value := dict [("price_tier_cents", int 500), ("buyer_wallet_id", str "wallet-buyer")]

def raisedCourse : Course where
  agent := .raised "KeyError" none
  escrowReply := some true
  moved := true
  confirmed _ := rfl
  split _ := none
  bundleName := str "Research"
  router := limitedReply

theorem raised_ran : Ran noNumerals paidDeployment.unicode mailSetting midnight [] listWorld
    { plainCall with loop := .raised } raisedCourse := ⟨nofun, nofun⟩

theorem sync_moves_raised :
    syncEscrow paidDeployment "genesis-research" paidBundle paidBody paidParams = .ok (some "escrow-1") ∧
      (syncRun paidDeployment limitedSettings "genesis-research" "genesis-research" paidBody raisedCourse (int 500)
        (some "escrow-1")).1 = [("escrow-1", .release "runtime_exception:KeyError")] ∧
      Failed raisedCourse :=
  have moves := sync_moves paidDeployment limitedSettings "genesis-research" "genesis-research" paidBody raisedCourse
    noNumerals mailSetting midnight [] listWorld _ raised_ran paidBundle paidParams (some "escrow-1") rfl
  have released : ("escrow-1", EscrowMove.release "runtime_exception:KeyError") ∈
      (syncRun paidDeployment limitedSettings "genesis-research" "genesis-research" paidBody raisedCourse (int 500)
        (some "escrow-1")).1 := List.mem_singleton_self _
  ⟨rfl, rfl, (moves.2.2 "escrow-1" rfl (by decide)).2.mp ⟨_, released⟩⟩

def Paid (moves : List (String × EscrowMove)) (own : String) : Prop :=
  (own, EscrowMove.complete) ∈ moves ∧ C.moved = true

def Refunded (moves : List (String × EscrowMove)) (own : String) : Prop :=
  (∃ reason, (own, EscrowMove.release reason) ∈ moves) ∧ C.moved = true

/-- The caller has paid exactly when it gets the answer of the agent, and has its money back exactly when it gets
no answer. -/
def Fair (own : String) (run : List (String × EscrowMove) × Ending) : Prop :=
  (Paid C run.1 own ↔ run.2.delivers = true) ∧ (Refunded C run.1 own ↔ run.2.served = false)

def Delivers (own : String) (result : Value) : Prop :=
  ∃ ok split, C.escrowReply = some ok ∧ (intOf D price).bind C.split = some split ∧
    (result.insert "escrow" (settled own split ok)).dumpable = true ∧ isOptionalText C.bundleName = true

def RouterServes : Prop := (askRouter W bundleSlug C).served = true

/-- The ends of a run after which money and answer agree. -/
def KeepsFaith (own : String) : Prop :=
  match C.agent with
  | .cancelled => False
  | .raised _ (some _) => C.moved = true
  | .raised _ none => C.moved = true ↔ ¬(C.escrowReply.isSome = true ∧ RouterServes W bundleSlug C)
  | .returned result =>
    if (result.get "ok").truthy then
      if C.moved then Delivers D C price own result
      else ¬Delivers D C price own result ∧ C.escrowReply.isSome = true ∧ RouterServes W bundleSlug C
    else C.moved = true

theorem respond_escrow (result shown : Value) (has : HasOk result) (own : isSet body.escrowId = false) :
    respond D slug body C (result.insert "escrow" shown) =
      if (result.get "ok").truthy then
        if (result.insert "escrow" shown).dumpable && isOptionalText C.bundleName then
          .answered .runtime (result.insert "escrow" shown) else .raised
      else .refused (runtimeErrorStatus D.unicode (result.insert "escrow" shown))
        (failureDetail slug (result.insert "escrow" shown)) := by
  have kept : (result.insert "escrow" shown).getD "ok" (bool true) = bool (result.get "ok").truthy := by
    rw [Value.getD, get?_insert_other _ _ _ _ (by decide), hasOk_get has]
    rfl
  have object : (result.insert "escrow" shown).isDict = true := by
    rw [isDict_insert]
    exact hasOk_isDict has
  rw [respond, own, Bool.false_and, if_neg Bool.false_ne_true, kept, object, Bool.true_and]
  cases (result.get "ok").truthy <;> rfl

theorem fair_of_complete {run : List (String × EscrowMove) × Ending} {own : String}
    (moves : run.1 = [(own, .complete)]) :
    Fair C own run ↔ (C.moved = true ↔ run.2.delivers = true) ∧ run.2.served = true := by
  rw [Fair, Paid, Refunded, moves]
  simp

theorem fair_of_release {run : List (String × EscrowMove) × Ending} {own : String} (reason : String)
    (moves : run.1 = [(own, .release reason)]) :
    Fair C own run ↔ run.2.delivers = false ∧ (C.moved = true ↔ run.2.served = false) := by
  rw [Fair, Paid, Refunded, moves]
  simp

theorem askRouter_delivers : (askRouter W bundleSlug C).delivers = false := by
  rw [askRouter]
  split
  · rfl
  · rfl
  · dsimp only
    split
    · rfl
    · split <;> rfl

theorem syncRun_raised (escrowId : Option String) (ending : (attempt D slug body C price escrowId).2 = .raised) :
    (syncRun D W slug bundleSlug body C price escrowId).2 = askRouter W bundleSlug C := by
  have same : attempt D slug body C price escrowId = ((attempt D slug body C price escrowId).1, .raised) :=
    Prod.ext rfl ending
  rw [syncRun, same]

theorem syncRun_other (escrowId : Option String) (ending : (attempt D slug body C price escrowId).2 ≠ .raised) :
    (syncRun D W slug bundleSlug body C price escrowId).2 = (attempt D slug body C price escrowId).2 := by
  rw [syncRun]
  split
  · rename_i moves same
    rw [same] at ending
    contradiction
  · rfl

/-- Once the agent has raised an exception, only the router can answer. -/
theorem raised_served (own : String) (held : (some own).filter (· ≠ "") = some own) (typeName : String)
    (http : Option (Nat × Value)) (ended : C.agent = .raised typeName http) :
    (syncRun D W slug bundleSlug body C price (some own)).2.served =
      (C.escrowReply.isSome && http.isNone && (askRouter W bundleSlug C).served) := by
  have ending : (attempt D slug body C price (some own)).2 =
      if C.escrowReply.isNone then .cancelled else http.elim .raised fun error => .refused error.1 error.2 := by
    rw [attempt, ended, held]
  cases reply : C.escrowReply with
  | none =>
    rw [reply] at ending
    rw [syncRun_other _ _ _ _ _ _ _ _ (by rw [ending]; simp), ending]
    rfl
  | some ok =>
    rw [reply] at ending
    cases http with
    | none =>
      rw [syncRun_raised _ _ _ _ _ _ _ _ ending]
      rfl
    | some refusal =>
      rw [syncRun_other _ _ _ _ _ _ _ _ (by rw [ending]; simp), ending]
      rfl

theorem raised_delivers (own : String) (held : (some own).filter (· ≠ "") = some own) (typeName : String)
    (http : Option (Nat × Value)) (ended : C.agent = .raised typeName http) :
    (syncRun D W slug bundleSlug body C price (some own)).2.delivers = false := by
  have ending : (attempt D slug body C price (some own)).2 =
      if C.escrowReply.isNone then .cancelled else http.elim .raised fun error => .refused error.1 error.2 := by
    rw [attempt, ended, held]
  by_cases raised : (attempt D slug body C price (some own)).2 = .raised
  · rw [syncRun_raised _ _ _ _ _ _ _ _ raised]
    exact askRouter_delivers W bundleSlug C
  · rw [syncRun_other _ _ _ _ _ _ _ _ raised]
    rw [ending] at raised ⊢
    split
    · rfl
    · cases http with
      | some refusal => rfl
      | none => rename_i replied; rw [if_neg replied] at raised; exact absurd rfl raised

theorem failed_unserved (own : String) (held : (some own).filter (· ≠ "") = some own) (result : Value)
    (ended : C.agent = .returned result) (has : HasOk result) (gateway : isSet body.escrowId = false)
    (failed : (result.get "ok").truthy = false) :
    (syncRun D W slug bundleSlug body C price (some own)).2.served = false := by
  have ending : (attempt D slug body C price (some own)).2 =
      match C.escrowReply with
      | none => .cancelled
      | some ok => respond D slug body C (result.insert "escrow" (refunded own ok)) := by
    rw [attempt, ended, held]
    simp only [hasOk_isDict has, failed, Bool.not_true, Bool.false_eq_true, if_false]
  cases reply : C.escrowReply with
  | none =>
    rw [reply] at ending
    rw [syncRun_other _ _ _ _ _ _ _ _ (by rw [ending]; simp), ending]
    rfl
  | some ok =>
    rw [reply] at ending
    dsimp only at ending
    rw [respond_escrow D slug body C result _ has gateway, failed, if_neg Bool.false_ne_true] at ending
    rw [syncRun_other _ _ _ _ _ _ _ _ (by rw [ending]; simp), ending]
    rfl

/-- Once the agent has succeeded, its result is delivered, or nobody answers before the router. -/
theorem succeeded_ending (own : String) (held : (some own).filter (· ≠ "") = some own) (result : Value)
    (ended : C.agent = .returned result) (has : HasOk result) (gateway : isSet body.escrowId = false)
    (succeeded : (result.get "ok").truthy = true) :
    (Delivers D C price own result ∧
        ∃ payload, (attempt D slug body C price (some own)).2 = .answered .runtime payload) ∨
      (¬Delivers D C price own result ∧ (attempt D slug body C price (some own)).2 =
        if C.escrowReply.isNone then .cancelled else .raised) := by
  have ending : (attempt D slug body C price (some own)).2 =
      match C.escrowReply with
      | none => .cancelled
      | some ok =>
        match (intOf D price).bind C.split with
        | none => .raised
        | some split => respond D slug body C (result.insert "escrow" (settled own split ok)) := by
    rw [attempt, ended, held]
    simp only [hasOk_isDict has, succeeded, Bool.not_true, Bool.false_eq_true, if_false, if_true]
  rw [Delivers]
  cases reply : C.escrowReply with
  | none =>
    rw [reply] at ending
    exact .inr ⟨by simp, ending⟩
  | some ok =>
    rw [reply] at ending
    dsimp only at ending
    cases divided : (intOf D price).bind C.split with
    | none =>
      rw [divided] at ending
      exact .inr ⟨by simp, ending⟩
    | some split =>
      rw [divided] at ending
      dsimp only at ending
      rw [respond_escrow D slug body C result _ has gateway, succeeded, if_pos rfl] at ending
      cases written : ((result.insert "escrow" (settled own split ok)).dumpable &&
          isOptionalText C.bundleName) with
      | false =>
        rw [written, if_neg Bool.false_ne_true] at ending
        refine .inr ⟨?_, ending⟩
        intro delivered
        obtain ⟨ok', split', sameOk, sameSplit, dumped, named⟩ := delivered
        rw [← Option.some.inj sameOk, ← Option.some.inj sameSplit] at dumped
        rw [dumped, named] at written
        contradiction
      | true =>
        rw [written, if_pos rfl] at ending
        rw [Bool.and_eq_true] at written
        exact .inl ⟨⟨ok, split, rfl, rfl, written⟩, _, ending⟩

/-- Behind a run with an open escrow, money and answer agree exactly when nobody has cancelled the run and the
escrow service has made the move that the answer asks for. -/
theorem money_follows_answer_iff (N : Numerals) (S : Setting) (L : LoopSurroundings) (criteria : List Value)
    (world : World) (call : InnerCall) (ran : Ran N D.unicode S L criteria world call C) (bundle : GatewayBundle)
    (params : Value) (own : String) (filled : own ≠ "")
    (opened : syncEscrow D slug bundle body params = .ok (some own)) :
    Fair C own (syncRun D W slug bundleSlug body C (params.get "price_tier_cents") (some own)) ↔
      KeepsFaith D W bundleSlug C (params.get "price_tier_cents") own := by
  have held : (some own).filter (· ≠ "") = some own := by
    rw [Option.filter_some, decide_eq_true filled]
    rfl
  have gateway := (syncEscrow_own D slug bundle body params own opened).2.1
  have moved := (syncRun_moves D W slug bundleSlug body C (params.get "price_tier_cents") (some own)).trans
    (attempt_moves D slug body C (params.get "price_tier_cents") (some own) own held)
  cases ended : C.agent with
  | cancelled =>
    have still : attempt D slug body C (params.get "price_tier_cents") (some own) = ([], .cancelled) := by
      rw [attempt, ended]
    rw [KeepsFaith, ended, syncRun, still, Fair, Paid, Refunded]
    simp [Ending.served, Ending.delivers]
  | raised typeName http =>
    have moves : (syncRun D W slug bundleSlug body C (params.get "price_tier_cents") (some own)).1 =
        [(own, .release ("runtime_exception:" ++ typeName))] := by
      rw [moved, asked, ended]
    have served := raised_served D W slug bundleSlug body C (params.get "price_tier_cents") own held typeName http ended
    have kept := raised_delivers D W slug bundleSlug body C (params.get "price_tier_cents") own held typeName http ended
    rw [fair_of_release C _ moves, KeepsFaith, ended, and_iff_right kept, served]
    cases http with
    | some refusal => simp
    | none => simp [RouterServes]
  | returned result =>
    have has := ran.hasOk result ended
    have object := hasOk_isDict has
    cases ok : (result.get "ok").truthy with
    | false =>
      have moves : (syncRun D W slug bundleSlug body C (params.get "price_tier_cents") (some own)).1 =
          [(own, .release ((result.getD "error" (str "agent_failure")).text D.unicode))] := by
        rw [moved, asked, ended]
        simp [object, ok]
      have unserved := failed_unserved D W slug bundleSlug body C (params.get "price_tier_cents") own held result
        ended has gateway ok
      rw [fair_of_release C _ moves, KeepsFaith, ended, and_iff_right (Ending.delivers_of_unserved unserved), unserved]
      simp [ok]
    | true =>
      have moves : (syncRun D W slug bundleSlug body C (params.get "price_tier_cents") (some own)).1 =
          [(own, .complete)] := by
        rw [moved, asked, ended]
        simp [object, ok]
      rw [fair_of_complete C moves, KeepsFaith, ended]
      simp only [ok, if_true]
      rcases succeeded_ending D slug body C (params.get "price_tier_cents") own held result ended has gateway ok with
        ⟨delivers, payload, answered⟩ | ⟨lost, unanswered⟩
      · rw [syncRun_other _ _ _ _ _ _ _ _ (by rw [answered]; simp), answered]
        cases paid : C.moved <;> simp [delivers, Ending.delivers, Ending.served]
      · have silent : (syncRun D W slug bundleSlug body C (params.get "price_tier_cents") (some own)).2.delivers =
            false ∧ (syncRun D W slug bundleSlug body C (params.get "price_tier_cents") (some own)).2.served =
            (C.escrowReply.isSome && (askRouter W bundleSlug C).served) := by
          cases reply : C.escrowReply with
          | none =>
            rw [reply] at unanswered
            rw [syncRun_other _ _ _ _ _ _ _ _ (by rw [unanswered]; simp), unanswered]
            exact ⟨rfl, rfl⟩
          | some ok =>
            rw [reply] at unanswered
            rw [syncRun_raised _ _ _ _ _ _ _ _ unanswered]
            exact ⟨askRouter_delivers W bundleSlug C, rfl⟩
        rw [silent.1, silent.2]
        cases paid : C.moved <;> simp [lost, RouterServes]

theorem money_follows_answer_raised :
    Fair raisedCourse "escrow-1"
      (syncRun paidDeployment limitedSettings "genesis-research" "genesis-research" paidBody raisedCourse (int 500)
        (some "escrow-1")) :=
  have refused : (askRouter limitedSettings "genesis-research" raisedCourse).served = false := by decide
  (money_follows_answer_iff paidDeployment limitedSettings "genesis-research" "genesis-research" paidBody raisedCourse
    noNumerals mailSetting midnight [] listWorld _ raised_ran paidBundle paidParams "escrow-1" (by decide) rfl).mpr
    (iff_of_true rfl fun served => Bool.false_ne_true (refused.symm.trans served.2))

end

end GenesisAgents.SyncRuns
