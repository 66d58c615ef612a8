import GenesisAgents.Experiments
import GenesisAgents.JsonLoads
import GenesisAgents.GuardAgreement
import GenesisAgents.Library.Fallbacks

/-! Negotiations: `_evaluate_and_respond` of `main.py`, over the language models that `call_llm_router`
tries, down to the callback. Nothing is accepted that no model has accepted. -/

namespace GenesisAgents.Negotiations

open Value Fallbacks UrlGuards

/-! `call_llm_router` -/

/-- How a `POST` to the router ends; `json` is what `resp.json()` returns, if it does. -/
inductive RouterReply where
  | raised
  | answered (statusCode : Nat) (text : String) (json : Option Value)

inductive RouterError where
  | http (error : Refusal)
  | other

structure RouterResult where
  text : String
  swarmsync : Option Value
  usage : Value
  model : Value

structure Settings where
  unicode : Unicode
  numerals : Numerals
  /-- `os.getenv` -/
  env : String → Option String
  /-- `GENESIS_LLM_MODEL` when the module was loaded -/
  routerModel : String
  resolver : Resolver
  swarmsyncApiUrl : String
  agentGatewaySecret : String

section

variable (W : Settings)

/-- `_llm_api_key` -/
def llmApiKey : String :=
  let value (name : String) : String := strip ((W.env name).getD "")
  match (["LLM_API_KEY", "SWARMSYNC_ROUTING_API_KEY", "ROUTING_API_KEY"].map value).find? (· ≠ "") with
  | some key => key
  | none =>
    if ["1", "true", "yes"].contains (W.unicode.lower ((W.env "GENESIS_ALLOW_OPENROUTER_FALLBACK").getD "")) then
      value "OPENROUTER_API_KEY"
    else ""

/-- `ROUTER_FALLBACK_MODELS`, each once and none that is empty -/
def routerModels : List String :=
  ([strip W.routerModel, "openai/gpt-5-mini", "openai/gpt-5.1"].filter (· ≠ "")).eraseDups

/-- `data.get("choices", [{}])[0].get("message", {}).get("content")`, if it raises nothing -/
def replyContent (data : Value) : Option Value :=
  match data with
  | dict _ =>
    match data.getD "choices" (list [dict []]) with
    | list (dict choice :: _) =>
      match (dict choice).getD "message" (dict []) with
      | dict message => some ((dict message).get "content")
      | _ => none
    | _ => none
  | _ => none

def creditWords : List String := ["402", "credit", "balance", "quota", "payment"]

def judgeReply (modelId : String) : RouterReply →
    Fallbacks.Verdict Refusal (Except RouterError RouterResult)
  | .raised => .decided (.error .other)
  | .answered statusCode text json =>
    if statusCode = 429 then .again ⟨429, "LLM router rate limit exceeded. Please retry shortly."⟩
    else if ¬(200 ≤ statusCode ∧ statusCode < 300) then
      let detailText := clip 500 text
      if statusCode = 400 ∨ statusCode = 402 ∨
          creditWords.any fun word => isSubstring word (W.unicode.lower detailText) then .next
      else .decided (.error (.http ⟨502, "LLM router returned " ++ toString statusCode ++ ": " ++ detailText⟩))
    else
      match json.bind fun data => (replyContent data).map fun content => (data, content) with
      | none => .decided (.error .other)
      | some (data, content) =>
        let content := textOr W.unicode content
        if strip content = "" then .again ⟨502, "LLM router returned empty content for model=" ++ modelId⟩
        else .decided (.ok ⟨content, (data.get? "swarmsync").filter isDict, data.get "usage", data.get "model"⟩)

/-- `call_llm_router`: what it returns or raises, and the models it has posted to. -/
def callLlmRouter (reply : Nat → RouterReply) : Except RouterError RouterResult × List String :=
  if llmApiKey W = "" then
    (.error (.http ⟨503, "LLM API key not configured (set LLM_API_KEY)"⟩), [])
  else
    match tryAll (judgeReply W) reply 1 (routerModels W) ⟨[], none⟩ with
    | (some outcome, asked) => (outcome, asked.posts)
    | (none, asked) => (.error (.http (asked.last.getD
        ⟨502, "LLM router failed for all fallback models (check LLM_API_KEY credits)"⟩)), asked.posts)

/-! `evaluate_negotiation` -/

structure NegotiateRequest where
  negotiationId : String
  responderAgentId : String
  budget : PyFloat
  callbackUrl : String

/-- `default_decision` -/
def defaultDecision (request : NegotiateRequest) : Value :=
  dict [("status", str "REJECTED"), ("price", float request.budget),
    ("notes", str "LLM evaluation unavailable — auto-rejected to prevent unintended commitments.")]

def negotiationStatuses : List String := ["ACCEPTED", "REJECTED", "COUNTERED"]

def unfenced (rawText : String) : String :=
  let stripped := strip rawText
  if "```".toList.isPrefixOf stripped.toList then
    let lines := splitlines stripped
    let fenced := lines.getLast?.any fun line => strip line = "```"
    "\n".intercalate (if fenced then (lines.drop 1).dropLast else lines.drop 1)
  else stripped

/-- `"status" in decision and decision["status"] in (...)`, where that does not raise. -/
def isDecision (decision : Value) : Bool :=
  decision.isDict && match decision.get "status" with
    | str status => negotiationStatuses.contains status
    | _ => false

def readDecision (rawText : String) : Option Value :=
  (loads W.numerals (unfenced rawText)).filter isDecision

/-- `evaluate_negotiation` -/
def evaluateNegotiation (request : NegotiateRequest) (reply : Nat → RouterReply) : Value :=
  match (callLlmRouter W reply).1 with
  | .error _ => defaultDecision request
  | .ok result => (readDecision W result.text).getD (defaultDecision request)

/-- `urlparse(url).netloc.lower()`, if that does not raise -/
def origin (url : String) : Option String :=
  let netloc := netlocOf url.toList
  if netloc.contains '[' != netloc.contains ']' then none
  else if !W.resolver.netlocValid netloc then none
  else some (W.unicode.lower (String.ofList netloc))

/-- `_assert_callback_url_trusted` -/
def callbackUrlTrusted (callbackUrl : String) : Bool :=
  match origin W W.swarmsyncApiUrl, origin W callbackUrl with
  | some allowedOrigin, some incomingOrigin => incomingOrigin != "" && incomingOrigin == allowedOrigin
  | _, _ => false

structure CallbackPost where
  url : String
  /-- The header `x-agent-gateway-secret`. -/
  secret : String
  json : Value

/-- `send_negotiate_callback`; `statusCode` is `none` where the `POST` raises. -/
def sendNegotiateCallback (callbackUrl : String) (payload : Value) (statusCode : Option Nat) :
    Bool × List CallbackPost :=
  if callbackUrlTrusted W callbackUrl then
    (statusCode.any fun code => (200 ≤ code && code < 300) || (400 ≤ code && code < 500),
      [⟨callbackUrl, W.agentGatewaySecret, payload⟩])
  else (false, [])

/-- The payload that `_evaluate_and_respond` makes of a decision. -/
def negotiationPayload (request : NegotiateRequest) (decision : Value) (estimatedDelivery : String) : Value :=
  let resolvedPrice :=
    if (decision.get "status").pyEq (str "COUNTERED") then decision.getD "counter_budget" (float request.budget)
    else decision.getD "price" (float request.budget)
  dict [("negotiationId", str request.negotiationId), ("responderAgentId", str request.responderAgentId),
    ("status", decision.getD "status" (str "ACCEPTED")), ("price", resolvedPrice),
    ("notes", decision.getD "notes" (str "Auto-evaluated by agent gateway")),
    ("estimatedDelivery", str estimatedDelivery)]

/-- `_evaluate_and_respond`: the callbacks it has sent. -/
def evaluateAndRespond (request : NegotiateRequest) (reply : Nat → RouterReply)
    (estimatedDelivery : String) (statusCode : Option Nat) : List CallbackPost :=
  let decision := evaluateNegotiation W request reply
  (sendNegotiateCallback W request.callbackUrl
    (negotiationPayload request decision estimatedDelivery) statusCode).2

def routerVerdicts (reply : Nat → RouterReply) :
    List (Fallbacks.Verdict Refusal (Except RouterError RouterResult)) :=
  verdicts (judgeReply W) reply 0 (callLlmRouter W reply).2

/-- A result of the router is the text of a reply with a 2xx status, and that text is not blank. -/
theorem judgeReply_result (modelId : String) (reply : RouterReply) (result : RouterResult)
    (decides : (judgeReply W modelId reply).decision = some (.ok result)) :
    ∃ statusCode text data content, reply = .answered statusCode text (some data) ∧
      200 ≤ statusCode ∧ statusCode < 300 ∧ replyContent data = some content ∧
      result.text = textOr W.unicode content ∧ strip result.text ≠ "" := by
  cases reply with
  | raised => cases decides
  | answered statusCode text json =>
    rw [judgeReply] at decides
    split at decides
    · cases decides
    split at decides
    · dsimp only at decides
      split at decides
      · cases decides
      · cases decides
    next success =>
    split at decides
    · cases decides
    next data content loaded =>
    dsimp only at decides
    split at decides
    · cases decides
    next filled =>
    obtain ⟨data', rfl, rest⟩ := Option.bind_eq_some_iff.mp loaded
    obtain ⟨content', read, same⟩ := Option.map_eq_some_iff.mp rest
    obtain ⟨rfl, rfl⟩ := Prod.mk.inj same
    have result_eq := Except.ok.inj (Option.some.inj decides)
    subst result_eq
    obtain ⟨low, high⟩ := not_not.mp success
    exact ⟨statusCode, text, data', content', rfl, low, high, read, rfl, filled⟩

theorem routerModels_mem : "openai/gpt-5.1" ∈ routerModels W := by
  rw [routerModels, List.mem_eraseDups, List.mem_filter]
  exact ⟨by simp, by decide⟩

/-- What the router returns is the text of the reply to its last post. -/
theorem router_result (reply : Nat → RouterReply) (result : RouterResult)
    (returns : (callLlmRouter W reply).1 = .ok result) :
    ∃ statusCode text data content,
      reply ((callLlmRouter W reply).2.length - 1) = .answered statusCode text (some data) ∧
      200 ≤ statusCode ∧ statusCode < 300 ∧ replyContent data = some content ∧
      result.text = textOr W.unicode content ∧ strip result.text ≠ "" := by
  obtain ⟨new, came, -⟩ := tryAll_came (judgeReply W) reply 1 (routerModels W) ⟨[], none⟩
  unfold callLlmRouter at returns ⊢
  split at returns
  · cases returns
  next configured =>
  rw [if_neg configured]
  generalize tryAll (judgeReply W) reply 1 (routerModels W) ⟨[], none⟩ = tried at came returns ⊢
  obtain ⟨_ | outcome, asked⟩ := tried
  · cases returns
  · obtain ⟨m, -, decides⟩ := came.decided
    dsimp only at returns
    rw [returns] at decides
    exact judgeReply_result W m _ result decides

/-- The router posts to the models in their order and at most twice to each, stops at the first reply
that decides, and goes through all models otherwise. -/
theorem router_stops (configured : llmApiKey W ≠ "") (reply : Nat → RouterReply) :
    let posts := (callLlmRouter W reply).2
    posts ≠ [] ∧ posts.Sublist ((routerModels W).flatMap (List.replicate 2)) ∧
      (∀ v ∈ (routerVerdicts W reply).dropLast, v.decision = none) ∧
      match (routerVerdicts W reply).findSome? Fallbacks.Verdict.decision with
      | some outcome => (callLlmRouter W reply).1 = outcome
      | none => routerModels W ⊆ posts ∧ (callLlmRouter W reply).1 = .error (.http
          (((routerVerdicts W reply).filterMap Fallbacks.Verdict.reason).getLast?.getD
            ⟨502, "LLM router failed for all fallback models (check LLM_API_KEY credits)"⟩)) := by
  obtain ⟨new, came, sub, all, asks⟩ := tryAll_came (judgeReply W) reply 1 (routerModels W) ⟨[], none⟩
  have posted := asks (List.ne_nil_of_mem (routerModels_mem W))
  unfold routerVerdicts callLlmRouter
  rw [if_neg configured]
  generalize tryAll (judgeReply W) reply 1 (routerModels W) ⟨[], none⟩ = tried at came all ⊢
  obtain ⟨outcome, asked⟩ := tried
  obtain ⟨rfl, found, early, last⟩ := came
  dsimp only [List.nil_append, List.length_nil] at found early last ⊢
  cases outcome with
  | some outcome =>
    refine ⟨posted, sub, early, ?_⟩
    rw [found]
  | none =>
    refine ⟨posted, sub, early, ?_⟩
    rw [found]
    dsimp only
    rw [last, Option.or_none]
    exact ⟨all rfl, rfl⟩

end

def limitedSettings : Settings where
  unicode := numericResolver.unicode
  numerals := { float := fun _ => infinity, int := fun _ => none }
  env name := if name = "ROUTING_API_KEY" then some " key " else none
  routerModel := "auto"
  resolver := numericResolver
  swarmsyncApiUrl := "https://api.swarmsync.ai"
  agentGatewaySecret := ""

def limitedReply (k : Nat) : RouterReply := if k < 2 then .answered 429 "" none else .answered 402 "" none

theorem router_stops_limited :
    (callLlmRouter limitedSettings limitedReply).2 ≠ [] ∧
      (callLlmRouter limitedSettings limitedReply).2.Sublist
        ((routerModels limitedSettings).flatMap (List.replicate 2)) ∧
      (callLlmRouter limitedSettings limitedReply).2 = ["auto", "auto", "openai/gpt-5-mini", "openai/gpt-5.1"] :=
  have stops := router_stops limitedSettings (by decide) limitedReply
  ⟨stops.1, stops.2.1, by decide⟩

section

variable (W : Settings)

theorem isDecision_status (decision : Value) (decides : isDecision decision = true) :
    ∃ status ∈ negotiationStatuses, decision.get "status" = str status := by
  obtain ⟨-, known⟩ := Bool.and_eq_true_iff.mp decides
  cases is : decision.get "status" with
  | str status =>
    rw [is] at known
    exact ⟨status, List.contains_iff_mem.mp known, rfl⟩
  | _ =>
    rw [is] at known
    cases known

theorem callbackUrlTrusted_origin (callbackUrl : String)
    (trusted : callbackUrlTrusted W callbackUrl = true) :
    ∃ netloc, netloc ≠ "" ∧ origin W callbackUrl = some netloc ∧
      origin W W.swarmsyncApiUrl = some netloc := by
  rw [callbackUrlTrusted] at trusted
  split at trusted
  · next allowedOrigin incomingOrigin allowed incoming =>
    rw [Bool.and_eq_true, bne_iff_ne, beq_iff_eq] at trusted
    exact ⟨incomingOrigin, trusted.1, incoming, by rw [allowed, trusted.2]⟩
  · cases trusted

theorem payload_status (request : NegotiateRequest) (decision : Value) (estimatedDelivery status : String)
    (is : decision.get "status" = str status) :
    (negotiationPayload request decision estimatedDelivery).get "status" = str status := by
  have found : decision.getD "status" (str "ACCEPTED") = str status := by
    rw [Value.get, getD] at is
    rw [getD]
    cases there : decision.get? "status" with
    | none => rw [there] at is; cases is
    | some v => rw [there] at is; exact is
  exact found

/-- The secret goes to the configured origin only, in one request at most. What it reports is the
decision in the text of a model, and a rejection at the budget where there is none. -/
theorem negotiation_fails_closed (request : NegotiateRequest) (reply : Nat → RouterReply)
    (estimatedDelivery : String) (statusCode : Option Nat) :
    let sent := evaluateAndRespond W request reply estimatedDelivery statusCode
    sent.length ≤ 1 ∧ ∀ post ∈ sent, post.url = request.callbackUrl ∧
      (∃ netloc, netloc ≠ "" ∧ origin W post.url = some netloc ∧
        origin W W.swarmsyncApiUrl = some netloc) ∧
      ((∃ code text data content decision status,
          reply ((callLlmRouter W reply).2.length - 1) = .answered code text (some data) ∧
          200 ≤ code ∧ code < 300 ∧ replyContent data = some content ∧
          loads W.numerals (unfenced (textOr W.unicode content)) = some decision ∧
          status ∈ negotiationStatuses ∧ decision.get "status" = str status ∧
          post.json.get "status" = str status ∧
          post.json = negotiationPayload request decision estimatedDelivery) ∨
        post.json.get "status" = str "REJECTED" ∧ post.json.get "price" = float request.budget) := by
  dsimp only
  rw [evaluateAndRespond]
  dsimp only [sendNegotiateCallback]
  split
  · next trusted =>
    refine ⟨Nat.le_refl 1, fun post member => ?_⟩
    rw [List.mem_singleton.mp member]
    refine ⟨rfl, callbackUrlTrusted_origin W request.callbackUrl trusted, ?_⟩
    rw [evaluateNegotiation]
    split
    · exact .inr ⟨rfl, rfl⟩
    · next result answered =>
      cases read : readDecision W result.text with
      | none => exact .inr ⟨rfl, rfl⟩
      | some decision =>
        obtain ⟨loaded, decides⟩ := Option.filter_eq_some_iff.mp read
        obtain ⟨status, known, is⟩ := isDecision_status decision decides
        obtain ⟨code, text, data, content, replied, low, high, found, same, -⟩ :=
          router_result W reply result answered
        rw [same] at loaded
        exact .inl ⟨code, text, data, content, decision, status, replied, low, high, found, loaded,
          known, is, payload_status request decision estimatedDelivery status is, rfl⟩
  · exact ⟨Nat.zero_le 1, fun _ member => absurd member List.not_mem_nil⟩

end

end GenesisAgents.Negotiations
