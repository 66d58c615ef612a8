import GenesisAgents.RequestAuth
import GenesisAgents.ToolPolicy

/-! The two routes of `main.py` that start an agent, `run_agent` and `submit_job`, up to the call that
hands the work over: to the runtime, to the persona router, or to `create_job`. -/

namespace GenesisAgents

open Value

/-- The fields of a bundle that the routes read. -/
structure GatewayBundle where
  slug : String
  jobMode : Option String
  priceTierDefaultCents : Value
  walletId : Value

structure EscrowRequest where
  sourceWalletId : Value
  destinationWalletId : Value
  amountCents : Int
  memo : String

structure EscrowReply where
  ok : Bool
  escrowId : Option String

structure Deployment where
  unicode : Unicode
  tables : PolicyTables
  bundleAliases : List (String × String)
  /-- `load_bundle`: `none` when it raises. -/
  loadBundle : String → Option (Option GatewayBundle)
  runtimeImportOk : Bool
  runtimeAvailable : Bool
  jobStoreOk : Bool
  escrowOk : Bool
  initiateEscrow : EscrowRequest → EscrowReply
  /-- The string case of `_sanitize`; `none` when `urlsplit` raises. -/
  redactText : String → Option String
  /-- `(urlparse(url).hostname or "").lower()`; `none` when it raises. -/
  urlHost : String → Option String
  /-- `int(s)` of a text; `none` when it raises. -/
  intOfText : String → Option Int
  /-- Does `enrich_system_prompt` find its packs? It fails by slug and parameters only. -/
  accountingPackLoads : String → Value → Bool

/-- An `HTTPException`, or the 500 of an uncaught error. -/
structure Refusal where
  status : Nat
  detail : String
  deriving DecidableEq, Repr

/-! `RunRequest`, as pydantic reads it from the body. -/

structure RunRequest where
  prompt : Option String
  input : Value
  task : Value
  testContext : Bool
  mode : Option String
  escrowId : Option String
  callbackUrl : Option String
  skipInternalEscrow : Bool

def optionalText : Value → Option (Option String)
  | null => some none
  | str s => some (some s)
  | _ => none

def asciiLower (s : String) : String := String.ofList (s.toList.map Char.toLower)

def trueWords : List String := ["1", "on", "t", "true", "y", "yes"]
def falseWords : List String := ["0", "off", "f", "false", "n", "no"]

/-- `Optional[bool]` in pydantic's lax mode; `None` reads as false. -/
def optionalFlag : Value → Option Bool
  | null => some false
  | .bool b => some b
  | int n => if n = 0 then some false else if n = 1 then some true else none
  | float x => if x.exact = some 0 then some false else if x.exact = some 1 then some true else none
  | str s =>
    if falseWords.contains (asciiLower s) then some false
    else if trueWords.contains (asciiLower s) then some true else none
  | _ => none

def parseRunRequest (body : Value) : Option RunRequest :=
  if body.isDict then do
    let prompt ← optionalText (body.get "prompt")
    let testContext ← optionalFlag (body.get "testContext")
    let mode ← optionalText (body.get "mode")
    let _requireArtifact ← optionalFlag (body.get "require_artifact")
    let escrowId ← optionalText (body.get "escrow_id")
    let callbackUrl ← optionalText (body.get "callback_url")
    let skipInternalEscrow ← optionalFlag (body.get "skip_internal_escrow")
    some
      { prompt := prompt, input := body.get "input", task := body.get "task"
        testContext := testContext, mode := mode, escrowId := escrowId
        callbackUrl := callbackUrl, skipInternalEscrow := skipInternalEscrow }
  else none

def coercePromptField (U : Unicode) : Value → String
  | null => ""
  | str s => strip s
  | list xs => (dumps (list xs)).getD ""
  | dict kvs => (dumps (dict kvs)).getD ""
  | v => strip (text U v)

def taskText (U : Unicode) (task : Value) : String :=
  if task.isDict then
    coercePromptField U
      ((((task.get "description").orElse (task.get "text")).orElse (task.get "task")).orElse task)
  else coercePromptField U task

def appendPart (parts : List String) (check part : String) : List String :=
  if check != "" && !parts.contains check then parts ++ [part] else parts

def promptParts (U : Unicode) (body : RunRequest) : List String :=
  let prompt := coercePromptField U (optionValue body.prompt)
  let inp := coercePromptField U body.input
  let parts := appendPart (if prompt != "" then [prompt] else []) inp inp
  match body.task with
  | null => parts
  | task => appendPart parts (taskText U task) ("Task:\n" ++ taskText U task)

def buildUserPrompt (U : Unicode) (body : RunRequest) : String :=
  strip (String.intercalate "\n\n" (promptParts U body))

def preferSyncBundleRun (body : RunRequest) : Bool :=
  body.testContext || strip (body.mode.getD "") == "live_test"

/-- One item of `resolved_context`, reduced to its three evidence fields. -/
def cleanContextItem (D : Deployment) (tenantId : String) (item : Value) :
    Except Refusal Value :=
  if !item.isDict then .error ⟨422, "resolved_context_invalid"⟩
  else if text D.unicode ((item.get "tenant_id").orElse (str tenantId)) != tenantId then
    .error ⟨403, "resolved_context_tenant_mismatch"⟩
  else
    let citation := clip 512 (textOr D.unicode (item.get "citation"))
    let contentHash := clip 128
      (textOr D.unicode ((item.get "content_sha256").orElse (item.get "hash")))
    match D.redactText (textOr D.unicode (item.get "content")) with
    | none => .error ⟨500, "Internal Server Error"⟩
    | some redacted =>
      let content := clip 4000 redacted
      if citation == "" || contentHash == "" || content == "" then
        .error ⟨422, "resolved_context_evidence_required"⟩
      else .ok (dict [("citation", str citation), ("content_sha256", str contentHash),
        ("content", str content)])

def scopedRuntimeParams (D : Deployment) (body : RunRequest) (principal : Principal) :
    Except Refusal Value :=
  let params := dict body.task.items
  match params.getD "resolved_context" (list []) with
  | null => .ok ((params.insert "resolved_context" (list [])).erase "description")
  | list items =>
    if 8 < items.length then .error ⟨422, "resolved_context_invalid"⟩
    else (items.mapM (cleanContextItem D principal.tenantId)).map fun clean =>
      (params.insert "resolved_context" (list clean)).erase "description"
  | _ => .error ⟨422, "resolved_context_invalid"⟩

def replaceUnderscores (s : String) : String :=
  String.ofList (s.toList.map fun c => if c = '_' then '-' else c)

def resolveBundleSlug (D : Deployment) (slug : String) : String :=
  let key := strip slug
  if key = "" then key
  else match D.bundleAliases.lookup key with
    | some target => target
    | none =>
      if "_x402".toList.isSuffixOf key.toList then
        replaceUnderscores (String.ofList (key.toList.take (key.toList.length - 5)))
      else replaceUnderscores key

def e4lSpecialists : List String :=
  ["genesis-e4l-revenue", "genesis-e4l-shopify", "genesis-e4l-stripe", "genesis-e4l-cash",
   "genesis-e4l-ap", "genesis-e4l-ar", "genesis-e4l-cogs-cm", "genesis-e4l-commissions",
   "genesis-e4l-intercompany", "genesis-e4l-close", "genesis-e4l-journals",
   "genesis-e4l-fs-integrity", "genesis-e4l-controller", "genesis-e4l-treasury"]

def prohibitedCapabilities (D : Deployment) (task : Value) (bundleSlug : String) : List String :=
  match (task.get "constraints").get "allowed_tools" with
  | list names => (names.map (text D.unicode)).filter fun name =>
      isProhibited D.tables name bundleSlug
  | _ => []

/-! `_assert_not_ssrf` -/

def ssrfBlockedPrefixes : List String :=
  ["localhost", "127.", "0.", "10.", "192.168.", "172.16.", "172.17.", "172.18.", "172.19.",
   "172.20.", "172.21.", "172.22.", "172.23.", "172.24.", "172.25.", "172.26.", "172.27.",
   "172.28.", "172.29.", "172.30.", "172.31.", "::1", "fe80:"]

def rstripDots (s : String) : String :=
  String.ofList (s.toList.reverse.dropWhile (· == '.')).reverse

def assertNotSsrf (D : Deployment) : Value → Except Refusal Unit
  | str url =>
    match D.urlHost url with
    | none => .error ⟨500, "Internal Server Error"⟩
    | some host =>
      if ssrfBlockedPrefixes.any fun blocked =>
          host == rstripDots blocked || blocked.toList.isPrefixOf host.toList then
        .error ⟨400, "Blocked: URL host '" ++ host ++ "' resolves to a private/loopback address"⟩
      else .ok ()
  | _ => .error ⟨500, "Internal Server Error"⟩

/-- `int(v)` -/
def intOf (D : Deployment) (v : Value) : Option Int := toInt D.intOfText v

/-- The escrow id a job is stored with, and whether the gateway opened that escrow itself. -/
structure JobEscrow where
  escrowId : Option String
  opened : Bool
  deriving DecidableEq

def initiate (D : Deployment) (slug : String) (price buyer agent : Value) :
    Except Refusal (Option String) :=
  match intOf D price with
  | none => .error ⟨500, "Internal Server Error"⟩
  | some amountCents =>
    let reply := D.initiateEscrow
      { sourceWalletId := buyer, destinationWalletId := agent, amountCents := amountCents
        memo := "Genesis " ++ slug }
    if reply.ok then .ok reply.escrowId else .error ⟨402, "escrow_initiate_failed"⟩

def skipsInternalEscrow (body : RunRequest) : Bool :=
  isSet body.escrowId || body.skipInternalEscrow

def asyncEscrow (D : Deployment) (slug : String) (body : RunRequest) (price buyer agent : Value) :
    Except Refusal JobEscrow :=
  if isSet body.escrowId then .ok ⟨body.escrowId, false⟩
  else if D.escrowOk && !skipsInternalEscrow body && price.truthy && buyer.truthy && agent.truthy
  then (initiate D slug price buyer agent).map fun escrowId => ⟨escrowId, true⟩
  else .ok ⟨none, false⟩

/-- The arguments of `create_job`. -/
structure NewJob where
  agentSlug : String
  prompt : Value
  params : Value
  buyerWalletId : Value
  buyerClientId : Value
  priceTierCents : Value
  idempotencyKey : Value
  webhookUrl : Value
  escrowId : Value
  tenantId : String
  ownerPrincipalId : String

inductive Execution where
  /-- `runtime.execute_agent` -/
  | runtime (bundleSlug prompt : String) (params : Value)
  /-- `call_llm_router`, for live tests or without a runtime -/
  | router (prompt : String)
  /-- `create_job`, with whether the gateway opened the escrow of the job -/
  | enqueue (job : NewJob) (opened : Bool)

/-! Inside the `try` around `create_job` every error is a 500. -/

def checkedWebhook (D : Deployment) (webhook : Value) : Except Refusal Value :=
  if webhook.truthy then
    (assertNotSsrf D webhook).toOption.elim (.error ⟨500, "job_create_failed"⟩) fun _ => .ok webhook
  else .ok webhook

/-- `int(price_tier_cents) if price_tier_cents else None` -/
def storedPrice (D : Deployment) (price : Value) : Except Refusal Value :=
  if price.truthy then
    (intOf D price).elim (.error ⟨500, "job_create_failed"⟩) fun cents => .ok (int cents)
  else .ok null

/-- The asynchronous branch of `run_agent`. -/
def runAsync (D : Deployment) (slug : String) (bundle : GatewayBundle) (body : RunRequest)
    (principal : Principal) (userPrompt : String) : Except Refusal Execution :=
  if !D.jobStoreOk then .error ⟨503, "job_store_unavailable"⟩
  else do
    let params ← scopedRuntimeParams D body principal
    let prompt := if userPrompt != "" then userPrompt
      else if body.task.isDict then (dumps body.task).getD "" else ""
    let price := (params.get "price_tier_cents").orElse bundle.priceTierDefaultCents
    let buyer := params.get "buyer_wallet_id"
    let escrow ← asyncEscrow D slug body price buyer bundle.walletId
    let webhook ← checkedWebhook D (optionValue body.callbackUrl)
    let priceTierCents ← storedPrice D price
    pure (.enqueue
      { agentSlug := slug, prompt := str prompt, params := params, buyerWalletId := buyer
        buyerClientId := null, priceTierCents := priceTierCents, idempotencyKey := null
        webhookUrl := webhook, escrowId := optionValue escrow.escrowId
        tenantId := principal.tenantId, ownerPrincipalId := principal.principalId } escrow.opened)

/-- The synchronous branch: the runtime is entered unless the escrow of the buyer cannot be opened. -/
def runSync (D : Deployment) (slug bundleSlug : String) (bundle : GatewayBundle)
    (body : RunRequest) (principal : Principal) (userPrompt : String) :
    Except Refusal Execution := do
  let params ← scopedRuntimeParams D body principal
  let price := params.get "price_tier_cents"
  let buyer := params.get "buyer_wallet_id"
  if D.escrowOk && !skipsInternalEscrow body && price.truthy && buyer.truthy &&
      bundle.walletId.truthy then
    let _escrowId ← initiate D slug price buyer bundle.walletId
  pure (.runtime bundleSlug userPrompt params)

def runAgent (D : Deployment) (slug : String) (body : RunRequest) (principal : Principal) :
    Except Refusal Execution :=
  let userPrompt := buildUserPrompt D.unicode body
  let bundleSlug := resolveBundleSlug D slug
  if !(prohibitedCapabilities D body.task bundleSlug).isEmpty then
    .error ⟨403, "prohibited_capability"⟩
  else if !D.runtimeImportOk then .error ⟨503, "bundle_runtime_unavailable"⟩
  else match D.loadBundle bundleSlug with
    | none => .error ⟨503, "bundle_runtime_unavailable"⟩
    | some none => .error ⟨404, "agent_bundle_required"⟩
    | some (some bundle) =>
      if preferSyncBundleRun body then
        let liveSlug := if bundle.slug = "" then bundleSlug else bundle.slug
        if e4lSpecialists.contains liveSlug &&
            !D.accountingPackLoads liveSlug (dict body.task.items) then
          .error ⟨500, "accounting_entity_load_failed"⟩
        else .ok (.router userPrompt)
      else if bundle.jobMode = some "async" then runAsync D slug bundle body principal userPrompt
      else if D.runtimeAvailable then
        runSync D slug bundleSlug bundle body principal userPrompt
      else .ok (.router userPrompt)

def submittedWebhook (body : Value) : Value :=
  (body.get "webhook_url").orElse (body.get "callback_url")

def submittedJob (slug : String) (body : Value) (principal : Principal) : NewJob :=
  { agentSlug := slug, prompt := body.getD "prompt" (str ""), params := body.getD "params" (dict [])
    buyerWalletId := null, buyerClientId := body.get "client_id"
    priceTierCents := body.get "price_tier_cents", idempotencyKey := body.get "idempotency_key"
    webhookUrl := submittedWebhook body, escrowId := body.get "escrow_id"
    tenantId := principal.tenantId, ownerPrincipalId := principal.principalId }

/-- `submit_job` -/
def submitJob (D : Deployment) (slug : String) (body : Value) (principal : Principal) :
    Except Refusal Execution :=
  if !body.isDict then .error ⟨422, "Unprocessable Entity"⟩
  else if !D.jobStoreOk then .error ⟨503, "job_store unavailable"⟩
  else
    match if (submittedWebhook body).truthy then assertNotSsrf D (submittedWebhook body)
      else .ok () with
    | .error refusal => .error refusal
    | .ok _ => .ok (.enqueue (submittedJob slug body principal) false)

inductive Route where
  | run | jobs
  deriving DecidableEq, Repr

def handle (D : Deployment) (route : Route) (slug : String) (body : Value)
    (principal : Principal) : Except Refusal Execution :=
  match route with
  | .run => match parseRunRequest body with
    | none => .error ⟨422, "Unprocessable Entity"⟩
    | some request => runAgent D slug request principal
  | .jobs => submitJob D slug body principal

def researchDeployment : Deployment where
  unicode := { lower := id, printable := fun _ => true }
  tables := productionTables
  bundleAliases := []
  loadBundle _ := some (some
    { slug := "genesis-research", jobMode := none, priceTierDefaultCents := null
      walletId := null })
  runtimeImportOk := true
  runtimeAvailable := true
  jobStoreOk := true
  escrowOk := false
  initiateEscrow _ := ⟨false, none⟩
  redactText text := some text
  urlHost _ := none
  intOfText _ := none
  accountingPackLoads _ _ := true

end GenesisAgents
