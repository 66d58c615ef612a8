import GenesisAgents.AgentRuns

/-! The evaluation driver: `eval/run_experiment.py` from its command line to the agents it invokes,
`eval/target.py` and `eval/genesis_client.py`. Scoring, tracing and redaction are left out. -/

namespace GenesisAgents

open Value

/-! `eval/genesis_client.py` -/

inductive EvalMode where
  | liveTest | full
  deriving DecidableEq

def EvalMode.name : EvalMode → String
  | liveTest => "live_test"
  | full => "full"

def liveSlugs : List String :=
  ["genesis_research_x402", "genesis_builder_x402", "genesis_deploy_x402",
   "genesis_content_x402", "genesis_email_x402", "genesis_commerce_x402",
   "genesis_qa_x402", "genesis_support_x402", "genesis_finance_x402",
   "genesis_security_x402", "genesis_billing_x402", "genesis_analyst_x402",
   "genesis_marketing_x402", "genesis_seo_x402", "genesis_meta_x402",
   "genesis_meta_agent", "builder_agent", "builder_agent_enhanced",
   "deploy_agent", "qa_agent", "research_discovery_agent", "spec_agent",
   "security_agent", "maintenance_agent", "seo_agent", "content_agent",
   "marketing_agent", "support_agent", "analyst_agent", "finance_agent",
   "pricing_agent", "email_agent", "billing_agent", "commerce_agent",
   "darwin_agent", "domain_name_agent", "legal_agent", "onboarding_agent",
   "reflection_agent", "waltzrl_conversation_agent",
   "waltzrl_feedback_agent", "se_darwin_agent", "ring1t_reasoning_agent",
   "business_idea_generator",
   "genesis-ai-vision-api", "genesis-workflow-automator",
   "genesis-data-pipeline-agent", "unit-test-generator",
   "api-documentation-generator", "social-media-scheduler",
   "web-scraper-pro", "meeting-summarizer", "expense-tracker",
   "review-responder", "onboarding-automation", "image-optimizer",
   "backup-manager"]

def bundleToLiveSlug : List (String × String) :=
  [("genesis-meta", "genesis_meta_x402"), ("genesis-legal", "legal_agent"),
   ("genesis-hr", "onboarding_agent"), ("genesis-onboarding", "onboarding_agent"),
   ("genesis-domain", "domain_name_agent"), ("genesis-maintenance", "maintenance_agent"),
   ("genesis-pricing", "pricing_agent"), ("genesis-ai-vision", "genesis-ai-vision-api"),
   ("genesis-data-pipeline", "genesis-data-pipeline-agent")]

def moneyDomainMarkers : List String :=
  ["finance", "billing", "commerce", "pricing", "escrow", "payment", "payout", "invoice"]

inductive SlugResolution where
  | verified | aliased | unverified
  deriving DecidableEq

/-- `s.replace(old, new)` of one character -/
def replaceChar (old new : Char) (s : String) : String :=
  String.ofList (s.toList.map fun c => if c = old then new else c)

/-- `s.endswith(suffix)` and what `resolve_live_slug` adds when it does not -/
def suffixed (slug : String) : String :=
  if "_x402".toList.isSuffixOf slug.toList then slug else slug ++ "_x402"

/-- `none` is its `ValueError`. -/
def resolveLiveSlug (slug : String) : Option (String × SlugResolution) :=
  let raw := strip slug
  if raw = "" then none
  else if liveSlugs.contains raw then some (raw, .verified)
  else
    match (bundleToLiveSlug.lookup raw).or (bundleToLiveSlug.lookup (replaceChar '_' '-' raw)) with
    | some live => some (live, .aliased)
    | none =>
      let underscored := replaceChar '-' '_' raw
      if liveSlugs.contains underscored then some (underscored, .verified)
      else if liveSlugs.contains (suffixed underscored) then some (suffixed underscored, .verified)
      else some (underscored, .unverified)

def isMoneyDomain (U : Unicode) (slug : String) : Bool :=
  moneyDomainMarkers.any fun marker => isSubstring marker (U.lower slug)

inductive EvalReply where
  | answered (status : Nat)
  /-- `TransportFailure` -/
  | failed (kind : String)
  /-- Any other exception, a cancellation among them. -/
  | raised

inductive EvalOutcome where
  | success | authError | notFound | upstreamError | indeterminate
  deriving DecidableEq

/-- `TransportFailure.request_sent` -/
def requestSent (kind : String) : Bool := kind == "read" || kind == "write"

structure RunEnd where
  outcome : EvalOutcome
  httpStatus : Option Nat
  errorKind : Option String

/-- Is the request made again while attempts are left? -/
def EvalReply.retried : EvalReply → Bool
  | answered status => !(200 ≤ status && status < 300) && !(400 ≤ status && status < 500)
  | failed kind => !requestSent kind
  | raised => false

/-- The end that a last attempt makes; `none` when it raises. -/
def EvalReply.ending : EvalReply → Option RunEnd
  | answered status =>
    if 200 ≤ status ∧ status < 300 then some ⟨.success, some status, none⟩
    else if status = 401 ∨ status = 403 then some ⟨.authError, some status, some "auth_rejected"⟩
    else if status = 404 then some ⟨.notFound, some status, some "slug_not_found"⟩
    else if 400 ≤ status ∧ status < 500 then
      some ⟨.upstreamError, some status, some ("client_error_" ++ toString status)⟩
    else some ⟨.upstreamError, some status, some ("server_error_" ++ toString status)⟩
  | failed kind =>
    some ⟨if requestSent kind then .indeterminate else .upstreamError, none, some ("transport_" ++ kind)⟩
  | raised => none

def requestAgain (reply : Nat → EvalReply) : Nat → Nat → Nat × Option RunEnd
  | 0, attempt => (attempt, (reply attempt).ending)
  | left + 1, attempt =>
    if (reply attempt).retried then requestAgain reply left (attempt + 1)
    else (attempt, (reply attempt).ending)

def defaultMaxAttempts : Nat := 3

structure EvalRequest where
  slug : String
  task : Value
  mode : EvalMode
  requireArtifact : Bool

/-- A `POST /agents/{slug}/run`. -/
structure AgentPost where
  /-- Against the gateway, and not the scripted transport of `--fake-client`. -/
  gateway : Bool
  liveSlug : String
  body : Value

/-- The mode in which the gateway runs the agent. -/
def AgentPost.mode (post : AgentPost) : EvalMode :=
  match post.body.get "mode" with
  | str "live_test" => .liveTest
  | _ => .full

/-- The body of `run_agent`, without the keys that are `None`. -/
def EvalRequest.body (request : EvalRequest) : Value :=
  dict ((match request.task with
      | str prompt => [("prompt", str prompt)]
      | null => []
      | task => [("input", task)]) ++
    (if request.mode = .liveTest then [("mode", str "live_test"), ("testContext", Value.bool true)] else []) ++
    (if request.requireArtifact then [("require_artifact", Value.bool true)] else []))

structure AgentRunResult where
  ending : RunEnd
  slug : String
  requestedSlug : String
  mode : EvalMode
  attempts : Nat
  resolution : SlugResolution

inductive RunRefusal where
  | moneyDomainBlocked | unknownSlug | raised
  deriving DecidableEq

structure GenesisClient where
  unicode : Unicode
  gateway : Bool

/-- `run_agent` of a client with its defaults: the requests, and the result. -/
def GenesisClient.runAgent (client : GenesisClient) (reply : Nat → EvalReply) (request : EvalRequest) :
    List AgentPost × Except RunRefusal AgentRunResult :=
  match resolveLiveSlug request.slug with
  | none => ([], .error .raised)
  | some (liveSlug, resolution) =>
    if isMoneyDomain client.unicode liveSlug then ([], .error .moneyDomainBlocked)
    else if resolution = .unverified then ([], .error .unknownSlug)
    else
      let (attempts, ended) := requestAgain reply (defaultMaxAttempts - 1) 1
      (List.replicate attempts ⟨client.gateway, liveSlug, request.body⟩,
        match ended with
        | none => .error .raised
        | some ending => .ok ⟨ending, liveSlug, request.slug, request.mode, attempts, resolution⟩)

/-! `eval/target.py` -/

def taskKeys : List String := ["task", "prompt", "input", "question", "query"]

def givenTask (inputs : Value) : Option Value :=
  (taskKeys.map fun key => inputs.get key).find? fun v =>
    match v with
    | null => false
    | str s => s != ""
    | _ => true

/-- `inputs.get("mode") or "live_test"`, if it is a mode -/
def givenMode (inputs : Value) : Option EvalMode :=
  match (inputs.get "mode").orElse (str "live_test") with
  | str "live_test" => some .liveTest
  | str "full" => some .full
  | _ => none

/-- `parse_example`, without the metadata of the trace; a text is its `InvalidExample`. -/
def parseExample (inputs : Value) : Except String EvalRequest :=
  match inputs.get "slug" with
  | str slug =>
    if strip slug = "" then .error "example inputs require a non-empty 'slug'"
    else
      match givenTask inputs, givenMode inputs with
      | none, _ => .error ("example inputs require one of: " ++ ", ".intercalate taskKeys)
      | some _, none => .error "mode must be 'live_test' or 'full'"
      | some task, some mode =>
        .ok ⟨strip slug, task, mode, (inputs.getD "require_artifact" (Value.bool false)).truthy⟩
  | _ => .error "example inputs require a non-empty 'slug'"

structure ExampleOutputs where
  ending : RunEnd
  mode : String
  slug : String
  requestedSlug : String
  attempts : Nat

def blockedOutputs (U : Unicode) (inputs : Value) (kind : String) : ExampleOutputs where
  ending := ⟨.upstreamError, none, some kind⟩
  mode := ((inputs.get "mode").orElse (str "live_test")).text U
  slug := (inputs.getD "slug" (str "")).text U
  requestedSlug := (inputs.getD "slug" (str "")).text U
  attempts := 0

/-- `arun_example`: its requests, and its outputs unless it raises. -/
def arunExample (client : GenesisClient) (reply : Nat → EvalReply) (inputs : Value) :
    List AgentPost × Option ExampleOutputs :=
  match parseExample inputs with
  | .error _ => ([], some (blockedOutputs client.unicode inputs "invalid_example"))
  | .ok request =>
    match client.runAgent reply request with
    | (posts, .ok result) => (posts, some ⟨result.ending, result.mode.name, result.slug,
        result.requestedSlug, result.attempts⟩)
    | (posts, .error .moneyDomainBlocked) =>
      (posts, some (blockedOutputs client.unicode inputs "blocked_money_domain"))
    | (posts, .error .unknownSlug) => (posts, some (blockedOutputs client.unicode inputs "unknown_slug"))
    | (posts, .error .raised) => (posts, none)

/-! `eval/run_experiment.py`: the dataset. -/

inductive EvalStop where
  /-- `PreconditionFailed` -/
  | precondition (message : String)
  | raised

inductive DatasetFile where
  | missing
  /-- No file to read, or no UTF-8. -/
  | unreadable
  | text (content : String)

inductive JudgeImport where
  | raised (message : String)
  | notCallable
  | callable

structure EvalWorld where
  unicode : Unicode
  file : String → DatasetFile
  /-- `str(Path(p))` and `Path(p).stem` -/
  pathText : String → String
  stem : String → String
  /-- `json.loads`, or the text of its `ValueError` -/
  loads : String → Except String Value
  /-- The JSON of `GET` of that URL, or the type of the exception. -/
  httpGet : String → Except String Value
  /-- The slugs of `datasets/live_slugs.json` -/
  snapshot : List String
  judgeImport : String → String → JudgeImport
  gatewayApiKey : Option String
  agentGatewaySecret : Option String

structure EvalExample where
  id : String
  inputs : Value

def EvalExample.slug (U : Unicode) (ex : EvalExample) : String := (ex.inputs.getD "slug" (str "")).text U

def rubricNames : List String :=
  ["instruction_following", "persona_fidelity", "factual_groundedness", "refusal_correctness",
   "output_wellformedness"]

/-- `str.splitlines` -/
def isLineBreak (c : Char) : Bool :=
  [10, 11, 12, 13, 28, 29, 30, 133, 8232, 8233].contains c.toNat

/-- The lines of a text, `current` being the one under way, reversed; a CR and a LF are one break. -/
def linesFrom (current : List Char) : List Char → List String
  | [] => if current.isEmpty then [] else [String.ofList current.reverse]
  | '\r' :: '\n' :: rest => String.ofList current.reverse :: linesFrom [] rest
  | c :: rest =>
    if isLineBreak c then String.ofList current.reverse :: linesFrom [] rest
    else linesFrom (c :: current) rest

def splitlines (text : String) : List String := linesFrom [] text.toList

namespace EvalWorld

variable (E : EvalWorld)

def readLines (path : String) : Nat → List String → Except EvalStop (List Value)
  | _, [] => .ok []
  | lineno, line :: rest =>
    if strip line = "" then readLines path (lineno + 1) rest
    else
      match E.loads (strip line) with
      | .error exc => .error (.precondition
          (E.pathText path ++ ":" ++ toString lineno ++ ": not valid JSON — " ++ exc))
      | .ok record => (readLines path (lineno + 1) rest).map (record :: ·)

/-- The records of the dataset; a JSON text that opens with a bracket is one array or no JSON. -/
def readRecords (path content : String) : Except EvalStop (List Value) :=
  let raw := strip content
  if raw = "" then .error (.precondition ("dataset is empty: " ++ E.pathText path))
  else if raw.toList.head? = some '[' then
    match E.loads raw with
    | .ok (list records) => .ok records
    | _ => .error .raised
  else E.readLines path 1 (splitlines raw)

/-- The rubrics of an example that there are none of; `none` when the loop over them raises. -/
def unknownRubrics (inputs : Value) : Option (List Value) :=
  (listOr (inputs.get "rubrics")).bind fun named =>
    if named.all hashable then some (named.filter fun name => !rubricNames.any fun known => name.pyEq (str known))
    else none

def loadExample (path : String) (i : Nat) (record : Value) : Except EvalStop EvalExample :=
  if record.isDict && (record.get "inputs").isDict then
    let inputs := record.get "inputs"
    let eid := ((record.get "id").orElse (str (E.stem path ++ "-" ++ toString i))).text E.unicode
    match unknownRubrics inputs with
    | none => .error .raised
    | some (name :: unknown) => .error (.precondition (E.pathText path ++ ": example " ++ eid ++
        " names unknown rubrics " ++ (list (name :: unknown)).repr E.unicode))
    | some [] =>
      match dictOf ((record.get "outputs").orElse (dict [])), dictOf ((record.get "metadata").orElse (dict [])) with
      | some _, some _ => .ok ⟨eid, inputs⟩
      | _, _ => .error .raised
  else .error (.precondition (E.pathText path ++ ": record " ++ toString i ++ " has no 'inputs' mapping"))

def loadExamples (path : String) : Nat → List Value → Except EvalStop (List EvalExample)
  | _, [] => .ok []
  | i, record :: rest => do
    let ex ← E.loadExample path i record
    let later ← loadExamples path (i + 1) rest
    .ok (ex :: later)

/-- `load_dataset`, without the references and metadata of the examples -/
def loadDataset (path : String) : Except EvalStop (List EvalExample) :=
  match E.file path with
  | .missing => .error (.precondition ("dataset not found: " ++ E.pathText path))
  | .unreadable => .error .raised
  | .text content => (E.readRecords path content).bind fun records => E.loadExamples path 0 records

/-- `fetch_live_slugs` -/
def fetchLiveSlugs (baseUrl : String) : Except EvalStop (List String) :=
  let url := String.ofList (baseUrl.toList.reverse.dropWhile (· == '/')).reverse ++ "/agents"
  match E.httpGet url with
  | .error exc => .error (.precondition ("could not fetch the live agent list from " ++ url ++ " (" ++ exc ++
      "). Refusing to run: without it a typo'd slug would be silently answered by a fallback persona. " ++
      "Use --slug-source snapshot only if you accept a stale list."))
  | .ok body =>
    match if body.isDict then body.get "agents" else body with
    | list (agent :: agents) =>
      let slugs := (agent :: agents).map fun a => if a.isDict then a.get "slug" else a
      if slugs.all hashable then
        .ok (slugs.filterMap fun slug =>
          match slug with
          | str s => if s = "" then none else some s
          | _ => none).eraseDups
      else .error .raised
    | _ => .error (.precondition (url ++ " returned no agents"))

def nearSlugs (live : List String) (raw : String) : List String :=
  let head := clip 8 (String.ofList (raw.toList.takeWhile (· != '_')))
  ((live.filter fun s => isSubstring head s).insertionSort (· ≤ ·)).take 5

def slugProblem (live : List String) (ex : EvalExample) : Option String :=
  let raw := ex.slug E.unicode
  if raw = "" then some ("  " ++ ex.id ++ ": no slug")
  else
    match resolveLiveSlug raw with
    | none => some ("  " ++ ex.id ++ ": slug is required")
    | some (liveSlug, _) =>
      if live.contains liveSlug then none
      else
        let near := nearSlugs live raw
        some ("  " ++ ex.id ++ ": " ++ reprStr E.unicode raw ++ " -> " ++ reprStr E.unicode liveSlug ++
          " is NOT served by the gateway" ++
          if near.isEmpty then "" else " (did you mean: " ++ ", ".intercalate near ++ ")")

/-- `validate_slugs`, without the slugs it resolves -/
def validateSlugs (examples : List EvalExample) (live : List String) : Except EvalStop Unit :=
  if live.isEmpty then
    .error (.precondition "the live slug set is empty — cannot validate anything")
  else
    match examples.filterMap (E.slugProblem live) with
    | [] => .ok ()
    | problems => .error (.precondition ("ABORTING: unknown slug(s) in the dataset.\n" ++
        "\n".intercalate problems ++
        "\n\nA typo'd slug does NOT 404 on this gateway — run_agent() falls back to a generic persona " ++
        "built from slug.title() and returns HTTP 200 with a bland answer. Running anyway would score " ++
        "an agent that does not exist."))

def deploySlugs : List String := ["genesis_deploy_x402", "deploy_agent"]

def guardLines (allowDeploy allowMoney : Bool) (ex : EvalExample) : List String :=
  let slug := ex.slug E.unicode
  let liveSlug := ((resolveLiveSlug slug).map Prod.fst).getD slug
  (if deploySlugs.contains liveSlug && !allowDeploy then
    ["  " ++ ex.id ++ ": " ++ liveSlug ++ " has REAL external side effects " ++
      "(GitHub commits/PRs, workspace shell). Override: --allow-deploy"] else []) ++
  (if isMoneyDomain E.unicode liveSlug && !allowMoney then
    ["  " ++ ex.id ++ ": " ++ liveSlug ++ " is a money-domain agent, denied at the Cato boundary by a " ++
      "hardcoded denylist. A score from it measures nothing. Override: --allow-money"] else [])

/-- `check_guards` -/
def checkGuards (examples : List EvalExample) (allowDeploy allowMoney : Bool) : Except EvalStop Unit :=
  match examples.flatMap (E.guardLines allowDeploy allowMoney) with
  | [] => .ok ()
  | blocked => .error (.precondition ("ABORTING: guarded slug(s) in the dataset.\n" ++
      "\n".intercalate blocked ++ "\n\nDo not pass an override to turn a red run green."))

/-- `load_judge`, of which the label is kept -/
def loadJudge (spec : String) : Except EvalStop String :=
  if spec = "none" ∨ spec = "keyword" then .ok spec
  else if !spec.toList.contains ':' then
    .error (.precondition ("--judge " ++ reprStr E.unicode spec ++
      ": expected 'none', 'keyword', or 'package.module:callable'"))
  else
    let module := String.ofList (spec.toList.takeWhile (· != ':'))
    let attr := String.ofList ((spec.toList.dropWhile (· != ':')).drop 1)
    match E.judgeImport module attr with
    | .raised exc => .error (.precondition ("--judge " ++ reprStr E.unicode spec ++ ": " ++ exc))
    | .notCallable => .error (.precondition
        ("--judge " ++ reprStr E.unicode spec ++ ": " ++ attr ++ " is not callable"))
    | .callable => .ok spec

end EvalWorld

inductive SlugSource where
  | live | snapshot
  deriving DecidableEq

def SlugSource.name : SlugSource → String
  | live => "live"
  | snapshot => "snapshot"

/-- The namespace that `build_parser().parse_args` returns. -/
structure EvalArgs where
  dataset : String
  mode : EvalMode
  iUnderstandFullMode : Bool
  concurrency : Int
  baseUrl : String
  slugSource : SlugSource
  judge : String
  dryRun : Bool
  fakeClient : Bool
  allowDeploy : Bool
  allowMoney : Bool

def fullModeRefusal : String :=
  "--mode full exercises the REAL runtime: real side effects, real cost, and 5 of the tool-capable slugs " ++
  "return an async job envelope (job_id + poll_url) that this runner does not poll. Pass " ++
  "--i-understand-full-mode if that is genuinely what you want."

/-- `setdefault("mode", mode)`, and `["mode"] = "full"` in full mode -/
def EvalExample.inMode (mode : EvalMode) (ex : EvalExample) : EvalExample :=
  let given := if (ex.inputs.get? "mode").isSome then ex.inputs else ex.inputs.insert "mode" (str mode.name)
  { ex with inputs := if mode = .full then given.insert "mode" (str "full") else given }

structure EvalPlan where
  examples : List EvalExample
  live : List String
  judge : String

/-- `tool_evidence_disclaimer` -/
def toolEvidenceDisclaimer : EvalMode → String
  | .liveTest => "SCORED IN testContext/live_test MODE: AgentRuntime and tool dispatch were bypassed " ++
      "entirely. This score measures persona and reasoning quality ONLY and is NOT evidence that any tool works."
  | .full => "Scored in full mode: the real runtime was exercised, so tool behaviour is in scope — but " ++
      "check the outcome and the embedded envelope before claiming a tool ran."

structure EvalReport where
  dataset : String
  mode : EvalMode
  judge : String
  concurrency : Int
  slugSource : String
  liveSlugCount : Nat
  disclaimer : String

structure EvalRun where
  posts : List AgentPost
  report : Option EvalReport

def EvalRun.nothing : EvalRun := ⟨[], none⟩

/-- How the run of one example goes: does it begin before an exception in another one ends them all,
and what becomes of its requests? -/
structure ExampleCourse where
  begins : Bool
  reply : Nat → EvalReply

namespace EvalWorld

variable (E : EvalWorld)

/-- `main` up to its dry run -/
def plan (args : EvalArgs) : Except EvalStop EvalPlan :=
  if args.mode = .full ∧ args.iUnderstandFullMode = false then .error (.precondition fullModeRefusal)
  else do
    let loaded ← E.loadDataset args.dataset
    let examples := loaded.map (EvalExample.inMode args.mode)
    let live ← match args.slugSource with
      | .live => E.fetchLiveSlugs args.baseUrl
      | .snapshot => .ok E.snapshot
    E.validateSlugs examples live
    E.checkGuards examples args.allowDeploy args.allowMoney
    let judge ← E.loadJudge args.judge
    .ok ⟨examples, live, judge⟩

/-- `has_credential` -/
def hasCredential : Bool := isSet E.gatewayApiKey || isSet E.agentGatewaySecret

/-- What becomes of the requests of `_fake_client` -/
def scriptedCourse : ExampleCourse := ⟨true, fun _ => .answered 200⟩

/-- The requests of `_arun_all`, in the order of the examples. -/
def invokeAll (client : GenesisClient) (course : Nat → ExampleCourse) : Nat → List EvalExample → List AgentPost
  | _, [] => []
  | i, ex :: rest =>
    (if (course i).begins then (arunExample client (course i).reply ex.inputs).1 else []) ++
      invokeAll client course (i + 1) rest

/-- `run_experiment` up to the scores -/
def runExperiment (args : EvalArgs) (plan : EvalPlan) (client : GenesisClient) (course : Nat → ExampleCourse) :
    EvalRun where
  posts := invokeAll client course 0 plan.examples
  report := some
    { dataset := args.dataset, mode := args.mode, judge := plan.judge, concurrency := args.concurrency
      slugSource := args.slugSource.name, liveSlugCount := plan.live.length
      disclaimer := toolEvidenceDisclaimer args.mode }

/-- `main` -/
def main (args : EvalArgs) (course : Nat → ExampleCourse) : EvalRun :=
  match E.plan args with
  | .error _ => .nothing
  | .ok plan =>
    if args.dryRun then .nothing
    else if args.fakeClient then runExperiment args plan ⟨E.unicode, false⟩ fun _ => scriptedCourse
    else if E.hasCredential then runExperiment args plan ⟨E.unicode, true⟩ course
    else .nothing

end EvalWorld

end GenesisAgents
