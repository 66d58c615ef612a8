import GenesisAgents.Value

/-! `tools/xero_scoped_tool.py` and `tools/file_write_tool.py` within one job: the gates of a scoped
Xero post, the bridge, and the idempotency file in the job directory, which both tools write. -/

namespace GenesisAgents

open Value

/-! `accounting/xero_scope.py` -/

inductive ReadScope where
  | allSpecialists
  | only (slugs : List String)

structure ScopeFamily where
  primaryWrite : List String
  read : ReadScope

/-- `XERO_SCOPE_TO_AGENT_MAP.yaml` -/
structure ScopeMap where
  specialists : List String
  scopes : List (String × ScopeFamily)
  /-- The slugs whose override has `writes_forbidden`. -/
  writesForbidden : List String

def operationScopeFamily : List (String × String) :=
  [("create_draft_bill", "accounting.contacts"),
   ("create_draft_invoice", "accounting.invoices"),
   ("create_draft_manual_journal", "accounting.manualjournals"),
   ("create_bank_transaction", "accounting.banktransactions"),
   ("attach_file_to_bill", "accounting.attachments"),
   ("attach_file_to_invoice", "accounting.attachments"),
   ("get_trial_balance", "accounting.reports.trialbalance.read"),
   ("get_balance_sheet", "accounting.reports.balancesheet.read"),
   ("get_profit_and_loss", "accounting.reports.profitandloss.read"),
   ("list_open_payables", "accounting.contacts.read"),
   ("list_open_receivables", "accounting.contacts.read"),
   ("get_chart_of_accounts", "accounting.settings.read"),
   ("get_bank_summary", "accounting.reports.banksummary.read")]

def operationPrimaryAgents : List (String × List String) :=
  [("create_draft_bill", ["genesis-e4l-ap"]),
   ("create_draft_invoice", ["genesis-e4l-ar", "genesis-e4l-revenue", "genesis-e4l-shopify"]),
   ("create_draft_manual_journal",
     ["genesis-e4l-journals", "genesis-e4l-intercompany", "genesis-e4l-close"]),
   ("create_bank_transaction", ["genesis-e4l-cash", "genesis-e4l-treasury", "genesis-e4l-stripe"]),
   ("attach_file_to_bill", ["genesis-e4l-ap"]),
   ("attach_file_to_invoice", ["genesis-e4l-ar"])]

/-- `s.startswith(prefix)` -/
def opensWith (start s : String) : Bool := start.toList.isPrefixOf s.toList

/-- `s.endswith(suffix)` -/
def closesWith (ending s : String) : Bool := ending.toList.isSuffixOf s.toList

def ScopeMap.expandRead (M : ScopeMap) (family : String) : List String :=
  match (M.scopes.lookup family).map ScopeFamily.read with
  | none => []
  | some .allSpecialists => M.specialists
  | some (.only slugs) => slugs

def ScopeMap.primaryWrite (M : ScopeMap) (family : String) : List String :=
  ((M.scopes.lookup family).map ScopeFamily.primaryWrite).getD []

def textOperationAllowed (M : ScopeMap) (slug operation : String) : Bool × String :=
  let family := (operationScopeFamily.lookup operation).getD ""
  if M.writesForbidden.contains slug then
    if closesWith ".read" family || opensWith "get_" operation || opensWith "list_" operation then
      (true, "read_only")
    else (false, "write_forbidden")
  else
    match operationPrimaryAgents.lookup operation with
    | some primary =>
      if primary.contains slug then (true, "primary_write")
      else (false, "operation_denied:" ++ operation)
    | none =>
      if family = "" then (false, "unknown_operation")
      else if closesWith ".read" family then ((M.expandRead family).contains slug, "read_scope")
      else ((M.primaryWrite family).contains slug, "primary_write")

/-- `operation_allowed`; `none` when an operation that is no text makes it raise. -/
def operationAllowed (M : ScopeMap) (slug : String) (operation : Value) : Option (Bool × String) :=
  if !opensWith "genesis-e4l-" slug then some (false, "not_e4l_specialist")
  else
    match operation with
    | str name => some (textOperationAllowed M slug name)
    | list _ => none
    | dict _ => none
    | object _ => none
    | _ => if M.writesForbidden.contains slug then none else some (false, "unknown_operation")

/-- What `json.loads` makes of a text. -/
inductive LoadsResult where
  | value (data : Value)
  /-- `JSONDecodeError` -/
  | decodeError
  /-- Any other exception: an integer of too many digits, a text that nests too deeply. -/
  | otherError

structure UrlParts where
  scheme : String
  netloc : String
  username : Option String
  password : Option String

structure XeroTool where
  unicode : Unicode
  scopeMap : ScopeMap
  /-- `XERO_MCP_BRIDGE_URL` and `XERO_MCP_BRIDGE_TOKEN`, stripped. -/
  bridgeUrl : String
  bridgeToken : String
  /-- `none` when it raises. -/
  urlparse : String → Option UrlParts
  /-- The components of the resolved job directory, which exists. -/
  jobDir : Option (List String)
  /-- `json.loads`, of a text that was written to a file. -/
  loads : String → LoadsResult
  /-- `json.dumps` returns: the value does not nest too deeply. -/
  encodes : Value → Bool

structure XeroCall where
  operation : Value
  payload : Value
  entityKey : Value
  verifyApiRunId : Value
  agentSlug : Value
  /-- The other keyword arguments, those the runtime injects among them. -/
  kwargs : Value

structure XeroTriple where
  slug : String
  operation : String
  verifyId : String
  deriving DecidableEq

inductive ToolReturn where
  | returned (result : Value)
  | raised

def setText : Value → Option String
  | str s => if strip s = "" then none else some (strip s)
  | _ => none

/-- `_trusted_agent_slug`; `none` when it raises. -/
def trustedAgentSlug (call : XeroCall) : Option String :=
  match setText (call.kwargs.get "_parent_agent_slug"), setText (call.kwargs.get "_agent_slug") with
  | some slug, _ => some slug
  | none, some slug => some slug
  | none, none =>
    match call.agentSlug.orElse (str "") with
    | str s => some (strip s)
    | _ => none

/-- Does the slug of the model differ from the trusted one? `none` when the comparison raises. -/
def slugMismatch (agentSlug : Value) (trusted : String) : Option Bool :=
  if !agentSlug.truthy then some false
  else
    match agentSlug with
    | str s => some (strip s != "" && strip s != trusted)
    | _ => none

def isAsciiAlnum (c : Char) : Bool :=
  ('A' ≤ c && c ≤ 'Z') || ('a' ≤ c && c ≤ 'z') || ('0' ≤ c && c ≤ '9')

/-- `^[A-Za-z0-9][A-Za-z0-9._:-]{7,127}$` -/
def isVerifyApiRunId : List Char → Bool
  | [] => false
  | first :: rest => isAsciiAlnum first && decide (7 ≤ rest.length ∧ rest.length ≤ 127) &&
      rest.all fun c => isAsciiAlnum c || c == '.' || c == '_' || c == ':' || c == '-'

/-- `_validate_verify_api_run_id` -/
def validateVerifyApiRunId (U : Unicode) (v : Value) : Except String String :=
  let raw := strip (text U (v.orElse (str "")))
  if raw = "" then .error "empty"
  else if isVerifyApiRunId raw.toList then .ok raw
  else .error "invalid_format"

def dispatchAllowedOperations (kwargs : Value) : Option (List String) :=
  match kwargs.get "_allowed_xero_operations" with
  | list items => some (items.filterMap fun item =>
      match item with
      | str s => if s = "" then none else some s
      | _ => none)
  | _ => none

def idempotencyKey (verifyId operation slug : String) : String :=
  slug ++ ":" ++ operation ++ ":" ++ verifyId

def failure (error : String) (rest : List (String × Value)) : ToolReturn :=
  .returned (dict ([("ok", Value.bool false), ("error", str error)] ++ rest))

/-- Slug and verification of a call, or what it returns before the idempotency check. -/
def identify (X : XeroTool) (call : XeroCall) : Except ToolReturn (String × String) :=
  match trustedAgentSlug call with
  | none => .error .raised
  | some slug =>
    if slug = "" then
      .error (failure "agent_slug_required" [("reason", str "runtime agent slug missing")])
    else
      match slugMismatch call.agentSlug slug with
      | none => .error .raised
      | some true => .error (failure "agent_slug_mismatch"
          [("reason", str "model-supplied agent_slug does not match runtime specialist"),
           ("trusted_slug", str slug)])
      | some false =>
        match validateVerifyApiRunId X.unicode call.verifyApiRunId with
        | .error why => .error (failure "verify_api_required"
            [("reason", str ("verify_api_run_id " ++ why))])
        | .ok verifyId => .ok (slug, verifyId)

def dispatchDenies (call : XeroCall) : Bool :=
  match dispatchAllowedOperations call.kwargs with
  | none => false
  | some allowed =>
    match call.operation with
    | str name => !allowed.contains name
    | _ => true

def scopeGates (X : XeroTool) (call : XeroCall) (slug : String) : Except ToolReturn Unit :=
  if dispatchDenies call then
    .error (failure "dispatch_scope_denied"
      [("reason", str "operation not in Cato-injected allowed_xero_operations"),
       ("operation", call.operation)])
  else
    match operationAllowed X.scopeMap slug call.operation with
    | none => .error .raised
    | some (true, _) => .ok ()
    | some (false, why) => .error (failure "scope_forbidden"
        [("reason", str why), ("operation", call.operation)])

def XeroTriple.key (triple : XeroTriple) : String :=
  idempotencyKey triple.verifyId triple.operation triple.slug

def duplicateRun (call : XeroCall) : ToolReturn :=
  failure "duplicate_verify_api_run"
    [("reason", str "this verify_api_run_id already executed for this operation in this job"),
     ("operation", call.operation)]

/-- Everything before the bridge; `seen` is the idempotency check. -/
def admission (X : XeroTool) (seen : String → Option Bool) (call : XeroCall) :
    Except ToolReturn XeroTriple := do
  let (slug, verifyId) ← identify X call
  let triple : XeroTriple := ⟨slug, text X.unicode call.operation, verifyId⟩
  match seen triple.key with
  | none => throw .raised
  | some true => throw (duplicateRun call)
  | some false =>
    scopeGates X call slug
    pure triple

inductive IdempotencyFile where
  | absent
  /-- A directory of that name. -/
  | directory
  /-- A text that is no JSON. -/
  | malformed
  /-- A text on which `json.loads` raises otherwise. -/
  | unloadable
  | holds (data : Value)

def idempotencyFile : String := "xero_scoped_idempotency.json"

/-- `_check_idempotency`; `none` when it raises. -/
def checkIdempotency (X : XeroTool) (file : IdempotencyFile) (key : String) : Option Bool :=
  match X.jobDir, file with
  | some _, .holds data => some (data.isDict && (data.get? key).isSome)
  | some _, .unloadable => none
  | _, _ => some false

/-- The data of the file with the key, as it is to be written. The order of the keys is read by nobody. -/
def IdempotencyFile.withKey (file : IdempotencyFile) (key : String) : Value :=
  match file with
  | .holds data => (if data.isDict then data else dict []).insert key (Value.bool true)
  | _ => dict [(key, Value.bool true)]

/-- `_record_idempotency`, and whether it raises: it catches the error of a directory in its way and
not those of the text in the file or of `json.dumps`, which comes before the file is opened. -/
def recordIdempotency (X : XeroTool) (file : IdempotencyFile) (key : String) :
    IdempotencyFile × Bool :=
  match X.jobDir, file with
  | none, _ => (file, false)
  | some _, .directory => (file, false)
  | some _, .malformed => (file, true)
  | some _, .unloadable => (file, true)
  | some _, _ =>
    if X.encodes (file.withKey key) then (.holds (file.withKey key), false) else (file, true)

inductive BridgeReply where
  /-- The client raises before it sends. -/
  | unsent
  /-- The request is out and no status comes back. -/
  | lost
  /-- A status, and what the tool makes of the text of the answer, if it can read it. -/
  | answered (status : Nat) (data : Option Value)

/-- Only a 4xx says that the bridge has executed nothing. -/
def BridgeReply.mayHaveExecuted : BridgeReply → Bool
  | unsent => false
  | lost => true
  | answered status _ => !decide (400 ≤ status ∧ status < 500)

/-- The redirects that `aiohttp` follows. -/
inductive BridgeRedirect where
  | moved
  | found
  | seeOther
  | temporary
  | permanent

namespace BridgeRedirect

def status : BridgeRedirect → Nat
  | moved => 301
  | found => 302
  | seeOther => 303
  | temporary => 307
  | permanent => 308

/-- A POST is repeated with its body; after the other redirects a GET follows. -/
def keepsMethod (redirect : BridgeRedirect) : Bool := redirect.status = 307 || redirect.status = 308

end BridgeRedirect

/-- The answers to the POSTs of one call: the redirects on the way, and how the last request ends. -/
def postReplies : List BridgeRedirect → BridgeReply → List BridgeReply
  | [], .unsent => []
  | [], ending => [ending]
  | redirect :: rest, ending =>
    .answered redirect.status none :: if redirect.keepsMethod then postReplies rest ending else []

structure BridgeExchange where
  redirects : List BridgeRedirect
  ending : BridgeReply

namespace BridgeExchange

/-- `max_redirects`: at the tenth redirect `aiohttp` raises `TooManyRedirects`. -/
def maxRedirects : Nat := 10

def outcome (exchange : BridgeExchange) : BridgeReply :=
  if exchange.redirects.length < maxRedirects then exchange.ending else .lost

def replies (exchange : BridgeExchange) : List BridgeReply :=
  postReplies (exchange.redirects.take (maxRedirects - 1)) exchange.outcome

def executions (exchange : BridgeExchange) : Nat :=
  (exchange.replies.filter BridgeReply.mayHaveExecuted).length

end BridgeExchange

structure XeroPost where
  triple : XeroTriple
  body : Value
  /-- The header that the session was given; `aiohttp` drops it where a redirect leaves the origin. -/
  authorization : Option String
  reply : BridgeReply

structure XeroState where
  file : IdempotencyFile
  posts : List XeroPost

/-- `_allowed_bridge_url`; `none` when it raises. -/
def allowedBridgeUrl (X : XeroTool) : Option Bool :=
  if X.bridgeUrl = "" then some false
  else
    (X.urlparse X.bridgeUrl).map fun parts => ["http", "https"].contains parts.scheme &&
      parts.netloc != "" && !(isSet parts.username || isSet parts.password)

def executionRealm (call : XeroCall) : Value :=
  ((call.kwargs.get "_execution_realm").orElse (call.kwargs.get "execution_realm")).orElse
    (str "demo_mcp")

def bridgeBody (call : XeroCall) (triple : XeroTriple) : Value :=
  dict [("operation", call.operation), ("entity_key", call.entityKey),
    ("payload", call.payload.orElse (dict [])), ("agent_slug", str triple.slug),
    ("verify_api_run_id", str triple.verifyId), ("execution_realm", executionRealm call),
    ("scope_map_version", call.kwargs.get "_scope_map_version")]

def postOf (X : XeroTool) (call : XeroCall) (triple : XeroTriple) (reply : BridgeReply) : XeroPost :=
  { triple := triple, body := bridgeBody call triple
    authorization := if X.bridgeToken = "" then none else some ("Bearer " ++ X.bridgeToken)
    reply := reply }

/-- Records the call and returns the result, unless the record raises. -/
def recorded (X : XeroTool) (σ : XeroState) (triple : XeroTriple) (result : Value) :
    XeroState × ToolReturn :=
  let (file, raises) := recordIdempotency X σ.file triple.key
  ({ σ with file := file }, if raises then .raised else .returned result)

def dryRunResult (X : XeroTool) (call : XeroCall) (triple : XeroTriple) : Value :=
  dict [("ok", Value.bool true), ("dry_run", Value.bool true), ("simulated", Value.bool true),
    ("operation", call.operation), ("entity_key", call.entityKey), ("executor", str triple.slug),
    ("execution_realm", executionRealm call), ("verify_api_run_id", str triple.verifyId),
    ("receipt", dict [("xero_resource_id",
        str ("dry-run:" ++ text X.unicode call.operation ++ ":" ++ clip 8 triple.verifyId)),
      ("read_back_pending", Value.bool true), ("simulated", Value.bool true)])]

def bridgeResult (call : XeroCall) (triple : XeroTriple) (data : Value) : Value :=
  dict [("ok", Value.bool true), ("dry_run", Value.bool false), ("operation", call.operation),
    ("executor", str triple.slug), ("execution_realm", executionRealm call),
    ("verify_api_run_id", str triple.verifyId), ("bridge_response", data)]

def sendPost (X : XeroTool) (σ : XeroState) (call : XeroCall) (triple : XeroTriple)
    (exchange : BridgeExchange) : XeroState × ToolReturn :=
  let sent := { σ with posts := σ.posts ++ exchange.replies.map (postOf X call triple) }
  match exchange.outcome with
  | .unsent => (sent, .raised)
  | .lost => (sent, .raised)
  | .answered _ none => (sent, .raised)
  | .answered status (some data) =>
    if 400 ≤ status then
      (sent, failure "xero_bridge_error" [("status", Value.int status), ("body", data)])
    else recorded X sent triple (bridgeResult call triple data)

/-- `xero_scoped_invoke`, with what becomes of its POST if it comes to one. -/
def xeroScopedInvoke (X : XeroTool) (σ : XeroState) (call : XeroCall) (exchange : BridgeExchange) :
    XeroState × ToolReturn :=
  match admission X (checkIdempotency X σ.file) call with
  | .error result => (σ, result)
  | .ok triple =>
    if X.bridgeUrl = "" then recorded X σ triple (dryRunResult X call triple)
    else
      match allowedBridgeUrl X with
      | none => (σ, .raised)
      | some false => (σ, failure "xero_bridge_url_invalid"
          [("reason", str "XERO_MCP_BRIDGE_URL must be http(s) with no embedded credentials")])
      | some true => sendPost X σ call triple exchange

/-! `file_write` -/

/-- `(_job_dir / path).resolve()`, in a directory without links. -/
def resolvePath (dir : List String) (path : String) : List String :=
  (path.toList.splitOn '/').foldl
    (fun parts part =>
      if part = [] ∨ part = ['.'] then parts
      else if part = ['.', '.'] then parts.dropLast
      else parts ++ [String.ofList part])
    (if opensWith "/" path then [] else dir)

def pathText (parts : List String) : String := "/" ++ "/".intercalate parts

/-- The file with a content written to it. One with a lone surrogate, `none` here, empties the file and then
raises. -/
def IdempotencyFile.ofContent (X : XeroTool) : Option String → IdempotencyFile
  | none => .malformed
  | some content =>
    match X.loads content with
    | .value data => .holds data
    | .decodeError => .malformed
    | .otherError => .unloadable

/-- The file after a content was written to this path: the idempotency file itself, or one below a
directory of that name. -/
def writtenFile (X : XeroTool) (dir target : List String) (content : Option String)
    (file : IdempotencyFile) : IdempotencyFile :=
  if target = dir ++ [idempotencyFile] then
    match file with
    | .directory => .directory
    | _ => .ofContent X content
  else if (dir ++ [idempotencyFile]).isPrefixOf target then
    match file with
    | .absent => .directory
    | _ => file
  else file

/-- `file_write`; a path with a NUL raises, one that escapes the job directory is refused. -/
def fileWrite (X : XeroTool) (σ : XeroState) (path : String) (content : Option String) : XeroState :=
  match X.jobDir with
  | none => σ
  | some dir =>
    if path.toList.contains (Char.ofNat 0) || !opensWith (pathText dir) (pathText (resolvePath dir path)) then σ
    else { σ with file := writtenFile X dir (resolvePath dir path) content σ.file }

inductive XeroEvent where
  | invoke (call : XeroCall) (exchange : BridgeExchange)
  | fileWrite (path : String) (content : Option String)

def XeroState.start : XeroState := ⟨.absent, []⟩

def xeroStep (X : XeroTool) (σ : XeroState) : XeroEvent → XeroState
  | .invoke call exchange => (xeroScopedInvoke X σ call exchange).1
  | .fileWrite path content => fileWrite X σ path content

end GenesisAgents
