import GenesisAgents.EnvelopeBinding
import GenesisAgents.JsonValue
import Std.Data.String.ToInt

/-! `POST /retrieval/query`: what the route reads from a body, and what the AP2 branch of
`_retrieval_principal` requires the envelope to have signed. -/

namespace GenesisAgents

open Value JsonText

def retrievalScope : String := "retrieval.query"
def retrievalEnvelopeAgent : String := "retrieval.query"

inductive DomainHint where
  | vault | drive | any
  deriving DecidableEq, Repr

def DomainHint.text : DomainHint → String
  | .vault => "vault"
  | .drive => "drive"
  | .any => "any"

/-- `RetrievalQueryRequest` -/
structure RetrievalQuery where
  query : String
  topK : Int
  entityFilter : Option String
  includeSuperseded : Bool
  domainHint : DomainHint
  requestingPrincipal : Option String
  deriving DecidableEq

def requiredText : Value → Option String
  | str s => some s
  | _ => none

/-- `int` in the lax mode; what is no `int` is read by `laxInt`. -/
def intField (laxInt : Value → Option Int) : Value → Option Int
  | int n => some n
  | v => laxInt v

def boolField : Value → Option Bool
  | null => none
  | v => optionalFlag v

def domainField : Value → Option DomainHint
  | str s =>
    if s = "vault" then some .vault else if s = "drive" then some .drive
    else if s = "any" then some .any else none
  | _ => none

def fieldOr {α : Type} (body : Value) (key : String) (default : α) (read : Value → Option α) :
    Option α :=
  match body.get? key with
  | none => some default
  | some v => read v

/-- `RetrievalQueryRequest.model_validate`; other keys are ignored. -/
def parseRetrievalQuery (laxInt : Value → Option Int) (body : Value) : Option RetrievalQuery :=
  if body.isDict then do
    let query ← (body.get? "query").bind requiredText
    let topK ← fieldOr body "top_k" 8 (intField laxInt)
    let entityFilter ← fieldOr body "entity_filter" none optionalText
    let includeSuperseded ← fieldOr body "include_superseded" false boolField
    let domainHint ← fieldOr body "domain_hint" .any domainField
    let requestingPrincipal ← fieldOr body "requesting_principal" none optionalText
    some
      { query := query, topK := topK, entityFilter := entityFilter
        includeSuperseded := includeSuperseded, domainHint := domainHint
        requestingPrincipal := requestingPrincipal }
  else none

/-- The fields of `_SIGNED_SCOPE_FIELDS`. -/
def RetrievalQuery.scope (request : RetrievalQuery) : Value :=
  dict [("top_k", int request.topK), ("entity_filter", optionValue request.entityFilter),
    ("include_superseded", .bool request.includeSuperseded),
    ("domain_hint", str request.domainHint.text),
    ("requesting_principal", optionValue request.requestingPrincipal)]

/-- `_signed_retrieval_binding` -/
def signedRetrievalBinding (laxInt : Value → Option Int) (body : Value) :
    Except AuthFailure (String × Value) :=
  if !body.isDict then .error (.authentication "ap2_envelope_invalid")
  else match parseRetrievalQuery laxInt body with
    | none => .error (.authentication "ap2_params_invalid")
    | some parsed => .ok (parsed.query, parsed.scope)

/-- `assert_envelope_binds` -/
def assertEnvelopeBinds (U : Unicode) (body : Value) (agent task : String) (params : Value) :
    Except AuthFailure Unit :=
  let payload := body.get "payload"
  let signedParams := payload.get "params"
  if !payload.isDict then .error (.authentication "ap2_envelope_invalid")
  else if !eqText U (payload.get "agent") (str agent) then
    .error (.authentication "ap2_agent_mismatch")
  else if !eqText U (payload.get "task") (str task) then
    .error (.authentication "ap2_task_mismatch")
  else if !signedParams.isDict then .error (.authentication "ap2_params_invalid")
  else match canonicalJson signedParams, canonicalJson params with
    | some signed, some own =>
      if signed = own then .ok () else .error (.authentication "ap2_params_mismatch")
    | _, _ => .error .typeError

/-- The AP2 branch of `_retrieval_principal`; an authentication error becomes a 401. -/
def retrievalPrincipal (A : Authority) (laxInt : Value → Option Int) (now : Moment) (body : Value)
    (headers : Headers) : Except AuthFailure Principal :=
  match verifyAp2Envelope A now body headers retrievalScope with
  | .error failure => .error failure
  | .ok principal =>
    match signedRetrievalBinding laxInt body with
    | .error failure => .error failure
    | .ok (task, params) =>
      match assertEnvelopeBinds A.unicode body retrievalEnvelopeAgent task params with
      | .error failure => .error failure
      | .ok _ => .ok principal

/-! The canonical text of the scope gives every field of it back. -/

theorem canonicalJson_inj (v w : Value) (text : String) (left : canonicalJson v = some text)
    (right : canonicalJson w = some text) : jsonValue v = jsonValue w := by
  have first := dumps_eq_print _ _ compact_prints _ text left
  have second := dumps_eq_print _ _ compact_prints _ text right
  exact print_inj _ _ _ (toJson_plain _) (toJson_plain _) (first.symm.trans second)

theorem jsonValue_scope (request : RetrievalQuery) :
    jsonValue request.scope = toJson (dict [("domain_hint", str request.domainHint.text),
      ("entity_filter", optionValue request.entityFilter),
      ("include_superseded", .bool request.includeSuperseded),
      ("requesting_principal", optionValue request.requestingPrincipal),
      ("top_k", int request.topK)]) := by
  rw [jsonValue, RetrievalQuery.scope, sortKeys]
  simp only [sortKeysItems, sortKeys_optionValue, sortKeys]
  simp [List.insertionSort, List.orderedInsert]

theorem toJson_bool_inj (b b' : Bool) (same : toJson (.bool b) = toJson (.bool b')) : b = b' := by
  cases b <;> cases b' <;> simp_all [toJson]

theorem toJson_int_inj (n m : Int) (same : toJson (int n) = toJson (int m)) : n = m :=
  Int.repr_injective (String.toList_inj.mp (Json.word.inj same))

theorem domainText_inj (hint other : DomainHint) (same : hint.text = other.text) : hint = other := by
  cases hint <;> cases other <;> first | rfl | exact absurd same (by decide)

/-- Two queries with one scope text differ in the query text at most. -/
theorem scope_inj (first second : RetrievalQuery)
    (same : jsonValue first.scope = jsonValue second.scope) :
    { first with query := second.query } = second := by
  rw [jsonValue_scope, jsonValue_scope] at same
  simp only [toJson, toJsonItems, Json.object.injEq, List.cons.injEq, Prod.mk.injEq, true_and,
    and_true] at same
  obtain ⟨hint, filter, superseded, principal, topK⟩ := same
  have hints := domainText_inj _ _ (String.toList_inj.mp (Json.string.inj hint))
  have filters := toJson_optionValue_inj _ _ filter
  have principals := toJson_optionValue_inj _ _ principal
  have flags : first.includeSuperseded = second.includeSuperseded :=
    toJson_bool_inj _ _ (by rw [toJson, toJson, superseded])
  have counts : first.topK = second.topK := toJson_int_inj _ _ (by rw [toJson, toJson, topK])
  obtain ⟨query, _, _, _, _, _⟩ := first
  obtain rfl := hints
  obtain rfl := filters
  obtain rfl := principals
  obtain rfl := flags
  obtain rfl := counts
  rfl

/-! What an accepted envelope has signed. -/

/-- The payload signs the request: its task is the query, its parameters are the other fields. -/
structure Signs (U : Unicode) (payload : Value) (request : RetrievalQuery) : Prop where
  query : request.query = textOr U (payload.get "task")
  scope : ∃ text, canonicalJson (payload.get "params") = some text ∧
    canonicalJson request.scope = some text

theorem signs_of_bound (U : Unicode) (body : Value) (request : RetrievalQuery) (agent : String)
    (bound : assertEnvelopeBinds U body agent request.query request.scope = .ok ()) :
    Signs U (body.get "payload") request := by
  rw [assertEnvelopeBinds] at bound
  split at bound
  · contradiction
  split at bound
  · contradiction
  split at bound
  · contradiction
  rename_i tasks
  split at bound
  · contradiction
  split at bound
  · rename_i signed own left right
    split at bound
    · rename_i same
      refine ⟨?_, signed, left, same ▸ right⟩
      rw [eqText, textOr_str, Bool.not_eq_true', Bool.not_eq_false, beq_iff_eq] at tasks
      exact tasks.symm
    · contradiction
  · contradiction

theorem retrieval_accepted (A : Authority) (laxInt : Value → Option Int) (now : Moment) (body : Value)
    (headers : Headers) (principal : Principal)
    (accepted : retrievalPrincipal A laxInt now body headers = .ok principal) :
    ∃ request, parseRetrievalQuery laxInt body = some request ∧
      Signs A.unicode (body.get "payload") request := by
  rw [retrievalPrincipal] at accepted
  split at accepted
  · contradiction
  split at accepted
  · contradiction
  rename_i task params projected
  split at accepted
  · contradiction
  rename_i bound
  rw [signedRetrievalBinding] at projected
  split at projected
  · contradiction
  split at projected
  · contradiction
  rename_i request parsed
  obtain ⟨rfl, rfl⟩ := Prod.mk.inj (Except.ok.inj projected)
  exact ⟨request, parsed, signs_of_bound A.unicode body request _ bound⟩

theorem signs_unique (U : Unicode) (payload : Value) (first second : RetrievalQuery)
    (signs : Signs U payload first) (signs' : Signs U payload second) : first = second := by
  obtain ⟨text, signed, own⟩ := signs.scope
  obtain ⟨text', signed', own'⟩ := signs'.scope
  obtain rfl := Option.some.inj (signed.symm.trans signed')
  have scopes := scope_inj first second (canonicalJson_inj _ _ text own own')
  calc first = { first with query := second.query } := by rw [signs'.query, ← signs.query]
    _ = second := scopes

/-- Whatever else two accepted bodies carry, with one signed part they are one request. -/
theorem signed_retrieval_determined (A : Authority) (laxInt : Value → Option Int)
    (first second : AgentRequest) (principal principal' : Principal)
    (same : first.signedPart A = second.signedPart A)
    (accepted : retrievalPrincipal A laxInt first.now first.body first.headers = .ok principal)
    (accepted' : retrievalPrincipal A laxInt second.now second.body second.headers = .ok principal') :
    ∃ request, parseRetrievalQuery laxInt first.body = some request ∧
      parseRetrievalQuery laxInt second.body = some request := by
  obtain ⟨request, parsed, signs⟩ := retrieval_accepted A laxInt _ _ _ _ accepted
  obtain ⟨request', parsed', signs'⟩ := retrieval_accepted A laxInt _ _ _ _ accepted'
  have payloads : first.body.get "payload" = second.body.get "payload" :=
    congrArg SignedPart.payload same
  rw [payloads] at signs
  exact ⟨request, parsed, signs_unique _ _ request request' signs signs' ▸ parsed'⟩

/-! The defaults left out, and the same fields spelled out beside another one. -/

def retrievalAuthority : Authority :=
  { signingAuthority with
    registry := some [
      { enabled := true, pubkeyB64 := "cato-key", clientId := "cato", principalId := "user:1"
        tenantId := "tenant-1", capabilities := ["retrieval.query"] }] }

def retrievalEnvelope : List (String × Value) :=
  [("version", int 1),
    ("payload", dict [("agent", str "retrieval.query"), ("task", str "open invoices"),
      ("params", dict [("top_k", int 8), ("entity_filter", null), ("include_superseded", .bool false),
        ("domain_hint", str "any"), ("requesting_principal", null)])]),
    ("nonce", str "nonce-0123456789"), ("timestamp", str "2026-01-01T00:00:00Z"),
    ("pubkey", str "cato-key"), ("signature", str "cato-signature"), ("query", str "open invoices")]

def retrievalCall (fields : List (String × Value)) : AgentRequest :=
  { signedRequest with body := dict (retrievalEnvelope ++ fields) }

theorem defaults_determined : ∃ request,
    parseRetrievalQuery (fun _ => none) (retrievalCall []).body = some request ∧
      parseRetrievalQuery (fun _ => none)
        (retrievalCall [("top_k", int 8), ("domain_hint", str "any"), ("limit", int 50)]).body =
          some request := by
  refine signed_retrieval_determined retrievalAuthority (fun _ => none) _ _
    { principalId := "user:1", tenantId := "tenant-1", clientId := "cato"
      scopes := ["retrieval.query"], authMethod := "ap2", expiresAt := 1767225900 }
    { principalId := "user:1", tenantId := "tenant-1", clientId := "cato"
      scopes := ["retrieval.query"], authMethod := "ap2", expiresAt := 1767225900 } rfl ?_ ?_
  · rfl
  · rfl

end GenesisAgents
