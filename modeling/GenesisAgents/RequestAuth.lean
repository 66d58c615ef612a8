import GenesisAgents.Value
import GenesisAgents.Library.ExpiringKeys

/-! AP2 envelopes: `runtime/request_auth.py` and `assert_envelope_binds_request` of `main.py`. -/

namespace GenesisAgents

open Value

def ap2Version : Int := 1
def maxClockSkewSeconds : Int := 300

/-- What escapes the checks: an `AuthenticationError` with its text, or another Python error. -/
inductive AuthFailure where
  | authentication (detail : String)
  | attributeError | typeError | overflowError
  deriving DecidableEq, Repr

structure Principal where
  principalId : String
  tenantId : String
  clientId : String
  scopes : List String
  authMethod : String
  expiresAt : Int
  deriving DecidableEq, Repr

/-- An entry of `trusted_ap2_clients.json`; an absent string reads as empty. -/
structure Client where
  enabled : Bool
  pubkeyB64 : String
  clientId : String
  principalId : String
  tenantId : String
  capabilities : List String

/-- What `datetime.fromisoformat` makes of a text. -/
inductive Instant where
  | invalid
  | naive
  /-- `int(parsed.astimezone(timezone.utc).timestamp())` -/
  | aware (epoch : Int)
  /-- `astimezone` leaves the years of `datetime`. -/
  | outOfRange

/-- What the gateway trusts and what it takes from outside the repository. -/
structure Authority where
  unicode : Unicode
  fromisoformat : String → Instant
  /-- Ed25519 over the decoded key and signature; an undecodable one verifies nothing. -/
  ed25519 : (pubkeyB64 signatureB64 message : String) → Bool
  /-- `none` when the registry file is not version 1 or has no list of clients. -/
  registry : Option (List Client)

structure Headers where
  version : Option String
  pubkey : Option String

/-- `_canonical_json` -/
def canonicalJson (v : Value) : Option String := dumpsWith .compact (sortKeys v)

def isAscii (s : String) : Bool := s.toList.all fun c => c.toNat < 128

/-- `hmac.compare_digest` of two `str`: a `TypeError` outside ASCII. -/
def compareDigest (left right : String) : Except AuthFailure Bool :=
  if isAscii left && isAscii right then .ok (left == right) else .error .typeError

def isNonceChar (c : Char) : Bool := c.isAlphanum || c == '_' || c == '-'

/-- `_NONCE_RE.fullmatch` -/
def isNonce (nonce : String) : Bool :=
  decide (16 ≤ nonce.toList.length) && decide (nonce.toList.length ≤ 128) &&
    nonce.toList.all isNonceChar

/-- `value.replace("Z", "+00:00")` -/
def replaceZulu (timestamp : String) : String :=
  String.ofList (timestamp.toList.flatMap fun c => if c = 'Z' then "+00:00".toList else [c])

def parseTimestamp (A : Authority) (timestamp : String) : Except AuthFailure Int :=
  match A.fromisoformat (replaceZulu timestamp) with
  | .invalid | .naive => .error (.authentication "ap2_timestamp_invalid")
  | .aware epoch => .ok epoch
  | .outOfRange => .error .overflowError

def matchingClients (pubkeyB64 : String) : List Client → Except AuthFailure (List Client)
  | [] => .ok []
  | client :: rest =>
    if client.enabled then
      match compareDigest client.pubkeyB64 pubkeyB64 with
      | .error failure => .error failure
      | .ok same => (matchingClients pubkeyB64 rest).map fun others =>
          if same then client :: others else others
    else matchingClients pubkeyB64 rest

/-- An envelope that passed every check before its nonce is spent. -/
structure Verified where
  nonce : String
  principal : Principal
  deriving DecidableEq

namespace Verified

def key (v : Verified) : String × String := (v.principal.clientId, v.nonce)

end Verified

def clientPrincipal (client : Client) (stamped : Int) : Principal :=
  { principalId := if client.principalId = "" then "client:" ++ client.clientId
      else client.principalId
    tenantId := client.tenantId
    clientId := client.clientId
    scopes := client.capabilities
    authMethod := "ap2"
    expiresAt := stamped + maxClockSkewSeconds }

def checkClient (A : Authority) (payload : Value) (nonce timestamp pubkeyB64 signatureB64 : String)
    (requiredScope : String) (stamped : Int) : Except AuthFailure Verified :=
  match A.registry with
  | none => .error (.authentication "trusted_client_registry_invalid")
  | some clients =>
    match matchingClients pubkeyB64 clients with
    | .error failure => .error failure
    | .ok [client] =>
      if !client.capabilities.contains requiredScope && !client.capabilities.contains "*" then
        .error (.authentication "ap2_scope_denied")
      else
        let signed := dict [("payload", payload), ("nonce", str nonce), ("timestamp", str timestamp)]
        if (canonicalJson signed).elim false (A.ed25519 pubkeyB64 signatureB64) then
          .ok { nonce := nonce, principal := clientPrincipal client stamped }
        else .error (.authentication "ap2_signature_invalid")
    | .ok _ => .error (.authentication "ap2_client_untrusted")

/-- `verify_ap2_envelope` up to `_consume_nonce`, with the first reading of the clock. -/
def checkEnvelope (A : Authority) (body : Value) (headers : Headers) (requiredScope : String)
    (current : Int) : Except AuthFailure Verified :=
  if !body.isDict then .error .attributeError
  else if !pyEq (body.get "version") (int ap2Version) || headers.version.getD "" != "1" then
    .error (.authentication "ap2_version_invalid")
  else
    let payload := body.get "payload"
    let nonce := textOr A.unicode (body.get "nonce")
    let timestamp := textOr A.unicode (body.get "timestamp")
    let pubkeyB64 := textOr A.unicode (body.get "pubkey")
    let signatureB64 := textOr A.unicode (body.get "signature")
    if !payload.isDict || !isNonce nonce then .error (.authentication "ap2_envelope_invalid")
    else match compareDigest pubkeyB64 (headers.pubkey.getD "") with
      | .error failure => .error failure
      | .ok false => .error (.authentication "ap2_pubkey_header_mismatch")
      | .ok true =>
        match parseTimestamp A timestamp with
        | .error failure => .error failure
        | .ok stamped =>
          if maxClockSkewSeconds < (current - stamped).natAbs then
            .error (.authentication "ap2_envelope_expired")
          else checkClient A payload nonce timestamp pubkeyB64 signatureB64 requiredScope stamped

/-- The rows of `ap2_nonces`: client and nonce, with `expires_at`. -/
abbrev NonceStore := ExpiringKeys.Store (String × String) Int

def spending (v : Verified) (clock : Int) : ExpiringKeys.Consume (String × String) Int :=
  { key := v.key, expires := v.principal.expiresAt, sweep := clock }

/-- `_consume_nonce`, on either store: the sweep and the insert are one transaction, and a unique
violation rolls both back. `available` is false when the store cannot be reached. -/
def consumeNonce (available : Bool) (store : NonceStore) (v : Verified) (clock : Int) :
    Except AuthFailure NonceStore :=
  if available then
    match ExpiringKeys.consume store (spending v clock) with
    | none => .error (.authentication "ap2_replay_detected")
    | some store' => .ok store'
  else .error (.authentication "ap2_nonce_store_unavailable")

/-- The two clock readings of one call and the state of the store behind it. -/
structure Moment where
  current : Int
  sweepClock : Int
  available : Bool
  store : NonceStore

def verifyAp2Envelope (A : Authority) (now : Moment) (body : Value) (headers : Headers)
    (requiredScope : String) : Except AuthFailure Principal :=
  match checkEnvelope A body headers requiredScope now.current with
  | .error failure => .error failure
  | .ok verified =>
    match consumeNonce now.available now.store verified now.sweepClock with
    | .error failure => .error failure
    | .ok _ => .ok verified.principal

/-- `_eq`: both sides as UTF-8 text. -/
def eqText (U : Unicode) (left right : Value) : Bool := textOr U left == textOr U right

/-- `assert_envelope_binds_request` -/
def assertEnvelopeBindsRequest (U : Unicode) (body : Value) (routeSlug : String) :
    Except AuthFailure Unit :=
  let payload := (body.get "payload").orElse (dict [])
  let runtimeTask := (body.get "task").orElse (dict [])
  let signedParams := (payload.get "params").orElse (dict [])
  if !body.isDict then .error .attributeError
  else if !payload.isDict then .error (.authentication "ap2_envelope_invalid")
  else if !eqText U (payload.get "agent") (str routeSlug) then
    .error (.authentication "ap2_agent_mismatch")
  else if !eqText U (payload.get "task") (body.get "prompt") then
    .error (.authentication "ap2_task_mismatch")
  else if !runtimeTask.isDict || !signedParams.isDict then
    .error (.authentication "ap2_params_invalid")
  else
    -- the description is unsigned only when the signed parameters have none
    let unsignedRuntime := if (signedParams.get? "description").isSome then runtimeTask
      else runtimeTask.erase "description"
    if !pyEq unsignedRuntime signedParams then .error (.authentication "ap2_params_mismatch")
    else .ok ()

/-- The AP2 branch of `verify_agent_principal`; any authentication error becomes a 401. -/
def verifyAgentPrincipal (A : Authority) (now : Moment) (body : Value) (headers : Headers)
    (routeSlug : String) : Except AuthFailure Principal :=
  match verifyAp2Envelope A now body headers "agent.invoke" with
  | .error failure => .error failure
  | .ok principal =>
    match assertEnvelopeBindsRequest A.unicode body routeSlug with
    | .error failure => .error failure
    | .ok _ => .ok principal

def envelopeKeys : List String :=
  ["version", "payload", "nonce", "timestamp", "pubkey", "signature"]

def bindingKeys : List String := ["payload", "prompt", "task"]

theorem checkEnvelope_congr (A : Authority) (first second : Value) (headers : Headers)
    (requiredScope : String) (current : Int) (shape : first.isDict = second.isDict)
    (same : ∀ key ∈ envelopeKeys, first.get key = second.get key) :
    checkEnvelope A first headers requiredScope current =
      checkEnvelope A second headers requiredScope current := by
  simp only [envelopeKeys, List.forall_mem_cons, List.not_mem_nil, false_imp_iff, implies_true,
    and_true] at same
  obtain ⟨version, payload, nonce, timestamp, pubkey, signature⟩ := same
  unfold checkEnvelope
  rw [shape, version, payload, nonce, timestamp, pubkey, signature]

theorem assertEnvelopeBindsRequest_congr (U : Unicode) (first second : Value) (routeSlug : String)
    (shape : first.isDict = second.isDict)
    (same : ∀ key ∈ bindingKeys, first.get key = second.get key) :
    assertEnvelopeBindsRequest U first routeSlug = assertEnvelopeBindsRequest U second routeSlug := by
  simp only [bindingKeys, List.forall_mem_cons, List.not_mem_nil, false_imp_iff, implies_true,
    and_true] at same
  obtain ⟨payload, prompt, task⟩ := same
  unfold assertEnvelopeBindsRequest
  rw [shape, payload, prompt, task]

/-- A request is accepted or refused by these fields alone. -/
theorem verifyAgentPrincipal_congr (A : Authority) (now : Moment) (first second : Value)
    (headers : Headers) (routeSlug : String) (shape : first.isDict = second.isDict)
    (same : ∀ key ∈ envelopeKeys ++ bindingKeys, first.get key = second.get key) :
    verifyAgentPrincipal A now first headers routeSlug =
      verifyAgentPrincipal A now second headers routeSlug := by
  unfold verifyAgentPrincipal verifyAp2Envelope
  rw [checkEnvelope_congr A first second headers "agent.invoke" now.current shape
      fun key member => same key (List.mem_append_left _ member),
    assertEnvelopeBindsRequest_congr A.unicode first second routeSlug shape
      fun key member => same key (List.mem_append_right _ member)]

end GenesisAgents
