import GenesisAgents.WireValue

/-! What escapes the envelope checks: `verify_ap2_envelope` and `assert_envelope_binds` of
`runtime/request_auth.py` and `assert_envelope_binds_request` of `main.py`, on a body as it comes in. -/

namespace GenesisAgents

open Value

/-- An `AuthenticationError` with its text, which becomes a 401, or another Python error, which does not. -/
inductive EnvelopeError where
  | authentication (detail : String)
  | attributeError | typeError | overflowError | unicodeEncodeError
  deriving DecidableEq

def AuthFailure.raised : AuthFailure → EnvelopeError
  | authentication detail => .authentication detail
  | attributeError => .attributeError
  | typeError => .typeError
  | overflowError => .overflowError

/-- An authority whose registered keys are in ASCII, as base64 is. -/
structure TrustedAuthority extends Authority where
  ascii : ∀ clients, registry = some clients → ∀ client ∈ clients, isAscii client.pubkeyB64 = true

/-- `X-AP2-Version` and `X-AP2-Pubkey` -/
structure WireHeaders where
  version : Option PyStr
  pubkey : Option PyStr

/-- Nothing but an `AuthenticationError` is raised. -/
def OnlyAuthentication {α : Type} (outcome : Except EnvelopeError α) : Prop :=
  ∀ failure, outcome = .error failure → ∃ detail, failure = .authentication detail

namespace Wire

/-- `if not passed: raise AuthenticationError(detail)` -/
def require (passed : Bool) (detail : String) : Except EnvelopeError Unit :=
  if passed then .ok () else .error (.authentication detail)

/-- `body.get`, which only a dict has. -/
def readable (body : WireValue) : Except EnvelopeError Unit :=
  if body.isDict then .ok () else .error .attributeError

/-- `hmac.compare_digest` of two `str` -/
def compareDigest (left right : PyStr) : Except EnvelopeError Bool :=
  if left.ascii && right.ascii then .ok (left == right) else .error .typeError

/-- `_parse_timestamp`; a text with a surrogate is no date. -/
def parseTimestamp (A : Authority) (timestamp : PyStr) : Except EnvelopeError Int :=
  match timestamp.encode with
  | none => .error (.authentication "ap2_timestamp_invalid")
  | some text => (GenesisAgents.parseTimestamp A text).mapError AuthFailure.raised

def matchingClients (pubkeyB64 : PyStr) : List Client → Except EnvelopeError (List Client)
  | [] => .ok []
  | client :: rest =>
    if client.enabled then do
      let same ← compareDigest (PyStr.of client.pubkeyB64) pubkeyB64
      let others ← matchingClients pubkeyB64 rest
      .ok (if same then client :: others else others)
    else matchingClients pubkeyB64 rest

def trustedClient (A : Authority) (pubkeyB64 : PyStr) (requiredScope : String) : Except EnvelopeError Client :=
  match A.registry with
  | none => .error (.authentication "trusted_client_registry_invalid")
  | some clients => do
    match ← matchingClients pubkeyB64 clients with
    | [client] =>
      if !client.capabilities.contains requiredScope && !client.capabilities.contains "*" then
        .error (.authentication "ap2_scope_denied")
      else .ok client
    | _ => .error (.authentication "ap2_client_untrusted")

def signs (A : Authority) (payload nonce timestamp : WireValue) (pubkeyB64 signatureB64 : PyStr) : Bool :=
  match pubkeyB64.encode, signatureB64.encode,
      WireValue.canonicalJson (.dict [(PyStr.of "payload", payload), (PyStr.of "nonce", nonce),
        (PyStr.of "timestamp", timestamp)]) with
  | some key, some signature, some message => A.ed25519 key signature message
  | _, _, _ => false

/-- `verify_ap2_envelope` up to `_consume_nonce` -/
def checkEnvelope (A : Authority) (body : WireValue) (headers : WireHeaders) (requiredScope : String)
    (current : Int) : Except EnvelopeError Verified := do
  readable body
  require ((body.get "version").pyEq (.int ap2Version) && headers.version.getD [] == PyStr.of "1")
    "ap2_version_invalid"
  let payload := body.get "payload"
  let nonce := (body.get "nonce").textOr A.unicode
  let timestamp := (body.get "timestamp").textOr A.unicode
  let pubkeyB64 := (body.get "pubkey").textOr A.unicode
  let signatureB64 := (body.get "signature").textOr A.unicode
  require (payload.isDict && nonce.encode.any isNonce) "ap2_envelope_invalid"
  let same ← compareDigest pubkeyB64 (headers.pubkey.getD [])
  require same "ap2_pubkey_header_mismatch"
  let stamped ← parseTimestamp A timestamp
  require (decide (((current - stamped).natAbs : Int) ≤ maxClockSkewSeconds)) "ap2_envelope_expired"
  let client ← trustedClient A pubkeyB64 requiredScope
  require (signs A payload (.str nonce) (.str timestamp) pubkeyB64 signatureB64) "ap2_signature_invalid"
  .ok { nonce := nonce.encode.getD "", principal := clientPrincipal client stamped }

def verifyAp2Envelope (A : Authority) (now : Moment) (body : WireValue) (headers : WireHeaders)
    (requiredScope : String) : Except EnvelopeError Principal := do
  let verified ← checkEnvelope A body headers requiredScope now.current
  let _ ← (consumeNonce now.available now.store verified now.sweepClock).mapError AuthFailure.raised
  .ok verified.principal

/-- `_eq` -/
def eqText (U : Unicode) (left right : WireValue) : Except EnvelopeError Bool :=
  match (left.textOr U).encode, (right.textOr U).encode with
  | some left, some right => .ok (left == right)
  | _, _ => .error .unicodeEncodeError

/-- `hmac.compare_digest(_canonical_json(left), _canonical_json(right))` -/
def sameJson (left right : WireValue) : Except EnvelopeError Bool :=
  match left.canonicalJson, right.canonicalJson with
  | some left, some right => .ok (left == right)
  | _, _ => .error .unicodeEncodeError

def assertEnvelopeBinds (U : Unicode) (body : WireValue) (agent task : PyStr) (params : WireValue) :
    Except EnvelopeError Unit := do
  readable body
  let payload := body.get "payload"
  require payload.isDict "ap2_envelope_invalid"
  let sameAgent ← eqText U (payload.get "agent") (.str agent)
  require sameAgent "ap2_agent_mismatch"
  let sameTask ← eqText U (payload.get "task") (.str task)
  require sameTask "ap2_task_mismatch"
  let signedParams := payload.get "params"
  require signedParams.isDict "ap2_params_invalid"
  let sameParams ← sameJson signedParams params
  require sameParams "ap2_params_mismatch"

def assertEnvelopeBindsRequest (U : Unicode) (body : WireValue) (routeSlug : PyStr) : Except EnvelopeError Unit := do
  readable body
  let payload := (body.get "payload").orElse (.dict [])
  require payload.isDict "ap2_envelope_invalid"
  let sameAgent ← eqText U (payload.get "agent") (.str routeSlug)
  require sameAgent "ap2_agent_mismatch"
  let sameTask ← eqText U (payload.get "task") (body.get "prompt")
  require sameTask "ap2_task_mismatch"
  let runtimeTask := (body.get "task").orElse (.dict [])
  let signedParams := (payload.get "params").orElse (.dict [])
  require (runtimeTask.isDict && signedParams.isDict) "ap2_params_invalid"
  -- the description is unsigned only when the signed parameters have none
  let unsignedRuntime := if (signedParams.get? "description").isSome then runtimeTask
    else runtimeTask.erase "description"
  require (unsignedRuntime.pyEq signedParams) "ap2_params_mismatch"

/-- The envelope has the version of its header, a payload and a nonce: its keys are compared. -/
structure ComparesKeys (U : Unicode) (body : WireValue) (headers : WireHeaders) : Prop where
  version : (body.get "version").pyEq (.int ap2Version) = true
  header : headers.version.getD [] = PyStr.of "1"
  payload : (body.get "payload").isDict = true
  nonce : (((body.get "nonce").textOr U).encode.any isNonce) = true

/-- The keys are in ASCII, and if they agree the timestamp is not out of the range of `datetime` in UTC. -/
structure KeysCompare (A : Authority) (body : WireValue) (headers : WireHeaders) : Prop where
  pubkey : ((body.get "pubkey").textOr A.unicode).ascii = true
  header : (headers.pubkey.getD []).ascii = true
  inRange : (body.get "pubkey").textOr A.unicode = headers.pubkey.getD [] →
    ∀ text, (body.get "timestamp").textOr A.unicode = PyStr.of text →
      A.fromisoformat (replaceZulu text) ≠ .outOfRange

def VerifiesCleanly (A : Authority) (body : WireValue) (headers : WireHeaders) : Prop :=
  body.isDict = true ∧ (ComparesKeys A.unicode body headers → KeysCompare A body headers)

structure TextsCompare (U : Unicode) (left right : WireValue) : Prop where
  left : ((left.textOr U).encode).isSome = true
  right : ((right.textOr U).encode).isSome = true

structure PartsCompare (U : Unicode) (agent ownAgent task ownTask : WireValue) : Prop where
  agents : TextsCompare U agent ownAgent
  tasks : agent.textOr U = ownAgent.textOr U → TextsCompare U task ownTask

def BindsCleanly (U : Unicode) (body : WireValue) (agent task : PyStr) (params : WireValue) : Prop :=
  body.isDict = true ∧
    let payload := body.get "payload"
    payload.isDict = true →
      PartsCompare U (payload.get "agent") (.str agent) (payload.get "task") (.str task) ∧
      ((payload.get "agent").textOr U = WireValue.textOr U (.str agent) →
        (payload.get "task").textOr U = WireValue.textOr U (.str task) → (payload.get "params").isDict = true →
          (payload.get "params").encode.isSome = true ∧ params.encode.isSome = true)

def BindsRequestCleanly (U : Unicode) (body : WireValue) (routeSlug : PyStr) : Prop :=
  body.isDict = true ∧
    let payload := (body.get "payload").orElse (.dict [])
    payload.isDict = true →
      PartsCompare U (payload.get "agent") (.str routeSlug) (payload.get "task") (body.get "prompt")

section

variable {α β : Type}

theorem only_ok (a : α) : OnlyAuthentication (.ok a) := fun _ failed => nomatch failed

theorem only_refused (detail : String) :
    OnlyAuthentication (.error (.authentication detail) : Except EnvelopeError α) :=
  fun _ failed => ⟨detail, (Except.error.inj failed).symm⟩

theorem only_error (failure : EnvelopeError) :
    OnlyAuthentication (.error failure : Except EnvelopeError α) ↔ ∃ detail, failure = .authentication detail := by
  constructor
  · intro only
    exact only failure rfl
  · intro known other failed
    rw [← Except.error.inj failed]
    exact known

theorem only_escaped (failure : EnvelopeError) (other : ∀ detail, failure ≠ .authentication detail) :
    ¬ OnlyAuthentication (.error failure : Except EnvelopeError α) := by
  rw [only_error]
  rintro ⟨detail, same⟩
  exact other detail same

theorem only_bind (action : Except EnvelopeError α) (next : α → Except EnvelopeError β) :
    OnlyAuthentication (action >>= next) ↔
      OnlyAuthentication action ∧ ∀ a, action = .ok a → OnlyAuthentication (next a) := by
  cases action with
  | ok a =>
    constructor
    · intro only
      refine ⟨only_ok a, ?_⟩
      rintro other same
      rw [← Except.ok.inj same]
      exact only
    · intro parts
      exact parts.2 a rfl
  | error failure =>
    have failed : (.error failure >>= next : Except EnvelopeError β) = .error failure := rfl
    rw [failed, only_error, only_error]
    exact (and_iff_left fun _ same => nomatch same).symm

theorem only_require (passed : Bool) (detail : String) : OnlyAuthentication (require passed detail) := by
  rw [require]
  split
  · exact only_ok ()
  · exact only_refused detail

theorem only_require_bind (passed : Bool) (detail : String) (next : Unit → Except EnvelopeError β) :
    OnlyAuthentication (require passed detail >>= next) ↔ (passed = true → OnlyAuthentication (next ())) := by
  rw [only_bind, and_iff_right (only_require passed detail)]
  cases passed with
  | true => exact ⟨fun only _ => only () rfl, fun only _ _ => only rfl⟩
  | false => exact ⟨fun _ => nofun, fun _ _ => nofun⟩

theorem only_readable_bind (body : WireValue) (next : Unit → Except EnvelopeError β) :
    OnlyAuthentication (readable body >>= next) ↔ body.isDict = true ∧ OnlyAuthentication (next ()) := by
  cases shape : body.isDict with
  | true =>
    have read : readable body = .ok () := if_pos shape
    rw [read, only_bind]
    constructor
    · intro only
      exact ⟨rfl, only.2 () rfl⟩
    · intro only
      exact ⟨only_ok (), fun _ _ => only.2⟩
  | false =>
    have failed : readable body = .error .attributeError := if_neg (by rw [shape]; exact Bool.false_ne_true)
    rw [failed, only_bind]
    apply iff_of_false
    · exact fun only => only_escaped .attributeError (fun _ => nofun) only.1
    · exact fun only => Bool.false_ne_true only.1

def Compares (action : Except EnvelopeError Bool) (cleanly : Prop) (same : Bool) : Prop :=
  (cleanly ∧ action = .ok same) ∨
    (¬ cleanly ∧ ∃ failure, action = .error failure ∧ ∀ detail, failure ≠ .authentication detail)

theorem only_compare_bind (action : Except EnvelopeError Bool) (cleanly : Prop) (same : Bool)
    (compares : Compares action cleanly same) (detail : String) (next : Unit → Except EnvelopeError β) :
    OnlyAuthentication (action >>= fun passed => require passed detail >>= next) ↔
      cleanly ∧ (same = true → OnlyAuthentication (next ())) := by
  rw [only_bind]
  rcases compares with ⟨clean, done⟩ | ⟨unclean, failure, failed, other⟩
  · rw [done]
    constructor
    · intro parts
      exact ⟨clean, (only_require_bind same detail next).mp (parts.2 same rfl)⟩
    · intro parts
      refine ⟨only_ok same, ?_⟩
      rintro passed result
      rw [← Except.ok.inj result]
      exact (only_require_bind same detail next).mpr parts.2
  · rw [failed]
    apply iff_of_false
    · exact fun parts => only_escaped failure other parts.1
    · exact fun parts => unclean parts.1

theorem only_compare_last (action : Except EnvelopeError Bool) (cleanly : Prop) (same : Bool)
    (compares : Compares action cleanly same) (detail : String) :
    OnlyAuthentication (action >>= fun passed => require passed detail) ↔ cleanly := by
  rw [only_bind, and_iff_left fun passed _ => only_require passed detail]
  rcases compares with ⟨clean, done⟩ | ⟨unclean, failure, failed, other⟩
  · rw [done]
    exact iff_of_true (only_ok same) clean
  · rw [failed]
    exact iff_of_false (only_escaped failure other) unclean

theorem compareDigest_compares (left right : PyStr) :
    Compares (compareDigest left right) (left.ascii = true ∧ right.ascii = true) (left == right) := by
  rw [compareDigest]
  split
  · rename_i plain
    exact .inl ⟨Bool.and_eq_true_iff.mp plain, rfl⟩
  · rename_i plain
    exact .inr ⟨mt Bool.and_eq_true_iff.mpr plain, .typeError, rfl, fun _ => nofun⟩

theorem eqText_compares (U : Unicode) (left right : WireValue) :
    Compares (eqText U left right) (TextsCompare U left right) (left.textOr U == right.textOr U) := by
  rw [eqText]
  cases first : (left.textOr U).encode with
  | none =>
    refine .inr ⟨fun compare => ?_, .unicodeEncodeError, rfl, fun _ => nofun⟩
    have encoded := compare.left
    rw [first] at encoded
    cases encoded
  | some text =>
    cases second : (right.textOr U).encode with
    | none =>
      refine .inr ⟨fun compare => ?_, .unicodeEncodeError, rfl, fun _ => nofun⟩
      have encoded := compare.right
      rw [second] at encoded
      cases encoded
    | some other =>
      have same : (PyStr.of text == PyStr.of other) = (text == other) := by
        rw [Bool.eq_iff_iff, beq_iff_eq, beq_iff_eq, PyStr.of_inj]
      refine .inl ⟨⟨by rw [first]; rfl, by rw [second]; rfl⟩, ?_⟩
      rw [(PyStr.encode_eq_some _ _).mp first, (PyStr.encode_eq_some _ _).mp second, same]

theorem sameJson_compares (left right : WireValue) :
    Compares (sameJson left right) (left.encode.isSome = true ∧ right.encode.isSome = true)
      (left.canonicalJson == right.canonicalJson) := by
  rw [sameJson, ← left.canonicalJson_isSome, ← right.canonicalJson_isSome]
  cases left.canonicalJson with
  | none => exact .inr ⟨fun both => Bool.false_ne_true both.1, .unicodeEncodeError, rfl, fun _ => nofun⟩
  | some text =>
    cases right.canonicalJson with
    | none => exact .inr ⟨fun both => Bool.false_ne_true both.2, .unicodeEncodeError, rfl, fun _ => nofun⟩
    | some other => exact .inl ⟨⟨rfl, rfl⟩, by simp⟩

end

theorem assertEnvelopeBinds_iff (U : Unicode) (body : WireValue) (agent task : PyStr) (params : WireValue) :
    OnlyAuthentication (assertEnvelopeBinds U body agent task params) ↔ BindsCleanly U body agent task params := by
  rw [assertEnvelopeBinds, only_readable_bind]
  dsimp only
  rw [only_require_bind, only_compare_bind _ _ _ (eqText_compares U _ _),
    only_compare_bind _ _ _ (eqText_compares U _ _), only_require_bind,
    only_compare_last _ _ _ (sameJson_compares _ _), beq_iff_eq, beq_iff_eq, BindsCleanly]
  apply and_congr_right
  intro _
  dsimp only
  apply imp_congr_right
  intro _
  constructor
  · rintro ⟨agents, later⟩
    exact ⟨⟨agents, fun same => (later same).1⟩, fun same => (later same).2⟩
  · rintro ⟨parts, later⟩
    exact ⟨parts.agents, fun same => ⟨parts.tasks same, later same⟩⟩

theorem assertEnvelopeBindsRequest_iff (U : Unicode) (body : WireValue) (routeSlug : PyStr) :
    OnlyAuthentication (assertEnvelopeBindsRequest U body routeSlug) ↔ BindsRequestCleanly U body routeSlug := by
  rw [assertEnvelopeBindsRequest, only_readable_bind]
  dsimp only
  rw [only_require_bind, only_compare_bind _ _ _ (eqText_compares U _ _),
    only_compare_bind _ _ _ (eqText_compares U _ _), only_require_bind, beq_iff_eq, BindsRequestCleanly]
  apply and_congr_right
  intro _
  dsimp only
  apply imp_congr_right
  intro _
  constructor
  · rintro ⟨agents, later⟩
    exact ⟨agents, fun same => (later same).1⟩
  · intro parts
    exact ⟨parts.agents, fun same => ⟨parts.tasks same, fun _ _ => only_require _ _⟩⟩

theorem matchingClients_ok (pubkeyB64 : PyStr) (plain : pubkeyB64.ascii = true) (clients : List Client)
    (ascii : ∀ client ∈ clients, isAscii client.pubkeyB64 = true) :
    ∃ found, matchingClients pubkeyB64 clients = .ok found := by
  induction clients with
  | nil => exact ⟨[], rfl⟩
  | cons client rest later =>
    rcases later fun other member => ascii other (List.mem_cons_of_mem client member) with ⟨others, found⟩
    rw [matchingClients]
    split
    · have compared : compareDigest (PyStr.of client.pubkeyB64) pubkeyB64 =
          .ok (PyStr.of client.pubkeyB64 == pubkeyB64) := by
        rw [compareDigest, PyStr.ascii_of, ascii client List.mem_cons_self, plain]
        rfl
      rw [compared, found]
      exact ⟨_, rfl⟩
    · exact ⟨others, found⟩

theorem only_trustedClient (A : TrustedAuthority) (pubkeyB64 : PyStr) (plain : pubkeyB64.ascii = true)
    (requiredScope : String) : OnlyAuthentication (trustedClient A.toAuthority pubkeyB64 requiredScope) := by
  rw [trustedClient]
  cases registry : A.registry with
  | none => exact only_refused _
  | some clients =>
    rcases matchingClients_ok pubkeyB64 plain clients (A.ascii clients registry) with ⟨found, matched⟩
    dsimp only
    rw [matched, only_bind]
    refine ⟨only_ok found, ?_⟩
    intro others same
    split
    · split
      · exact only_refused _
      · exact only_ok _
    · exact only_refused _

theorem parseTimestamp_iff (A : Authority) (timestamp : PyStr) :
    OnlyAuthentication (parseTimestamp A timestamp) ↔
      ∀ text, timestamp = PyStr.of text → A.fromisoformat (replaceZulu text) ≠ .outOfRange := by
  rw [parseTimestamp]
  cases encoded : timestamp.encode with
  | none =>
    apply iff_of_true (only_refused _)
    intro text same
    rw [same, PyStr.encode_of] at encoded
    cases encoded
  | some text =>
    have only : ∀ other, timestamp = PyStr.of other ↔ text = other := by
      intro other
      rw [(PyStr.encode_eq_some _ _).mp encoded, PyStr.of_inj]
    simp only [only, forall_eq', GenesisAgents.parseTimestamp]
    cases A.fromisoformat (replaceZulu text) with
    | invalid | naive => exact iff_of_true (only_refused _) nofun
    | aware epoch => exact iff_of_true (only_ok epoch) nofun
    | outOfRange => exact iff_of_false (only_escaped .overflowError fun _ => nofun) (fun inRange => inRange rfl)

theorem only_consumeNonce (available : Bool) (store : NonceStore) (verified : Verified) (clock : Int) :
    OnlyAuthentication ((consumeNonce available store verified clock).mapError AuthFailure.raised) := by
  rw [consumeNonce]
  split
  · split
    · exact only_refused _
    · exact only_ok _
  · exact only_refused _

/-- After its comparison of the keys `verify_ap2_envelope` raises nothing else. -/
theorem checkEnvelope_iff (A : TrustedAuthority) (body : WireValue) (headers : WireHeaders) (requiredScope : String)
    (current : Int) :
    OnlyAuthentication (checkEnvelope A.toAuthority body headers requiredScope current) ↔
      VerifiesCleanly A.toAuthority body headers := by
  rw [checkEnvelope, only_readable_bind]
  dsimp only
  rw [only_require_bind, only_require_bind, only_compare_bind _ _ _ (compareDigest_compares _ _), VerifiesCleanly]
  apply and_congr_right
  intro _
  have keys : ComparesKeys A.unicode body headers ↔
      ((body.get "version").pyEq (.int ap2Version) && headers.version.getD [] == PyStr.of "1") = true ∧
        ((body.get "payload").isDict && ((body.get "nonce").textOr A.unicode).encode.any isNonce) = true := by
    rw [Bool.and_eq_true, Bool.and_eq_true, beq_iff_eq]
    constructor
    · intro compares
      exact ⟨⟨compares.version, compares.header⟩, compares.payload, compares.nonce⟩
    · rintro ⟨⟨version, header⟩, payload, nonce⟩
      exact ⟨version, header, payload, nonce⟩
  rw [keys, and_imp]
  apply imp_congr_right
  intro _
  apply imp_congr_right
  intro _
  have later : ∀ plain : ((body.get "pubkey").textOr A.unicode).ascii = true,
      OnlyAuthentication (do
        let stamped ← parseTimestamp A.toAuthority ((body.get "timestamp").textOr A.unicode)
        require (decide (((current - stamped).natAbs : Int) ≤ maxClockSkewSeconds)) "ap2_envelope_expired"
        let client ← trustedClient A.toAuthority ((body.get "pubkey").textOr A.unicode) requiredScope
        require (signs A.toAuthority (body.get "payload") (.str ((body.get "nonce").textOr A.unicode))
          (.str ((body.get "timestamp").textOr A.unicode)) ((body.get "pubkey").textOr A.unicode)
          ((body.get "signature").textOr A.unicode)) "ap2_signature_invalid"
        .ok (Verified.mk (((body.get "nonce").textOr A.unicode).encode.getD "") (clientPrincipal client stamped))) ↔
      ∀ text, (body.get "timestamp").textOr A.unicode = PyStr.of text →
        A.fromisoformat (replaceZulu text) ≠ .outOfRange := by
    intro plain
    rw [only_bind, parseTimestamp_iff]
    apply and_iff_left
    intro stamped _
    rw [only_require_bind]
    intro _
    rw [only_bind]
    refine ⟨only_trustedClient A _ plain requiredScope, ?_⟩
    intro client _
    rw [only_require_bind]
    exact fun _ => only_ok _
  constructor
  · rintro ⟨⟨pubkey, header⟩, rest⟩
    exact ⟨pubkey, header, fun same => (later pubkey).mp (rest (beq_iff_eq.mpr same))⟩
  · intro compare
    exact ⟨⟨compare.pubkey, compare.header⟩, fun same =>
      (later compare.pubkey).mpr (compare.inRange (beq_iff_eq.mp same))⟩

theorem verifyAp2Envelope_iff (A : TrustedAuthority) (now : Moment) (body : WireValue) (headers : WireHeaders)
    (requiredScope : String) :
    OnlyAuthentication (verifyAp2Envelope A.toAuthority now body headers requiredScope) ↔
      VerifiesCleanly A.toAuthority body headers := by
  rw [verifyAp2Envelope, only_bind, checkEnvelope_iff]
  apply and_iff_left
  intro verified _
  rw [only_bind]
  exact ⟨only_consumeNonce now.available now.store verified now.sweepClock, fun _ _ => only_ok _⟩

def wireAuthority : TrustedAuthority where
  unicode := { lower := id, printable := fun _ => true }
  fromisoformat text :=
    if text = "0001-01-01T00:00:00+23:59" then .outOfRange
    else if text = "2026-01-01T00:00:00+00:00" then .aware 1767225600 else .invalid
  ed25519 pubkeyB64 signatureB64 _ := pubkeyB64 == "Y2F0by1rZXk=" && signatureB64 == "Y2F0by1zaWduYXR1cmU="
  registry := some [
    { enabled := true, pubkeyB64 := "Y2F0by1rZXk=", clientId := "cato", principalId := "user:1"
      tenantId := "tenant-1", capabilities := ["agent.invoke"] }]
  ascii := by
    intro clients registered client member
    rw [← Option.some.inj registered, List.mem_singleton] at member
    rw [member]
    decide

def textOf (s : String) : WireValue := .str (PyStr.of s)

def field (key : String) (v : WireValue) : PyStr × WireValue := (PyStr.of key, v)

def runBody (timestamp pubkeyB64 : String) (prompt : WireValue) : WireValue :=
  .dict [field "version" (.int 1),
    field "payload" (.dict [field "agent" (textOf "genesis-research"), field "task" (textOf "list the invoices"),
      field "params" (.dict [])]),
    field "nonce" (textOf "nonce-0123456789"), field "timestamp" (textOf timestamp),
    field "pubkey" (textOf pubkeyB64), field "signature" (textOf "Y2F0by1zaWduYXR1cmU="), field "prompt" prompt]

def runHeaders (pubkeyB64 : String) : WireHeaders := ⟨some (PyStr.of "1"), some (PyStr.of pubkeyB64)⟩

def runMoment : Moment := { current := 1767225600, sweepClock := 1767225600, available := true, store := [] }

/-- `"\ud83d"` -/
def halfEmoji : WireValue := .str [.surrogate ⟨61, by decide⟩]

end Wire

end GenesisAgents
