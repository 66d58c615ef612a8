import GenesisAgents.EnvelopeFailures
import GenesisAgents.Retrieval

/-! On a body without surrogates the checks of `EnvelopeFailures` are those of `RequestAuth` and
`Retrieval`. -/

namespace GenesisAgents

open Value

namespace Wire

def headersOf (headers : Headers) : WireHeaders := ⟨headers.version.map PyStr.of, headers.pubkey.map PyStr.of⟩

section

variable {α : Type}

theorem require_bind (passed : Bool) (detail : String) (next : Unit → Except EnvelopeError α) :
    (require passed detail >>= next) = if passed then next () else .error (.authentication detail) := by
  cases passed <;> rfl

theorem require_unless (passed : Bool) (detail : String) (next : Unit → Except EnvelopeError α)
    (later : Except AuthFailure α) (same : next () = later.mapError AuthFailure.raised) :
    (require passed detail >>= next) =
      (if !passed then .error (.authentication detail) else later).mapError AuthFailure.raised := by
  rw [require_bind, same]
  cases passed <;> rfl

theorem require_last (passed : Bool) (detail : String) :
    require passed detail =
      (if !passed then Except.error (AuthFailure.authentication detail) else .ok ()).mapError AuthFailure.raised := by
  cases passed <;> rfl

theorem compare_unless (action : Except EnvelopeError Bool) (passed : Bool) (done : action = .ok passed)
    (detail : String) (next : Unit → Except EnvelopeError α) (later : Except AuthFailure α)
    (same : next () = later.mapError AuthFailure.raised) :
    (action >>= fun passed => require passed detail >>= next) =
      (if !passed then .error (.authentication detail) else later).mapError AuthFailure.raised := by
  rw [done]
  exact require_unless passed detail next later same

theorem header_of (header : Option String) : (header.map PyStr.of).getD [] = PyStr.of (header.getD "") := by
  cases header <;> rfl

theorem compareDigest_of (left right : String) :
    compareDigest (PyStr.of left) (PyStr.of right) =
      (GenesisAgents.compareDigest left right).mapError AuthFailure.raised := by
  rw [compareDigest, GenesisAgents.compareDigest, PyStr.ascii_of, PyStr.ascii_of, WireValue.str_beq]
  split <;> rfl

theorem parseTimestamp_of (A : Authority) (timestamp : String) :
    parseTimestamp A (PyStr.of timestamp) =
      (GenesisAgents.parseTimestamp A timestamp).mapError AuthFailure.raised := by
  rw [parseTimestamp, PyStr.encode_of]

theorem matchingClients_of (pubkeyB64 : String) (clients : List Client) :
    matchingClients (PyStr.of pubkeyB64) clients =
      (GenesisAgents.matchingClients pubkeyB64 clients).mapError AuthFailure.raised := by
  induction clients with
  | nil => rfl
  | cons client rest later =>
    rw [matchingClients, GenesisAgents.matchingClients]
    split
    · rw [compareDigest_of, later]
      cases GenesisAgents.compareDigest client.pubkeyB64 pubkeyB64 with
      | error failure => rfl
      | ok same =>
        cases GenesisAgents.matchingClients pubkeyB64 rest with
        | error failure => rfl
        | ok others => rfl
    · exact later

theorem signs_of (A : Authority) (w : WireValue) (payload : Value) (encoded : w.encode = some payload)
    (nonce timestamp pubkeyB64 signatureB64 : String) :
    signs A w (.str (PyStr.of nonce)) (.str (PyStr.of timestamp)) (PyStr.of pubkeyB64) (PyStr.of signatureB64) =
      (canonicalJson (dict [("payload", payload), ("nonce", str nonce), ("timestamp", str timestamp)])).elim false
        (A.ed25519 pubkeyB64 signatureB64) := by
  have signed : (WireValue.dict [(PyStr.of "payload", w), (PyStr.of "nonce", .str (PyStr.of nonce)),
      (PyStr.of "timestamp", .str (PyStr.of timestamp))]).encode =
        some (dict [("payload", payload), ("nonce", str nonce), ("timestamp", str timestamp)]) := by
    simp only [WireValue.encode, WireValue.encodeItems, PyStr.encode_of, encoded, Option.map_some]
  rw [signs, PyStr.encode_of, PyStr.encode_of, WireValue.canonicalJson, signed, Option.bind_some]
  cases canonicalJson (dict [("payload", payload), ("nonce", str nonce), ("timestamp", str timestamp)]) <;> rfl

theorem checkClient_of (A : Authority) (w : WireValue) (payload : Value) (encoded : w.encode = some payload)
    (nonce timestamp pubkeyB64 signatureB64 requiredScope : String) (stamped : Int) :
    (do
      let client ← trustedClient A (PyStr.of pubkeyB64) requiredScope
      require (signs A w (.str (PyStr.of nonce)) (.str (PyStr.of timestamp)) (PyStr.of pubkeyB64)
        (PyStr.of signatureB64)) "ap2_signature_invalid"
      .ok (Verified.mk nonce (clientPrincipal client stamped))) =
    (checkClient A payload nonce timestamp pubkeyB64 signatureB64 requiredScope stamped).mapError
      AuthFailure.raised := by
  rw [signs_of A w payload encoded, trustedClient, checkClient]
  cases A.registry with
  | none => rfl
  | some clients =>
    dsimp only
    rw [matchingClients_of]
    rcases GenesisAgents.matchingClients pubkeyB64 clients with failure | found
    · rfl
    · rcases found with _ | ⟨client, _ | ⟨second, rest⟩⟩
      · rfl
      · change ((if !client.capabilities.contains requiredScope && !client.capabilities.contains "*" then
            Except.error (EnvelopeError.authentication "ap2_scope_denied") else .ok client) >>= _) =
          Except.mapError _ (ite _ _ _)
        split
        · rfl
        · cases (canonicalJson (dict [("payload", payload), ("nonce", str nonce),
              ("timestamp", str timestamp)])).elim false (A.ed25519 pubkeyB64 signatureB64) with
          | true => rfl
          | false => rfl
      · rfl

/-- The envelope of a body without surrogates is checked as before. -/
theorem checkEnvelope_encode (A : Authority) (w : WireValue) (body : Value) (encoded : w.encode = some body)
    (headers : Headers) (requiredScope : String) (current : Int) :
    checkEnvelope A w (headersOf headers) requiredScope current =
      (GenesisAgents.checkEnvelope A body headers requiredScope current).mapError AuthFailure.raised := by
  have field : ∀ key, (w.get key).encode = some (body.get key) := fun key => (w.get_encode body encoded key).1
  have texts : ∀ key, (w.get key).textOr A.unicode = PyStr.of (textOr A.unicode (body.get key)) :=
    fun key => WireValue.textOr_encode A.unicode _ _ (field key)
  have version : (w.get "version").pyEq (.int ap2Version) = pyEq (body.get "version") (int ap2Version) :=
    WireValue.pyEq_encode _ _ _ _ (field "version") rfl
  rw [checkEnvelope, GenesisAgents.checkEnvelope, readable, w.isDict_encode body encoded]
  cases shape : body.isDict with
  | false => rfl
  | true =>
    have readable : (if true = true then .ok () else .error .attributeError : Except EnvelopeError Unit) =
      .ok () := rfl
    rw [readable]
    change (require _ _ >>= _) = _
    have versioned : (!pyEq (body.get "version") (int ap2Version) || headers.version.getD "" != "1") =
        !(pyEq (body.get "version") (int ap2Version) && headers.version.getD "" == "1") := (Bool.not_and _ _).symm
    have wellFormed : (!(body.get "payload").isDict || !isNonce (textOr A.unicode (body.get "nonce"))) =
        !((body.get "payload").isDict && isNonce (textOr A.unicode (body.get "nonce"))) := (Bool.not_and _ _).symm
    rw [require_bind, version, headersOf, header_of, WireValue.str_beq, versioned]
    dsimp only
    cases pyEq (body.get "version") (int ap2Version) && headers.version.getD "" == "1" with
    | false => rfl
    | true =>
      rw [if_pos rfl, require_bind, (w.get "payload").isDict_encode _ (field "payload"), texts, PyStr.encode_of,
        wellFormed]
      change (if (body.get "payload").isDict && isNonce (textOr A.unicode (body.get "nonce")) then _ else _) =
        Except.mapError _ (if (!((body.get "payload").isDict && isNonce (textOr A.unicode (body.get "nonce")))) = true
          then _ else _)
      cases (body.get "payload").isDict && isNonce (textOr A.unicode (body.get "nonce")) with
      | false => rfl
      | true =>
        rw [if_pos rfl, texts, texts, texts, header_of, compareDigest_of, parseTimestamp_of]
        rcases GenesisAgents.compareDigest (textOr A.unicode (body.get "pubkey")) (headers.pubkey.getD "")
          with failure | same
        · rfl
        · cases same with
          | false => rfl
          | true =>
            rcases GenesisAgents.parseTimestamp A (textOr A.unicode (body.get "timestamp")) with failure | stamped
            · rfl
            · change (require _ _ >>= _) =
                Except.mapError _ (if maxClockSkewSeconds < ((current - stamped).natAbs : Int) then _ else _)
              rw [require_bind]
              by_cases late : maxClockSkewSeconds < ((current - stamped).natAbs : Int)
              · rw [if_pos late, if_neg (by simpa using late)]
                rfl
              · rw [if_neg late, if_pos (by simpa using late)]
                exact checkClient_of A _ _ (field "payload") _ _ _ _ requiredScope stamped

theorem verifyAp2Envelope_encode (A : Authority) (now : Moment) (w : WireValue) (body : Value)
    (encoded : w.encode = some body) (headers : Headers) (requiredScope : String) :
    verifyAp2Envelope A now w (headersOf headers) requiredScope =
      (GenesisAgents.verifyAp2Envelope A now body headers requiredScope).mapError AuthFailure.raised := by
  rw [verifyAp2Envelope, GenesisAgents.verifyAp2Envelope, checkEnvelope_encode A w body encoded]
  rcases GenesisAgents.checkEnvelope A body headers requiredScope now.current with failure | verified
  · rfl
  · change ((consumeNonce now.available now.store verified now.sweepClock).mapError AuthFailure.raised >>= _) = _
    dsimp only
    rcases consumeNonce now.available now.store verified now.sweepClock with failure | store <;> rfl

theorem str_encode (s : String) : (WireValue.str (PyStr.of s)).encode = some (str s) :=
  congrArg (Option.map Value.str) (PyStr.encode_of s)

theorem eqText_encode (U : Unicode) (w x : WireValue) (left right : Value) (encoded : w.encode = some left)
    (other : x.encode = some right) : eqText U w x = .ok (GenesisAgents.eqText U left right) := by
  rw [eqText, w.textOr_encode U left encoded, x.textOr_encode U right other, PyStr.encode_of, PyStr.encode_of]
  rfl

theorem assertEnvelopeBindsRequest_encode (U : Unicode) (w : WireValue) (body : Value)
    (encoded : w.encode = some body) (routeSlug : String) :
    assertEnvelopeBindsRequest U w (PyStr.of routeSlug) =
      (GenesisAgents.assertEnvelopeBindsRequest U body routeSlug).mapError AuthFailure.raised := by
  have field : ∀ key, (w.get key).encode = some (body.get key) := fun key => (w.get_encode body encoded key).1
  have orDict : ∀ (x : WireValue) (v : Value), x.encode = some v →
      (x.orElse (.dict [])).encode = some (v.orElse (dict [])) :=
    fun x v same => x.orElse_encode (.dict []) v (dict []) same rfl
  have payload := orDict _ _ (field "payload")
  have part : ∀ key, (((w.get "payload").orElse (.dict [])).get key).encode =
      some (((body.get "payload").orElse (dict [])).get key) := fun key => (WireValue.get_encode _ _ payload key).1
  have signed := orDict _ _ (part "params")
  have runtime := orDict _ _ (field "task")
  rw [assertEnvelopeBindsRequest, GenesisAgents.assertEnvelopeBindsRequest, readable, w.isDict_encode body encoded]
  cases body.isDict with
  | false => rfl
  | true =>
    change (require ((w.get "payload").orElse (.dict [])).isDict _ >>= _) =
      Except.mapError _ (if (!((body.get "payload").orElse (dict [])).isDict) = true then _ else _)
    rw [WireValue.isDict_encode _ _ payload]
    apply require_unless
    apply compare_unless _ _ (eqText_encode U _ _ _ _ (part "agent") (str_encode routeSlug))
    apply compare_unless _ _ (eqText_encode U _ _ _ _ (part "task") (field "prompt"))
    change (require (((w.get "task").orElse (.dict [])).isDict && _) _ >>= _) = _
    rw [WireValue.isDict_encode _ _ runtime, WireValue.isDict_encode _ _ signed, ← Bool.not_and]
    apply require_unless
    have unsigned : (if ((((w.get "payload").orElse (.dict [])).get "params").orElse (.dict [])).get? "description"
        |>.isSome then (w.get "task").orElse (.dict [])
        else ((w.get "task").orElse (.dict [])).erase "description").encode =
      some (if ((((body.get "payload").orElse (dict [])).get "params").orElse (dict [])).get? "description"
        |>.isSome then (body.get "task").orElse (dict [])
        else ((body.get "task").orElse (dict [])).erase "description") := by
      rw [(WireValue.get_encode _ _ signed "description").2]
      split
      · exact runtime
      · exact WireValue.erase_encode _ _ runtime "description"
    change require (WireValue.pyEq _ _) _ = Except.mapError _ (if (!pyEq _ _) = true then _ else _)
    rw [WireValue.pyEq_encode _ _ _ _ unsigned signed]
    exact require_last _ _

theorem canonicalJson_encode (w : WireValue) (v : Value) (encoded : w.encode = some v) :
    ∃ text, w.canonicalJson = some text ∧ canonicalJson v = some text := by
  have known := w.canonicalJson_isSome
  rw [encoded] at known
  rcases Option.isSome_iff_exists.mp known with ⟨text, written⟩
  refine ⟨text, written, ?_⟩
  rw [WireValue.canonicalJson, encoded, Option.bind_some] at written
  exact written

theorem sameJson_encode (w x : WireValue) (left right : Value) (encoded : w.encode = some left)
    (other : x.encode = some right) :
    sameJson w x >>= (fun same => require same "ap2_params_mismatch") =
      Except.mapError AuthFailure.raised (match canonicalJson left, canonicalJson right with
        | some signed, some own => if signed = own then .ok () else .error (.authentication "ap2_params_mismatch")
        | _, _ => .error .typeError) := by
  rcases canonicalJson_encode w left encoded with ⟨signed, written, known⟩
  rcases canonicalJson_encode x right other with ⟨own, written', known'⟩
  rw [sameJson, written, written', known, known']
  change require (signed == own) _ = Except.mapError _ (if signed = own then _ else _)
  by_cases same : signed = own
  · rw [if_pos same, beq_iff_eq.mpr same]
    rfl
  · rw [if_neg same, beq_false_of_ne same]
    rfl

theorem assertEnvelopeBinds_encode (U : Unicode) (w x : WireValue) (body params : Value)
    (encoded : w.encode = some body) (other : x.encode = some params) (shape : body.isDict = true)
    (agent task : String) :
    assertEnvelopeBinds U w (PyStr.of agent) (PyStr.of task) x =
      (GenesisAgents.assertEnvelopeBinds U body agent task params).mapError AuthFailure.raised := by
  have payload := (w.get_encode body encoded "payload").1
  have part : ∀ key, ((w.get "payload").get key).encode = some ((body.get "payload").get key) :=
    fun key => (WireValue.get_encode _ _ payload key).1
  rw [assertEnvelopeBinds, GenesisAgents.assertEnvelopeBinds, readable, w.isDict_encode body encoded, shape]
  change (require (w.get "payload").isDict _ >>= _) =
    Except.mapError _ (if (!(body.get "payload").isDict) = true then _ else _)
  rw [WireValue.isDict_encode _ _ payload]
  apply require_unless
  apply compare_unless _ _ (eqText_encode U _ _ _ _ (part "agent") (str_encode agent))
  apply compare_unless _ _ (eqText_encode U _ _ _ _ (part "task") (str_encode task))
  change (require ((w.get "payload").get "params").isDict _ >>= _) = _
  rw [WireValue.isDict_encode _ _ (part "params")]
  apply require_unless
  exact sameJson_encode _ _ _ _ (part "params") other

end

end Wire

end GenesisAgents
