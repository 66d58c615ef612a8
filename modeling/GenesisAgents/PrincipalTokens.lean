import GenesisAgents.ActionGrants
import GenesisAgents.EnvelopeBinding
import GenesisAgents.JsonLoads
import GenesisAgents.Library.Base64Url

/-! Continuation tokens: `issue_principal_token` and `verify_principal_token` of
`runtime/request_auth.py`. -/

namespace GenesisAgents

open Value JsonText

def principalTokenTtlSeconds : Int := 600
def principalTokenAudience : String := "genesis-gateway"
def principalTokenPrefix : String := "genesis-principal-v1"

structure TokenAuthority where
  unicode : Unicode
  numerals : Numerals
  /-- HMAC-SHA256 of a message under a key -/
  hmac : (key message : List UInt8) → List UInt8
  /-- `GENESIS_PRINCIPAL_TOKEN_KEY` -/
  configuredKey : Option String

/-- An `AuthenticationError` with its text, or any other exception. -/
inductive TokenFailure where
  | authentication (detail : String)
  | raised
  deriving DecidableEq

def invalidToken : TokenFailure := .authentication "principal_token_invalid"
def expiredToken : TokenFailure := .authentication "principal_token_expired"
def tokenIdentityMissing : TokenFailure := .authentication "principal_token_identity_missing"

def utf8Of (text : String) : List UInt8 := text.toByteArray.data.toList

/-- `base64.urlsafe_b64encode(data).rstrip(b"=").decode("ascii")` -/
def unpaddedB64 (data : List UInt8) : String := String.ofList (Base64Url.encode data)

/-- `sorted(scopes)` of a set -/
def sortedScopes (scopes : List String) : List String := scopes.eraseDups.insertionSort (· ≤ ·)

def tokenLifetime (ttlSeconds : Int) : Int := min (max 1 ttlSeconds) principalTokenTtlSeconds

def tokenPayload (p : Principal) (current ttlSeconds : Int) : Value :=
  dict [("v", int 1), ("aud", str principalTokenAudience), ("sub", str p.principalId),
    ("tenant", str p.tenantId), ("client", str p.clientId),
    ("scopes", list ((sortedScopes p.scopes).map str)), ("iat", int current),
    ("exp", int (current + tokenLifetime ttlSeconds))]

/-- What a `for` loop goes over; `none` is its `TypeError`. -/
def iterated : Value → Option (List Value)
  | list xs => some xs
  | dict kvs => some (kvs.map fun kv => str kv.1)
  | str s => some (s.toList.map fun c => str c.toString)
  | _ => none

namespace TokenAuthority

variable (T : TokenAuthority)

def keyText (explicit : Option String) : String := explicit.getD (T.configuredKey.getD "")

/-- `_token_key` -/
def tokenKey (explicit : Option String) : Except TokenFailure (List UInt8) :=
  if (T.keyText explicit).toList.length < 32 then
    .error (.authentication "GENESIS_PRINCIPAL_TOKEN_KEY_not_configured")
  else .ok (utf8Of (T.keyText explicit))

def signature (key : List UInt8) (encoded : String) : String := unpaddedB64 (T.hmac key (utf8Of encoded))

def issuePrincipalToken (p : Principal) (explicit : Option String) (current ttlSeconds : Int) :
    Except TokenFailure String :=
  match canonicalJson (tokenPayload p current ttlSeconds) with
  | none => .error .raised
  | some text =>
    (T.tokenKey explicit).map fun key =>
      principalTokenPrefix ++ "." ++ unpaddedB64 (utf8Of text) ++ "." ++ T.signature key (unpaddedB64 (utf8Of text))

/-- `json.loads(base64.urlsafe_b64decode(encoded + "=" * (-len(encoded) % 4)))`, of a text in UTF-8 -/
def decodePayload (encoded : String) : Option Value :=
  (Base64Url.scan 0 0 0 (encoded.toList ++ Base64Url.padding encoded.toList)).bind fun data =>
    (String.fromUTF8? ⟨data.toArray⟩).bind (loads T.numerals)

def readToken (explicit : Option String) (token : String) : Except TokenFailure Value :=
  match splitToken token with
  | none => .error invalidToken
  | some (first, encoded, supplied) =>
    if first != principalTokenPrefix then .error invalidToken
    else
      match T.tokenKey explicit with
      | .error failure => .error failure
      | .ok key =>
        if !isAscii encoded then .error invalidToken
        else
          match compareDigest (T.signature key encoded) supplied with
          | .error _ => .error invalidToken
          | .ok false => .error (.authentication "principal_token_signature_invalid")
          | .ok true => (T.decodePayload encoded).elim (.error invalidToken) .ok

/-- `int(payload.get(name, 0))` -/
def tokenInt (payload : Value) (name : String) : Except TokenFailure Int :=
  (toInt T.numerals.int (payload.getD name (int 0))).elim (.error .raised) .ok

def checkToken (payload : Value) (current : Int) : Except TokenFailure Unit := do
  if !payload.isDict then .error .raised
  else if !pyEq (payload.get "v") (int 1) || !pyEq (payload.get "aud") (str principalTokenAudience) then
    .error expiredToken
  else
    let expires ← T.tokenInt payload "exp"
    if expires < current then .error expiredToken
    else
      let issued ← T.tokenInt payload "iat"
      if current < issued - 60 then .error expiredToken else .ok ()

def tokenPrincipal (payload : Value) : Except TokenFailure Principal :=
  if !(payload.get "sub").truthy || !(payload.get "tenant").truthy then .error tokenIdentityMissing
  else
    match iterated (payload.getD "scopes" (list [])), (payload.get? "exp").bind (toInt T.numerals.int) with
    | some scopes, some expires =>
      .ok { principalId := (payload.get "sub").text T.unicode
            tenantId := (payload.get "tenant").text T.unicode
            clientId := textOr T.unicode (payload.get "client")
            scopes := scopes.map fun scope => scope.text T.unicode
            authMethod := "principal_token"
            expiresAt := expires }
    | _, _ => .error .raised

def verifyPrincipalToken (token : String) (explicit : Option String) (current : Int) :
    Except TokenFailure Principal := do
  let payload ← T.readToken explicit token
  T.checkToken payload current
  T.tokenPrincipal payload

end TokenAuthority

/-- A token issued at a time is good from a minute before it until it expires. -/
def TokenWindow (issued ttlSeconds current : Int) : Prop :=
  issued - 60 ≤ current ∧ current ≤ issued + tokenLifetime ttlSeconds

instance (issued ttlSeconds current : Int) : Decidable (TokenWindow issued ttlSeconds current) :=
  inferInstanceAs (Decidable (_ ∧ _))

/-- The same principal, but for how it was authenticated and until when. -/
structure SameIdentity (p q : Principal) : Prop where
  principalId : p.principalId = q.principalId
  tenantId : p.tenantId = q.tenantId
  clientId : p.clientId = q.clientId
  scopes : ∀ scope, scope ∈ p.scopes ↔ scope ∈ q.scopes

theorem utf8_read (text : String) : String.fromUTF8? ⟨(utf8Of text).toArray⟩ = some text := by
  have bytes : (⟨(utf8Of text).toArray⟩ : ByteArray) = text.toByteArray := by
    rw [utf8Of, Array.toArray_toList]
  rw [bytes, String.fromUTF8?, dif_pos text.isValidUTF8]
  rfl

theorem unpaddedB64_alphabet (data : List UInt8) : ∀ c ∈ (unpaddedB64 data).toList, c ∈ Base64Url.alphabet := by
  rw [unpaddedB64, String.toList_ofList]
  exact Base64Url.encode_alphabet data

theorem alphabet_ascii : ∀ c ∈ Base64Url.alphabet, c.toNat < 128 ∧ c ≠ '.' := by
  have checked : (Base64Url.alphabet.all fun c => c.toNat < 128 && c != '.') = true := by decide
  simpa only [List.all_eq_true, Bool.and_eq_true, decide_eq_true_eq, bne_iff_ne] using checked

theorem unpaddedB64_ascii (data : List UInt8) : isAscii (unpaddedB64 data) = true := by
  rw [isAscii, List.all_eq_true]
  intro c member
  exact decide_eq_true (alphabet_ascii c (unpaddedB64_alphabet data c member)).1

theorem unpaddedB64_undotted (data : List UInt8) : '.' ∉ (unpaddedB64 data).toList := fun dot =>
  (alphabet_ascii '.' (unpaddedB64_alphabet data '.' dot)).2 rfl

theorem decodePayload_text (T : TokenAuthority) (text : String) :
    T.decodePayload (unpaddedB64 (utf8Of text)) = loads T.numerals text := by
  rw [TokenAuthority.decodePayload, unpaddedB64, String.toList_ofList, Base64Url.scan_encode, Option.bind_some,
    utf8_read, Option.bind_some]

def sortedTokenPayload (p : Principal) (current ttlSeconds : Int) : Value :=
  dict [("aud", str principalTokenAudience), ("client", str p.clientId),
    ("exp", int (current + tokenLifetime ttlSeconds)), ("iat", int current),
    ("scopes", list ((sortedScopes p.scopes).map str)), ("sub", str p.principalId),
    ("tenant", str p.tenantId), ("v", int 1)]

theorem sortKeys_tokenPayload (p : Principal) (current ttlSeconds : Int) :
    sortKeys (tokenPayload p current ttlSeconds) = sortedTokenPayload p current ttlSeconds := by
  simp [tokenPayload, sortedTokenPayload, sortKeys, sortKeysItems, sortKeysList_str]

theorem tokenPayload_text (p : Principal) (current ttlSeconds : Int) :
    ∃ text, canonicalJson (tokenPayload p current ttlSeconds) = some text := by
  apply Option.isSome_iff_exists.mp
  rw [canonicalJson, dumpsWith_isSome, sortKeys_tokenPayload]
  simp [sortedTokenPayload, jsonable, jsonableItems, jsonableList_str]

theorem sortedTokenPayload_loaded (N : Numerals) (p : Principal) (current ttlSeconds : Int) :
    Loaded N (sortedTokenPayload p current ttlSeconds) := by
  have scopes : LoadedList N ((sortedScopes p.scopes).map str) := by
    rw [loadedList_iff]
    intro scope member
    rcases List.mem_map.mp member with ⟨text, _, rfl⟩
    trivial
  constructor
  · simp
  · simp [LoadedItems, Loaded, scopes]

theorem payload_read (N : Numerals) (p : Principal) (current ttlSeconds : Int) (text : String)
    (written : canonicalJson (tokenPayload p current ttlSeconds) = some text) :
    loads N text = some (sortedTokenPayload p current ttlSeconds) := by
  rw [canonicalJson, sortKeys_tokenPayload] at written
  exact loads_compact N _ (sortedTokenPayload_loaded N p current ttlSeconds) text written

theorem splitToken_parts (first encoded supplied : String) (free : '.' ∉ first.toList)
    (undotted : '.' ∉ encoded.toList) :
    splitToken (first ++ "." ++ encoded ++ "." ++ supplied) = some (first, encoded, supplied) := by
  have shape : (first ++ "." ++ encoded ++ "." ++ supplied).toList =
      first.toList ++ '.' :: (encoded.toList ++ '.' :: supplied.toList) := by
    simp
  rw [splitToken, shape, splitDot_free _ _ free]
  simp only [Option.bind_eq_bind, Option.bind_some, splitDot_free _ _ undotted, String.ofList_toList]

theorem readToken_issued (T : TokenAuthority) (p : Principal) (explicit : Option String) (current ttlSeconds : Int)
    (token : String) (issued : T.issuePrincipalToken p explicit current ttlSeconds = .ok token) :
    T.readToken explicit token = .ok (sortedTokenPayload p current ttlSeconds) := by
  rcases tokenPayload_text p current ttlSeconds with ⟨text, written⟩
  rw [TokenAuthority.issuePrincipalToken, written] at issued
  dsimp only at issued
  rcases configured : T.tokenKey explicit with failure | key
  · rw [configured] at issued
    cases issued
  · rw [configured] at issued
    rw [← Except.ok.inj issued, TokenAuthority.readToken,
      splitToken_parts _ _ _ (by decide) (unpaddedB64_undotted (utf8Of text)), configured]
    have signed : compareDigest (T.signature key (unpaddedB64 (utf8Of text)))
        (T.signature key (unpaddedB64 (utf8Of text))) = .ok true :=
      compareDigest_self _ (unpaddedB64_ascii _)
    simp only [bne_self_eq_false, Bool.false_eq_true, if_false, unpaddedB64_ascii, Bool.not_true, signed,
      decodePayload_text, payload_read T.numerals p current ttlSeconds text written, Option.elim_some]

theorem issuePrincipalToken_ok (T : TokenAuthority) (p : Principal) (explicit : Option String)
    (current ttlSeconds : Int) (long : 32 ≤ (T.keyText explicit).toList.length) :
    ∃ token, T.issuePrincipalToken p explicit current ttlSeconds = .ok token := by
  rcases tokenPayload_text p current ttlSeconds with ⟨text, written⟩
  have configured : T.tokenKey explicit = .ok (utf8Of (T.keyText explicit)) := if_neg (Nat.not_lt.mpr long)
  exact ⟨_, by rw [TokenAuthority.issuePrincipalToken, written, configured]; rfl⟩

theorem checkToken_payload (T : TokenAuthority) (p : Principal) (issued ttlSeconds current : Int) :
    T.checkToken (sortedTokenPayload p issued ttlSeconds) current =
      if TokenWindow issued ttlSeconds current then .ok () else .error expiredToken := by
  have expires : T.tokenInt (sortedTokenPayload p issued ttlSeconds) "exp" =
    .ok (issued + tokenLifetime ttlSeconds) := rfl
  have since : T.tokenInt (sortedTokenPayload p issued ttlSeconds) "iat" = .ok issued := rfl
  have audience : (!pyEq ((sortedTokenPayload p issued ttlSeconds).get "v") (int 1) ||
      !pyEq ((sortedTokenPayload p issued ttlSeconds).get "aud") (str principalTokenAudience)) = false := by
    change (!pyEq (int 1) (int 1) || !pyEq (str principalTokenAudience) (str principalTokenAudience)) = false
    decide
  have shape : (!(sortedTokenPayload p issued ttlSeconds).isDict) = false := rfl
  rw [TokenAuthority.checkToken, shape, audience, expires, since]
  change (if issued + tokenLifetime ttlSeconds < current then Except.error expiredToken
    else if current < issued - 60 then Except.error expiredToken else Except.ok ()) = _
  by_cases late : issued + tokenLifetime ttlSeconds < current
  · rw [if_pos late, if_neg fun window => absurd window.2 (not_le.mpr late)]
  · rw [if_neg late]
    by_cases early : current < issued - 60
    · rw [if_pos early, if_neg fun window => absurd window.1 (not_le.mpr early)]
    · rw [if_neg early, if_pos ⟨not_lt.mp early, not_lt.mp late⟩]

theorem scopes_text (U : Unicode) (scopes : List String) :
    (scopes.map str).map (fun scope => scope.text U) = scopes := by
  rw [List.map_map]
  exact List.map_id scopes

theorem tokenPrincipal_payload (T : TokenAuthority) (p : Principal) (issued ttlSeconds : Int)
    (named : p.principalId ≠ "") :
    T.tokenPrincipal (sortedTokenPayload p issued ttlSeconds) =
      if p.tenantId = "" then .error tokenIdentityMissing
      else .ok { p with
        scopes := sortedScopes p.scopes, authMethod := "principal_token"
        expiresAt := issued + tokenLifetime ttlSeconds } := by
  have subject : ((sortedTokenPayload p issued ttlSeconds).get "sub").truthy = true := by
    change (p.principalId != "") = true
    simpa using named
  have tenant : ((sortedTokenPayload p issued ttlSeconds).get "tenant").truthy = (p.tenantId != "") := rfl
  rw [TokenAuthority.tokenPrincipal, subject, tenant, Bool.not_true, Bool.false_or]
  by_cases missing : p.tenantId = ""
  · rw [if_pos missing, missing]
    rfl
  · rw [if_neg missing, if_neg (by simpa using missing)]
    change Except.ok { p with
      principalId := p.principalId, tenantId := p.tenantId, clientId := textOr T.unicode (str p.clientId)
      scopes := ((sortedScopes p.scopes).map str).map fun scope : Value => scope.text T.unicode
      authMethod := "principal_token", expiresAt := issued + tokenLifetime ttlSeconds } = _
    rw [scopes_text, textOr_str]

/-- What becomes of an issued token at a reading of the clock. -/
theorem verify_issued (T : TokenAuthority) (p : Principal) (explicit : Option String) (issued ttlSeconds : Int)
    (named : p.principalId ≠ "") (token : String)
    (made : T.issuePrincipalToken p explicit issued ttlSeconds = .ok token) (current : Int) :
    T.verifyPrincipalToken token explicit current =
      if TokenWindow issued ttlSeconds current then
        if p.tenantId = "" then .error tokenIdentityMissing
        else .ok { p with
          scopes := sortedScopes p.scopes, authMethod := "principal_token"
          expiresAt := issued + tokenLifetime ttlSeconds }
      else .error expiredToken := by
  have read := readToken_issued T p explicit issued ttlSeconds token made
  have checked := checkToken_payload T p issued ttlSeconds current
  rw [TokenAuthority.verifyPrincipalToken, read]
  change (T.checkToken (sortedTokenPayload p issued ttlSeconds) current).bind
    (fun _ => T.tokenPrincipal (sortedTokenPayload p issued ttlSeconds)) = _
  rw [checked]
  split
  · exact tokenPrincipal_payload T p issued ttlSeconds named
  · rfl

/-! The principals of the first handshake. -/

theorem mem_sortedScopes (scopes : List String) (scope : String) : scope ∈ sortedScopes scopes ↔ scope ∈ scopes := by
  rw [sortedScopes, List.mem_insertionSort, List.mem_eraseDups]

theorem clientPrincipal_named (client : Client) (stamped : Int) :
    (clientPrincipal client stamped).principalId ≠ "" := by
  rw [clientPrincipal]
  dsimp only
  split
  · intro empty
    exact absurd (congrArg String.toList empty) (by simp)
  · assumption

theorem checkClient_named (A : Authority) (payload : Value) (nonce timestamp pubkeyB64 signatureB64 : String)
    (requiredScope : String) (stamped : Int) (verified : Verified)
    (checked : checkClient A payload nonce timestamp pubkeyB64 signatureB64 requiredScope stamped = .ok verified) :
    verified.principal.principalId ≠ "" := by
  rw [checkClient] at checked
  split at checked
  · cases checked
  · split at checked
    · cases checked
    · rename_i client _
      dsimp only at checked
      split at checked
      · cases checked
      · split at checked
        · rw [← Except.ok.inj checked]
          exact clientPrincipal_named client stamped
        · cases checked
    · cases checked

theorem checkEnvelope_named (A : Authority) (body : Value) (headers : Headers) (requiredScope : String)
    (current : Int) (verified : Verified)
    (checked : checkEnvelope A body headers requiredScope current = .ok verified) :
    verified.principal.principalId ≠ "" := by
  rw [checkEnvelope] at checked
  split at checked
  · cases checked
  · split at checked
    · cases checked
    · dsimp only at checked
      split at checked
      · cases checked
      · split at checked
        · cases checked
        · cases checked
        · split at checked
          · cases checked
          · split at checked
            · cases checked
            · exact checkClient_named A _ _ _ _ _ _ _ verified checked

theorem verified_named (A : Authority) (now : Moment) (body : Value) (headers : Headers) (requiredScope : String)
    (p : Principal) (passed : verifyAp2Envelope A now body headers requiredScope = .ok p) : p.principalId ≠ "" := by
  rw [verifyAp2Envelope] at passed
  split at passed
  · cases passed
  · rename_i verified checked
    split at passed
    · cases passed
    · rw [← Except.ok.inj passed]
      exact checkEnvelope_named A body headers requiredScope now.current verified checked

def catoPrincipal : Principal where
  principalId := "user:1"
  tenantId := "tenant-1"
  clientId := "cato"
  scopes := ["agent.invoke"]
  authMethod := "ap2"
  expiresAt := 1767225900

def keyedTokens (digest : List UInt8) : TokenAuthority where
  unicode := signingAuthority.unicode
  numerals := { float := fun _ => infinity, int := fun _ => none }
  hmac := fun _ _ => digest
  configuredKey := some "0123456789abcdef0123456789abcdef"

def catoTokens : TokenAuthority :=
  keyedTokens [233, 197, 61, 163, 85, 176, 255, 56, 174, 159, 109, 181, 199, 57, 0, 212, 103, 29, 101, 209,
    174, 171, 194, 100, 64, 240, 177, 149, 252, 169, 209, 167]

/-- The registry of the same client without a `tenant_id` -/
def tenantlessAuthority : Authority :=
  { signingAuthority with
    registry := some [
      { enabled := true, pubkeyB64 := "cato-key", clientId := "cato", principalId := "user:1"
        tenantId := "", capabilities := ["agent.invoke"] }] }

def tenantlessTokens : TokenAuthority :=
  keyedTokens [60, 25, 73, 8, 173, 243, 0, 27, 16, 220, 44, 84, 61, 108, 230, 116, 105, 205, 209, 122, 181,
    178, 93, 173, 184, 231, 196, 6, 26, 152, 63, 25]

end GenesisAgents
