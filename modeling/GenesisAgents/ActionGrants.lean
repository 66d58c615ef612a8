import GenesisAgents.JsonValue
import GenesisAgents.RequestAuth

/-! Action grants: `runtime/action_grants.py`. -/

namespace GenesisAgents

open Value

/-- What the grants take from outside the repository. -/
structure GrantAuthority where
  unicode : Unicode
  /-- `GENESIS_ACTION_GRANT_KEY` -/
  key : String
  /-- HMAC-SHA256 of a text under a key, as unpadded base64url -/
  hmac : String → String → String
  /-- `hashlib.sha256(text.encode("utf-8")).hexdigest()` -/
  sha256 : String → String
  /-- `base64.urlsafe_b64encode(text.encode("utf-8")).rstrip(b"=")` -/
  encode : String → String
  /-- `json.loads` of the decoded text; `none` when either raises. -/
  decode : String → Option Value
  /-- `int(s)` of a text; `none` when it raises. -/
  intOfText : String → Option Int

/-- A `GrantError` with its text, or another Python error. -/
inductive GrantFailure where
  | grant (error : String)
  | attributeError | typeError | keyError
  /-- `int` of a claim that is no number -/
  | notAnInteger
  deriving DecidableEq, Repr

/-- The arguments of `issue_action_grant`, with the clock it reads and the id it draws. -/
structure GrantRequest where
  principalId : String
  tenantId : String
  tool : String
  args : Value
  authorizationId : String
  now : Int
  ttlSeconds : Int
  jti : String

/-- The arguments of `consume_action_grant`. -/
structure GrantUse where
  token : String
  principalId : String
  tenantId : String
  tool : String
  args : Value

def grantPrefix : String := "genesis-action-v1"
def grantAudience : String := "genesis-tool-dispatch"

/-- `_digest` -/
def grantDigest (A : GrantAuthority) (tool : String) (args : Value) : String :=
  A.sha256 (canonicalText (dict [("tool", str tool), ("args", args)]))

namespace GrantRequest

variable (A : GrantAuthority) (r : GrantRequest)

def expires : Int := r.now + min (max 1 r.ttlSeconds) 300

def payload : Value :=
  dict [("v", int 1), ("aud", str grantAudience), ("jti", str r.jti),
    ("authorization_id", str r.authorizationId), ("sub", str r.principalId),
    ("tenant", str r.tenantId), ("tool", str r.tool),
    ("args_digest", str (grantDigest A r.tool r.args)), ("iat", int r.now), ("exp", int r.expires)]

def encoded : String :=
  A.encode ((dumpsWith .compactAscii (sortKeys (r.payload A))).getD "")

end GrantRequest

def grantToken (A : GrantAuthority) (encoded : String) : String :=
  grantPrefix ++ "." ++ encoded ++ "." ++ A.hmac A.key encoded

/-- `_key` -/
def keyConfigured (A : GrantAuthority) : Bool := decide (32 ≤ A.key.toList.length)

def keyNotConfigured : GrantFailure := .grant "GENESIS_ACTION_GRANT_KEY_not_configured"

def issueActionGrant (A : GrantAuthority) (r : GrantRequest) : Except GrantFailure String :=
  if keyConfigured A then .ok (grantToken A (r.encoded A)) else .error keyNotConfigured

/-! `consume_action_grant` -/

def splitDot : List Char → Option (List Char × List Char)
  | [] => none
  | c :: rest =>
    if c = '.' then some ([], rest)
    else (splitDot rest).map fun parts => (c :: parts.1, parts.2)

/-- `prefix, encoded, supplied = token.split(".", 2)`; `none` when there are too few parts. -/
def splitToken (token : String) : Option (String × String × String) := do
  let (first, rest) ← splitDot token.toList
  let (second, third) ← splitDot rest
  some (String.ofList first, String.ofList second, String.ofList third)

def readGrant (A : GrantAuthority) (token : String) : Except GrantFailure Value :=
  match splitToken token with
  | none => .error (.grant "grant_invalid")
  | some (first, encoded, supplied) =>
    if first != grantPrefix then .error (.grant "grant_invalid")
    else if !keyConfigured A then .error keyNotConfigured
    else match compareDigest (A.hmac A.key encoded) supplied with
      | .error _ => .error (.grant "grant_invalid")
      | .ok false => .error (.grant "grant_signature_invalid")
      | .ok true => (A.decode encoded).elim (.error (.grant "grant_invalid")) .ok

/-- `hmac.compare_digest(str(actual or ""), str(required or ""))`, for each claim in turn. -/
def matchClaims (U : Unicode) : List (Value × String × String) → Except GrantFailure Unit
  | [] => .ok ()
  | (actual, required, error) :: rest =>
    match compareDigest (textOr U actual) required with
    | .error _ => .error .typeError
    | .ok false => .error (.grant error)
    | .ok true => matchClaims U rest

/-- What `_spend_jti` is called with, and the id returned after it. -/
structure Spend where
  jti : String
  consumedAt : Int
  expiresAt : Int
  authorizationId : String
  deriving DecidableEq

/-- `int(payload.get(name, 0))` -/
def claimInt (A : GrantAuthority) (payload : Value) (name : String) : Except GrantFailure Int :=
  (toInt A.intOfText (payload.getD name (int 0))).elim (.error .notAnInteger) .ok

def checkWindow (A : GrantAuthority) (payload : Value) (current : Int) :
    Except GrantFailure Unit := do
  let expires ← claimInt A payload "exp"
  if expires < current then .error (.grant "grant_expired")
  else
    let issued ← claimInt A payload "iat"
    if current < issued - 60 then .error (.grant "grant_expired") else .ok ()

/-- `consume_action_grant` up to `_spend_jti`, with its reading of the clock. -/
def checkGrant (A : GrantAuthority) (use : GrantUse) (current : Int) :
    Except GrantFailure Spend := do
  let payload ← readGrant A use.token
  if !payload.isDict then .error .attributeError
  else if !pyEq (payload.get "v") (int 1) || !pyEq (payload.get "aud") (str grantAudience) then
    .error (.grant "grant_audience_invalid")
  else
    checkWindow A payload current
    matchClaims A.unicode
      [(payload.get "sub", use.principalId, "grant_principal_mismatch"),
       (payload.get "tenant", use.tenantId, "grant_tenant_mismatch"),
       (payload.get "tool", use.tool, "grant_tool_mismatch"),
       (payload.get "args_digest", grantDigest A use.tool use.args, "grant_args_mismatch")]
    match payload.get? "jti", payload.get? "exp" with
    | some jti, some _ =>
      let expires ← claimInt A payload "exp"
      .ok { jti := jti.text A.unicode, consumedAt := current, expiresAt := expires
            authorizationId := textOr A.unicode (payload.get "authorization_id") }
    | _, _ => .error .keyError

/-- The rows of the table of spent grants, by id, with `expires_at`. -/
abbrev SpentGrants := ExpiringKeys.Store String Int

def Spend.transaction (s : Spend) : ExpiringKeys.Consume String Int :=
  { key := s.jti, expires := s.expiresAt, sweep := s.consumedAt }

/-- `_spend_jti`, on either store: the sweep and the insert are one transaction, and a unique
violation rolls both back. -/
def spendJti (available : Bool) (store : SpentGrants) (s : Spend) :
    Except GrantFailure SpentGrants :=
  if available then
    match ExpiringKeys.consume store s.transaction with
    | none => .error (.grant "grant_already_consumed")
    | some store' => .ok store'
  else .error (.grant "grant_store_unavailable")

theorem splitDot_append (cs first rest : List Char) (split : splitDot cs = some (first, rest)) :
    cs = first ++ '.' :: rest := by
  induction cs generalizing first with
  | nil => contradiction
  | cons c cs later =>
    rw [splitDot] at split
    split at split
    · rename_i dot
      have parts := Prod.mk.inj (Option.some.inj split)
      rw [dot, ← parts.1, parts.2]
      rfl
    · rcases Option.map_eq_some_iff.mp split with ⟨⟨front, back⟩, found, same⟩
      have parts := Prod.mk.inj same
      have whole := later front (by rw [found, ← parts.2])
      rw [whole, ← parts.1]
      rfl

theorem splitToken_append (token first encoded supplied : String)
    (split : splitToken token = some (first, encoded, supplied)) :
    token = first ++ "." ++ encoded ++ "." ++ supplied := by
  rcases Option.bind_eq_some_iff.mp split with ⟨⟨front, rest⟩, outer, split⟩
  rcases Option.bind_eq_some_iff.mp split with ⟨⟨second, third⟩, inner, split⟩
  have parts := Option.some.inj split
  simp only [Prod.mk.injEq] at parts
  have whole := splitDot_append _ _ _ outer
  have tail := splitDot_append _ _ _ inner
  rw [← String.toList_inj, whole, tail, ← parts.1, ← parts.2.1, ← parts.2.2]
  simp

theorem compareDigest_true (left right : String) (same : compareDigest left right = .ok true) :
    left = right := by
  rw [compareDigest] at same
  split at same
  · exact eq_of_beq (Except.ok.inj same)
  · contradiction

theorem readGrant_ok (A : GrantAuthority) (token : String) (payload : Value)
    (read : readGrant A token = .ok payload) :
    ∃ encoded, splitToken token = some (grantPrefix, encoded, A.hmac A.key encoded) ∧
      A.decode encoded = some payload := by
  rw [readGrant] at read
  split at read
  · contradiction
  · rename_i first encoded supplied split
    split_ifs at read with other unset
    split at read
    · contradiction
    · contradiction
    · rename_i signed
      have prefixed : first = grantPrefix := by simpa using other
      refine ⟨encoded, by rw [split, prefixed, compareDigest_true _ _ signed], ?_⟩
      rcases decoded : A.decode encoded with _ | found
      · rw [decoded] at read
        contradiction
      · rw [decoded] at read
        rw [Except.ok.inj read]

theorem matchClaims_ok (U : Unicode) (claims : List (Value × String × String))
    (matched : matchClaims U claims = .ok ()) :
    ∀ claim ∈ claims, textOr U claim.1 = claim.2.1 := by
  induction claims with
  | nil => simp
  | cons claim rest later =>
    rcases claim with ⟨actual, required, error⟩
    rw [matchClaims] at matched
    split at matched
    · contradiction
    · contradiction
    · rename_i same
      intro other inside
      rcases List.mem_cons.mp inside with rfl | inside
      · exact compareDigest_true _ _ same
      · exact later matched other inside

theorem checkWindow_ok (A : GrantAuthority) (payload : Value) (current expires : Int)
    (claimed : payload.get? "exp" = some (int expires))
    (open_ : checkWindow A payload current = .ok ()) : current ≤ expires := by
  have read : claimInt A payload "exp" = .ok expires := by
    rw [claimInt, getD, claimed]
    rfl
  rcases except_bind_ok _ _ _ open_ with ⟨bound, found, rest⟩
  obtain rfl : expires = bound := Except.ok.inj (read.symm.trans found)
  split_ifs at rest with late
  exact not_lt.mp late

theorem sortKeys_payload (A : GrantAuthority) (r : GrantRequest) :
    sortKeys (r.payload A) =
      dict [("args_digest", str (grantDigest A r.tool r.args)), ("aud", str grantAudience),
        ("authorization_id", str r.authorizationId), ("exp", int r.expires), ("iat", int r.now),
        ("jti", str r.jti), ("sub", str r.principalId), ("tenant", str r.tenantId),
        ("tool", str r.tool), ("v", int 1)] := by
  simp [GrantRequest.payload, sortKeys, sortKeysItems]

/-- What a call that passed the checks on an issued grant agrees on with it. -/
structure Agrees (A : GrantAuthority) (r : GrantRequest) (use : GrantUse) (spend : Spend) : Prop where
  jti : spend.jti = r.jti
  expiresAt : spend.expiresAt = r.expires
  inTime : spend.consumedAt ≤ r.expires
  principalId : use.principalId = r.principalId
  tenantId : use.tenantId = r.tenantId
  tool : use.tool = r.tool
  digest : grantDigest A use.tool use.args = grantDigest A r.tool r.args

theorem checkGrant_issued (A : GrantAuthority) (r : GrantRequest) (use : GrantUse) (current : Int)
    (spend : Spend) (read : readGrant A use.token = .ok (sortKeys (r.payload A)))
    (checked : checkGrant A use current = .ok spend) :
    spend.consumedAt = current ∧ Agrees A r use spend := by
  rcases except_bind_ok _ _ _ checked with ⟨payload, found, checked⟩
  obtain rfl := Except.ok.inj (read.symm.trans found)
  rw [sortKeys_payload] at checked
  split_ifs at checked with shape audience
  rcases except_bind_ok _ _ _ checked with ⟨⟨⟩, window, checked⟩
  rcases except_bind_ok _ _ _ checked with ⟨⟨⟩, claims, checked⟩
  have inTime := checkWindow_ok A _ current r.expires rfl window
  have matched := matchClaims_ok A.unicode _ claims
  simp only [List.forall_mem_cons, List.not_mem_nil, false_imp_iff, implies_true, and_true] at matched
  have spent := Except.ok.inj checked
  refine ⟨by rw [← spent], ?_⟩
  constructor
  · rw [← spent]; rfl
  · rw [← spent]
  · rw [← spent]; exact inTime
  · exact (textOr_str A.unicode _).symm.trans matched.1 |>.symm
  · exact (textOr_str A.unicode _).symm.trans matched.2.1 |>.symm
  · exact (textOr_str A.unicode _).symm.trans matched.2.2.1 |>.symm
  · exact (textOr_str A.unicode _).symm.trans matched.2.2.2 |>.symm

/-! An issued grant passes the checks of the call it was issued for. -/

def GrantRequest.use (A : GrantAuthority) (r : GrantRequest) : GrantUse :=
  { token := grantToken A (r.encoded A), principalId := r.principalId, tenantId := r.tenantId
    tool := r.tool, args := r.args }

def GrantRequest.spend (r : GrantRequest) (current : Int) : Spend :=
  { jti := r.jti, consumedAt := current, expiresAt := r.expires
    authorizationId := r.authorizationId }

/-- `hmac.compare_digest` takes texts in ASCII only. -/
structure Usable (A : GrantAuthority) (r : GrantRequest) : Prop where
  configured : keyConfigured A = true
  decodes : A.decode (r.encoded A) = some (sortKeys (r.payload A))
  undotted : '.' ∉ (r.encoded A).toList
  signature : isAscii (A.hmac A.key (r.encoded A)) = true
  principalId : isAscii r.principalId = true
  tenantId : isAscii r.tenantId = true
  tool : isAscii r.tool = true
  digest : isAscii (grantDigest A r.tool r.args) = true

theorem splitDot_free (first rest : List Char) (free : '.' ∉ first) :
    splitDot (first ++ '.' :: rest) = some (first, rest) := by
  induction first with
  | nil => rfl
  | cons c first later =>
    have other : c ≠ '.' := fun same => free (by simp [same])
    have tail := later fun member => free (List.mem_cons_of_mem _ member)
    rw [List.cons_append, splitDot, if_neg other, tail]
    rfl

theorem splitToken_grantToken (A : GrantAuthority) (encoded : String)
    (undotted : '.' ∉ encoded.toList) :
    splitToken (grantToken A encoded) = some (grantPrefix, encoded, A.hmac A.key encoded) := by
  have shape : (grantToken A encoded).toList =
      grantPrefix.toList ++ '.' :: (encoded.toList ++ '.' :: (A.hmac A.key encoded).toList) := by
    simp [grantToken]
  rw [splitToken, shape, splitDot_free _ _ (by decide)]
  simp only [Option.bind_eq_bind, Option.bind_some, splitDot_free _ _ undotted, String.ofList_toList]

theorem compareDigest_self (s : String) (ascii : isAscii s = true) :
    compareDigest s s = .ok true := by
  rw [compareDigest, ascii]
  simp

theorem matchClaims_self (U : Unicode) (claims : List (String × String))
    (ascii : ∀ claim ∈ claims, isAscii claim.1 = true) :
    matchClaims U (claims.map fun claim => (str claim.1, claim.1, claim.2)) = .ok () := by
  induction claims with
  | nil => rfl
  | cons claim rest later =>
    have own := ascii claim List.mem_cons_self
    have others := later fun other member => ascii other (List.mem_cons_of_mem _ member)
    rw [List.map_cons, matchClaims, textOr_str, compareDigest_self _ own]
    exact others

theorem readGrant_issued (A : GrantAuthority) (r : GrantRequest) (usable : Usable A r) :
    readGrant A (grantToken A (r.encoded A)) = .ok (sortKeys (r.payload A)) := by
  rw [readGrant, splitToken_grantToken A _ usable.undotted]
  simp only [bne_self_eq_false, Bool.false_eq_true, if_false, usable.configured, Bool.not_true,
    compareDigest_self _ usable.signature, usable.decodes, Option.elim_some]

def claimNames : List String :=
  ["v", "aud", "jti", "authorization_id", "sub", "tenant", "tool", "args_digest", "iat", "exp"]

theorem payload_get (A : GrantAuthority) (r : GrantRequest) (name : String) (v : Value)
    (claimed : (r.payload A).get? name = some v) (listed : name ∈ claimNames) :
    (sortKeys (r.payload A)).get? name = some v := by
  rw [← claimed, sortKeys_payload]
  simp only [claimNames, List.mem_cons, List.not_mem_nil, or_false] at listed
  rcases listed with rfl | rfl | rfl | rfl | rfl | rfl | rfl | rfl | rfl | rfl <;> rfl

theorem checkGrant_use (A : GrantAuthority) (r : GrantRequest) (usable : Usable A r) (current : Int)
    (early : r.now - 60 ≤ current) (late : current ≤ r.expires) :
    checkGrant A (r.use A) current = .ok (r.spend current) := by
  have claims := matchClaims_self A.unicode
    [(r.principalId, "grant_principal_mismatch"), (r.tenantId, "grant_tenant_mismatch"),
     (r.tool, "grant_tool_mismatch"), (grantDigest A r.tool r.args, "grant_args_mismatch")]
    (by simp [usable.principalId, usable.tenantId, usable.tool, usable.digest])
  have read (name : String) (v : Value) (claimed : (r.payload A).get? name = some v)
      (listed : name ∈ claimNames) : (sortKeys (r.payload A)).get name = v := by
    rw [Value.get, Value.getD, payload_get A r name v claimed listed]
    rfl
  have expires : claimInt A (sortKeys (r.payload A)) "exp" = .ok r.expires := by
    rw [sortKeys_payload]
    rfl
  have issued : claimInt A (sortKeys (r.payload A)) "iat" = .ok r.now := by
    rw [sortKeys_payload]
    rfl
  have window : checkWindow A (sortKeys (r.payload A)) current = .ok () := by
    rw [checkWindow, expires]
    simp only [bind, Except.bind, if_neg (not_lt.mpr late), issued, if_neg (not_lt.mpr early)]
  have shape : (sortKeys (r.payload A)).isDict = true := by
    rw [sortKeys_payload]
    rfl
  have version : pyEq (int 1) (int 1) = true := by decide
  have audience : pyEq (str grantAudience) (str grantAudience) = true := by decide
  rw [checkGrant, GrantRequest.use]
  simp only [readGrant_issued A r usable, bind, Except.bind, shape, Bool.not_true,
    Bool.false_eq_true, if_false, window, expires,
    read "v" (int 1) rfl (by decide), read "aud" (str grantAudience) rfl (by decide), version,
    audience, Bool.or_false, read "sub" (str r.principalId) rfl (by decide),
    read "tenant" (str r.tenantId) rfl (by decide), read "tool" (str r.tool) rfl (by decide),
    read "args_digest" (str (grantDigest A r.tool r.args)) rfl (by decide),
    payload_get A r "jti" (str r.jti) rfl (by decide),
    payload_get A r "exp" (int r.expires) rfl (by decide),
    read "authorization_id" (str r.authorizationId) rfl (by decide)]
  simp only [List.map_cons, List.map_nil] at claims
  rw [claims]
  simp only [textOr_str]
  rfl

/-- What `issue_action_grant` returns is taken by the checks of `consume_action_grant`, for the call it names. -/
theorem issueActionGrant_checks (A : GrantAuthority) (r : GrantRequest) (usable : Usable A r) (token : String)
    (issued : issueActionGrant A r = .ok token) (current : Int) (early : r.now - 60 ≤ current)
    (late : current ≤ r.expires) :
    checkGrant A { r.use A with token := token } current = .ok (r.spend current) := by
  rw [issueActionGrant, if_pos usable.configured] at issued
  rw [← Except.ok.inj issued]
  exact checkGrant_use A r usable current early late

/-- The digest of a call fixes the tool and, as JSON, the arguments. -/
theorem canonicalText_call (tool tool' : String) (args args' : Value)
    (same : canonicalText (dict [("tool", str tool), ("args", args)]) =
      canonicalText (dict [("tool", str tool'), ("args", args')])) :
    tool = tool' ∧ jsonValue args = jsonValue args' := by
  have member (tool : String) (args : Value) :
      jsonValue (dict [("tool", str tool), ("args", args)]) =
        .object [("args".toList, jsonValue args), ("tool".toList, .string tool.toList)] := by
    simp [jsonValue, sortKeys, sortKeysItems, toJson, toJsonItems]
  have values := canonicalText_inj _ _ same
  rw [member, member] at values
  simp only [JsonText.Json.object.injEq, List.cons.injEq, Prod.mk.injEq, true_and, and_true,
    JsonText.Json.string.injEq, String.toList_inj] at values
  exact ⟨values.2, values.1⟩

end GenesisAgents
