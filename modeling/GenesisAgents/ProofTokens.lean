import GenesisAgents.PrincipalTokens
import GenesisAgents.ProofBridge
import GenesisAgents.Library.SeparatedPaths

/-! `verify_vcap_wrapper_jwt` of `proof_bridge.py`: which wrapper tokens verify, and with which payload. -/

namespace GenesisAgents.ProofTokens

open Value JsonText

structure Verifier where
  numerals : Numerals
  /-- `GENESIS_GATEWAY_PUBKEY_B64` -/
  gatewayPubkeyB64 : String
  /-- The Ed25519 key of a text in base64, as the function it verifies with, if there is one. -/
  publicKey : String → Option (List UInt8 → List Char → Bool)

/-- `base64.urlsafe_b64decode(part + "=" * (-len(part) % 4))` -/
def urlsafeB64decode (part : List Char) : Option (List UInt8) :=
  if part.all fun c => c.toNat < 128 then Base64Url.scan 0 0 0 (part ++ Base64Url.padding part) else none

/-- What `verify_vcap_wrapper_jwt` answers. -/
inductive Verification where
  | invalidJwtShape
  | payloadDecodeFailed
  | unsigned (payload : Value)
  | noVerifierPubkey (payload : Value)
  | verified (payload : Value)
  | signatureInvalid (payload : Value)
  /-- A key or a signature that could not be read. -/
  | failed (payload : Value)

namespace Verifier

variable (V : Verifier)

def decodePart (part : List Char) : Option Value :=
  (urlsafeB64decode part).bind fun data => (String.fromUTF8? ⟨data.toArray⟩).bind (loads V.numerals)

/-- `pubkey_b64 or os.getenv("GENESIS_GATEWAY_PUBKEY_B64", "")` -/
def pubkeyText (pubkeyB64 : Option String) : String :=
  if isSet pubkeyB64 then pubkeyB64.getD "" else V.gatewayPubkeyB64

/-- `verify_vcap_wrapper_jwt` -/
def verifyVcapWrapperJwt (token : String) (pubkeyB64 : Option String) : Verification :=
  match token.toList.splitOn '.' with
  | [header, part, supplied] =>
    match V.decodePart part with
    | none => .payloadDecodeFailed
    | some payload =>
      if supplied.isEmpty then .unsigned payload
      else if V.pubkeyText pubkeyB64 = "" then .noVerifierPubkey payload
      else
        match V.publicKey (V.pubkeyText pubkeyB64), urlsafeB64decode supplied with
        | some verify, some signature =>
          if verify signature (header ++ '.' :: part) then .verified payload else .signatureInvalid payload
        | _, _ => .failed payload
  | _ => .invalidJwtShape

def keyOf (pubkeyB64 : Option String) : Option (List UInt8 → List Char → Bool) :=
  if V.pubkeyText pubkeyB64 = "" then none else V.publicKey (V.pubkeyText pubkeyB64)

end Verifier

/-! What the gateway encodes is read back. -/

theorem urlsafeB64decode_encode (data : List UInt8) : urlsafeB64decode (b64url data) = some data := by
  have ascii : (b64url data).all (fun c => c.toNat < 128) = true := by
    refine List.all_eq_true.mpr fun c member => ?_
    have plain : Base64Url.alphabet.all (fun c => decide (c.toNat < 128)) = true := by decide
    exact List.all_eq_true.mp plain c (Base64Url.encode_alphabet data c member)
  rw [urlsafeB64decode, if_pos ascii]
  exact Base64Url.scan_encode data

theorem decodePart_text (V : Verifier) (text : String) :
    V.decodePart (b64url (utf8Bytes text)) = loads V.numerals text := by
  rw [Verifier.decodePart, urlsafeB64decode_encode, Option.bind_some]
  exact (congrArg (Option.bind · _) (utf8_read text)).trans (Option.bind_some _ _)

/-- `separators=(",", ":")`, as `json.loads` reads it -/
def compactAsciiStyle : Style := ⟨strictEscaping, [], []⟩

theorem compactAscii_strict : JsonStyle.compactAscii.Prints compactAsciiStyle := ⟨rfl, rfl, rfl⟩

theorem compactAscii_blank : compactAsciiStyle.Blank where
  item := List.forall_mem_nil _
  key := List.forall_mem_nil _

variable (N : Numerals)

theorem payload_loaded (p : ProofPayload) (genuine : Genuine N p.durationS) :
    Loaded N (sortKeys p.value) := by
  rw [p.sortKeys_value]
  cases p.conduitSessionId <;> simp [Loaded, LoadedItems, optionValue, genuine]

theorem payload_text (p : ProofPayload) (genuine : Genuine N p.durationS) (text : String)
    (written : sortedDumps p.value = some text) : loads N text = some (sortKeys p.value) :=
  loads_print N compactAsciiStyle rfl compactAscii_blank _ (payload_loaded N p genuine) text
    (dumps_eq_print _ _ compactAscii_strict _ text written)

theorem wrapperToken_parts (header text : String) (signature : List UInt8) :
    (wrapperToken header text signature).toList.splitOn '.' =
      [b64url (utf8Bytes header), b64url (utf8Bytes text), b64url signature] := by
  rw [wrapperToken, signingInput, String.toList_ofList, List.append_assoc, List.cons_append,
    List.splitOn_append_cons_self_of_not_mem (b64url_free _),
    List.splitOn_append_cons_self_of_not_mem (b64url_free _), List.splitOn_eq_singleton (b64url_free _)]

theorem b64url_nonempty (data : List UInt8) (filled : data ≠ []) : (b64url data).isEmpty = false := by
  refine Bool.eq_false_iff.mpr fun empty => filled ?_
  exact Base64Url.encode_injective ((List.isEmpty_iff.mp empty).trans rfl)

theorem signed_verifies (V : Verifier) (pubkeyB64 : Option String)
    (verify : List UInt8 → List Char → Bool) (payload : ProofPayload)
    (genuine : Genuine V.numerals payload.durationS) (key : V.keyOf pubkeyB64 = some verify)
    (text : String) (written : sortedDumps payload.value = some text) (signature : List UInt8)
    (filled : signature ≠ []) (accepts : verify signature (signingInput signedHeader text) = true) :
    V.verifyVcapWrapperJwt (wrapperToken signedHeader text signature) pubkeyB64 =
      .verified (sortKeys payload.value) := by
  rw [Verifier.keyOf] at key
  split at key
  · cases key
  next configured =>
  rw [Verifier.verifyVcapWrapperJwt, wrapperToken_parts]
  dsimp only
  rw [decodePart_text, payload_text V.numerals payload genuine text written]
  dsimp only
  rw [b64url_nonempty _ filled, if_neg Bool.false_ne_true, if_neg configured, key, urlsafeB64decode_encode]
  exact if_pos accepts

/-- A token that the gateway has signed verifies under the key of the gateway, and one that it could not
sign is reported as unsigned; both with the payload it was built from. -/
theorem built_verifies (V : Verifier) (pubkeyB64 : Option String) (sign : List Char → List UInt8)
    (verify : List UInt8 → List Char → Bool) (payload : ProofPayload)
    (genuine : Genuine V.numerals payload.durationS) (key : V.keyOf pubkeyB64 = some verify)
    (signs : ∀ message, sign message ≠ [] ∧ verify (sign message) message = true) :
    (∃ token, buildVcapWrapperJwt (some sign) payload = some token ∧
        V.verifyVcapWrapperJwt token pubkeyB64 = .verified (sortKeys payload.value)) ∧
      ∃ token, buildVcapWrapperJwt none payload = some token ∧
        V.verifyVcapWrapperJwt token pubkeyB64 = .unsigned (sortKeys payload.value) := by
  obtain ⟨text, written⟩ := payload_encodes payload
  rw [buildVcapWrapperJwt, buildVcapWrapperJwt, written]
  refine ⟨⟨_, rfl, ?_⟩, _, rfl, ?_⟩
  · obtain ⟨filled, accepts⟩ := signs (signingInput signedHeader text)
    exact signed_verifies V pubkeyB64 verify payload genuine key text written _ filled accepts
  · rw [Verifier.verifyVcapWrapperJwt, wrapperToken_parts]
    dsimp only
    rw [decodePart_text, payload_text V.numerals payload genuine text written]
    rfl

def quickProof : ProofPayload where
  iat := 1
  jti := "j"
  agentSlug := "scout"
  jobId := "job"
  proofBundleUri := "s3://b/p"
  inputHash := "i"
  outputHash := "o"
  conduitPubkey := ""
  conduitSessionId := some "job"
  durationS := ⟨"0.5", some (1 / 2), floatText_plain "0.5" rfl⟩

def echoSign (message : List Char) : List UInt8 := message.map (fun c => UInt8.ofNat c.toNat) ++ [1]

def echoVerifier : Verifier where
  numerals := { float := fun _ => quickProof.durationS, int := fun _ => none }
  gatewayPubkeyB64 := "AA=="
  publicKey text := if text = "AA==" then some fun signature message => signature == echoSign message else none

theorem quickProof_genuine : Genuine echoVerifier.numerals quickProof.durationS := .inr ⟨by decide, rfl⟩

theorem built_verifies_quick :
    ∃ token, buildVcapWrapperJwt (some echoSign) quickProof = some token ∧
      echoVerifier.verifyVcapWrapperJwt token none = .verified (sortKeys quickProof.value) :=
  (built_verifies echoVerifier none echoSign (fun signature message => signature == echoSign message)
    quickProof quickProof_genuine rfl fun _ =>
      ⟨List.append_ne_nil_of_right_ne_nil _ (List.cons_ne_nil _ _), beq_self_eq_true _⟩).1

/-- What a token that verifies consists of. -/
theorem verified_parts (V : Verifier) (token : String) (pubkeyB64 : Option String) (payload : Value)
    (verified : V.verifyVcapWrapperJwt token pubkeyB64 = .verified payload) :
    ∃ header part supplied verify signature, token.toList.splitOn '.' = [header, part, supplied] ∧
      V.decodePart part = some payload ∧ V.keyOf pubkeyB64 = some verify ∧
      urlsafeB64decode supplied = some signature ∧ verify signature (header ++ '.' :: part) = true := by
  rw [Verifier.verifyVcapWrapperJwt] at verified
  split at verified
  · next header part supplied parts =>
    cases decoded : V.decodePart part with
    | none =>
      rw [decoded] at verified
      cases verified
    | some value =>
      rw [decoded] at verified
      dsimp only at verified
      split at verified
      · cases verified
      split at verified
      · cases verified
      next configured =>
      split at verified
      · next verify signature key read =>
        split at verified
        · next accepted =>
          obtain rfl := Verification.verified.inj verified
          refine ⟨header, part, supplied, verify, signature, parts, decoded, ?_, read, accepted⟩
          exact (if_neg configured).trans key
        · cases verified
      · cases verified
  · cases verified

/-- Where the key accepts what the gateway has signed and nothing else, a token that verifies has the
payload of one that was issued, whatever was done to the token. -/
theorem verified_issued (V : Verifier) (pubkeyB64 : Option String) (issued : List ProofPayload)
    (genuine : ∀ p ∈ issued, Genuine V.numerals p.durationS)
    (unforgeable : ∀ verify, V.keyOf pubkeyB64 = some verify → ∀ signature message,
      verify signature message = true → ∃ p ∈ issued, ∃ text, sortedDumps p.value = some text ∧
        message = signingInput signedHeader text)
    (token : String) (payload : Value)
    (verified : V.verifyVcapWrapperJwt token pubkeyB64 = .verified payload) :
    ∃ p ∈ issued, payload = sortKeys p.value := by
  obtain ⟨header, part, supplied, verify, signature, parts, decoded, key, -, accepted⟩ :=
    verified_parts V token pubkeyB64 payload verified
  obtain ⟨p, member, text, written, message⟩ := unforgeable verify key signature _ accepted
  have free := SeparatedPaths.splitOn_free '.' token.toList
  rw [parts] at free
  have undotted : '.' ∉ header := free header List.mem_cons_self
  obtain ⟨-, same⟩ := Delimited.split_unique '.' _ _ _ _ undotted (b64url_free _) message
  rw [same, decodePart_text, payload_text V.numerals p (genuine p member) text written] at decoded
  exact ⟨p, member, (Option.some.inj decoded).symm⟩

def strictVerifier (text : String) : Verifier :=
  { echoVerifier with publicKey := fun _ => some fun signature message =>
      message == signingInput signedHeader text && signature == echoSign message }

theorem verified_issued_quick : ∃ p ∈ [quickProof], sortKeys quickProof.value = sortKeys p.value := by
  obtain ⟨text, written⟩ := payload_encodes quickProof
  refine verified_issued (strictVerifier text) none [quickProof]
    (List.forall_mem_singleton.mpr quickProof_genuine) ?_ (wrapperToken signedHeader text
      (echoSign (signingInput signedHeader text))) _ ?_
  · intro verify key signature message accepted
    obtain rfl := Option.some.inj key
    obtain ⟨same, -⟩ := Bool.and_eq_true_iff.mp accepted
    exact ⟨quickProof, List.mem_singleton_self _, text, written, eq_of_beq same⟩
  · refine signed_verifies (strictVerifier text) none _ quickProof quickProof_genuine rfl text written _
      (List.append_ne_nil_of_right_ne_nil _ (List.cons_ne_nil _ _)) ?_
    exact Bool.and_eq_true_iff.mpr ⟨beq_self_eq_true _, beq_self_eq_true _⟩

end GenesisAgents.ProofTokens
