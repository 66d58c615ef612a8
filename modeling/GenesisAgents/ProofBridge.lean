import GenesisAgents.JsonValue
import GenesisAgents.Library.Base64Url
import GenesisAgents.Library.Delimited
import GenesisAgents.Library.Runs

/-! Proof bundles: `proof_bridge.py`, over the `genesis_proofs` table and the uploads of
`artifact_store.py`. -/

namespace GenesisAgents

open Value JsonText

structure ProofPayload where
  iat : Int
  jti : String
  agentSlug : String
  jobId : String
  proofBundleUri : String
  inputHash : String
  outputHash : String
  conduitPubkey : String
  conduitSessionId : Option String
  durationS : PyFloat

def ProofPayload.value (p : ProofPayload) : Value :=
  dict [("iat", int p.iat), ("jti", str p.jti), ("agent_slug", str p.agentSlug),
    ("job_id", str p.jobId), ("proof_bundle_uri", str p.proofBundleUri),
    ("input_hash", str p.inputHash), ("output_hash", str p.outputHash),
    ("conduit_pubkey", str p.conduitPubkey), ("conduit_session_id", optionValue p.conduitSessionId),
    ("duration_s", float p.durationS)]

/-- `json.dumps(v, sort_keys=True, separators=(",", ":"))` -/
def sortedDumps (v : Value) : Option String := dumpsWith .compactAscii (sortKeys v)

/-- `_b64url` -/
def b64url (data : List UInt8) : List Char := Base64Url.encode data

def utf8Bytes (text : String) : List UInt8 := text.toByteArray.data.toList

def signingInput (header payload : String) : List Char :=
  b64url (utf8Bytes header) ++ '.' :: b64url (utf8Bytes payload)

/-- The text of a token; the signature of an unsigned one is empty. -/
def wrapperToken (header payload : String) (signature : List UInt8) : String :=
  String.ofList (signingInput header payload ++ '.' :: b64url signature)

def unsignedHeader : String := "\x7b\"alg\":\"none\",\"typ\":\"JWT\"\x7d"
def signedHeader : String := "\x7b\"alg\":\"EdDSA\",\"typ\":\"JWT\"\x7d"

/-- `build_vcap_wrapper_jwt`, with the Ed25519 key of the gateway as the function it signs with. -/
def buildVcapWrapperJwt (key : Option (List Char → List UInt8)) (payload : ProofPayload) :
    Option String :=
  (sortedDumps payload.value).map fun text =>
    match key with
    | none => wrapperToken unsignedHeader text []
    | some sign => wrapperToken signedHeader text (sign (signingInput signedHeader text))

def Wraps (token : String) (payload : ProofPayload) : Prop :=
  ∃ header text signature, sortedDumps payload.value = some text ∧
    token = wrapperToken header text signature

/-- How `upload_file` fares. S3 errors fall back to the disk, other exceptions leave it. -/
inductive UploadEvent where
  | missing
  | s3 (signedUrl : String)
  | disk
  | raises

def UploadEvent.succeeds : UploadEvent → Bool
  | s3 _ => true
  | disk => true
  | _ => false

structure UploadResult where
  ok : Bool
  uri : Option String
  signedUrl : Option String

/-- What `proof_bridge` and the uploads take from outside, and the environment they read. -/
structure ProofSite where
  /-- `hashlib.sha256(text.encode("utf-8")).hexdigest()` -/
  sha256 : String → String
  /-- `S3_BUCKET` -/
  bucket : String
  /-- `str(LOCAL_DIR / job_id / name)` -/
  localDest : String → String → String
  /-- `str(Path(v))`; `none` is a `TypeError`. -/
  asPath : Value → Option String

namespace ProofSite

variable (P : ProofSite)

/-- `upload_file`; `none` when it raises. -/
def uploadFile (event : UploadEvent) (jobId name : String) : Option UploadResult :=
  match event with
  | .missing => some ⟨false, none, none⟩
  | .s3 signedUrl => some ⟨true, some ("s3://" ++ P.bucket ++ "/" ++ jobId ++ "/" ++ name), some signedUrl⟩
  | .disk => some ⟨true, some ("file://" ++ P.localDest jobId name),
      some ("/artifacts/" ++ jobId ++ "/" ++ name)⟩
  | .raises => none

end ProofSite

structure ProofRow where
  id : String
  jobId : String
  agentSlug : String
  buyerClientId : Option String
  buyerWalletId : Option String
  proofBundleUri : String
  proofBundleSignedUrl : String
  conduitSessionId : Option String
  conduitPublicKey : String
  inputHash : String
  outputHash : String
  vcapWrapperJwt : String
  durationSeconds : PyFloat

/-- `genesis_proofs`, with its unique constraint on `"jobId"`. -/
structure ProofTable where
  rows : List ProofRow
  unique : (rows.map ProofRow.jobId).Nodup

/-- The `DO UPDATE SET` of the insert. -/
def ProofRow.overwritten (row : ProofRow) (old : ProofRow) : ProofRow :=
  if old.jobId = row.jobId then
    { old with proofBundleUri := row.proofBundleUri, vcapWrapperJwt := row.vcapWrapperJwt }
  else old

theorem ProofRow.overwritten_jobId (row old : ProofRow) : (row.overwritten old).jobId = old.jobId := by
  rw [overwritten]
  split <;> rfl

namespace ProofTable

variable (T : ProofTable) (row : ProofRow)

def empty : ProofTable := ⟨[], List.nodup_nil⟩

/-- `INSERT INTO genesis_proofs ... ON CONFLICT ("jobId") DO UPDATE SET ...` -/
def upsert : ProofTable :=
  if conflict : row.jobId ∈ T.rows.map ProofRow.jobId then
    { rows := T.rows.map row.overwritten
      unique := by
        have same : (ProofRow.jobId ∘ row.overwritten) = ProofRow.jobId := funext row.overwritten_jobId
        rw [List.map_map, same]
        exact T.unique }
  else
    { rows := T.rows ++ [row]
      unique := by
        rw [List.map_append, List.nodup_append]
        refine ⟨T.unique, List.nodup_singleton _, ?_⟩
        rintro jobId there _ new rfl
        obtain rfl : jobId = row.jobId := by simpa using new
        exact conflict there }

/-- `RETURNING id` -/
def returnedId : String := ((T.rows.find? fun old => old.jobId = row.jobId).map ProofRow.id).getD row.id

end ProofTable

structure ProofDb where
  proofs : ProofTable
  /-- The updates of `genesis_jobs."proofId"`: a proof and its job. -/
  links : List (String × String)

/-- How the database fares: `DATABASE_URL` is unset; the connection, the insert or its commit fails;
only the link fails; all is committed. -/
inductive PersistEvent where
  | unset
  | refused
  | linkFails
  | committed

def PersistEvent.writes : PersistEvent → Bool
  | linkFails => true
  | committed => true
  | _ => false

/-- `_persist_proof` -/
def persistProof (event : PersistEvent) (σ : ProofDb) (row : ProofRow) : ProofDb × Option String :=
  let proofs := σ.proofs.upsert row
  let id := σ.proofs.returnedId row
  match event with
  | .unset => (σ, none)
  | .refused => (σ, none)
  | .linkFails => if row.jobId = "" then ({ σ with proofs }, some id) else ({ σ with proofs }, none)
  | .committed =>
    if row.jobId = "" then ({ σ with proofs }, some id)
    else ({ proofs, links := σ.links ++ [(id, row.jobId)] }, some id)

structure ConduitBridge where
  /-- The result of `export_proof`; `none` when it raises. -/
  exported : Option Value
  /-- `getattr(bridge, "_session_id", None)` -/
  privateSessionId : Option String
  /-- `getattr(bridge, "session_id", "unknown")` -/
  publicSessionId : Option String
  /-- `bridge._identity.public_key_hex`, empty when there is none. -/
  identityKey : String
  /-- `bridge.public_key_b64`, empty when there is none. -/
  publicKey : String

namespace ConduitBridge

variable (bridge : ConduitBridge)

def sessionId : Option String :=
  if bridge.privateSessionId.getD "" = "" then bridge.publicSessionId else bridge.privateSessionId

def pubkey : String := if bridge.identityKey = "" then bridge.publicKey else bridge.identityKey

end ConduitBridge

/-- One call of `generate_proof_for_job`: its arguments, and how the world answers it. -/
structure ProofCall where
  jobId : String
  agentSlug : String
  bridge : Option ConduitBridge
  jobDir : String
  inputData : Value
  outputData : Value
  /-- `completed_at - started_at`, and rounded to three places. -/
  duration : PyFloat
  roundedDuration : PyFloat
  buyerClientId : Option String
  buyerWalletId : Option String
  iat : Int
  jti : String
  proofId : String
  key : Option (List Char → List UInt8)
  mkdirOk : Bool
  fileExists : String → Bool
  upload : UploadEvent
  persist : PersistEvent

structure BuiltProof where
  upload : UploadResult
  payload : ProofPayload
  jwt : String
  row : ProofRow

inductive ProofResult where
  | failed (error : String)
  | ok (proofId uri signedUrl : Option String) (jwt inputHash outputHash : String)

namespace ProofSite

variable (P : ProofSite)

def canonicalHash (v : Value) : Option String := (sortedDumps v).map P.sha256

/-- The file that `export_proof` has left, or the error. -/
def actualPath (call : ProofCall) (bridge : ConduitBridge) : Except String String :=
  let proofPath := call.jobDir ++ "/proof/proof.tar.gz"
  let existing (path : String) : Except String String :=
    if call.fileExists path then .ok path
    else if call.fileExists proofPath then .ok proofPath
    else .error "proof_export_no_file"
  match bridge.exported with
  | none => .error "proof_export_failed"
  | some result =>
    if !result.isDict then existing proofPath
    else if !(result.getD "success" (.bool true)).truthy && (result.get "error").truthy then
      .error "proof_export_failed"
    else
      match P.asPath (((result.get "path").orElse (result.get "output_path")).orElse (str proofPath)) with
      | none => .error "proof_export_failed"
      | some path => existing path

/-- Steps 1 to 5 of `generate_proof_for_job`. -/
def buildProof (call : ProofCall) : Except String BuiltProof :=
  match P.canonicalHash call.inputData, P.canonicalHash call.outputData with
  | some inputHash, some outputHash =>
    if !call.mkdirOk then .error "proof_pipeline_exception"
    else match call.bridge with
      | none => .error "no_bridge"
      | some bridge =>
        match P.actualPath call bridge with
        | .error error => .error error
        | .ok path =>
          match P.uploadFile call.upload call.jobId "proof.tar.gz" with
          | none => .error "proof_pipeline_exception"
          | some upload =>
            let payload : ProofPayload :=
              { iat := call.iat, jti := call.jti, agentSlug := call.agentSlug, jobId := call.jobId
                proofBundleUri := upload.uri.getD ("file://" ++ path), inputHash, outputHash
                conduitPubkey := bridge.pubkey, conduitSessionId := bridge.sessionId
                durationS := call.roundedDuration }
            match buildVcapWrapperJwt call.key payload with
            | none => .error "proof_pipeline_exception"
            | some jwt => .ok
              { upload, payload, jwt
                row :=
                  { id := call.proofId, jobId := call.jobId, agentSlug := call.agentSlug
                    buyerClientId := call.buyerClientId, buyerWalletId := call.buyerWalletId
                    proofBundleUri := upload.uri.getD ""
                    proofBundleSignedUrl := upload.signedUrl.getD ""
                    conduitSessionId := bridge.sessionId, conduitPublicKey := bridge.pubkey
                    inputHash, outputHash, vcapWrapperJwt := jwt
                    durationSeconds := call.duration } }
  | _, _ => .error "proof_pipeline_exception"

/-- `generate_proof_for_job` -/
def generateProofForJob (σ : ProofDb) (call : ProofCall) : ProofDb × ProofResult :=
  match P.buildProof call with
  | .error error => (σ, .failed error)
  | .ok proof =>
    let (σ', proofId) := persistProof call.persist σ proof.row
    (σ', .ok proofId proof.upload.uri proof.upload.signedUrl proof.jwt proof.row.inputHash
      proof.row.outputHash)

def step (σ : ProofDb) (call : ProofCall) : ProofDb := (P.generateProofForJob σ call).1

def stores (call : ProofCall) : Bool :=
  (P.canonicalHash call.inputData).isSome && (P.canonicalHash call.outputData).isSome &&
    call.mkdirOk && call.bridge.any (fun bridge => (P.actualPath call bridge).isOk) &&
    call.upload.succeeds && call.persist.writes

/-- The job has no row yet, or one with the hashes and the session of the call. -/
def sameRun (σ : ProofDb) (call : ProofCall) : Bool :=
  σ.proofs.rows.all fun row => row.jobId != call.jobId ||
    (P.canonicalHash call.inputData == some row.inputHash &&
      P.canonicalHash call.outputData == some row.outputHash &&
      call.bridge.map ConduitBridge.sessionId == some row.conduitSessionId)

end ProofSite

/-- The row has the fields of the payload in its own token, if the upload behind the token succeeded:
then, and only then, there is a URI. -/
def ProofRow.MatchesToken (row : ProofRow) : Prop :=
  ∃ payload, Wraps row.vcapWrapperJwt payload ∧
    (row.proofBundleUri ≠ "" →
      row.inputHash = payload.inputHash ∧ row.outputHash = payload.outputHash ∧
        row.conduitSessionId = payload.conduitSessionId ∧
        row.proofBundleUri = payload.proofBundleUri)

def ProofDb.Matches (σ : ProofDb) : Prop := ∀ row ∈ σ.proofs.rows, row.MatchesToken

def ProofDb.empty : ProofDb := ⟨ProofTable.empty, []⟩

/-! A token has one payload in it, as far as the columns go. -/

theorem utf8Bytes_injective : Function.Injective utf8Bytes := by
  intro text other same
  apply String.toByteArray_inj.mp
  exact ByteArray.ext (Array.toList_inj.mp same)

theorem b64url_free (data : List UInt8) : '.' ∉ b64url data := by
  intro dot
  exact absurd (Base64Url.encode_alphabet data '.' dot) (by decide)

theorem wrapperToken_text (header text header' text' : String) (signature signature' : List UInt8)
    (same : wrapperToken header text signature = wrapperToken header' text' signature') :
    text = text' := by
  have chars := String.ofList_injective same
  simp only [signingInput, List.append_assoc, List.cons_append] at chars
  have tails := (Delimited.split_unique '.' _ _ _ _ (b64url_free _) (b64url_free _) chars).2
  have parts := (Delimited.split_unique '.' _ _ _ _ (b64url_free _) (b64url_free _) tails).1
  exact utf8Bytes_injective (Base64Url.encode_injective parts)

theorem ProofPayload.sortKeys_value (p : ProofPayload) :
    sortKeys p.value = dict [("agent_slug", str p.agentSlug), ("conduit_pubkey", str p.conduitPubkey),
      ("conduit_session_id", optionValue p.conduitSessionId), ("duration_s", float p.durationS),
      ("iat", int p.iat), ("input_hash", str p.inputHash), ("job_id", str p.jobId),
      ("jti", str p.jti), ("output_hash", str p.outputHash),
      ("proof_bundle_uri", str p.proofBundleUri)] := by
  rw [ProofPayload.value, sortKeys]
  simp only [sortKeysItems, sortKeys_optionValue, sortKeys]
  simp [List.insertionSort, List.orderedInsert]

theorem payload_encodes (p : ProofPayload) : ∃ text, sortedDumps p.value = some text := by
  apply Option.isSome_iff_exists.mp
  rw [sortedDumps, dumpsWith_isSome, p.sortKeys_value]
  cases p.conduitSessionId <;> simp [jsonable, jsonableItems, optionValue]

theorem payload_unique (token : String) (p q : ProofPayload) (first : Wraps token p)
    (second : Wraps token q) :
    p.inputHash = q.inputHash ∧ p.outputHash = q.outputHash ∧
      p.conduitSessionId = q.conduitSessionId ∧ p.proofBundleUri = q.proofBundleUri := by
  obtain ⟨header, text, signature, written, rfl⟩ := first
  obtain ⟨header', text', signature', written', same⟩ := second
  obtain rfl := wrapperToken_text _ _ _ _ _ _ same
  rw [sortedDumps, p.sortKeys_value] at written
  rw [sortedDumps, q.sortKeys_value] at written'
  have printed := dumps_eq_print _ _ compactAscii_prints _ _ written
  have printed' := dumps_eq_print _ _ compactAscii_prints _ _ written'
  have values := print_inj _ _ _ (toJson_plain _) (toJson_plain _) (printed.symm.trans printed')
  simp only [toJson, toJsonItems, Json.object.injEq, List.cons.injEq, Prod.mk.injEq, true_and,
    and_true, Json.string.injEq, String.toList_inj] at values
  obtain ⟨-, -, session, -, -, input, -, -, output, uri⟩ := values
  exact ⟨input, output, toJson_optionValue_inj _ _ session, uri⟩

/-! What the pipeline builds, and what a call does to the table. -/

theorem uploadFile_succeeds (P : ProofSite) (event : UploadEvent) (jobId name : String)
    (upload : UploadResult) (done : P.uploadFile event jobId name = some upload) :
    (event.succeeds = true ∧ ∃ uri, upload.uri = some uri ∧ uri ≠ "") ∨
      (event.succeeds = false ∧ upload.uri = none) := by
  cases event with
  | missing =>
    obtain rfl := Option.some.inj done
    exact .inr ⟨rfl, rfl⟩
  | raises => cases done
  | s3 signedUrl =>
    obtain rfl := Option.some.inj done
    exact .inl ⟨rfl, _, rfl, by simp⟩
  | disk =>
    obtain rfl := Option.some.inj done
    exact .inl ⟨rfl, _, rfl, by simp⟩

structure BuiltFrom (P : ProofSite) (call : ProofCall) (proof : BuiltProof) : Prop where
  jobId : proof.row.jobId = call.jobId
  inputHash : P.canonicalHash call.inputData = some proof.row.inputHash
  outputHash : P.canonicalHash call.outputData = some proof.row.outputHash
  session : call.bridge.map ConduitBridge.sessionId = some proof.row.conduitSessionId
  wraps : Wraps proof.row.vcapWrapperJwt proof.payload
  sameInput : proof.row.inputHash = proof.payload.inputHash
  sameOutput : proof.row.outputHash = proof.payload.outputHash
  sameSession : proof.row.conduitSessionId = proof.payload.conduitSessionId
  sameUri : proof.row.proofBundleUri ≠ "" → proof.row.proofBundleUri = proof.payload.proofBundleUri
  stored : P.stores call = (decide (proof.row.proofBundleUri ≠ "") && call.persist.writes)

theorem buildVcapWrapperJwt_wraps (key : Option (List Char → List UInt8)) (payload : ProofPayload)
    (jwt : String) (built : buildVcapWrapperJwt key payload = some jwt) : Wraps jwt payload := by
  rw [buildVcapWrapperJwt, Option.map_eq_some_iff] at built
  obtain ⟨text, encoded, rfl⟩ := built
  cases key with
  | none => exact ⟨_, text, _, encoded, rfl⟩
  | some sign => exact ⟨_, text, _, encoded, rfl⟩

theorem buildProof_from (P : ProofSite) (call : ProofCall) (proof : BuiltProof)
    (built : P.buildProof call = .ok proof) : BuiltFrom P call proof := by
  rw [ProofSite.buildProof] at built
  split at built
  · rename_i inputHash outputHash input output
    split at built
    · cases built
    rename_i made
    split at built
    · cases built
    rename_i bridge connected
    split at built
    · cases built
    rename_i path exported
    split at built
    · cases built
    rename_i upload uploaded
    dsimp only at built
    split at built
    · cases built
    rename_i jwt wrapped
    obtain rfl := Except.ok.inj built
    have carried := buildVcapWrapperJwt_wraps _ _ jwt wrapped
    have reaches : P.stores call = (call.upload.succeeds && call.persist.writes) := by
      simp_all [ProofSite.stores, Except.isOk, Except.toBool]
    rcases uploadFile_succeeds P _ _ _ upload uploaded with ⟨succeeds, uri, there, set⟩ | ⟨fails, absent⟩
    · refine ⟨rfl, input, output, by rw [connected]; rfl, carried, rfl, rfl, rfl, fun _ => ?_, ?_⟩
      · simp [there]
      · simp [reaches, succeeds, there, set]
    · refine ⟨rfl, input, output, by rw [connected]; rfl, carried, rfl, rfl, rfl, fun some => ?_, ?_⟩
      · simp [absent] at some
      · simp [reaches, fails, absent]
  · cases built

theorem buildProof_error (P : ProofSite) (call : ProofCall) (error : String)
    (failed : P.buildProof call = .error error) : P.stores call = false := by
  rw [ProofSite.buildProof] at failed
  split at failed
  · rename_i inputHash outputHash input output
    split at failed
    · rename_i unmade
      simp_all [ProofSite.stores]
    split at failed
    · rename_i absent
      simp [ProofSite.stores, absent]
    rename_i bridge connected
    split at failed
    · rename_i exported
      simp [ProofSite.stores, connected, exported, Except.isOk, Except.toBool]
    split at failed
    · rename_i raised
      have fails : call.upload.succeeds = false := by
        rcases event : call.upload <;> first | rfl | (rw [event] at raised; cases raised)
      simp [ProofSite.stores, fails]
    dsimp only at failed
    split at failed
    · rename_i unbuilt
      rw [buildVcapWrapperJwt, Option.map_eq_none_iff] at unbuilt
      obtain ⟨text, encoded⟩ := payload_encodes _
      exact absurd (encoded.symm.trans unbuilt) (by simp)
    · cases failed
  · rename_i unhashed
    rcases input : P.canonicalHash call.inputData with _ | inputHash
    · simp [ProofSite.stores, input]
    · rcases output : P.canonicalHash call.outputData with _ | outputHash
      · simp [ProofSite.stores, output]
      · exact absurd output (unhashed inputHash outputHash input)

theorem persistProof_proofs (event : PersistEvent) (σ : ProofDb) (row : ProofRow) :
    (persistProof event σ row).1.proofs = if event.writes then σ.proofs.upsert row else σ.proofs := by
  cases event with
  | unset => rfl
  | refused => rfl
  | linkFails =>
    rw [persistProof]
    split <;> rfl
  | committed =>
    rw [persistProof]
    split <;> rfl

/-- A call leaves the table as it is, or writes the row of a proof that was built from it. -/
theorem step_proofs (P : ProofSite) (σ : ProofDb) (call : ProofCall) :
    ((P.step σ call).proofs = σ.proofs ∧ P.stores call = false) ∨
      ∃ proof, BuiltFrom P call proof ∧ call.persist.writes = true ∧
        (P.step σ call).proofs = σ.proofs.upsert proof.row := by
  rw [ProofSite.step, ProofSite.generateProofForJob]
  rcases built : P.buildProof call with error | proof
  · exact .inl ⟨rfl, buildProof_error P call error built⟩
  · have source := buildProof_from P call proof built
    have proofs := persistProof_proofs call.persist σ proof.row
    rcases writes : call.persist.writes with _ | _
    · rw [writes] at proofs
      exact .inl ⟨proofs, by rw [source.stored, writes, Bool.and_false]⟩
    · rw [writes] at proofs
      exact .inr ⟨proof, source, rfl, proofs⟩

theorem mem_upsert (T : ProofTable) (row r : ProofRow) :
    r ∈ (T.upsert row).rows ↔
      (∃ old ∈ T.rows, row.overwritten old = r) ∨ (r = row ∧ ∀ old ∈ T.rows, old.jobId ≠ row.jobId) := by
  rw [ProofTable.upsert]
  by_cases conflict : row.jobId ∈ T.rows.map ProofRow.jobId
  · obtain ⟨old, there, same⟩ := List.mem_map.mp conflict
    rw [dif_pos conflict]
    simp only [List.mem_map]
    constructor
    · exact .inl
    · rintro (updated | ⟨-, fresh⟩)
      · exact updated
      · exact absurd same (fresh old there)
  · have fresh : ∀ old ∈ T.rows, old.jobId ≠ row.jobId :=
      fun old there same => conflict (List.mem_map.mpr ⟨old, there, same⟩)
    rw [dif_neg conflict]
    simp only [List.mem_append, List.mem_singleton]
    constructor
    · rintro (there | rfl)
      · exact .inl ⟨r, there, if_neg (fresh r there)⟩
      · exact .inr ⟨rfl, fresh⟩
    · rintro (⟨old, there, rfl⟩ | ⟨rfl, -⟩)
      · rw [ProofRow.overwritten, if_neg (fresh old there)]
        exact .inl there
      · exact .inr rfl

theorem built_matches (P : ProofSite) (call : ProofCall) (proof : BuiltProof)
    (built : BuiltFrom P call proof) : proof.row.MatchesToken :=
  ⟨proof.payload, built.wraps, fun set =>
    ⟨built.sameInput, built.sameOutput, built.sameSession, built.sameUri set⟩⟩

/-- An overwritten row has the token and the URI of the new one; the rest is as old as it was. -/
theorem overwritten_matches (P : ProofSite) (call : ProofCall) (proof : BuiltProof) (old : ProofRow)
    (built : BuiltFrom P call proof) (sameJob : old.jobId = proof.row.jobId) :
    (proof.row.overwritten old).MatchesToken ↔
      (proof.row.proofBundleUri ≠ "" → old.inputHash = proof.row.inputHash ∧
        old.outputHash = proof.row.outputHash ∧ old.conduitSessionId = proof.row.conduitSessionId) := by
  rw [ProofRow.overwritten, if_pos sameJob, built.sameInput, built.sameOutput, built.sameSession]
  constructor
  · rintro ⟨payload, wraps, fields⟩ set
    obtain ⟨input, output, session, -⟩ := payload_unique _ _ _ wraps built.wraps
    obtain ⟨sameInput, sameOutput, sameSession, -⟩ := fields set
    exact ⟨sameInput.trans input, sameOutput.trans output, sameSession.trans session⟩
  · intro fields
    refine ⟨proof.payload, built.wraps, fun set => ?_⟩
    obtain ⟨input, output, session⟩ := fields set
    exact ⟨input, output, session, built.sameUri set⟩

theorem sameRun_iff (P : ProofSite) (σ : ProofDb) (call : ProofCall) (proof : BuiltProof)
    (built : BuiltFrom P call proof) :
    P.sameRun σ call = true ↔ ∀ old ∈ σ.proofs.rows, old.jobId = proof.row.jobId →
      old.inputHash = proof.row.inputHash ∧ old.outputHash = proof.row.outputHash ∧
        old.conduitSessionId = proof.row.conduitSessionId := by
  rw [ProofSite.sameRun, List.all_eq_true]
  refine forall₂_congr fun old _ => ?_
  rw [built.inputHash, built.outputHash, built.session, built.jobId]
  by_cases job : old.jobId = call.jobId
  · simp only [job, bne_self_eq_false, Bool.false_or, Bool.and_eq_true, beq_iff_eq, Option.some.injEq,
      true_implies, and_assoc]
    exact and_congr eq_comm (and_congr eq_comm eq_comm)
  · simp [job]

/-- A call keeps the table in order exactly when it stores nothing or repeats the run of the job. -/
theorem step_matches_iff (P : ProofSite) (σ : ProofDb) (call : ProofCall) (inOrder : σ.Matches) :
    (!P.stores call || P.sameRun σ call) = true ↔ (P.step σ call).Matches := by
  rcases step_proofs P σ call with ⟨same, idle⟩ | ⟨proof, built, writes, proofs⟩
  · rw [idle, ProofDb.Matches, same]
    exact iff_of_true rfl inOrder
  · have stored : P.stores call = true ↔ proof.row.proofBundleUri ≠ "" := by
      rw [built.stored, writes, Bool.and_true, decide_eq_true_iff]
    rw [Bool.or_eq_true, Bool.not_eq_true', ← Bool.not_eq_true, ← imp_iff_not_or, stored,
      sameRun_iff P σ call proof built, ProofDb.Matches, proofs]
    constructor
    · intro repeats r member
      rcases (mem_upsert _ _ r).mp member with ⟨old, there, rfl⟩ | ⟨rfl, -⟩
      · by_cases job : old.jobId = proof.row.jobId
        · exact (overwritten_matches P call proof old built job).mpr fun set => repeats set old there job
        · rw [ProofRow.overwritten, if_neg job]
          exact inOrder old there
      · exact built_matches P call proof built
    · intro after set old there job
      have updated := after _ ((mem_upsert _ proof.row _).mpr (.inl ⟨old, there, rfl⟩))
      exact (overwritten_matches P call proof old built job).mp updated set

theorem matches_always_iff_guarded (P : ProofSite) (calls : List ProofCall) :
    Runs.Guarded P.step (fun σ call => !P.stores call || P.sameRun σ call) ProofDb.empty calls = true ↔
      ∀ first rest, calls = first ++ rest → (Runs.run P.step ProofDb.empty first).Matches := by
  apply Runs.guarded_iff_always P.step (fun _ => True) ProofDb.Matches
  · exact fun _ _ _ => trivial
  · exact fun σ call _ inOrder => step_matches_iff P σ call inOrder
  · trivial
  · exact fun row member => absurd member List.not_mem_nil

/-- After each call every row has the hashes, the session and the URI of its own token, exactly when
every call that stores an uploaded proof comes for a job without a row or with the same hashes and the
same session as its row. -/
theorem proofs_match_iff (P : ProofSite) (calls : List ProofCall) :
    (∀ first rest, calls = first ++ rest → (Runs.run P.step ProofDb.empty first).Matches) ↔
      ∀ first call rest, calls = first ++ call :: rest → P.stores call = true →
        P.sameRun (Runs.run P.step ProofDb.empty first) call = true := by
  rw [← matches_always_iff_guarded, Runs.guarded_iff_forall]
  refine forall₃_congr fun first call rest => imp_congr_right fun _ => ?_
  cases P.stores call <;> simp

theorem first_row (P : ProofSite) (call : ProofCall) (stores : P.stores call = true) :
    ∃ row ∈ (P.step ProofDb.empty call).proofs.rows, row.jobId = call.jobId ∧
      P.canonicalHash call.outputData = some row.outputHash := by
  rcases step_proofs P ProofDb.empty call with ⟨-, idle⟩ | ⟨proof, built, -, proofs⟩
  · rw [idle] at stores
    contradiction
  · refine ⟨proof.row, ?_, built.jobId, built.outputHash⟩
    rw [proofs, mem_upsert]
    exact .inr ⟨rfl, fun old member => absurd member List.not_mem_nil⟩

def diskSite : ProofSite where
  sha256 text :=
    if text = "\x7b\"task\":\"quote\"\x7d" then
      "ea12164040c2f1cbdbe6446f2962486e2ecc4ee2f1c8a356d189c968bba750d3"
    else if text = "\x7b\"response\":\"draft\"\x7d" then
      "f36d2724051c5bf05e9709cf9ad1a2ab207fd1a2aee573cc3face96cc01f7c53"
    else "d5dc66cd3a14941aee8ded6e5a4bbf79c78937842706de4a62818354824a66ab"
  bucket := "swarmsync-genesis-artifacts"
  localDest jobId name := "/var/data/genesis-artifacts/" ++ jobId ++ "/" ++ name
  asPath v := match v with
    | .str s => some s
    | _ => none

/-- A run of job `j1`, with the proof bundle stored on the disk. -/
def jobRun (response proofId : String) : ProofCall where
  jobId := "j1"
  agentSlug := "genesis-research"
  bridge := some
    { exported := some (dict [("success", .bool true), ("path", str "/jobs/j1/proof/proof.tar.gz")])
      privateSessionId := none, publicSessionId := some "s1", identityKey := "", publicKey := "" }
  jobDir := "/jobs/j1"
  inputData := dict [("task", str "quote")]
  outputData := dict [("response", str response)]
  duration := ⟨"2.5", some (5 / 2), floatText_plain _ rfl⟩
  roundedDuration := ⟨"2.5", some (5 / 2), floatText_plain _ rfl⟩
  buyerClientId := none
  buyerWalletId := none
  iat := 1750000000
  jti := "p1"
  proofId := proofId
  key := none
  mkdirOk := true
  fileExists _ := true
  upload := .disk
  persist := .committed

/-- A second run of a job with another answer leaves the hash of the first one beside the new token. -/
theorem rerun_leaves_old_hash :
    ¬ ∀ first rest, [jobRun "draft" "p1", jobRun "final" "p2"] = first ++ rest →
      (Runs.run diskSite.step ProofDb.empty first).Matches := by
  rw [← matches_always_iff_guarded]
  intro guarded
  simp only [Runs.Guarded, Bool.and_eq_true] at guarded
  obtain ⟨-, second, -⟩ := guarded
  have stores (response proofId : String) : diskSite.stores (jobRun response proofId) = true := by
    rfl
  obtain ⟨row, there, job, output⟩ := first_row diskSite (jobRun "draft" "p1") (stores "draft" "p1")
  rw [stores, Bool.not_true, Bool.false_or, ProofSite.sameRun, List.all_eq_true] at second
  have same := second row there
  have differ : (diskSite.canonicalHash (jobRun "final" "p2").outputData ==
      diskSite.canonicalHash (jobRun "draft" "p1").outputData) = false := by decide
  have sameJob : ((jobRun "draft" "p1").jobId != (jobRun "final" "p2").jobId) = false := rfl
  rw [job, ← output, differ, sameJob] at same
  simp at same

end GenesisAgents
