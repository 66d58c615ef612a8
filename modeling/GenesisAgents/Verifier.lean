import GenesisAgents.Value

/-! `conduit_verifier.py`: a deliverable is checked against the criteria of its specification, by an
exact hash, by a rubric, or by the text a browser extracts. Clock readings are left out. -/

namespace GenesisAgents

open Value

abbrev Bytes := List UInt8

def utf8 (s : String) : Bytes := s.toUTF8.data.toList

structure VerificationSpec where
  url : Option String
  selector : Option String
  expectedContent : Option String
  fingerprintDelta : Bool
  expectedHash : Option String
  rubricJson : Option Value
  rubricHash : Option String
  requestId : Option String
  inlineContent : Option String
  /-- `require_url_or_inline_content` -/
  sourced : (isSet url || isSet inlineContent) = true

structure VerificationContext where
  marketplace : String
  purpose : String
  escrowRef : String
  negotiationId : Option String
  serviceAgreementId : Option String
  verificationId : String
  requestId : Option String

inductive ActionType where
  | navigate | screenshot | extract | fingerprint | accessibilitySnapshot | exportProof
  | inlineContent
  deriving DecidableEq

def ActionType.name : ActionType → String
  | .navigate => "NAVIGATE"
  | .screenshot => "SCREENSHOT"
  | .extract => "EXTRACT"
  | .fingerprint => "FINGERPRINT"
  | .accessibilitySnapshot => "ACCESSIBILITY_SNAPSHOT"
  | .exportProof => "EXPORT_PROOF"
  | .inlineContent => "INLINE_CONTENT"

/-- `_ACTION_COSTS` -/
def ActionType.costCents : ActionType → Int
  | .navigate => 1
  | .screenshot => 5
  | .extract => 2
  | .fingerprint => 1
  | .accessibilitySnapshot => 2
  | .exportProof => 0
  | .inlineContent => 0

structure Action where
  type : ActionType
  url : Option String
  selector : Option String

/-- `VerificationActionLog` -/
structure ActionLog where
  index : Nat
  action : ActionType
  url : Option String
  selector : Option String
  success : Bool
  costCents : Int
  dataSnippet : Option String

structure RubricReport where
  rubricPass : Bool
  /-- The predicates with whether they passed. -/
  predicateResults : List (String × Bool)
  output : Value

/-- `conduit/tools/rubric.py`, which is not part of the repository. -/
structure RubricEngine where
  makeRubricHash : Value → String
  /-- The report, or the text of what it raises. -/
  evaluateRubric : String → Value → Except String RubricReport

/-- What `_build_proof_bundle` puts together. -/
structure ProofBundle where
  sessionId : String
  spec : VerificationSpec
  context : VerificationContext
  deliveredInline : Bool
  passed : Bool
  failureReason : Option String
  verificationTrack : Nat
  evalResultHash : Option String
  rubricResult : Option Value
  extractedContent : Option String
  fingerprintHash : Option String
  accessibilityText : Option String
  actions : List ActionLog

structure Certificate where
  proofHash : String
  proofBundleRef : String
  conduitSessionSig : String

structure Verifier where
  /-- `hashlib.sha256(...).hexdigest()` -/
  sha256 : Bytes → String
  /-- `bytes.decode("utf-8", errors="replace")` -/
  decode : Bytes → String
  /-- `str.lower` -/
  lower : String → String
  rubricEngine : Option RubricEngine
  /-- `_EXTRACT_MAX_CHARS` -/
  extractMaxChars : Nat
  /-- The bundle as JSON, hashed, encoded and signed. -/
  certify : ProofBundle → Certificate

inductive ExtractReply where
  | found (text : String)
  | missing
  | raised

structure BrowserSession where
  importError : Option String
  launchError : Option String
  navigateError : Option String
  /-- Base64 and size. -/
  screenshot : Except String (String × Nat)
  extract : ExtractReply
  content : Except String String
  /-- `json.dumps` of the snapshot, unless that raises. -/
  accessibility : Option String
  closeError : Option String

/-- How the fetcher and the browser behave in one run. The artifact is fetched for its hash and
again for the rubric; a blocked URL is an error like any other. -/
structure Surroundings where
  artifact : Except String Bytes
  rubricText : Except String Bytes
  browser : BrowserSession

structure VerificationResult where
  passed : Bool
  proofHash : String
  proofBundleRef : Option String
  conduitSessionSig : String
  extractedContent : Option String
  screenshotRef : Option String
  failureReason : Option String
  actionLog : List ActionLog
  clientContext : VerificationContext
  evalResultHash : Option String
  verificationTrack : Option Nat
  requestId : Option String
  rubricResult : Option Value

namespace VerificationSpec

/-- Option C: the inline bytes are the deliverable. -/
def inlineMode (spec : VerificationSpec) : Bool := isSet spec.inlineContent && !isSet spec.url

def inlineBytes (spec : VerificationSpec) : Bytes := utf8 (spec.inlineContent.getD "")

def rubricGiven (spec : VerificationSpec) : Bool := (spec.rubricJson.getD null).truthy

end VerificationSpec

/-- `build_action_plan` -/
def buildActionPlan (spec : VerificationSpec) : List Action :=
  [⟨.navigate, spec.url, none⟩, ⟨.screenshot, none, none⟩,
   ⟨.extract, none, some (if isSet spec.selector then spec.selector.getD "" else "body")⟩,
   ⟨.fingerprint, none, none⟩, ⟨.accessibilitySnapshot, none, none⟩, ⟨.exportProof, none, none⟩]

namespace Verifier

variable (V : Verifier)

/-- `_fetch_and_hash` -/
def fetchAndHash : Except String Bytes → String × Option String
  | .ok bytes => (V.sha256 bytes, none)
  | .error raised => ("", some raised)

structure Track1 where
  hash : Option String
  passed : Option Bool
  error : Option String

def compareHash (actual expected : String) : Track1 :=
  let passed := V.lower actual == V.lower expected
  { hash := some actual, passed := some passed
    error := if passed then none
      else some ("Hash mismatch: expected " ++ clip 16 expected ++ "... got " ++ clip 16 actual ++
        "...") }

def track1 (W : Surroundings) (spec : VerificationSpec) : Track1 :=
  if isSet spec.expectedHash then
    if spec.inlineMode then V.compareHash (V.sha256 spec.inlineBytes) (spec.expectedHash.getD "")
    else
      let (actual, fetchErr) := V.fetchAndHash W.artifact
      if isSet fetchErr then
        ⟨none, some false, some ("Track 1 fetch failed: " ++ fetchErr.getD "")⟩
      else V.compareHash actual (spec.expectedHash.getD "")
  else ⟨none, none, none⟩

structure Track2 where
  result : Option Value
  passed : Option Bool
  error : Option String

def Track2.failed (error : String) : Track2 := ⟨none, some false, some error⟩

def rubricBytes (W : Surroundings) (spec : VerificationSpec) : Except String Bytes :=
  if spec.inlineMode then .ok spec.inlineBytes else W.rubricText

def track2 (W : Surroundings) (spec : VerificationSpec) : Track2 :=
  if spec.rubricGiven && isSet spec.rubricHash then
    let rubric := spec.rubricJson.getD null
    let committed := spec.rubricHash.getD ""
    match V.rubricEngine with
    | none => .failed "Track 2: rubric engine not available on this gateway"
    | some engine =>
      let recomputed := engine.makeRubricHash rubric
      if recomputed != committed then
        .failed ("Track 2: rubric_hash mismatch — expected " ++ clip 16 committed ++ "... got " ++
          clip 16 recomputed ++ "...")
      else match rubricBytes W spec with
        | .error raised => .failed ("Track 2 fetch failed: " ++ raised)
        | .ok bytes =>
          match engine.evaluateRubric (V.decode bytes) rubric with
          | .error raised => .failed ("Track 2 fetch failed: " ++ raised)
          | .ok report =>
            { result := some report.output, passed := some report.rubricPass
              error := if report.rubricPass then none
                else some ("Track 2: rubric failed predicates: " ++ String.intercalate ", "
                  ((report.predicateResults.filter fun p => !p.2).map (·.1))) }
  else ⟨none, none, none⟩

structure SessionState where
  screenshotB64 : Option String
  extractedContent : Option String
  fingerprintHash : Option String
  accessibilityText : Option String
  errorReason : Option String
  actionLog : List ActionLog

def SessionState.empty : SessionState := ⟨none, none, none, none, none, []⟩

def SessionState.record (σ : SessionState) (idx : Nat) (action : Action) (success : Bool)
    (dataSnippet : Option String) : SessionState :=
  { σ with actionLog := σ.actionLog ++
      [⟨idx, action.type, action.url, action.selector, success, action.type.costCents,
        dataSnippet⟩] }

/-- An action that raised: the first error is kept. -/
def SessionState.fail (σ : SessionState) (idx : Nat) (action : Action) (raised : String) :
    SessionState :=
  { σ.record idx action false none with
    errorReason := some (σ.errorReason.getD (action.type.name ++ ": " ++ raised)) }

def perform (B : BrowserSession) (σ : SessionState) (step : Nat × Action) : SessionState :=
  let (idx, action) := step
  match action.type with
  | .navigate =>
    match B.navigateError with
    | none => σ.record idx action true none
    | some raised => σ.fail idx action raised
  | .screenshot =>
    match B.screenshot with
    | .ok (base64, size) => { σ with screenshotB64 := some base64 }.record idx action true
        (some ("[screenshot " ++ toString size ++ " bytes]"))
    | .error raised => σ.fail idx action raised
  | .extract =>
    match B.extract with
    | .found text => { σ with extractedContent := some (clip V.extractMaxChars text) }.record idx
        action true (some (clip 200 (clip V.extractMaxChars text)))
    | .missing => { σ with extractedContent := none }.record idx action false
        (some ("[selector not found: " ++ action.selector.getD "body" ++ "]"))
    | .raised => { σ with extractedContent := none }.record idx action false none
  | .fingerprint =>
    match B.content with
    | .ok content => { σ with fingerprintHash := some (V.sha256 (utf8 content)) }.record idx action
        true (some (clip 16 (V.sha256 (utf8 content))))
    | .error raised => σ.fail idx action raised
  | .accessibilitySnapshot =>
    match B.accessibility with
    | some snapshot => { σ with accessibilityText := some (clip V.extractMaxChars snapshot) }.record
        idx action true (some "[a11y snapshot captured]")
    | none => { σ with accessibilityText := none }.record idx action false none
  | .exportProof => σ.record idx action true (some "[proof bundle assembled]")
  | .inlineContent => σ

def runPlan (B : BrowserSession) (plan : List Action) : SessionState :=
  (plan.zipIdx.map fun (action, idx) => (idx, action)).foldl (V.perform B) .empty

def inlineSession (spec : VerificationSpec) : SessionState :=
  { SessionState.empty.record 0 ⟨.inlineContent, none, none⟩ true
      (some ("[inline " ++ toString spec.inlineBytes.length ++ " bytes]")) with
    extractedContent := spec.inlineContent.map (clip V.extractMaxChars)
    fingerprintHash := if spec.inlineBytes.isEmpty then none else some (V.sha256 spec.inlineBytes) }

/-- `evaluate_result` -/
def evaluateResult (σ : SessionState) (spec : VerificationSpec) : Bool × String :=
  let navigations := σ.actionLog.filter (·.action = .navigate)
  let inlines := σ.actionLog.filter (·.action = .inlineContent)
  let fingerprints := σ.actionLog.filter (·.action = .fingerprint)
  let succeeded (actions : List ActionLog) : Bool := (actions.head?.map ActionLog.success).getD false
  if inlines.isEmpty && !navigations.isEmpty && !succeeded navigations then
    (false, "NAVIGATE action failed — URL may be inaccessible")
  else if inlines.isEmpty && navigations.isEmpty then
    (false, "No NAVIGATE action found in audit trail")
  else if isSet spec.expectedContent then
    let expected := spec.expectedContent.getD ""
    match σ.extractedContent with
    | none => (false, "Content extraction returned no data — cannot verify expected content")
    | some extracted =>
      if isSubstring (V.lower expected) (V.lower extracted) then
        (true, "Expected content found in extracted page content")
      else
        (false, "Expected content not found. Expected: '" ++ clip 100 expected ++
          "'. Extracted snippet: '" ++
          (if 200 < extracted.length then clip 200 extracted ++ "..." else extracted) ++ "'")
  else if isSet σ.fingerprintHash then (true, "Page loaded and fingerprinted successfully")
  else if succeeded fingerprints then (true, "Page fingerprinted successfully")
  else (false, "Page did not load or could not be fingerprinted")

structure Verdict where
  track : Nat
  passed : Option Bool
  failureReason : Option String

/-- A hash decides before a rubric. -/
def v2Verdict (t1 : Track1) (t2 : Track2) : Verdict :=
  if t1.passed.isSome then ⟨1, t1.passed, t1.error⟩
  else if t2.passed.isSome then ⟨2, t2.passed, t2.error⟩
  else ⟨0, none, none⟩

/-- Without a deciding track the text decides. -/
def finalVerdict (v2 : Verdict) (σ : SessionState) (spec : VerificationSpec) :
    Bool × Option String :=
  match v2.passed with
  | some passed => (passed, v2.failureReason)
  | none =>
    let (passed, reason) := V.evaluateResult σ spec
    (passed, if !passed && isSet σ.errorReason && reason = "" then σ.errorReason else some reason)

def conclude (sessionId : String) (spec : VerificationSpec) (context : VerificationContext)
    (t1 : Track1) (t2 : Track2) (σ : SessionState) : VerificationResult :=
  let v2 := v2Verdict t1 t2
  let (passed, failureReason) := V.finalVerdict v2 σ spec
  let certificate := V.certify
    { sessionId := sessionId, spec := spec, context := context, deliveredInline := spec.inlineMode
      passed := passed, failureReason := failureReason, verificationTrack := v2.track
      evalResultHash := t1.hash, rubricResult := t2.result, extractedContent := σ.extractedContent
      fingerprintHash := σ.fingerprintHash, accessibilityText := σ.accessibilityText
      actions := σ.actionLog }
  { passed := passed, proofHash := certificate.proofHash
    proofBundleRef := some certificate.proofBundleRef
    conduitSessionSig := certificate.conduitSessionSig, extractedContent := σ.extractedContent
    screenshotRef := if isSet σ.screenshotB64
      then some ("data:image/png;base64," ++ σ.screenshotB64.getD "") else none
    failureReason := failureReason, actionLog := σ.actionLog, clientContext := context
    evalResultHash := t1.hash, verificationTrack := if v2.track = 0 then none else some v2.track
    requestId := spec.requestId, rubricResult := t2.result }

/-- `run_verification`; an error is the text of what surfaces from the browser's start or end. -/
def runVerification (W : Surroundings) (sessionId : String) (spec : VerificationSpec)
    (context : VerificationContext) : Except String VerificationResult :=
  match W.browser.importError with
  | some raised => .error raised
  | none =>
    let t1 := V.track1 W spec
    let t2 := V.track2 W spec
    if spec.inlineMode then
      .ok (V.conclude sessionId spec context t1 t2 (V.inlineSession spec))
    else match W.browser.launchError with
      | some raised => .error raised
      | none =>
        let σ := V.runPlan W.browser (buildActionPlan spec)
        match W.browser.closeError with
        | some raised => .error raised
        | none => .ok (V.conclude sessionId spec context t1 t2 σ)

end Verifier

end GenesisAgents
