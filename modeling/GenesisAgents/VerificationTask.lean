import GenesisAgents.Verifier

/-! `main.py`: the background tasks that run a verification, keep its job record and call the result
back. Clock readings and the shared secret of the callback are left out. -/

namespace GenesisAgents

open Value

structure VerifyRequest where
  negotiationId : Option String
  serviceAgreementId : Option String
  spec : VerificationSpec
  context : VerificationContext

structure ArbitrageVerificationRequest where
  verificationRunId : String
  transactionId : String
  proposalId : String
  method : Option String
  policy : List (String × Value)
  requestPayload : List (String × Value)

inductive ArbitrageStatus where
  | passed | failed | error
  deriving DecidableEq

def ArbitrageStatus.name : ArbitrageStatus → String
  | .passed => "PASSED"
  | .failed => "FAILED"
  | .error => "ERROR"

structure ArbitrageVerificationResult where
  verificationRunId : String
  transactionId : String
  status : ArbitrageStatus
  passed : Bool
  score : PyFloat
  failureReason : Option String
  method : Option String
  checks : List Value
  evidenceUrls : List String
  resultPayload : Value

/-! `model_dump` -/

def ActionLog.modelDump (log : ActionLog) : Value :=
  .dict [("index", .int log.index), ("action", .str log.action.name), ("url", optionValue log.url),
    ("selector", optionValue log.selector), ("success", .bool log.success),
    ("cost_cents", .int log.costCents), ("data_snippet", optionValue log.dataSnippet)]

def VerificationContext.modelDump (context : VerificationContext) : Value :=
  .dict [("marketplace", .str context.marketplace), ("purpose", .str context.purpose),
    ("escrow_ref", .str context.escrowRef), ("negotiation_id", optionValue context.negotiationId),
    ("service_agreement_id", optionValue context.serviceAgreementId),
    ("verification_id", .str context.verificationId), ("request_id", optionValue context.requestId)]

namespace VerificationResult

def trackValue (result : VerificationResult) : Value :=
  (result.verificationTrack.map fun track => Value.int track).getD .null

def actionValues (result : VerificationResult) : Value :=
  .list (result.actionLog.map ActionLog.modelDump)

def modelDump (result : VerificationResult) : Value :=
  .dict [("passed", .bool result.passed), ("proof_hash", .str result.proofHash),
    ("proof_bundle_ref", optionValue result.proofBundleRef),
    ("conduit_session_sig", .str result.conduitSessionSig),
    ("extracted_content", optionValue result.extractedContent),
    ("screenshot_ref", optionValue result.screenshotRef),
    ("failure_reason", optionValue result.failureReason), ("action_log", result.actionValues),
    ("client_context", result.clientContext.modelDump),
    ("eval_result_hash", optionValue result.evalResultHash),
    ("verification_track", result.trackValue), ("request_id", optionValue result.requestId),
    ("rubric_result", result.rubricResult.getD .null)]

end VerificationResult

def ArbitrageVerificationResult.modelDump (body : ArbitrageVerificationResult) : Value :=
  .dict [("verificationRunId", .str body.verificationRunId),
    ("transactionId", .str body.transactionId), ("status", .str body.status.name),
    ("passed", .bool body.passed), ("score", .float body.score),
    ("failureReason", optionValue body.failureReason), ("method", optionValue body.method),
    ("checks", .list body.checks), ("evidenceUrls", .list (body.evidenceUrls.map .str)),
    ("resultPayload", body.resultPayload)]

inductive VerifyStatus where
  | pending | running | completed | failed
  deriving DecidableEq

structure JobRecord where
  status : VerifyStatus
  result : Option Value
  error : Option String

def JobRecord.created : JobRecord := ⟨.pending, none, none⟩

/-- How one callback goes, from putting the request together to reading the answer. -/
inductive Exchange where
  | answered (statusCode : Nat)
  /-- What it raises, before or after the body went out. -/
  | raised (sent : Bool) (text : String)

namespace Exchange

def sent : Exchange → Bool
  | answered _ => true
  | raised sent _ => sent

def raises : Exchange → Bool
  | answered _ => false
  | raised _ _ => true

end Exchange

inductive TaskEffect where
  | stored (record : JobRecord)
  | posted (path : String) (body : Value)

structure FinishedVerification where
  result : VerificationResult
  recordResult : Value
  callbackBody : Value

/-- The parts in which the two background tasks differ. -/
structure Pipeline where
  /-- Or the text of what is raised on the way. -/
  outcome : Except String FinishedVerification
  callbackPath : String
  /-- What the handler puts in the record's place for the result, if anything. -/
  failedResult : String → Option Value
  failureBody : String → Value

namespace Pipeline

variable (p : Pipeline)

def post (body : Value) (exchange : Exchange) : List TaskEffect :=
  if exchange.sent then [.posted p.callbackPath body] else []

/-- `except Exception`: what the second callback raises is swallowed. -/
def handle (record : JobRecord) (raised : String) (report : Exchange) : List TaskEffect :=
  .stored
      { record with
        status := .failed, result := (p.failedResult raised).or record.result
        error := some raised } ::
    p.post (p.failureBody raised) report

def running : JobRecord := { JobRecord.created with status := .running }

def completed (finished : FinishedVerification) : JobRecord :=
  { running with status := .completed, result := some finished.recordResult }

/-- Whatever status code answers, the task is content. -/
def deliver (finished : FinishedVerification) (delivery report : Exchange) : List TaskEffect :=
  p.post finished.callbackBody delivery ++
    match delivery with
    | .answered _ => []
    | .raised _ text => p.handle (completed finished) text report

def run (delivery report : Exchange) : List TaskEffect :=
  .stored running ::
    match p.outcome with
    | .error raised => p.handle running raised report
    | .ok finished => .stored (completed finished) :: p.deliver finished delivery report

end Pipeline

section Tasks

-- `run_verification` in the task's session
variable (verify : VerificationSpec → VerificationContext → Except String VerificationResult)

/-! `_run_and_callback` -/

def VerificationResult.callbackBody (result : VerificationResult) : Value :=
  .dict [("passed", .bool result.passed), ("proofHash", .str result.proofHash),
    ("conduitSessionSig", .str result.conduitSessionSig),
    ("extractedContent", optionValue result.extractedContent),
    ("failureReason", optionValue result.failureReason), ("actionLog", result.actionValues),
    ("evalResultHash", optionValue result.evalResultHash),
    ("verificationTrack", result.trackValue), ("requestId", optionValue result.requestId)]

namespace VerifyRequest

def verification (request : VerifyRequest) : Except String VerificationResult :=
  verify request.spec request.context

def pipeline (request : VerifyRequest) : Pipeline where
  outcome := (request.verification verify).map fun result =>
    ⟨result, result.modelDump, result.callbackBody⟩
  callbackPath := "/conduit/verifications/" ++ request.context.verificationId ++ "/callback"
  failedResult _ := none
  failureBody raised :=
    .dict [("passed", .bool false), ("failureReason", .str ("Gateway error: " ++ raised)),
      ("actionLog", .list [])]

end VerifyRequest

def runAndCallback (request : VerifyRequest) (delivery report : Exchange) : List TaskEffect :=
  (request.pipeline verify).run delivery report

/-! `_run_arbitrage_verification_and_callback` -/

def textOf : Value → Option String
  | .str s => if strip s = "" then none else some s
  | _ => none

theorem strip_textOf (v : Value) (s : String) (found : textOf v = some s) :
    isSet (some (strip s)) = true := by
  cases v with
  | str t =>
    rw [textOf] at found
    split at found
    · exact absurd found (by simp)
    · rename_i filled
      obtain rfl := Option.some.inj found
      simpa [isSet] using filled
  | _ => simp [textOf] at found

namespace ArbitrageVerificationRequest

variable (request : ArbitrageVerificationRequest)

/-- `payload.get(key) or policy.get(key)` -/
def setting (key : String) : Value :=
  ((Value.dict request.requestPayload).get key).orElse ((Value.dict request.policy).get key)

def verificationUrl : Value :=
  let payload := Value.dict request.requestPayload
  (((payload.get "verificationUrl").orElse (payload.get "deliveryUrl")).orElse
    (payload.get "url")).orElse ((Value.dict request.policy).get "url")

def fingerprintDelta : Value :=
  match (Value.dict request.requestPayload).get "fingerprintDelta" with
  | .null => (Value.dict request.policy).getD "fingerprintDelta" (.bool false)
  | given => given

/-- `_extract_arbitrage_spec` -/
def extractSpec : Except String VerificationSpec :=
  match found : textOf request.verificationUrl with
  | none => .error "Arbitrage verification requires request_payload.verificationUrl or deliveryUrl"
  | some url => .ok
      { url := some (strip url)
        selector := textOf (request.setting "selector")
        expectedContent := textOf (request.setting "expectedContent")
        fingerprintDelta := request.fingerprintDelta.truthy
        expectedHash := textOf (request.setting "expectedHash")
        rubricJson := if (request.setting "rubricJson").isDict
          then some (request.setting "rubricJson") else none
        rubricHash := textOf (request.setting "rubricHash")
        requestId := textOf (((Value.dict request.requestPayload).get "requestId").orElse
          (.str request.verificationRunId))
        inlineContent := none
        sourced := by rw [strip_textOf _ url found, Bool.true_or] }

def context : VerificationContext where
  marketplace := "SwarmSync.AI"
  purpose := "arbitrage_verification"
  escrowRef := request.transactionId
  negotiationId := none
  serviceAgreementId := none
  verificationId := request.verificationRunId
  requestId := some request.verificationRunId

def verification : Except String VerificationResult :=
  request.extractSpec.bind fun spec => verify spec request.context

end ArbitrageVerificationRequest

namespace VerificationResult

variable (result : VerificationResult)

def arbitrageChecks : List Value :=
  [.dict [("name", .str "conduit_verification"), ("passed", .bool result.passed),
    ("track", .int (result.verificationTrack.getD 0))]] ++
  (if isSet result.evalResultHash then
    [.dict [("name", .str "artifact_hash"),
      ("passed", if result.verificationTrack = some 1 then .bool result.passed else .null),
      ("hash", optionValue result.evalResultHash)]]
  else []) ++
  match result.rubricResult with
  | none => []
  | some summary =>
    if summary.truthy then
      [.dict [("name", .str "rubric_evaluation"), ("passed", summary.get "rubric_pass"),
        ("summary", summary)]]
    else []

def arbitragePayload (evidenceUrl : Option String) : Value :=
  .dict [("proofHash", .str result.proofHash),
    ("proofBundleRef", optionValue result.proofBundleRef),
    ("conduitSessionSig", .str result.conduitSessionSig),
    ("verificationTrack", result.trackValue),
    ("evalResultHash", optionValue result.evalResultHash),
    ("rubricResult", result.rubricResult.getD .null), ("actionLog", result.actionValues),
    ("extractedContent", optionValue result.extractedContent),
    ("evidenceUrl", optionValue evidenceUrl)]

end VerificationResult

namespace ArbitrageVerificationRequest

variable (request : ArbitrageVerificationRequest)

def callbackBody (spec : VerificationSpec) (result : VerificationResult) :
    ArbitrageVerificationResult where
  verificationRunId := request.verificationRunId
  transactionId := request.transactionId
  status := if result.passed then .passed else .failed
  passed := result.passed
  score := if result.passed then ⟨"1.0", some 1, one_plain⟩ else ⟨"0.0", some 0, zero_plain⟩
  failureReason := result.failureReason
  method := request.method
  checks := result.arbitrageChecks
  evidenceUrls := [spec.url.getD ""]
  resultPayload := result.arbitragePayload spec.url

def failedBody (raised : String) : ArbitrageVerificationResult where
  verificationRunId := request.verificationRunId
  transactionId := request.transactionId
  status := .error
  passed := false
  score := ⟨"0.0", some 0, zero_plain⟩
  failureReason := some raised
  method := request.method
  checks := []
  evidenceUrls := []
  resultPayload := .dict [("gatewayError", .str raised)]

def pipeline : Pipeline where
  outcome := request.extractSpec.bind fun spec =>
    (verify spec request.context).map fun result =>
      ⟨result, (request.callbackBody spec result).modelDump,
        (request.callbackBody spec result).modelDump⟩
  callbackPath := "/internal/arbitrage/verification-results"
  failedResult raised := some (request.failedBody raised).modelDump
  failureBody raised := (request.failedBody raised).modelDump

end ArbitrageVerificationRequest

def runArbitrageVerificationAndCallback (request : ArbitrageVerificationRequest)
    (delivery report : Exchange) : List TaskEffect :=
  (request.pipeline verify).run delivery report

end Tasks

end GenesisAgents
