import GenesisAgents.ToolPolicy

/-! Failure envelopes of `tools/_envelope.py`. -/

namespace GenesisAgents.Envelope

open Value

def contractVersion : String := "1.0.0"

inductive Code where
  | notImplemented | providerUnconfigured | upstreamTimeout | validationFailed | duplicateRequest
  | authorizationMissing | policyDenied
  deriving DecidableEq, Repr

def Code.name : Code → String
  | notImplemented => "not_implemented"
  | providerUnconfigured => "provider_unconfigured"
  | upstreamTimeout => "upstream_timeout"
  | validationFailed => "validation_failed"
  | duplicateRequest => "duplicate_request"
  | authorizationMissing => "authorization_missing"
  | policyDenied => "policy_denied"

/-- `RETRYABLE_BY_CODE` -/
def Code.retryable : Code → Bool
  | upstreamTimeout | duplicateRequest => true
  | _ => false

def bannedResponseKeys : List String := ["stub", "scaffold", "note"]

mutual
/-- `_strip_banned`: drops the banned keys at every depth of dicts and lists. -/
def stripBanned : Value → Value
  | dict kvs => dict (stripItems kvs)
  | list xs => list (stripList xs)
  | v => v
def stripList : List Value → List Value
  | [] => []
  | x :: xs => stripBanned x :: stripList xs
def stripItems : List (String × Value) → List (String × Value)
  | [] => []
  | (k, v) :: rest =>
    if bannedResponseKeys.contains k then stripItems rest else (k, stripBanned v) :: stripItems rest
end

/-- `failure(...)`; `requestId` is the fresh uuid. A code that is not retryable carries no hint. -/
def failure (requestId tool : String) (code : Code) (message : String)
    (detail : List (String × Value)) (retryAfterMs : Option Int) : Value :=
  let hint := if code.retryable then retryAfterMs else none
  stripBanned (dict [
    ("ok", bool false), ("tool", str tool), ("contract_version", str contractVersion),
    ("request_id", str requestId),
    ("error", dict [
      ("code", str code.name), ("retryable", bool code.retryable), ("message", str message),
      ("detail", dict detail), ("retry_after_ms", (hint.map int).getD null)])])

def prohibitionMessage : String :=
  "This operation is permanently prohibited. " ++
    "Automation may prepare; a human pays; automation records."

def prohibitedRefusal (requestId tool group : String) (agentSlug : Value) : Value :=
  failure requestId tool .policyDenied prohibitionMessage
    [("risk_class", str "prohibited"), ("agent_slug", agentSlug), ("prohibition_group", str group),
     ("remediation", str ("Escalate to a named human approver. " ++
       "This decision is not overridable by configuration."))] none

theorem prohibitedRefusal_dumpable (requestId tool group slug : String) :
    (prohibitedRefusal requestId tool group (str slug)).dumpable = true := by
  simp [prohibitedRefusal, failure, stripBanned, stripItems, bannedResponseKeys, dumpable, jsonable,
    jsonableItems, writable, writableItems, Code.retryable]

end GenesisAgents.Envelope
