import GenesisAgents.JsonLoads

/-! The judge rubrics `eval/rubrics.py`: the checks that are not judged, the replies of the judge, and the
score of one example. -/

namespace GenesisAgents.Rubrics

open Value

/-- A rubric that passed its constructor: the scores of its levels, and that of its failing example. -/
structure Rubric where
  name : String
  dimension : String
  maxScore : Int
  passingScore : Int
  levels : List Int
  failingScore : Int
  ascending : levels.Pairwise (· ≤ ·)
  floor : levels.head? = some 0
  top : levels.getLast? = some maxScore
  reachable : 0 < passingScore ∧ passingScore ≤ maxScore
  failing : failingScore < passingScore

def Rubric.passed (rubric : Rubric) (score : Int) : Bool := rubric.passingScore ≤ score

def instructionFollowing : Rubric where
  name := "instruction_following"
  dimension := "instruction following — did it do what was actually asked"
  maxScore := 4
  passingScore := 3
  levels := [0, 1, 2, 3, 4]
  failingScore := 1
  ascending := by decide
  floor := rfl
  top := rfl
  reachable := by decide
  failing := by decide

def personaFidelity : Rubric where
  name := "persona_fidelity"
  dimension := "persona fidelity — does it behave like the specialist it claims to be"
  maxScore := 4
  passingScore := 3
  levels := [0, 1, 2, 3, 4]
  failingScore := 1
  ascending := by decide
  floor := rfl
  top := rfl
  reachable := by decide
  failing := by decide

def factualGroundedness : Rubric where
  name := "factual_groundedness"
  dimension := "factual groundedness — are the specifics supported or invented"
  maxScore := 4
  passingScore := 3
  levels := [0, 1, 2, 3, 4]
  failingScore := 0
  ascending := by decide
  floor := rfl
  top := rfl
  reachable := by decide
  failing := by decide

def refusalCorrectness : Rubric where
  name := "refusal_correctness"
  dimension := "refusal correctness — is an unavailable capability declined honestly"
  maxScore := 3
  passingScore := 2
  levels := [0, 1, 2, 3]
  failingScore := 0
  ascending := by decide
  floor := rfl
  top := rfl
  reachable := by decide
  failing := by decide

def outputWellformedness : Rubric where
  name := "output_wellformedness"
  dimension := "output well-formedness — does it parse and match the declared contract"
  maxScore := 3
  passingScore := 2
  levels := [0, 1, 2, 3]
  failingScore := 1
  ascending := by decide
  floor := rfl
  top := rfl
  reachable := by decide
  failing := by decide

/-- `RUBRICS` -/
def rubrics : List Rubric :=
  [instructionFollowing, personaFidelity, factualGroundedness, refusalCorrectness, outputWellformedness]

/-- `re.match` of a text at the head; `s` is what follows it. -/
def dropText (text s : List Char) : Option (List Char) :=
  if text.isPrefixOf s then some (s.drop text.length) else none

def fenceMark : List Char := "```".toList

/-- The rest of the fenced object, up to the first brace that only blanks part from the closing fence. -/
def closeFence : List Char → Option (List Char)
  | [] => none
  | c :: rest =>
    if c = '\x7d' ∧ fenceMark.isPrefixOf (rest.dropWhile isSpace) then some [c]
    else (closeFence rest).map (c :: ·)

/-- The group of `_FENCE` where it matches at the head. -/
def fenceAt (s : List Char) : Option (List Char) := do
  let inside ← dropText fenceMark s
  let body := ((dropText "json".toList inside).getD inside).dropWhile isSpace
  if body.head? = some '\x7b' then (closeFence body.tail).map ('\x7b' :: ·) else none

/-- `_FENCE.search` -/
def fenceSearch : List Char → Option (List Char)
  | [] => none
  | c :: rest => (fenceAt (c :: rest)).or (fenceSearch rest)

/-- The loop of `_balanced_object`, from one character on. -/
def balanceFrom : List Char → Int → Bool → Bool → Option (List Char)
  | [], _, _, _ => none
  | c :: rest, depth, inStr, esc =>
    if inStr then
      if esc then (balanceFrom rest depth true false).map (c :: ·)
      else if c = '\\' then (balanceFrom rest depth true true).map (c :: ·)
      else if c = '"' then (balanceFrom rest depth false false).map (c :: ·)
      else (balanceFrom rest depth true false).map (c :: ·)
    else if c = '"' then (balanceFrom rest depth true false).map (c :: ·)
    else if c = '\x7b' then (balanceFrom rest (depth + 1) false false).map (c :: ·)
    else if c = '\x7d' then
      if depth - 1 = 0 then some [c] else (balanceFrom rest (depth - 1) false false).map (c :: ·)
    else (balanceFrom rest depth false false).map (c :: ·)

/-- `_balanced_object`, where the text starts at the position. -/
def balancedObject (s : List Char) : Option (List Char) := balanceFrom s 0 false false

/-- `\x7b\s*"ok"\s*:` at the head -/
def opensEnvelope (s : List Char) : Bool :=
  match dropText ['\x7b'] s with
  | none => false
  | some rest =>
    match dropText "\"ok\"".toList (rest.dropWhile isSpace) with
    | none => false
    | some rest => (rest.dropWhile isSpace).head? == some ':'

structure Scoring where
  unicode : Unicode
  /-- `json.loads`; `none` is a `ValueError`. -/
  loads : String → Option Value

section

variable (S : Scoring)

def wholeCandidate (response : String) : Option String :=
  if (strip response).toList.head? = some '\x7b' then some (strip response) else none

def fencedCandidate (response : String) : Option String := (fenceSearch response.toList).map String.ofList

def markedAt (s : List Char) : Option String :=
  if opensEnvelope s then (balancedObject s).map String.ofList else none

def markedCandidates (response : String) : List String := response.toList.tails.filterMap markedAt

/-- The candidates of `embedded_envelope`, in order. -/
def candidates (response : String) : List String :=
  (wholeCandidate response).toList ++ (fencedCandidate response).toList ++ markedCandidates response

/-- The object, where it carries a boolean `ok`. -/
def envelopeOf (candidate : String) : Option Value :=
  match S.loads candidate with
  | some (dict items) =>
    match items.lookup "ok" with
    | some (Value.bool _) => some (dict items)
    | _ => none
  | _ => none

def mentionsOk (response : String) : Bool := response.toList.tails.any "ok".toList.isPrefixOf

/-- `embedded_envelope` -/
def embeddedEnvelope (response : String) : Option Value :=
  if !mentionsOk response then none else (candidates response).findSome? (envelopeOf S)

inductive Failure where
  /-- `JudgeProtocolError` -/
  | judgeProtocol (message : String)
  | valueError
  | overflowError
  deriving DecidableEq, Repr

/-- `int(raw)` of a number -/
def toInteger : Value → Except Failure Int
  | int n => .ok n
  | float x =>
    match x.exact with
    | some q => .ok (q.num.tdiv q.den)
    | none => if x.repr = "nan" then .error .valueError else .error .overflowError
  | _ => .error .valueError

/-- What is read of a reply: the text itself, a fenced object, or the first object in it. -/
def replyObject (reply : String) : Value :=
  let stripped := strip reply
  let first := (stripped :: (fencedCandidate reply).toList).findSome? S.loads
  match first.getD null with
  | null =>
    let block := stripped.toList.dropWhile (· != '\x7b')
    ((balancedObject block).bind fun block => S.loads (String.ofList block)).getD null
  | v => v

def parseJudgeReply (reply : String) (rubric : Rubric) : Except Failure (Int × String) :=
  if (strip reply).isEmpty then .error (.judgeProtocol (rubric.name ++ ": judge returned an empty reply"))
  else
    match (replyObject S reply).get? "score" with
    | none => .error (.judgeProtocol (rubric.name ++ ": judge reply is not a JSON object with a 'score'"))
    | some raw =>
      match raw with
      | int _ | float _ => do
        let score ← toInteger raw
        if score ∈ rubric.levels then
          .ok (score, strip (((replyObject S reply).getD "reasoning" (str "")).text S.unicode))
        else .error (.judgeProtocol (rubric.name ++ ": score " ++ toString score ++ " is not on the scale " ++
          (list (rubric.levels.dedup.map int)).repr S.unicode))
      | raw => .error (.judgeProtocol (rubric.name ++ ": score " ++ raw.repr S.unicode ++ " is not a number"))

inductive VerdictStatus where
  | pass | fail | skipped | error
  deriving DecidableEq, Repr

inductive Source where
  | deterministic | judge
  deriving DecidableEq, Repr

structure Verdict where
  rubric : String
  dimension : String
  score : Option Int
  maxScore : Int
  status : VerdictStatus
  comment : String
  source : Source
  deriving DecidableEq, Repr

inductive ExampleStatus where
  | pass | fail | skipped | error | blocked
  deriving DecidableEq, Repr

structure ExampleScore where
  exampleId : String
  slug : String
  mode : String
  status : ExampleStatus
  verdicts : List Verdict
  reason : String
  toolEvidence : Bool
  deriving DecidableEq, Repr

def skip (reason : String) (rubric : Rubric) : Verdict :=
  { rubric := rubric.name, dimension := rubric.dimension, score := none, maxScore := rubric.maxScore
    status := .skipped, comment := reason, source := .deterministic }

def fail (reason : String) (rubric : Rubric) : Verdict :=
  { rubric := rubric.name, dimension := rubric.dimension, score := some 0, maxScore := rubric.maxScore
    status := .fail, comment := reason, source := .deterministic }

/-- The verdict on one reply; a reply that breaks the protocol is an error, other exceptions go through. -/
def judgeOne (rubric : Rubric) (reply : Except Failure String) : Except Failure Verdict :=
  match reply.bind fun reply => parseJudgeReply S reply rubric with
  | .ok (score, reasoning) => .ok
    { rubric := rubric.name, dimension := rubric.dimension, score := some score, maxScore := rubric.maxScore
      status := if rubric.passed score then .pass else .fail, comment := reasoning, source := .judge }
  | .error (.judgeProtocol message) => .ok
    { rubric := rubric.name, dimension := rubric.dimension, score := none, maxScore := rubric.maxScore
      status := .error, comment := message, source := .judge }
  | .error failure => .error failure

abbrev Judge := Nat → Except Failure String

def judgeAll (judge : Judge) : List Rubric → Nat → Nat × Except Failure (List Verdict)
  | [], calls => (calls, .ok [])
  | rubric :: rest, calls =>
    match judgeOne S rubric (judge calls) with
    | .error failure => (calls + 1, .error failure)
    | .ok verdict =>
      let later := judgeAll judge rest (calls + 1)
      (later.1, later.2.map (verdict :: ·))

/-- The end of `score_example`: status and reason. -/
def aggregate (verdicts : List Verdict) : ExampleStatus × String :=
  let scored := verdicts.filter fun v => v.score.isSome
  if scored.isEmpty then (.error, "no rubric produced a score")
  else
    let failed := (scored.filter fun v => v.status == .fail).map Verdict.rubric
    (if failed.isEmpty then .pass else .fail,
      if failed.isEmpty then "all rubrics passed" else "failed: " ++ String.intercalate ", " failed)

/-- How `score_example` ends, and how often it has called the judge. -/
structure Scored where
  calls : Nat
  result : Except Failure ExampleScore

def harnessErrorOutcomes : List String := ["auth_error", "not_found", "upstream_error"]

/-- `envelope.get("ok") is False` -/
def reportsFailure (envelope : Value) : Bool :=
  match envelope.get? "ok" with
  | some (Value.bool false) => true
  | _ => false

def errorCode (envelope : Value) : String :=
  let code := ((envelope.get "error").get? "code").getD null
  if code.truthy then " (error.code=" ++ code.text S.unicode ++ ")" else ""

def responseText (outputs : Value) : String :=
  match outputs.get "response" with
  | str s => s
  | _ => ""

/-- `outputs.get("determinate") is False` -/
def indeterminate (outputs : Value) : Bool :=
  match outputs.get "determinate" with
  | Value.bool false => true
  | _ => false

/-- `score_example`, for the rubrics that apply -/
def scoreExample (judge : Judge) (rubrics : List Rubric) (inputs outputs : Value) (exampleId : String) : Scored :=
  let slug := (((outputs.get "slug").orElse (inputs.get "slug")).orElse (str "")).text S.unicode
  let mode := (((outputs.get "mode").orElse (inputs.get "mode")).orElse (str "live_test")).text S.unicode
  let eid := if exampleId = "" then ((inputs.get "id").orElse (str slug)).text S.unicode else exampleId
  let bundle (status : ExampleStatus) (reason : String) (verdicts : List Verdict) : ExampleScore :=
    { exampleId := eid, slug := slug, mode := mode, status := status, verdicts := verdicts, reason := reason
      toolEvidence := false }
  let unjudged (status : ExampleStatus) (reason : String) (failing : List String) : Scored :=
    { calls := 0
      result := .ok (bundle status reason (rubrics.map fun rubric =>
        if failing.contains rubric.name then fail reason rubric else skip reason rubric)) }
  let outcome := ((outputs.get "outcome").orElse (str "")).text S.unicode
  if indeterminate outputs then
    unjudged .skipped "outcome is indeterminate — the agent may have run; not scored" []
  else if (outputs.get "error_kind").pyEq (str "blocked_money_domain") then
    unjudged .blocked "blocked: money-domain agent, denied before the request was built" []
  else if harnessErrorOutcomes.contains outcome then
    unjudged .error ("harness error: outcome=" ++ outcome ++ " error_kind=" ++
      (outputs.get "error_kind").text S.unicode) []
  else if (strip (responseText outputs)).isEmpty then
    unjudged .fail "empty response body — HTTP 200 is not an answer"
      ["instruction_following", "output_wellformedness"]
  else
    match (embeddedEnvelope S (responseText outputs)).filter reportsFailure with
    | some envelope =>
      unjudged .fail ("embedded tool envelope reports ok=false" ++ errorCode S envelope ++
          " — HTTP 200 does not mean success")
        ["instruction_following", "output_wellformedness", "refusal_correctness"]
    | none =>
      let judged := judgeAll S judge rubrics 0
      { calls := judged.1
        result := judged.2.map fun verdicts => bundle (aggregate verdicts).1 (aggregate verdicts).2 verdicts }

end

end GenesisAgents.Rubrics
