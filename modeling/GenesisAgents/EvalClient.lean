import GenesisAgents.Experiments

/-! The evaluation client `eval/genesis_client.py` over its `HttpxTransport`: what the exceptions of httpx
become, and the retries of a `POST /agents/{slug}/run`. -/

namespace GenesisAgents.EvalClient

inductive HttpxClass where
  | httpError | requestError | transportError | timeoutException | networkError | protocolError
  | connectTimeout | readTimeout | writeTimeout | poolTimeout
  | connectError | readError | writeError | closeError
  | localProtocolError | remoteProtocolError
  | proxyError | unsupportedProtocol | decodingError | tooManyRedirects | httpStatusError
  | invalidUrl | cookieConflict | streamError | streamConsumed | streamClosed | responseNotRead | requestNotRead
  deriving DecidableEq, Repr

namespace HttpxClass

def mro : HttpxClass → List HttpxClass
  | httpError => [httpError]
  | requestError => [requestError, httpError]
  | transportError => [transportError, requestError, httpError]
  | timeoutException => [timeoutException, transportError, requestError, httpError]
  | networkError => [networkError, transportError, requestError, httpError]
  | protocolError => [protocolError, transportError, requestError, httpError]
  | connectTimeout => [connectTimeout, timeoutException, transportError, requestError, httpError]
  | readTimeout => [readTimeout, timeoutException, transportError, requestError, httpError]
  | writeTimeout => [writeTimeout, timeoutException, transportError, requestError, httpError]
  | poolTimeout => [poolTimeout, timeoutException, transportError, requestError, httpError]
  | connectError => [connectError, networkError, transportError, requestError, httpError]
  | readError => [readError, networkError, transportError, requestError, httpError]
  | writeError => [writeError, networkError, transportError, requestError, httpError]
  | closeError => [closeError, networkError, transportError, requestError, httpError]
  | localProtocolError => [localProtocolError, protocolError, transportError, requestError, httpError]
  | remoteProtocolError => [remoteProtocolError, protocolError, transportError, requestError, httpError]
  | proxyError => [proxyError, transportError, requestError, httpError]
  | unsupportedProtocol => [unsupportedProtocol, transportError, requestError, httpError]
  | decodingError => [decodingError, requestError, httpError]
  | tooManyRedirects => [tooManyRedirects, requestError, httpError]
  | httpStatusError => [httpStatusError, httpError]
  | invalidUrl => [invalidUrl]
  | cookieConflict => [cookieConflict]
  | streamError => [streamError]
  | streamConsumed => [streamConsumed, streamError]
  | streamClosed => [streamClosed, streamError]
  | responseNotRead => [responseNotRead, streamError]
  | requestNotRead => [requestNotRead, streamError]

/-- `isinstance(exc, base)` -/
def isInstance (cls base : HttpxClass) : Bool := cls.mro.contains base

end HttpxClass

inductive FailureKind where
  | connect | read | write | pool | protocol | other
  deriving DecidableEq, Repr

namespace FailureKind

def name : FailureKind → String
  | connect => "connect"
  | read => "read"
  | write => "write"
  | pool => "pool"
  | protocol => "protocol"
  | other => "other"

def sentKinds : List FailureKind := [read, write]

/-- `TransportFailure.request_sent` -/
def requestSent (kind : FailureKind) : Bool := sentKinds.contains kind

end FailureKind

/-- The `except` clauses of `HttpxTransport.request`, in order. -/
def handlers : List (HttpxClass × FailureKind) :=
  [(.connectTimeout, .connect), (.readTimeout, .read), (.writeTimeout, .write), (.poolTimeout, .pool),
    (.connectError, .connect), (.protocolError, .protocol), (.httpError, .other)]

/-- The kind of `TransportFailure` that an exception becomes; other exceptions go through. -/
def failureKind (cls : HttpxClass) : Option FailureKind :=
  (handlers.find? fun handler => cls.isInstance handler.1).map Prod.snd

structure RawResponse where
  statusCode : Nat
  text : String
  deriving DecidableEq, Repr

inductive Method where
  | get | post
  deriving DecidableEq, Repr

def redirectMethod (method : Method) (status : Nat) : Method :=
  if status = 301 ∨ status = 302 ∨ status = 303 then .get else method

/-- The POSTs among a request and those that its redirects, of these statuses, lead to. -/
def postsOf (method : Method) : List Nat → Nat
  | [] => if method = .post then 1 else 0
  | status :: later => (if method = .post then 1 else 0) + postsOf (redirectMethod method status) later

/-- What the last of these requests ends with; `sent` says whether a byte of it had left when the exception was
raised. -/
inductive Ending where
  | answered (response : RawResponse)
  | raised (cls : HttpxClass) (sent : Bool) (message : String)
  deriving DecidableEq, Repr

/-- One `client.request`: the redirects that it follows, by their statuses, and its end. -/
structure Attempt where
  redirects : List Nat
  ending : Ending
  deriving DecidableEq, Repr

def Attempt.posts (attempt : Attempt) : Nat := postsOf .post attempt.redirects

/-- A client that passed its constructor, with the redaction of `eval/redaction.py` and `json.loads`. -/
structure Client where
  maxAttempts : Nat
  atLeastOne : 1 ≤ maxAttempts
  unicode : Value.Unicode
  warmup : Bool
  allowMoneyDomain : Bool
  strictSlugs : Bool
  redact : Value → Value
  redactText : String → String
  loads : String → Option Value

structure Classified where
  outcome : EvalOutcome
  httpStatus : Option Nat
  errorKind : Option String
  errorMessage : Option String
  body : Option Value
  text : String

inductive Verdict where
  | finish (classified : Classified)
  /-- Another attempt, if there is one left; else this result. -/
  | again (classified : Classified)
  | escape (cls : HttpxClass)

section

variable (C : Client)

def failed (kind : FailureKind) (message : String) : Verdict :=
  let classified (outcome : EvalOutcome) : Classified :=
    { outcome := outcome, httpStatus := none, errorKind := some ("transport_" ++ kind.name)
      errorMessage := some (C.redactText message), body := none, text := "" }
  if kind.requestSent then .finish (classified .indeterminate) else .again (classified .upstreamError)

def answered (response : RawResponse) : Verdict :=
  let status := response.statusCode
  let safeBody := (C.loads response.text).map C.redact
  let safeText := C.redactText response.text
  let rejected (outcome : EvalOutcome) (errorKind : String) : Classified :=
    { outcome := outcome, httpStatus := some status, errorKind := some errorKind
      errorMessage := some (String.ofList (safeText.toList.take 500)), body := safeBody, text := "" }
  if 200 ≤ status ∧ status < 300 then
    .finish { outcome := .success, httpStatus := some status, errorKind := none, errorMessage := none
              body := safeBody, text := safeText }
  else if status = 401 ∨ status = 403 then .finish (rejected .authError "auth_rejected")
  else if status = 404 then .finish (rejected .notFound "slug_not_found")
  else if 400 ≤ status ∧ status < 500 then
    .finish (rejected .upstreamError ("client_error_" ++ Nat.repr status))
  else .again (rejected .upstreamError ("server_error_" ++ Nat.repr status))

def verdict (attempt : Attempt) : Verdict :=
  match attempt.ending with
  | .answered response => answered C response
  | .raised cls _ message =>
    match failureKind cls with
    | none => .escape cls
    | some kind => failed C kind message

/-- How the loop ends: the number of attempts, and the result or the exception that went through. -/
structure LoopEnd where
  attempts : Nat
  result : Except HttpxClass Classified

/-- The `while True` of `run_agent`, after `attempts` attempts. -/
def attemptLoop (outcomes : Nat → Attempt) (attempts : Nat) : LoopEnd :=
  match verdict C (outcomes attempts) with
  | .escape cls => { attempts := attempts + 1, result := .error cls }
  | .finish classified => { attempts := attempts + 1, result := .ok classified }
  | .again classified =>
    if attempts + 1 < C.maxAttempts then attemptLoop outcomes (attempts + 1)
    else { attempts := attempts + 1, result := .ok classified }
termination_by C.maxAttempts - attempts

structure WarmState where
  warmed : Bool
  attempted : Bool
  deriving DecidableEq, Repr

/-- `ensure_warm`: `GET /health`, once. -/
def ensureWarm (state : WarmState) (health : Attempt) : WarmState :=
  if !C.warmup || state.attempted then state
  else
    match health.ending with
    | .answered response =>
      { warmed := decide (200 ≤ response.statusCode ∧ response.statusCode < 300), attempted := true }
    | .raised _ _ _ => { warmed := false, attempted := true }

end

/-- What `run_agent` raises before it makes a request. -/
inductive Refusal where
  | slugRequired
  | moneyDomainBlocked (liveSlug : String)
  | unknownSlug (slug liveSlug : String)
  | badMode
  deriving DecidableEq, Repr

structure AgentRunResult where
  classified : Classified
  slug : String
  requestedSlug : String
  mode : String
  attempts : Nat
  slugResolution : SlugResolution
  warmed : Bool

/-- The checks of `run_agent` before its first request: the live slug, and how it was resolved. -/
def checkCall (C : Client) (slug mode : String) : Except Refusal (String × SlugResolution) :=
  match resolveLiveSlug slug with
  | none => .error .slugRequired
  | some (liveSlug, resolution) =>
    if isMoneyDomain C.unicode liveSlug && !C.allowMoneyDomain then .error (.moneyDomainBlocked liveSlug)
    else if resolution = .unverified ∧ C.strictSlugs then .error (.unknownSlug slug liveSlug)
    else if mode ≠ "live_test" ∧ mode ≠ "full" then .error .badMode
    else .ok (liveSlug, resolution)

/-- How a call of `run_agent` ends: its attempts, the POSTs that they made, and its result or what it raises. -/
structure RunEnd where
  attempts : Nat
  posts : Nat
  result : Except (Refusal ⊕ HttpxClass) AgentRunResult
  warm : WarmState

def postsMade (outcomes : Nat → Attempt) : Nat → Nat
  | 0 => 0
  | attempts + 1 => postsMade outcomes attempts + (outcomes attempts).posts

/-- `run_agent`; the outcomes are those of the attempts that it makes, in order. -/
def runAgent (C : Client) (state : WarmState) (health : Attempt) (outcomes : Nat → Attempt)
    (slug mode : String) : RunEnd :=
  match checkCall C slug mode with
  | .error refusal => { attempts := 0, posts := 0, result := .error (.inl refusal), warm := state }
  | .ok (liveSlug, resolution) =>
    let warm := ensureWarm C state health
    let ended := attemptLoop C outcomes 0
    { attempts := ended.attempts
      posts := postsMade outcomes ended.attempts
      result := match ended.result with
        | .error cls => .error (.inr cls)
        | .ok classified => .ok
          { classified := classified, slug := liveSlug, requestedSlug := slug, mode := mode
            attempts := ended.attempts, slugResolution := resolution, warmed := warm.warmed }
      warm := warm }

/-- The answer or the failure is one after which the loop goes on, while attempts are left. -/
def Retried (C : Client) (attempt : Attempt) : Prop := ∃ classified, verdict C attempt = .again classified

def Attempt.failedWith (attempt : Attempt) (base : HttpxClass) : Prop :=
  ∃ cls sent message, attempt.ending = .raised cls sent message ∧ cls.isInstance base = true

/-- The exception was raised once bytes of a request had been sent: of the last one, or of one that was
redirected. -/
def Attempt.failedSent (attempt : Attempt) : Prop :=
  ∃ cls sent message, attempt.ending = .raised cls sent message ∧ (sent = true ∨ attempt.redirects ≠ [])

/-- The attempt failed with `ReadTimeout` or `WriteTimeout`. -/
def Attempt.timedOut (attempt : Attempt) : Prop :=
  attempt.failedWith .readTimeout ∨ attempt.failedWith .writeTimeout

def Attempt.rejected (attempt : Attempt) : Prop :=
  ∃ response, attempt.ending = .answered response ∧ 400 ≤ response.statusCode ∧ response.statusCode < 500

section

variable (C : Client)

/-- The timeouts are the failures that count as sent. -/
theorem failureKind_sent_iff (cls : HttpxClass) : (∃ kind, failureKind cls = some kind ∧ kind.requestSent = true) ↔
    cls.isInstance .readTimeout = true ∨ cls.isInstance .writeTimeout = true := by
  cases cls <;> decide

theorem verdict_raised (attempt : Attempt) (cls : HttpxClass) (sent : Bool) (message : String) (kind : FailureKind)
    (ends : attempt.ending = .raised cls sent message) (mapped : failureKind cls = some kind) :
    verdict C attempt = failed C kind message := by
  rw [verdict, ends]
  dsimp only
  rw [mapped]

theorem verdict_timedOut (attempt : Attempt) (timed : attempt.timedOut) :
    ∃ classified, verdict C attempt = .finish classified ∧ classified.outcome = .indeterminate := by
  have counts (cls : HttpxClass) (sent : Bool) (message : String)
      (ends : attempt.ending = .raised cls sent message)
      (timeout : cls.isInstance .readTimeout = true ∨ cls.isInstance .writeTimeout = true) :
      ∃ classified, verdict C attempt = .finish classified ∧ classified.outcome = .indeterminate := by
    rcases (failureKind_sent_iff cls).mpr timeout with ⟨kind, mapped, counted⟩
    rw [verdict_raised C attempt cls sent message kind ends mapped, failed, if_pos counted]
    exact ⟨_, rfl, rfl⟩
  rcases timed with ⟨cls, sent, message, ends, timeout⟩ | ⟨cls, sent, message, ends, timeout⟩
  · exact counts cls sent message ends (.inl timeout)
  · exact counts cls sent message ends (.inr timeout)

theorem verdict_rejected (attempt : Attempt) (refused : attempt.rejected) :
    ∃ classified, verdict C attempt = .finish classified := by
  rcases refused with ⟨response, ends, low, high⟩
  rw [verdict, ends]
  dsimp only
  rw [answered]
  dsimp only
  rw [if_neg (by omega)]
  split
  · exact ⟨_, rfl⟩
  split
  · exact ⟨_, rfl⟩
  · rw [if_pos ⟨low, high⟩]
    exact ⟨_, rfl⟩

theorem answered_determinate (response : RawResponse) (classified : Classified)
    (ended : answered C response = .finish classified ∨ answered C response = .again classified) :
    classified.outcome ≠ .indeterminate := by
  rw [answered] at ended
  dsimp only at ended
  split at ended
  · rcases ended with same | same <;> cases same
    simp
  split at ended
  · rcases ended with same | same <;> cases same
    simp
  split at ended
  · rcases ended with same | same <;> cases same
    simp
  split at ended
  · rcases ended with same | same <;> cases same
    simp
  · rcases ended with same | same <;> cases same
    simp

theorem timedOut_of_indeterminate (attempt : Attempt) (classified : Classified)
    (ended : verdict C attempt = .finish classified ∨ verdict C attempt = .again classified)
    (unknown : classified.outcome = .indeterminate) : attempt.timedOut := by
  rcases ends : attempt.ending with response | ⟨cls, sent, message⟩
  · rw [verdict, ends] at ended
    exact absurd unknown (answered_determinate C response classified ended)
  · rcases mapped : failureKind cls with _ | kind
    · rw [verdict, ends] at ended
      dsimp only at ended
      rw [mapped] at ended
      rcases ended with same | same <;> cases same
    · rw [verdict_raised C attempt cls sent message kind ends mapped, failed] at ended
      by_cases counted : kind.requestSent = true
      · rcases (failureKind_sent_iff cls).mp ⟨kind, mapped, counted⟩ with timeout | timeout
        · exact .inl ⟨cls, sent, message, ends, timeout⟩
        · exact .inr ⟨cls, sent, message, ends, timeout⟩
      · rw [if_neg counted] at ended
        rcases ended with same | same
        · cases same
        · cases same
          cases unknown

/-! What the loop makes of the attempts. -/

def LoopEnd.Concludes (ended : LoopEnd) (attempt : Attempt) : Prop :=
  match verdict C attempt with
  | .escape cls => ended.result = .error cls
  | .finish classified => ended.result = .ok classified
  | .again classified => ended.attempts = C.maxAttempts ∧ ended.result = .ok classified

theorem attemptLoop_spec (outcomes : Nat → Attempt) (attempts : Nat) (room : attempts < C.maxAttempts) :
    ∃ last, (attemptLoop C outcomes attempts).attempts = last + 1 ∧ attempts ≤ last ∧ last < C.maxAttempts ∧
      (∀ i, attempts ≤ i → i < last → Retried C (outcomes i)) ∧
      (attemptLoop C outcomes attempts).Concludes C (outcomes last) := by
  fun_induction attemptLoop C outcomes attempts with
  | case1 attempts cls escaped =>
    exact ⟨attempts, rfl, le_rfl, room, by omega, by rw [LoopEnd.Concludes, escaped]⟩
  | case2 attempts classified finished =>
    exact ⟨attempts, rfl, le_rfl, room, by omega, by rw [LoopEnd.Concludes, finished]⟩
  | case3 attempts classified again left later =>
    rcases later left with ⟨last, count, after, bound, retried, concludes⟩
    refine ⟨last, count, by omega, bound, fun i past before => ?_, concludes⟩
    rcases past.eq_or_lt with rfl | past
    · exact ⟨classified, again⟩
    · exact retried i past before
  | case4 attempts classified again full =>
    refine ⟨attempts, rfl, le_rfl, room, by omega, ?_⟩
    rw [LoopEnd.Concludes, again]
    exact ⟨by dsimp only; omega, rfl⟩

theorem attemptLoop_last (outcomes : Nat → Attempt) (i : Nat) (made : i < (attemptLoop C outcomes 0).attempts)
    (final : ¬Retried C (outcomes i)) : i + 1 = (attemptLoop C outcomes 0).attempts := by
  rcases attemptLoop_spec C outcomes 0 C.atLeastOne with ⟨last, count, -, -, retried, -⟩
  by_contra more
  exact final (retried i i.zero_le (by omega))

/-- The attempts that are made are those with nothing but retried ones before them. -/
theorem attemptLoop_made_iff (outcomes : Nat → Attempt) (i : Nat) (room : i < C.maxAttempts) :
    i < (attemptLoop C outcomes 0).attempts ↔ ∀ j < i, Retried C (outcomes j) := by
  rcases attemptLoop_spec C outcomes 0 C.atLeastOne with ⟨last, count, -, bound, retried, concludes⟩
  constructor
  · intro made j before
    exact retried j j.zero_le (by omega)
  · intro before
    by_contra past
    rcases before last (by omega) with ⟨classified, again⟩
    rw [LoopEnd.Concludes, again] at concludes
    omega

def LoopEnd.outcome (ended : LoopEnd) : Option EvalOutcome := ended.result.toOption.map Classified.outcome

theorem LoopEnd.Concludes.outcome_eq {ended : LoopEnd} {attempt : Attempt}
    (concludes : ended.Concludes C attempt) (classified : Classified)
    (verdicts : verdict C attempt = .finish classified ∨ verdict C attempt = .again classified) :
    ended.outcome = some classified.outcome := by
  rw [LoopEnd.Concludes] at concludes
  rcases verdicts with finished | again
  · rw [finished] at concludes
    rw [LoopEnd.outcome, concludes]
    rfl
  · rw [again] at concludes
    rw [LoopEnd.outcome, concludes.2]
    rfl

/-- A request that may have run is not made again, and its outcome is unknown. -/
def NotResent (outcomes : Nat → Attempt) (attempts : Nat) (outcome : Option EvalOutcome) : Prop :=
  ∀ i < attempts, (outcomes i).failedSent → i + 1 = attempts ∧ outcome = some .indeterminate

def NoRetryOfRejected (outcomes : Nat → Attempt) (attempts : Nat) : Prop :=
  ∀ i < attempts, (outcomes i).rejected → i + 1 = attempts

theorem attemptLoop_rejected (outcomes : Nat → Attempt) :
    NoRetryOfRejected outcomes (attemptLoop C outcomes 0).attempts := by
  intro i made refused
  apply attemptLoop_last C outcomes i made
  intro ⟨other, again⟩
  rcases verdict_rejected C _ refused with ⟨classified, finished⟩
  rw [finished] at again
  cases again

theorem attemptLoop_timedOut (outcomes : Nat → Attempt) (i : Nat)
    (made : i < (attemptLoop C outcomes 0).attempts) (timed : (outcomes i).timedOut) :
    i + 1 = (attemptLoop C outcomes 0).attempts ∧
      (attemptLoop C outcomes 0).outcome = some .indeterminate := by
  rcases verdict_timedOut C _ timed with ⟨classified, finished, unknown⟩
  have ends := attemptLoop_last C outcomes i made (by
    intro ⟨other, again⟩
    rw [finished] at again
    cases again)
  rcases attemptLoop_spec C outcomes 0 C.atLeastOne with ⟨last, count, -, -, -, concludes⟩
  have same : i = last := by omega
  rw [← same] at concludes
  exact ⟨ends, by rw [concludes.outcome_eq C classified (.inl finished), unknown]⟩

/-- A request that has been sent stays alone exactly when, up to the first attempt that is not retried, only a
timeout fails one. -/
theorem notResent_iff (outcomes : Nat → Attempt) :
    NotResent outcomes (attemptLoop C outcomes 0).attempts (attemptLoop C outcomes 0).outcome ↔
      ∀ i < C.maxAttempts, (∀ j < i, Retried C (outcomes j)) → (outcomes i).failedSent →
        (outcomes i).timedOut := by
  rcases attemptLoop_spec C outcomes 0 C.atLeastOne with ⟨last, count, -, bound, retried, concludes⟩
  constructor
  · intro kept i room before broken
    have made := (attemptLoop_made_iff C outcomes i room).mpr before
    rcases kept i made broken with ⟨ends, unknown⟩
    obtain rfl : i = last := by omega
    rcases reached : verdict C (outcomes i) with classified | classified | cls
    · rw [concludes.outcome_eq C classified (.inl reached)] at unknown
      exact timedOut_of_indeterminate C _ classified (.inl reached) (Option.some.inj unknown)
    · rw [concludes.outcome_eq C classified (.inr reached)] at unknown
      exact timedOut_of_indeterminate C _ classified (.inr reached) (Option.some.inj unknown)
    · rw [LoopEnd.Concludes, reached] at concludes
      rw [LoopEnd.outcome, concludes] at unknown
      cases unknown
  · intro timeouts i made broken
    have before := (attemptLoop_made_iff C outcomes i (by omega)).mp made
    exact attemptLoop_timedOut C outcomes i made (timeouts i (by omega) before broken)

theorem postsMade_mono (outcomes : Nat → Attempt) {few many : Nat} (le : few ≤ many) :
    postsMade outcomes few ≤ postsMade outcomes many := by
  induction le with
  | refl => exact le_rfl
  | step _ ih => exact ih.trans (Nat.le_add_right _ _)

/-- The POSTs stay within the attempts allowed exactly when they do so up to each attempt with nothing but
retried ones before it. -/
theorem posts_bounded_iff (outcomes : Nat → Attempt) :
    postsMade outcomes (attemptLoop C outcomes 0).attempts ≤ C.maxAttempts ↔
      ∀ i < C.maxAttempts, (∀ j < i, Retried C (outcomes j)) →
        postsMade outcomes (i + 1) ≤ C.maxAttempts := by
  rcases attemptLoop_spec C outcomes 0 C.atLeastOne with ⟨last, count, -, bound, retried, -⟩
  constructor
  · intro within i room before
    have made := (attemptLoop_made_iff C outcomes i room).mpr before
    exact (postsMade_mono outcomes made).trans within
  · intro each
    rw [count]
    exact each last bound fun j earlier => retried j j.zero_le earlier

end

def RunEnd.outcome (ended : RunEnd) : Option EvalOutcome :=
  ended.result.toOption.map fun result => result.classified.outcome

/-- A request that may have run is not sent again: not after a failure, not after a 4xx, and not more often than
the attempts allowed. -/
structure RunsOnce (C : Client) (outcomes : Nat → Attempt) (ended : RunEnd) : Prop where
  notResent : NotResent outcomes ended.attempts ended.outcome
  rejected : NoRetryOfRejected outcomes ended.attempts
  bounded : ended.posts ≤ C.maxAttempts

/-- Of the attempts up to the first one that is not retried, those that fail after they sent something fail with
a timeout, and the redirects make no more POSTs of them than attempts are allowed. -/
def Gentle (C : Client) (outcomes : Nat → Attempt) : Prop :=
  ∀ i < C.maxAttempts, (∀ j < i, Retried C (outcomes j)) →
    ((outcomes i).failedSent → (outcomes i).timedOut) ∧ postsMade outcomes (i + 1) ≤ C.maxAttempts

theorem runAgent_refused (C : Client) (state : WarmState) (health : Attempt) (outcomes : Nat → Attempt)
    (slug mode : String) (refusal : Refusal) (refused : checkCall C slug mode = .error refusal) :
    RunsOnce C outcomes (runAgent C state health outcomes slug mode) := by
  rw [runAgent, refused]
  exact ⟨fun i made => absurd made i.not_lt_zero, fun i made => absurd made i.not_lt_zero, C.maxAttempts.zero_le⟩

theorem runAgent_admitted (C : Client) (state : WarmState) (health : Attempt) (outcomes : Nat → Attempt)
    (slug mode : String) (live : String × SlugResolution) (admitted : checkCall C slug mode = .ok live) :
    (runAgent C state health outcomes slug mode).attempts = (attemptLoop C outcomes 0).attempts ∧
      (runAgent C state health outcomes slug mode).posts =
        postsMade outcomes (attemptLoop C outcomes 0).attempts ∧
      (runAgent C state health outcomes slug mode).outcome = (attemptLoop C outcomes 0).outcome := by
  rw [runAgent, admitted]
  dsimp only
  refine ⟨rfl, rfl, ?_⟩
  rw [RunEnd.outcome, LoopEnd.outcome]
  dsimp only
  cases (attemptLoop C outcomes 0).result <;> rfl

theorem runAgent_once_iff (C : Client) (state : WarmState) (health : Attempt) (outcomes : Nat → Attempt)
    (slug mode : String) : RunsOnce C outcomes (runAgent C state health outcomes slug mode) ↔
      ((∃ live, checkCall C slug mode = .ok live) → Gentle C outcomes) := by
  cases admitted : checkCall C slug mode with
  | error refusal =>
    constructor
    · intro _ ⟨live, same⟩
      cases same
    · intro _
      exact runAgent_refused C state health outcomes slug mode refusal admitted
  | ok live =>
    rcases runAgent_admitted C state health outcomes slug mode live admitted with ⟨attempts, posts, outcome⟩
    constructor
    · intro once _ i room before
      have kept := once.notResent
      rw [attempts, outcome, notResent_iff] at kept
      have within := once.bounded
      rw [posts, posts_bounded_iff] at within
      exact ⟨kept i room before, within i room before⟩
    · intro gentle
      have each := gentle ⟨live, rfl⟩
      constructor
      · rw [attempts, outcome, notResent_iff]
        intro i room before
        exact (each i room before).1
      · rw [attempts]
        exact attemptLoop_rejected C outcomes
      · rw [posts, posts_bounded_iff]
        intro i room before
        exact (each i room before).2

/-! A service that closes the connection on the first request. -/

def defaultClient : Client where
  maxAttempts := 3
  atLeastOne := by decide
  unicode := { lower := fun s => s, printable := fun _ => true }
  warmup := false
  allowMoneyDomain := false
  strictSlugs := true
  redact := id
  redactText := id
  loads _ := none

def disconnected : Nat → Attempt
  | 0 => { redirects := []
           ending := .raised .remoteProtocolError true "Server disconnected without sending a response." }
  | _ => { redirects := [], ending := .answered { statusCode := 200, text := "done" } }

/-- The request is made twice, and the call succeeds. -/
theorem disconnected_resent : ¬RunsOnce defaultClient disconnected
    (runAgent defaultClient ⟨false, false⟩ (disconnected 1) disconnected "qa_agent" "full") := by
  have resolved : resolveLiveSlug "qa_agent" = some ("qa_agent", .verified) := by decide
  have harmless : isMoneyDomain defaultClient.unicode "qa_agent" = false := by decide
  have admitted : checkCall defaultClient "qa_agent" "full" = .ok ("qa_agent", .verified) := by
    rw [checkCall, resolved]
    dsimp only
    rw [harmless, if_neg (by decide), if_neg (by decide), if_neg (by decide)]
  rcases runAgent_admitted defaultClient ⟨false, false⟩ (disconnected 1) disconnected "qa_agent" "full" _ admitted
    with ⟨attempts, posts, outcome⟩
  intro once
  have kept := once.notResent
  rw [attempts, outcome, notResent_iff] at kept
  rcases kept 0 (by decide) (by omega) ⟨_, _, _, rfl, .inl rfl⟩ with ⟨cls, sent, message, same, timeout⟩ |
    ⟨cls, sent, message, same, timeout⟩
  · cases same
    exact absurd timeout (by decide)
  · cases same
    exact absurd timeout (by decide)

end GenesisAgents.EvalClient
