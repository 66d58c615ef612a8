import GenesisAgents.Library.Runs
import GenesisAgents.VerificationCriteria
import GenesisAgents.VerificationTask

/-! What becomes of a verification that has completed. -/

namespace GenesisAgents

open Value

def TaskEffect.record? : TaskEffect → Option JobRecord
  | .stored record => some record
  | .posted _ _ => none

def TaskEffect.body? : TaskEffect → Option Value
  | .stored _ => none
  | .posted _ body => some body

def records (trace : List TaskEffect) : List JobRecord := trace.filterMap TaskEffect.record?

def bodies (trace : List TaskEffect) : List Value := trace.filterMap TaskEffect.body?

theorem records_append (first second : List TaskEffect) :
    records (first ++ second) = records first ++ records second := List.filterMap_append

def JobRecord.Keeps (earlier later : JobRecord) : Prop :=
  earlier.status = .completed → later.status = .completed ∧ later.result = earlier.result

structure Final (verification : Except String VerificationResult) (trace : List TaskEffect) :
    Prop where
  kept : (records trace).Pairwise JobRecord.Keeps
  consistent : ∀ result, verification = .ok result → result.passed = true →
    ∀ body ∈ bodies trace, body.get "passed" ≠ .bool false

/-- The verification gives a result, and then its callback raises. -/
def raisedAfterResult (verification : Except String VerificationResult) (delivery : Exchange) :
    Bool :=
  verification.toBool && delivery.raises

namespace Pipeline

variable (p : Pipeline) (delivery report : Exchange)

@[simp] theorem records_post (body : Value) (exchange : Exchange) :
    records (p.post body exchange) = [] := by
  rw [post]
  split <;> rfl

theorem bodies_post (body other : Value) (exchange : Exchange)
    (member : other ∈ bodies (p.post body exchange)) : other = body := by
  rw [post] at member
  split at member
  · simpa [bodies, TaskEffect.body?] using member
  · simp [bodies] at member

theorem records_handle (record : JobRecord) (raised : String) :
    records (p.handle record raised report) =
      [{ record with
          status := .failed, result := (p.failedResult raised).or record.result
          error := some raised }] := by
  rw [handle]
  rw [← List.singleton_append, records_append, records_post]
  rfl

theorem records_error (raised : String) (failed : p.outcome = .error raised) :
    records (p.run delivery report) = running :: records (p.handle running raised report) := by
  simp only [run, failed, records, List.filterMap_cons, TaskEffect.record?]

theorem records_ok (finished : FinishedVerification) (returned : p.outcome = .ok finished) :
    records (p.run delivery report) =
      running :: completed finished :: records (p.deliver finished delivery report) := by
  simp only [run, returned, records, List.filterMap_cons, TaskEffect.record?]

theorem records_answered (finished : FinishedVerification) (statusCode : Nat) :
    records (p.deliver finished (.answered statusCode) report) = [] := by
  simp only [deliver, List.append_nil, records_post]

theorem records_raised (finished : FinishedVerification) (sent : Bool) (text : String) :
    records (p.deliver finished (.raised sent text) report) =
      records (p.handle (completed finished) text report) := by
  simp only [deliver, records_append, records_post, List.nil_append]

theorem running_keeps (later : JobRecord) : running.Keeps later := fun done => by cases done

theorem raised_breaks (finished : FinishedVerification) (returned : p.outcome = .ok finished)
    (sent : Bool) (text : String) :
    ¬(records (p.run (.raised sent text) report)).Pairwise JobRecord.Keeps := by
  rw [records_ok p _ report finished returned, records_raised, records_handle]
  intro kept
  have after := (List.pairwise_cons.mp (List.pairwise_cons.mp kept).2).1
  have same := (after _ List.mem_cons_self rfl).1
  cases same

/-- The failure is reported whatever the verification said. -/
theorem raised_reports_failure (finished : FinishedVerification)
    (returned : p.outcome = .ok finished) (sent : Bool) (text : String) (reached : report.sent = true) :
    p.failureBody text ∈ bodies (p.run (.raised sent text) report) := by
  have handled : .posted p.callbackPath (p.failureBody text) ∈
      p.handle (completed finished) text report := by
    rw [handle, post, if_pos reached]
    exact List.mem_cons_of_mem _ List.mem_cons_self
  have performed : .posted p.callbackPath (p.failureBody text) ∈
      p.run (.raised sent text) report := by
    rw [run, returned]
    exact List.mem_cons_of_mem _ (List.mem_cons_of_mem _ (List.mem_append_right _ handled))
  exact List.mem_filterMap.mpr ⟨_, performed, rfl⟩

theorem answered_final (finished : FinishedVerification) (returned : p.outcome = .ok finished)
    (truthful : finished.callbackBody.get "passed" = .bool finished.result.passed)
    (statusCode : Nat) :
    Final (p.outcome.map FinishedVerification.result) (p.run (.answered statusCode) report) := by
  constructor
  · rw [records_ok p _ report finished returned, records_answered]
    exact .cons (fun later _ => running_keeps later) (List.pairwise_singleton _ _)
  · intro result verified passed body member
    have trace : p.run (.answered statusCode) report =
        .stored running :: .stored (completed finished) ::
          p.post finished.callbackBody (.answered statusCode) := by
      simp only [run, returned, deliver, List.append_nil]
    rw [trace] at member
    have same : body = finished.callbackBody := bodies_post p _ _ _ member
    rw [returned] at verified
    obtain rfl : finished.result = result := Except.ok.inj verified
    rw [same, truthful, passed]
    simp

theorem error_final (raised : String) (failed : p.outcome = .error raised) :
    Final (p.outcome.map FinishedVerification.result) (p.run delivery report) := by
  constructor
  · rw [records_error p delivery report raised failed, records_handle]
    exact .cons (fun later _ => running_keeps later) (List.pairwise_singleton _ _)
  · intro result verified
    rw [failed] at verified
    cases verified

/-- Both tasks: the callback body says what the verification says. -/
theorem final_iff (truthful : ∀ finished, p.outcome = .ok finished →
      finished.callbackBody.get "passed" = .bool finished.result.passed) :
    Final (p.outcome.map FinishedVerification.result) (p.run delivery report) ↔
      raisedAfterResult (p.outcome.map FinishedVerification.result) delivery = false := by
  cases outcome : p.outcome with
  | error raised =>
    have final := error_final p delivery report raised outcome
    rw [outcome] at final
    exact iff_of_true final rfl
  | ok finished =>
    cases delivery with
    | answered statusCode =>
      have final := answered_final p report finished outcome (truthful finished outcome) statusCode
      rw [outcome] at final
      exact iff_of_true final rfl
    | raised sent text =>
      refine iff_of_false (fun final => ?_) (by simp [raisedAfterResult, Exchange.raises,
        Except.map, Except.toBool])
      exact raised_breaks p report finished outcome sent text final.kept

end Pipeline

section Tasks

variable (verify : VerificationSpec → VerificationContext → Except String VerificationResult)

theorem VerifyRequest.outcome_result (request : VerifyRequest) :
    (request.pipeline verify).outcome.map FinishedVerification.result =
      request.verification verify := by
  rw [pipeline]
  cases request.verification verify <;> rfl

theorem VerifyRequest.truthful (request : VerifyRequest) (finished : FinishedVerification)
    (returned : (request.pipeline verify).outcome = .ok finished) :
    finished.callbackBody.get "passed" = .bool finished.result.passed := by
  rw [pipeline] at returned
  cases verified : request.verification verify with
  | error raised => simp [verified, Except.map] at returned
  | ok result =>
    rw [verified] at returned
    obtain rfl := Except.ok.inj returned
    rfl

theorem ArbitrageVerificationRequest.outcome_result (request : ArbitrageVerificationRequest) :
    (request.pipeline verify).outcome.map FinishedVerification.result =
      request.verification verify := by
  unfold pipeline verification
  cases request.extractSpec with
  | error raised => rfl
  | ok spec =>
    simp only [Except.bind]
    cases verify spec request.context <;> rfl

theorem ArbitrageVerificationRequest.truthful (request : ArbitrageVerificationRequest)
    (finished : FinishedVerification)
    (returned : (request.pipeline verify).outcome = .ok finished) :
    finished.callbackBody.get "passed" = .bool finished.result.passed := by
  rw [pipeline] at returned
  cases extracted : request.extractSpec with
  | error raised => simp [extracted, Except.bind] at returned
  | ok spec =>
    cases verified : verify spec request.context with
    | error raised => simp [extracted, verified, Except.bind, Except.map] at returned
    | ok result =>
      simp only [extracted, verified, Except.bind, Except.map] at returned
      obtain rfl := Except.ok.inj returned
      rfl

/-- A finished verification stays final except where its callback raises: the handler then records
a failure and reports one. -/
theorem finished_final_iff (delivery report : Exchange) :
    (∀ request : VerifyRequest,
      Final (request.verification verify) (runAndCallback verify request delivery report) ↔
        raisedAfterResult (request.verification verify) delivery = false) ∧
    ∀ request : ArbitrageVerificationRequest,
      Final (request.verification verify)
          (runArbitrageVerificationAndCallback verify request delivery report) ↔
        raisedAfterResult (request.verification verify) delivery = false := by
  constructor
  · intro request
    have exactly := (request.pipeline verify).final_iff delivery report (request.truthful verify)
    rwa [request.outcome_result verify] at exactly
  · intro request
    have exactly := (request.pipeline verify).final_iff delivery report (request.truthful verify)
    rwa [request.outcome_result verify] at exactly

end Tasks

/-! The table of job records, which the tasks of all jobs write. -/

abbrev JobTable := String → Option JobRecord

def JobTable.apply (table : JobTable) (step : String × TaskEffect) : JobTable :=
  match step.2.record? with
  | some record => Function.update table step.1 (some record)
  | none => table

def effectsOf (jobId : String) (schedule : List (String × TaskEffect)) : List TaskEffect :=
  (schedule.filter (·.1 = jobId)).map (·.2)

theorem effectsOf_append (jobId : String) (first second : List (String × TaskEffect)) :
    effectsOf jobId (first ++ second) = effectsOf jobId first ++ effectsOf jobId second := by
  rw [effectsOf, List.filter_append, List.map_append]
  rfl

theorem apply_other (table : JobTable) (jobId other : String) (effect : TaskEffect)
    (distinct : other ≠ jobId) : table.apply (other, effect) jobId = table jobId := by
  cases effect with
  | stored record => exact Function.update_of_ne distinct.symm _ _
  | posted path body => rfl

theorem apply_self (table : JobTable) (jobId : String) (effect : TaskEffect) :
    table.apply (jobId, effect) jobId = effect.record?.or (table jobId) := by
  cases effect with
  | stored record => exact Function.update_self _ _ _
  | posted path body => rfl

theorem table_last (jobId : String) (schedule : List (String × TaskEffect)) :
    ∀ table : JobTable, Runs.run JobTable.apply table schedule jobId =
      (records (effectsOf jobId schedule)).getLast?.or (table jobId) := by
  induction schedule with
  | nil => exact fun table => rfl
  | cons step rest later =>
    intro table
    obtain ⟨other, effect⟩ := step
    rw [Runs.run_cons, later]
    by_cases same : other = jobId
    · subst same
      have own : effectsOf other ((other, effect) :: rest) = effect :: effectsOf other rest := by
        simp [effectsOf]
      rw [own, apply_self]
      cases effect with
      | stored record =>
        have stored : records (.stored record :: effectsOf other rest) =
            record :: records (effectsOf other rest) := rfl
        rw [stored, List.getLast?_cons]
        cases (records (effectsOf other rest)).getLast? <;> rfl
      | posted path body => rfl
    · have foreign : effectsOf jobId ((other, effect) :: rest) = effectsOf jobId rest := by
        simp [effectsOf, same]
      rw [foreign, apply_other table jobId other effect same]

/-- In whatever order the tasks run, a job that shows as completed keeps its status and its result
when its own task's records do. -/
theorem table_keeps (table : JobTable) (jobId : String) (trace : List TaskEffect)
    (kept : (records trace).Pairwise JobRecord.Keeps)
    (fresh : table jobId = some JobRecord.created) (first second : List (String × TaskEffect))
    (own : effectsOf jobId (first ++ second) <+: trace) (earlier : JobRecord)
    (shown : Runs.run JobTable.apply table first jobId = some earlier)
    (done : earlier.status = .completed) :
    ∃ later, Runs.run JobTable.apply table (first ++ second) jobId = some later ∧
      later.status = .completed ∧ later.result = earlier.result := by
  obtain ⟨rest, whole⟩ := own
  have before : earlier ∈ records (effectsOf jobId first) := by
    rw [table_last, fresh] at shown
    cases last : (records (effectsOf jobId first)).getLast? with
    | none =>
      rw [last] at shown
      obtain rfl : JobRecord.created = earlier := Option.some.inj shown
      cases done
    | some record =>
      rw [last] at shown
      obtain rfl : record = earlier := Option.some.inj shown
      exact List.mem_of_getLast? last
  rw [← whole, effectsOf_append, List.append_assoc, records_append,
    records_append, List.pairwise_append] at kept
  rw [Runs.run_append, table_last, shown]
  cases last : (records (effectsOf jobId second)).getLast? with
  | none => exact ⟨earlier, rfl, done, rfl⟩
  | some later =>
    have after : later ∈ records (effectsOf jobId second) := List.mem_of_getLast? last
    have keeps := kept.2.2 earlier before later (List.mem_append_left _ after) done
    exact ⟨later, rfl, keeps⟩

/-! A passing deliverable whose callback cannot be delivered. -/

def unreachable : Exchange := .raised false "All connection attempts failed"

def helloRequest : VerifyRequest := ⟨none, none, helloSpec, helloContext⟩

def helloPage : Surroundings where
  artifact := .ok (utf8 "hello")
  rubricText := .error "offline"
  browser :=
    { importError := none, launchError := none, navigateError := none
      screenshot := .error "offline", extract := .found "hello", content := .ok "hello"
      accessibility := none, closeError := none }

def helloArbitrage : ArbitrageVerificationRequest where
  verificationRunId := "run-1"
  transactionId := "transaction-1"
  proposalId := "proposal-1"
  method := none
  policy := []
  requestPayload := [("url", .str "https://example.com"), ("expectedHash", .str helloSha)]

theorem passed_then_failed :
    ¬Final (helloRequest.verification (helloVerifier.runVerification offline "job-1"))
        (runAndCallback (helloVerifier.runVerification offline "job-1") helloRequest unreachable
          (.answered 200)) ∧
    ¬Final (helloArbitrage.verification (helloVerifier.runVerification helloPage "job-2"))
        (runArbitrageVerificationAndCallback (helloVerifier.runVerification helloPage "job-2")
          helloArbitrage unreachable (.answered 200)) := by
  constructor
  · intro final
    exact Pipeline.raised_breaks _ _ _ rfl _ _ final.kept
  · intro final
    exact Pipeline.raised_breaks _ _ _ rfl _ _ final.kept

end GenesisAgents
