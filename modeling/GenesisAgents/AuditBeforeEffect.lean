import GenesisAgents.DispatchSteps
import GenesisAgents.AuditLog

/-! The audit records of a dispatch: the intent comes before the tool, the event after it, and a
store that fails stops the call or its answer. A tool that is cancelled leaves no event. -/

namespace GenesisAgents

open Value

section

variable (S : Setting) (W : World)

/-- What the audit owes to one dispatch step. -/
structure AuditedStep (step : DispatchStep) : Prop where
  /-- Only a read-only tool is entered without a stored intent. -/
  intentFirst : ∀ tool args context before after,
    step.effects S W = before ++ .invoke tool args context :: after →
    getToolRiskByName S.tables tool ≠ .readOnly →
    .appendIntent S.sessionId tool args true ∈ before
  /-- An execution that could not be recorded is answered as a failure. -/
  recorded : ∀ tool args context before after,
    step.effects S W = before ++ .invoke tool args context :: after →
    (∃ outputs, .appendEvent S.sessionId tool args outputs true ∈ after) ∨
      step.message S W = some (.tool step.call.tcId (auditAppendFailed tool)) ∧
      ∃ record, step.record S W = some record ∧ record.ok = false ∧
        record.result = auditAppendFailed tool
  /-- A failed intent leaves the tool alone. -/
  preflight : ∀ tool args, .appendIntent S.sessionId tool args false ∈ step.effects S W →
    ∀ effect ∈ step.effects S W, effect.invocation? = none

theorem risk_of_reached (fnName : String) (reached : reachesPolicy S fnName = true) :
    (checkToolPolicy S.tables S.slug fnName).riskClass = getToolRiskByName S.tables fnName :=
  checkToolPolicy_riskClass S.tables S.slug fnName (clear_of_reached S fnName reached)

theorem intentEffects_risky (fnName : String) (args : Value)
    (reached : reachesPolicy S fnName = true)
    (risky : getToolRiskByName S.tables fnName ≠ .readOnly) :
    intentEffects S fnName args = [.appendIntent S.sessionId fnName args true] := by
  rw [← risk_of_reached S fnName reached] at risky
  rw [intentEffects, if_neg risky]

theorem answer_unrecorded (σ : LoopState) (call : ToolCall) (attempt : Attempt)
    (executed : attempt.toolExecuted = true) (lost : W.event σ.dispatched = false) :
    answer W σ call attempt = auditAppendFailed call.fnName := by
  simp [answer, executed, lost]

/-- An entered step whose event is lost answers with the failure, in the history and in the trace. -/
theorem entered_unrecorded (step : DispatchStep) (attempt : Attempt)
    (entered : Entered S W step attempt) (uncancelled : attempt.cancelled = false)
    (lost : W.event step.before.dispatched = false) :
    step.message S W = some (.tool step.call.tcId (auditAppendFailed step.call.fnName)) ∧
      ∃ record, step.record S W = some record ∧ record.ok = false ∧
        record.result = auditAppendFailed step.call.fnName := by
  have answered := answer_unrecorded W step.before step.call attempt entered.executed lost
  have encodes : (auditAppendFailed step.call.fnName).dumpable = true := rfl
  constructor
  · rw [DispatchStep.message, entered.attempted, Option.bind_some, appendedMessage, answered, uncancelled,
      entered.object, encodes]
    rfl
  · rw [DispatchStep.record, entered.attempted, Option.bind_some, appendedRecord, answered, uncancelled,
      entered.object, encodes]
    exact ⟨_, rfl, rfl, rfl⟩

theorem policyChain_intents (σ : LoopState) (fnName tool : String) (args inputs : Value)
    (policy : Policy) (stored : Bool) :
    .appendIntent S.sessionId tool inputs stored ∉
      (policyChain S W σ fnName args policy).effects := by
  rw [policyChain]
  repeat' split
  all_goals simp

theorem entered_intents (step : DispatchStep) (attempt : Attempt)
    (entered : Entered S W step attempt) (tool : String) (args : Value) :
    .appendIntent S.sessionId tool args false ∉ step.effects S W := by
  rw [DispatchStep.effects, entered.attempted, Option.elim_some, entered.effects]
  intro member
  simp only [List.mem_append, policyChain_intents, false_or, List.mem_singleton] at member
  rcases member with (intent | invoked) | event
  · rw [intentEffects] at intent
    split at intent
    · simp at intent
    · simp at intent
  · cases invoked
  · rw [eventEffects] at event
    split at event
    · simp at event
    · simp at event

theorem step_intentFirst (step : DispatchStep) (tool : String) (args : Value) (context : ToolContext)
    (before after : List Effect) (whole : step.effects S W = before ++ .invoke tool args context :: after)
    (risky : getToolRiskByName S.tables tool ≠ .readOnly) :
    .appendIntent S.sessionId tool args true ∈ before := by
  rcases entered_of_split S W step tool args context before after whole with
    ⟨rfl, rfl, attempt, entered, rfl, -⟩
  rw [intentEffects_risky S _ _ (named_of_reaches S step.call entered.reached).2 risky]
  simp

theorem step_preflight (step : DispatchStep) (tool : String) (args : Value)
    (failed : .appendIntent S.sessionId tool args false ∈ step.effects S W) :
    ∀ effect ∈ step.effects S W, effect.invocation? = none := by
  have silent : (step.effects S W).filterMap Effect.invocation? = [] := by
    rw [step_invocations]
    rcases attempted : step.attempt S W with _ | attempt
    · rfl
    · rw [Option.elim_some]
      by_cases invoked : attempt.invoked = true
      · have entered := entered_of_invoked S W step attempt attempted invoked
        exact absurd failed (entered_intents S W step attempt entered tool args)
      · rw [if_neg invoked]
  exact List.filterMap_eq_nil_iff.mp silent

/-- The tool of the step is entered and not cancelled, or not entered. -/
def Uncancelled (step : DispatchStep) : Prop :=
  Enters S W step.before step.call → ∀ charged, W.tool step.before.dispatched ≠ .cancelled charged

theorem step_recorded (step : DispatchStep) (uncancelled : Uncancelled S W step) (tool : String) (args : Value)
    (context : ToolContext) (before after : List Effect)
    (whole : step.effects S W = before ++ .invoke tool args context :: after) :
    (∃ outputs, .appendEvent S.sessionId tool args outputs true ∈ after) ∨
      step.message S W = some (.tool step.call.tcId (auditAppendFailed tool)) ∧
      ∃ record, step.record S W = some record ∧ record.ok = false ∧
        record.result = auditAppendFailed tool := by
  rcases entered_of_split S W step tool args context before after whole with
    ⟨rfl, rfl, attempt, entered, -, rfl⟩
  have open_ := (attempt_cancelled_iff S W step.before step.call attempt entered.attempted).mpr uncancelled
  cases recorded : W.event step.before.dispatched with
  | true =>
    left
    rw [eventEffects, entered.executed, open_, recorded]
    exact ⟨_, List.mem_singleton_self _⟩
  | false =>
    right
    exact entered_unrecorded S W step attempt entered open_ recorded

/-- A cancelled tool leaves neither a record nor an answer. -/
theorem cancelled_unaudited (step : DispatchStep) (enters : Enters S W step.before step.call) (charged : Int)
    (cancelled : W.tool step.before.dispatched = .cancelled charged) : ¬AuditedStep S W step := by
  intro audited
  rcases enters_attempt S W step.before step.call enters with ⟨attempt, attempted, takes⟩
  have entered := entered_of_invoked S W step attempt attempted takes.invoked
  have gone : attempt.cancelled = true := by
    rw [takes.cancelled, cancelled]
    rfl
  have silent : eventEffects S W step.before step.call attempt = [] := by
    rw [eventEffects, gone, entered.executed]
    rfl
  have whole : step.effects S W =
      ((policyChain S W step.before step.call.fnName step.call.args
        (checkToolPolicy S.tables S.slug step.call.fnName)).effects ++
          intentEffects S step.call.fnName step.call.args) ++
        .invoke step.call.fnName step.call.args (toolContext S step.before) :: [] := by
    rw [DispatchStep.effects, entered.attempted, Option.elim_some, entered.effects, silent, List.append_nil,
      List.append_assoc]
  rcases audited.recorded _ _ _ _ _ whole with ⟨outputs, recorded⟩ | ⟨answered, -⟩
  · cases recorded
  · rw [DispatchStep.message, entered.attempted, Option.bind_some, appendedMessage_cancelled W _ _ _ gone] at answered
    contradiction

theorem step_audited_iff (step : DispatchStep) : AuditedStep S W step ↔ Uncancelled S W step := by
  constructor
  · intro audited enters charged cancelled
    exact cancelled_unaudited S W step enters charged cancelled audited
  · intro uncancelled
    exact ⟨step_intentFirst S W step, step_recorded S W step uncancelled, step_preflight S W step⟩

structure StepsOf (steps : List DispatchStep) : Prop where
  trace : Trace S W (runLoop S W).1 steps
  effects : (runLoop S W).1.effects = steps.flatMap (DispatchStep.effects S W)
  history : (runLoop S W).1.messages.filter Message.isTool = steps.filterMap (DispatchStep.message S W)
  records : (runLoop S W).1.toolCallRecords = steps.filterMap (DispatchStep.record S W)

/-- Every run is one of dispatch steps, and they are all audited exactly when no tool that is entered is
cancelled. -/
theorem runLoop_audited_iff : (∃ steps, StepsOf S W steps) ∧ ∀ steps, StepsOf S W steps →
    ((∀ step ∈ steps, AuditedStep S W step) ↔ ∀ step ∈ steps, Uncancelled S W step) := by
  rcases runLoop_trace S W with ⟨steps, trace⟩
  have ledger := trace_ledger S W trace
  refine ⟨⟨steps, trace, ledger.effects, ledger.history, ledger.records⟩, ?_⟩
  intro steps _
  exact forall₂_congr fun step _ => step_audited_iff S W step

/-- `append_tool_intent` -/
def appendToolIntent (sessionId toolName : String) (inputs : Value) (timestamp : Timestamp)
    (skippedIds : Nat) : LogCall :=
  { sessionId := sessionId, actionType := "tool_intent", toolName := toolName, inputs := inputs
    outputs := dict [("ok", bool false), ("status", str "authorized_pending_execution")]
    costCents := 0, error := "", timestamp := timestamp, skippedIds := skippedIds }

/-- `append_tool_event` -/
def appendToolEvent (U : Unicode) (sessionId toolName : String) (inputs outputs : Value)
    (timestamp : Timestamp) (skippedIds : Nat) : LogCall :=
  { sessionId := sessionId, actionType := "tool_call", toolName := toolName, inputs := inputs
    outputs := outputs, costCents := 0
    error := if (outputs.get "ok").truthy then "" else (outputs.getD "error" (str "tool_failed")).text U
    timestamp := timestamp, skippedIds := skippedIds }

variable (A : Auditing)

/-- What an effect does to the audit log: a record that is stored is a call of `log` that returns. -/
def Logs (db next : AuditDb) : Effect → Prop
  | .appendIntent sessionId tool args true =>
    ∃ timestamp skippedIds, db.log A (appendToolIntent sessionId tool args timestamp skippedIds) = some next
  | .appendEvent sessionId tool args outputs true =>
    ∃ timestamp skippedIds,
      db.log A (appendToolEvent S.unicode sessionId tool args outputs timestamp skippedIds) = some next
  | _ => next = db

/-- The effects of a run on the log, while others append rows of their own. -/
inductive LogRun : AuditDb → List Effect → AuditDb → Prop where
  | nil (db : AuditDb) : LogRun db [] db
  | own (db mid next : AuditDb) (effect : Effect) (rest : List Effect) (logs : Logs S A db mid effect)
      (later : LogRun mid rest next) : LogRun db (effect :: rest) next
  | others (db mid next : AuditDb) (effects : List Effect) (grown : db.rows <+: mid.rows)
      (later : LogRun mid effects next) : LogRun db effects next

structure IntentRow (sessionId tool : String) (args : Value) (row : AuditRow) : Prop where
  sessionId : row.sessionId = sessionId
  actionType : row.actionType = "tool_intent"
  toolName : row.toolName = tool
  inputs : AuditDb.jsonText (A.sanitizeInputs args) = some row.inputsJson

theorem log_appends (db next : AuditDb) (call : LogCall) (logged : db.log A call = some next) :
    ∃ texts, AuditDb.rowTexts A call = some texts ∧ next.rows = db.rows ++ [db.newRow A call texts.1 texts.2] := by
  rw [AuditDb.log, Option.map_eq_some_iff] at logged
  rcases logged with ⟨texts, written, rfl⟩
  exact ⟨texts, written, rfl⟩

theorem logs_grow (db next : AuditDb) (effect : Effect) (logs : Logs S A db next effect) : db.rows <+: next.rows := by
  have grown : ∀ call, db.log A call = some next → db.rows <+: next.rows := by
    intro call logged
    rcases log_appends A db next call logged with ⟨texts, -, rows⟩
    exact rows ▸ List.prefix_append _ _
  match effect, logs with
  | .appendIntent _ _ _ true, ⟨_, _, logged⟩ => exact grown _ logged
  | .appendEvent _ _ _ _ true, ⟨_, _, logged⟩ => exact grown _ logged
  | .appendIntent _ _ _ false, logs => exact (congrArg AuditDb.rows logs) ▸ List.prefix_rfl
  | .appendEvent _ _ _ _ false, logs => exact (congrArg AuditDb.rows logs) ▸ List.prefix_rfl
  | .consumeGrant _ _ _ _, logs => exact (congrArg AuditDb.rows logs) ▸ List.prefix_rfl
  | .invoke _ _ _, logs => exact (congrArg AuditDb.rows logs) ▸ List.prefix_rfl

theorem logRun_grow (db next : AuditDb) (effects : List Effect) (run : LogRun S A db effects next) :
    db.rows <+: next.rows := by
  induction run with
  | nil => exact List.prefix_rfl
  | own db mid next effect rest logs _ grown => exact (logs_grow S A db mid effect logs).trans grown
  | others db mid next effects before _ grown => exact before.trans grown

/-- A stored intent has its row from then on. -/
theorem logRun_intent (db next : AuditDb) (effects : List Effect) (run : LogRun S A db effects next)
    (sessionId tool : String) (args : Value) (stored : .appendIntent sessionId tool args true ∈ effects) :
    ∃ row ∈ next.rows, IntentRow A sessionId tool args row := by
  induction run with
  | nil => cases stored
  | others db mid next effects _ _ there => exact there stored
  | own db mid next effect rest logs later there =>
    cases List.mem_cons.mp stored with
    | inr inside => exact there inside
    | inl same =>
      rw [← same] at logs
      rcases logs with ⟨timestamp, skippedIds, logged⟩
      rcases log_appends A db mid _ logged with ⟨texts, written, rows⟩
      refine ⟨_, (logRun_grow S A mid next rest later).subset (rows ▸ List.mem_append_right _ List.mem_cons_self),
        rfl, rfl, rfl, ?_⟩
      rw [AuditDb.rowTexts] at written
      split at written
      · cases written
      · rcases Option.bind_eq_some_iff.mp written with ⟨inputs, dumped, rest⟩
        rcases Option.map_eq_some_iff.mp rest with ⟨outputs, -, rfl⟩
        exact dumped

theorem flatMap_split {α β : Type} (f : α → List β) (xs : List α) (before after : List β) (b : β)
    (whole : xs.flatMap f = before ++ b :: after) :
    ∃ x ∈ xs, ∃ first last, f x = first ++ b :: last ∧ first ⊆ before := by
  induction xs generalizing before with
  | nil => simp at whole
  | cons x xs later =>
    rw [List.flatMap_cons] at whole
    rcases List.append_eq_append_iff.mp whole with ⟨more, inFront, rest⟩ | ⟨more, here, rest⟩
    · rcases later more rest with ⟨y, member, first, last, splits, inside⟩
      exact ⟨y, List.mem_cons_of_mem x member, first, last, splits,
        fun c known => inFront ▸ List.mem_append_right _ (inside known)⟩
    · cases more with
      | nil =>
        rw [List.append_nil] at here
        rcases later [] rest.symm with ⟨y, member, first, last, splits, inside⟩
        exact ⟨y, List.mem_cons_of_mem x member, first, last, splits,
          fun c known => absurd (inside known) List.not_mem_nil⟩
      | cons c more =>
        rw [← (List.cons.inj rest).1] at here
        exact ⟨x, List.mem_cons_self, before, more, here, List.Subset.refl _⟩

/-- When a tool that is not read-only is entered, the log has a row for its intent. -/
theorem entered_after_row (before after : List Effect) (tool : String) (args : Value) (context : ToolContext)
    (whole : (runLoop S W).1.effects = before ++ .invoke tool args context :: after)
    (risky : getToolRiskByName S.tables tool ≠ .readOnly) (db next : AuditDb) (run : LogRun S A db before next) :
    ∃ row ∈ next.rows, IntentRow A S.sessionId tool args row := by
  rcases runLoop_trace S W with ⟨steps, trace⟩
  have effects := (trace_ledger S W trace).effects
  rw [whole] at effects
  rcases flatMap_split _ steps before after _ effects.symm with ⟨step, -, first, last, splits, inside⟩
  have stored := step_intentFirst S W step tool args context first last splits risky
  exact logRun_intent S A db next before run S.sessionId tool args (inside stored)

end

/-! A mail is being sent when the worker is stopped. -/

def stoppedWorld : World := { mailWorld with tool := fun _ => .cancelled 0 }

def plainAuditing : Auditing := ⟨id, id, id, fun _ => false⟩

theorem mailTime_plain : ':' ∉ "1767225600.0".toList := by decide

def mailIntent : LogCall := appendToolIntent "session-1" "send_email" (dict []) ⟨"1767225600.0", mailTime_plain⟩ 0

theorem entered_after_row_stopped : ∃ next, AuditDb.empty.log plainAuditing mailIntent = some next ∧
    ∃ row ∈ next.rows, IntentRow plainAuditing "session-1" "send_email" (dict []) row := by
  have logs : ∃ next, AuditDb.empty.log plainAuditing mailIntent = some next := ⟨_, rfl⟩
  rcases logs with ⟨next, logged⟩
  have run : LogRun mailSetting plainAuditing .empty
      [.appendIntent "session-1" "send_email" (dict []) true] next :=
    .own _ next _ _ _ ⟨_, _, logged⟩ (.nil next)
  exact ⟨next, logged, entered_after_row mailSetting stoppedWorld plainAuditing _ [] "send_email" (dict [])
    (toolContext mailSetting (runLoop mailSetting stoppedWorld).1) rfl (by decide) .empty next run⟩

theorem stopped_mail_unrecorded :
    ¬∀ (S : Setting) (W : World), ∃ steps, StepsOf S W steps ∧ ∀ step ∈ steps, AuditedStep S W step := by
  intro audits
  rcases audits mailSetting stoppedWorld with ⟨steps, steps_, audited⟩
  have effects := steps_.effects
  have history := steps_.history
  have made : (runLoop mailSetting stoppedWorld).1.effects =
      [.appendIntent "session-1" "send_email" (dict []) true,
        .invoke "send_email" (dict []) (toolContext mailSetting (runLoop mailSetting stoppedWorld).1)] := rfl
  have silent : (runLoop mailSetting stoppedWorld).1.messages.filter Message.isTool = [] := rfl
  rw [made] at effects
  rw [silent] at history
  have sent : Effect.invoke "send_email" (dict [])
      (toolContext mailSetting (runLoop mailSetting stoppedWorld).1) ∈
        steps.flatMap (DispatchStep.effects mailSetting stoppedWorld) := by
    rw [← effects]
    simp
  rcases List.mem_flatMap.mp sent with ⟨step, member, own⟩
  rcases List.append_of_mem own with ⟨before, after, whole⟩
  rcases (audited step member).recorded _ _ _ before after whole with ⟨outputs, recorded⟩ | ⟨answered, -⟩
  · have listed : Effect.appendEvent mailSetting.sessionId "send_email" (dict []) outputs true ∈
        steps.flatMap (DispatchStep.effects mailSetting stoppedWorld) :=
      List.mem_flatMap.mpr ⟨step, member, by rw [whole]; simp [recorded]⟩
    rw [← effects] at listed
    simp at listed
  · have listed := List.mem_filterMap.mpr ⟨step, member, answered⟩
    rw [← history] at listed
    cases listed

end GenesisAgents
