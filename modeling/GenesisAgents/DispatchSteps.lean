import GenesisAgents.ToolGate

/-! A run of the loop as the list of its dispatch steps: what each step adds to the effects, to the
history and to the trace, and what a step that enters its tool has done before. -/

namespace GenesisAgents

open Value

/-- One dispatch of a run: the state it starts in and the tool call. -/
structure DispatchStep where
  before : LoopState
  call : ToolCall

section

variable (S : Setting) (W : World)

def eventEffects (σ : LoopState) (call : ToolCall) (attempt : Attempt) : List Effect :=
  if attempt.toolExecuted && !attempt.cancelled then
    [.appendEvent S.sessionId call.fnName call.args
      (if attempt.toolResult.isDict then attempt.toolResult else dict [("ok", bool false)])
      (W.event σ.dispatched)]
  else []

def appendedRecord (σ : LoopState) (call : ToolCall) (attempt : Attempt) : Option ToolRecord :=
  if !attempt.cancelled && (call.args.isDict && (answer W σ call attempt).dumpable) then
    some (toolRecord σ call call.args.items (answer W σ call attempt))
  else none

namespace DispatchStep

variable (step : DispatchStep)

def attempt : Option Attempt := (callBranch S W step.before step.call).attempt

def effects : List Effect :=
  (step.attempt S W).elim [] fun attempt =>
    attempt.effects ++ eventEffects S W step.before step.call attempt

def message : Option Message :=
  (step.attempt S W).bind (appendedMessage W step.before step.call)

def record : Option ToolRecord :=
  (step.attempt S W).bind (appendedRecord W step.before step.call)

end DispatchStep

/-- The moves of the loop from its first state, with the dispatch steps among them. -/
inductive Trace : LoopState → List DispatchStep → Prop
  | start : Trace (initialState S) []
  | nextTurn {σ steps} : Trace σ steps → Trace { σ with turn := σ.turn + 1 } steps
  | received {σ steps} (response : LlmResponse) : Trace σ steps → Trace (receive σ response) steps
  | remembered {σ steps} (msg : AssistantMessage) : Trace σ steps →
      Trace { σ with messages := σ.messages ++ [.assistant msg] } steps
  | dispatched {σ steps} (call : ToolCall) : Trace σ steps →
      Trace (dispatch S W σ call).1 (steps ++ [⟨σ, call⟩])

theorem runLoop_trace : ∃ steps, Trace S W (runLoop S W).1 steps := by
  refine runLoop_invariant S W (fun σ => ∃ steps, Trace S W σ steps) ?_ ?_ ?_ ?_ ⟨[], .start⟩
  · rintro σ ⟨steps, trace⟩
    exact ⟨steps, .nextTurn trace⟩
  · rintro σ response ⟨steps, trace⟩
    exact ⟨steps, .received response trace⟩
  · rintro σ msg ⟨steps, trace⟩
    exact ⟨steps, .remembered msg trace⟩
  · rintro σ call ⟨steps, trace⟩
    exact ⟨_, .dispatched call trace⟩

theorem conclude_effects_eq (σ : LoopState) (call : ToolCall) (branch : Branch)
    (attempt : Attempt) (awaited : attempt.cancelled = false) :
    (conclude S W σ call branch attempt).1.effects =
      σ.effects ++ (attempt.effects ++ eventEffects S W σ call attempt) := by
  unfold conclude eventEffects
  generalize answer W σ call attempt = result
  rw [awaited]
  dsimp only
  split
  · cases result.dumpable <;> simp [List.append_assoc]
  · simp [List.append_assoc]

theorem conclude_records (σ : LoopState) (call : ToolCall) (branch : Branch)
    (attempt : Attempt) (awaited : attempt.cancelled = false) :
    (conclude S W σ call branch attempt).1.toolCallRecords =
      σ.toolCallRecords ++ (appendedRecord W σ call attempt).toList := by
  unfold conclude appendedRecord
  generalize answer W σ call attempt = result
  rw [awaited]
  dsimp only
  split
  · rename_i args object
    cases result.dumpable <;> simp [object, isDict, Value.items]
  · rename_i bare
    simp [isDict_of_not_dict bare]

theorem dispatch_effects (σ : LoopState) (call : ToolCall) :
    (dispatch S W σ call).1.effects = σ.effects ++ DispatchStep.effects S W ⟨σ, call⟩ := by
  unfold dispatch DispatchStep.effects DispatchStep.attempt
  dsimp only
  rcases callBranch S W σ call with ⟨refusal, authorized, _ | attempt⟩
  · exact (List.append_nil _).symm
  dsimp only
  split
  · rename_i cancelled
    simp [abandon, eventEffects, cancelled]
  · rename_i awaited
    exact conclude_effects_eq S W σ call _ attempt (by simpa using awaited)

theorem dispatch_records (σ : LoopState) (call : ToolCall) :
    (dispatch S W σ call).1.toolCallRecords =
      σ.toolCallRecords ++ (DispatchStep.record S W ⟨σ, call⟩).toList := by
  unfold dispatch DispatchStep.record DispatchStep.attempt
  dsimp only
  rcases callBranch S W σ call with ⟨refusal, authorized, _ | attempt⟩
  · exact (List.append_nil _).symm
  dsimp only
  split
  · rename_i cancelled
    simp [abandon, appendedRecord, cancelled]
  · rename_i awaited
    exact conclude_records S W σ call _ attempt (by simpa using awaited)

theorem dispatch_messages (σ : LoopState) (call : ToolCall) :
    (dispatch S W σ call).1.messages =
      σ.messages ++ (DispatchStep.message S W ⟨σ, call⟩).toList := by
  unfold dispatch DispatchStep.message DispatchStep.attempt
  dsimp only
  rcases callBranch S W σ call with ⟨refusal, authorized, _ | attempt⟩
  · exact (List.append_nil _).symm
  dsimp only
  split
  · rename_i cancelled
    rw [Option.bind_some, appendedMessage_cancelled W σ call attempt cancelled]
    exact (List.append_nil _).symm
  · rename_i awaited
    exact conclude_messages S W σ call _ attempt (by simpa using awaited)

theorem message_isTool (step : DispatchStep) :
    (step.message S W).toList.filter Message.isTool = (step.message S W).toList := by
  rw [DispatchStep.message]
  rcases step.attempt S W with _ | attempt
  · rfl
  · exact appendedMessage_isTool W step.before step.call attempt

/-- The effects, the answers in the history and the trace of a run are those of its steps. -/
structure StepLedger (σ : LoopState) (steps : List DispatchStep) : Prop where
  effects : σ.effects = steps.flatMap (DispatchStep.effects S W)
  history : σ.messages.filter Message.isTool = steps.filterMap (DispatchStep.message S W)
  records : σ.toolCallRecords = steps.filterMap (DispatchStep.record S W)
  dispatched : σ.dispatched = steps.length

theorem filterMap_concat {α β : Type} (f : α → Option β) (l : List α) (a : α) :
    (l ++ [a]).filterMap f = l.filterMap f ++ (f a).toList := by
  rw [List.filterMap_append]
  cases found : f a <;> simp [found]

theorem trace_ledger {σ : LoopState} {steps : List DispatchStep} (trace : Trace S W σ steps) :
    StepLedger S W σ steps := by
  induction trace with
  | start => exact ⟨rfl, rfl, rfl, rfl⟩
  | nextTurn _ earlier =>
    exact ⟨earlier.effects, earlier.history, earlier.records, earlier.dispatched⟩
  | received _ _ earlier =>
    exact ⟨earlier.effects, earlier.history, earlier.records, earlier.dispatched⟩
  | remembered msg _ earlier =>
    refine ⟨earlier.effects, ?_, earlier.records, earlier.dispatched⟩
    rw [List.filter_append, earlier.history]
    exact List.append_nil _
  | @dispatched σ steps call _ earlier =>
    constructor
    · rw [dispatch_effects, List.flatMap_append, List.flatMap_singleton, earlier.effects]
    · rw [dispatch_messages, List.filter_append, message_isTool, filterMap_concat, earlier.history]
    · rw [dispatch_records, filterMap_concat, earlier.records]
    · have counted := dispatch_dispatches S W σ call
      have before := earlier.dispatched
      rw [LoopState.dispatched] at before
      rw [LoopState.dispatched, counted, List.length_append, List.length_append, before]
      rfl

theorem trace_before {σ : LoopState} {steps : List DispatchStep} (trace : Trace S W σ steps) :
    ∀ earlier step later, steps = earlier ++ step :: later → Trace S W step.before earlier := by
  induction trace with
  | start => simp
  | nextTurn _ known => exact known
  | received _ _ known => exact known
  | remembered _ _ known => exact known
  | @dispatched σ steps call sofar known =>
    intro earlier step later whole
    rcases List.eq_nil_or_concat later with rfl | ⟨front, last, rfl⟩
    · have ends := List.append_inj' whole rfl
      obtain rfl := ends.1
      obtain rfl := List.singleton_inj.mp ends.2
      exact sofar
    · rw [List.concat_eq_append, ← List.cons_append, ← List.append_assoc] at whole
      exact known earlier step front (List.append_inj' whole rfl).1

/-- An invariant of the loop holds wherever a step of a trace starts. -/
theorem trace_invariant (Inv : LoopState → Prop) (initial : Inv (initialState S))
    (nextTurn : ∀ σ, Inv σ → Inv { σ with turn := σ.turn + 1 })
    (received : ∀ σ response, Inv σ → Inv (receive σ response))
    (remembered : ∀ σ msg, Inv σ → Inv { σ with messages := σ.messages ++ [.assistant msg] })
    (dispatched : ∀ σ call, Inv σ → Inv (dispatch S W σ call).1)
    {σ : LoopState} {steps : List DispatchStep} (trace : Trace S W σ steps) : Inv σ := by
  induction trace with
  | start => exact initial
  | nextTurn _ holds => exact nextTurn _ holds
  | received response _ holds => exact received _ response holds
  | remembered msg _ holds => exact remembered _ msg holds
  | dispatched call _ holds => exact dispatched _ call holds

theorem conclude_continues (σ : LoopState) (call : ToolCall) (branch : Branch) (attempt : Attempt)
    (object : call.args.isDict = true) (encodes : (answer W σ call attempt).dumpable = true) :
    (conclude S W σ call branch attempt).2 = none := by
  unfold conclude
  dsimp only
  split
  · rw [if_pos encodes]
  · rename_i bare
    rw [isDict_of_not_dict bare] at object
    contradiction

theorem dispatch_counters (σ : LoopState) (call : ToolCall) :
    (dispatch S W σ call).1.turn = σ.turn ∧ (dispatch S W σ call).1.llmCalls = σ.llmCalls ∧
      (dispatch S W σ call).1.totalTokens = σ.totalTokens := by
  rw [dispatch]
  split
  · split
    · exact ⟨rfl, rfl, rfl⟩
    unfold conclude
    dsimp only
    split
    · split <;> exact ⟨rfl, rfl, rfl⟩
    · exact ⟨rfl, rfl, rfl⟩
  · exact ⟨rfl, rfl, rfl⟩

theorem dispatchAll_continues (σ : LoopState) (call : ToolCall) (rest : List ToolCall)
    (goes : (dispatch S W σ call).2 = none) :
    dispatchAll S W σ (call :: rest) = dispatchAll S W (dispatch S W σ call).1 rest := by
  rw [dispatchAll]
  rcases outcome : dispatch S W σ call with ⟨σ', _ | error⟩
  · rfl
  · rw [outcome] at goes
    contradiction

def replied (σ : LoopState) (response : LlmResponse) : LoopState :=
  receive { σ with turn := σ.turn + 1 } response

structure Replies (σ : LoopState) (response : LlmResponse) (msg : AssistantMessage) : Prop where
  inTime : W.timedOut (σ.turn + 1) = false
  allowed : σ.llmCalls < maxLlmCalls
  reply : W.llm (σ.turn + 1) = .responded response
  affordable : (replied σ response).totalTokens ≤ maxTokensPerJob
  chosen : response.message = some msg

theorem turn_asks (σ σ' : LoopState) (response : LlmResponse) (msg : AssistantMessage)
    (replies : Replies W σ response msg) (asks : msg.toolCalls.isEmpty = false)
    (ran : dispatchAll S W { replied σ response with
      messages := (replied σ response).messages ++ [.assistant msg] } msg.toolCalls = (σ', none)) :
    turn S W σ = (σ', none) := by
  have affordable := not_lt.mpr replies.affordable
  rw [replied] at ran affordable
  rw [turn, replies.inTime, replies.reply]
  simp only [Bool.false_eq_true, if_false, Nat.not_le.mpr replies.allowed, affordable,
    replies.chosen, asks]
  rw [ran]

theorem turn_answers (σ : LoopState) (response : LlmResponse) (msg : AssistantMessage)
    (replies : Replies W σ response msg) (silent : msg.toolCalls.isEmpty = true) :
    turn S W σ = (replied σ response,
      some (.finalAnswer (finalAnswer (replied σ response) msg.content))) := by
  rw [turn, replies.inTime, replies.reply]
  have affordable := not_lt.mpr replies.affordable
  rw [replied] at affordable
  simp only [Bool.false_eq_true, if_false, Nat.not_le.mpr replies.allowed, affordable,
    replies.chosen, silent, if_true, replied]

structure Enters (σ : LoopState) (call : ToolCall) : Prop where
  reached : call.reaches S = true
  approved : approvalChain σ call.fnName (checkToolPolicy S.tables S.slug call.fnName)
    (policyChain S W σ call.fnName call.args
      (checkToolPolicy S.tables S.slug call.fnName)).deploymentAuthorized = .proceed
  announced : (checkToolPolicy S.tables S.slug call.fnName).riskClass = .readOnly ∨
    W.intent σ.dispatched = true
  binds : kwargsBind call.args = true

/-- `tool_result` after the call of a tool -/
def replyResult : ToolReply → Value
  | .raised type message _ => toolException type message
  | .returned value _ => value
  | .cancelled _ => null

/-- The await of the tool does not end with an `Exception` or a value. -/
def ToolReply.isCancelled : ToolReply → Bool
  | .cancelled _ => true
  | _ => false

structure TakesReply (σ : LoopState) (attempt : Attempt) : Prop where
  invoked : attempt.invoked = true
  executed : attempt.toolExecuted = true
  result : attempt.toolResult = replyResult (W.tool σ.dispatched)
  cancelled : attempt.cancelled = (W.tool σ.dispatched).isCancelled

theorem runTool_takesReply (σ : LoopState) (fnName : String) (args : Value) (binds : kwargsBind args = true) :
    TakesReply W σ (runTool S W σ fnName args) := by
  rw [runTool, if_pos binds]
  constructor
  · rfl
  · rfl
  · dsimp only
    cases W.tool σ.dispatched <;> rfl
  · dsimp only
    cases W.tool σ.dispatched <;> rfl

theorem enters_attempt (σ : LoopState) (call : ToolCall) (enters : Enters S W σ call) :
    ∃ attempt, (callBranch S W σ call).attempt = some attempt ∧ TakesReply W σ attempt := by
  rw [callBranch_reached S W σ call enters.reached,
    dispatchBranch_reached S W σ call.fnName call.args (named_of_reaches S call enters.reached).2]
  dsimp only
  rw [enters.approved]
  have ran := runTool_takesReply S W σ call.fnName call.args enters.binds
  refine ⟨_, rfl, ?_⟩
  unfold executeTool
  split
  · exact ⟨ran.invoked, ran.executed, ran.result, ran.cancelled⟩
  · rename_i risky
    have stored := enters.announced.resolve_left risky
    simp only [stored, if_true]
    exact ⟨ran.invoked, ran.executed, ran.result, ran.cancelled⟩

theorem attempt_entered (σ : LoopState) (call : ToolCall) (attempt : Attempt)
    (attempted : (callBranch S W σ call).attempt = some attempt) (enters : Enters S W σ call) :
    TakesReply W σ attempt := by
  rcases enters_attempt S W σ call enters with ⟨taken, same, takes⟩
  rw [attempted] at same
  rw [Option.some.inj same]
  exact takes

theorem attempt_uncancelled (σ : LoopState) (call : ToolCall) (attempt : Attempt)
    (attempted : (callBranch S W σ call).attempt = some attempt) (stays : ¬Enters S W σ call) :
    attempt.cancelled = false := by
  have outside (binds : kwargsBind call.args ≠ true) :
      (runTool S W σ call.fnName call.args).cancelled = false := by
    rw [runTool, if_neg binds]
    rfl
  by_cases reaches : call.reaches S = true
  · rw [callBranch_reached S W σ call reaches,
      dispatchBranch_reached S W σ call.fnName call.args (named_of_reaches S call reaches).2] at attempted
    dsimp only at attempted
    split at attempted
    · contradiction
    · rw [← Option.some.inj attempted]
      rfl
    · rename_i approved
      rw [← Option.some.inj attempted]
      dsimp only
      unfold executeTool
      split
      · rename_i readOnly
        exact outside fun binds => stays ⟨reaches, approved, .inl readOnly, binds⟩
      · dsimp only
        split
        · rename_i stored
          exact outside fun binds => stays ⟨reaches, approved, .inr stored, binds⟩
        · rfl
  · rcases callBranch_unreached S W σ call (by simpa using reaches) with missing | ⟨refusal, refused⟩
    · rw [missing] at attempted
      contradiction
    · rw [refused] at attempted
      rw [← Option.some.inj attempted]
      rfl

/-- An attempt is cancelled exactly when its tool is entered and ends so. -/
theorem attempt_cancelled_iff (σ : LoopState) (call : ToolCall) (attempt : Attempt)
    (attempted : (callBranch S W σ call).attempt = some attempt) :
    attempt.cancelled = false ↔
      (Enters S W σ call → ∀ charged, W.tool σ.dispatched ≠ .cancelled charged) := by
  by_cases enters : Enters S W σ call
  · rw [(attempt_entered S W σ call attempt attempted enters).cancelled, forall_prop_of_true enters]
    cases W.tool σ.dispatched <;> simp [ToolReply.isCancelled]
  · exact iff_of_true (attempt_uncancelled S W σ call attempt attempted enters) fun entered => absurd entered enters

def intentEffects (fnName : String) (args : Value) : List Effect :=
  if (checkToolPolicy S.tables S.slug fnName).riskClass = .readOnly then []
  else [.appendIntent S.sessionId fnName args true]

structure Entered (step : DispatchStep) (attempt : Attempt) : Prop where
  reached : step.call.reaches S = true
  approved : approvalChain step.before step.call.fnName
    (checkToolPolicy S.tables S.slug step.call.fnName)
    (policyChain S W step.before step.call.fnName step.call.args
      (checkToolPolicy S.tables S.slug step.call.fnName)).deploymentAuthorized = .proceed
  object : step.call.args.isDict = true
  attempted : step.attempt S W = some attempt
  executed : attempt.toolExecuted = true
  effects : attempt.effects =
    (policyChain S W step.before step.call.fnName step.call.args
      (checkToolPolicy S.tables S.slug step.call.fnName)).effects ++
    (intentEffects S step.call.fnName step.call.args ++
      [.invoke step.call.fnName step.call.args (toolContext S step.before)])

theorem runTool_enters (σ : LoopState) (fnName : String) (args : Value)
    (entered : (runTool S W σ fnName args).invoked = true) :
    args.isDict = true ∧ (runTool S W σ fnName args).toolExecuted = true ∧
      (runTool S W σ fnName args).effects = [.invoke fnName args (toolContext S σ)] := by
  unfold runTool at *
  split
  · rename_i binds
    rw [kwargsBind, Bool.and_eq_true] at binds
    exact ⟨binds.1, rfl, rfl⟩
  · rename_i clash
    rw [if_neg clash] at entered
    contradiction

theorem executeTool_enters (σ : LoopState) (fnName : String) (args : Value)
    (entered : (executeTool S W σ fnName args
      (checkToolPolicy S.tables S.slug fnName)).invoked = true) :
    args.isDict = true ∧
      (executeTool S W σ fnName args
        (checkToolPolicy S.tables S.slug fnName)).toolExecuted = true ∧
      (executeTool S W σ fnName args (checkToolPolicy S.tables S.slug fnName)).effects =
        intentEffects S fnName args ++ [.invoke fnName args (toolContext S σ)] := by
  unfold executeTool intentEffects at *
  split
  · rename_i harmless
    rw [if_pos harmless] at entered
    exact runTool_enters S W σ fnName args entered
  · rename_i risky
    rw [if_neg risky] at entered
    dsimp only at *
    cases stored : W.intent σ.dispatched
    · simp [stored] at entered
    · rw [stored] at entered
      have ran := runTool_enters S W σ fnName args entered
      refine ⟨ran.1, ran.2.1, ?_⟩
      rw [if_pos rfl, ran.2.2]
      rfl

/-- A step that enters its tool went through the policy, the approval and the intent. -/
theorem entered_of_invoked (step : DispatchStep) (attempt : Attempt)
    (attempted : step.attempt S W = some attempt) (invoked : attempt.invoked = true) :
    Entered S W step attempt := by
  have branch := attempted
  rw [DispatchStep.attempt] at branch
  by_cases reached : step.call.reaches S = true
  · rw [callBranch_reached S W step.before step.call reached,
      dispatchBranch_reached S W step.before step.call.fnName step.call.args
        (named_of_reaches S step.call reached).2] at branch
    dsimp only at branch
    split at branch
    · contradiction
    · obtain rfl := Option.some.inj branch
      contradiction
    · rename_i approved
      obtain rfl := Option.some.inj branch
      have ran := executeTool_enters S W step.before step.call.fnName step.call.args invoked
      exact
        { reached := reached
          approved := approved
          object := ran.1
          attempted := attempted
          executed := ran.2.1
          effects := by rw [← ran.2.2] }
  · rcases callBranch_unreached S W step.before step.call (by simpa using reached) with
      missing | ⟨refusal, refused⟩
    · rw [missing] at branch
      contradiction
    · rw [refused] at branch
      obtain rfl := Option.some.inj branch
      contradiction

theorem eventEffects_invocations (σ : LoopState) (call : ToolCall) (attempt : Attempt) :
    (eventEffects S W σ call attempt).filterMap Effect.invocation? = [] := by
  rw [eventEffects]
  split <;> rfl

theorem intentEffects_invocations (fnName : String) (args : Value) :
    (intentEffects S fnName args).filterMap Effect.invocation? = [] := by
  rw [intentEffects]
  split <;> rfl

theorem step_invocations (step : DispatchStep) :
    (step.effects S W).filterMap Effect.invocation? =
      (step.attempt S W).elim [] fun attempt =>
        if attempt.invoked then [(step.call.fnName, step.call.args)] else [] := by
  rw [DispatchStep.effects]
  rcases attempted : step.attempt S W with _ | attempt
  · rfl
  · have own := callBranch_invocations S W step.before step.call attempt attempted
    simp only [Option.elim_some]
    rw [List.filterMap_append, own, eventEffects_invocations, List.append_nil]

theorem split_at_invocation (before after front rest : List Effect) (entry other : Effect)
    (entered : entry.invocation?.isSome = true) (silent : front.filterMap Effect.invocation? = [])
    (still : rest.filterMap Effect.invocation? = [])
    (same : before ++ entry :: after = front ++ other :: rest) :
    before = front ∧ entry = other ∧ after = rest := by
  rw [List.filterMap_eq_nil_iff] at silent still
  have loud (e : Effect) (quiet : e.invocation? = none) : e ≠ entry := by
    rintro rfl
    rw [quiet] at entered
    contradiction
  rcases List.append_eq_append_iff.mp same with ⟨gap, rfl, tail⟩ | ⟨gap, rfl, tail⟩
  · rcases gap with _ | ⟨e, gap⟩
    · simpa using tail
    · obtain ⟨rfl, -⟩ := List.cons.inj tail
      exact absurd rfl (loud entry (silent entry (by simp)))
  · rcases gap with _ | ⟨e, gap⟩
    · simpa [eq_comm] using tail
    · obtain ⟨rfl, rfl⟩ := List.cons.inj tail
      exact absurd rfl (loud entry (still entry (by simp)))

/-- An invocation in a step is that of its own tool; the grant and the intent stand before it, the
audit record after it. -/
theorem entered_of_split (step : DispatchStep) (tool : String) (args : Value)
    (context : ToolContext) (before after : List Effect)
    (whole : step.effects S W = before ++ .invoke tool args context :: after) :
    tool = step.call.fnName ∧ args = step.call.args ∧ ∃ attempt, Entered S W step attempt ∧
      before = (policyChain S W step.before step.call.fnName step.call.args
        (checkToolPolicy S.tables S.slug step.call.fnName)).effects ++
          intentEffects S step.call.fnName step.call.args ∧
      after = eventEffects S W step.before step.call attempt := by
  have listed : (tool, args) ∈ (step.effects S W).filterMap Effect.invocation? :=
    List.mem_filterMap.mpr ⟨.invoke tool args context, by rw [whole]; simp, rfl⟩
  rw [step_invocations] at listed
  rcases attempted : step.attempt S W with _ | attempt
  · simp [attempted] at listed
  · rw [attempted, Option.elim_some] at listed
    rcases invoked : attempt.invoked
    · simp [invoked] at listed
    · have went := entered_of_invoked S W step attempt attempted invoked
      rw [DispatchStep.effects, attempted, Option.elim_some, went.effects] at whole
      simp only [List.append_assoc, List.singleton_append] at whole
      rw [← List.append_assoc] at whole
      have silent : ((policyChain S W step.before step.call.fnName step.call.args
          (checkToolPolicy S.tables S.slug step.call.fnName)).effects ++
            intentEffects S step.call.fnName step.call.args).filterMap Effect.invocation? = [] := by
        rw [List.filterMap_append, policyChain_invocations, intentEffects_invocations]
        rfl
      have split := split_at_invocation before after _ _ _ _ rfl silent
        (eventEffects_invocations S W step.before step.call attempt) whole.symm
      have same := Effect.invoke.inj split.2.1
      exact ⟨same.1, same.2.1, attempt, went, split.1, split.2.2⟩

theorem invoke_context (step : DispatchStep) (tool : String) (args : Value) (context : ToolContext)
    (member : .invoke tool args context ∈ step.effects S W) :
    tool = step.call.fnName ∧ args = step.call.args ∧ context = toolContext S step.before := by
  rcases List.append_of_mem member with ⟨before, after, whole⟩
  rcases entered_of_split S W step tool args context before after whole with
    ⟨named, given, attempt, entered, front, -⟩
  rw [DispatchStep.effects, entered.attempted, Option.elim_some, entered.effects, front] at whole
  simp only [List.append_assoc] at whole
  have rest := List.append_cancel_left (List.append_cancel_left whole)
  have same := Effect.invoke.inj (List.cons.inj rest).1
  exact ⟨named, given, same.2.2.symm⟩

theorem runLoop_invokes (tool : String) (args : Value) (context : ToolContext)
    (member : .invoke tool args context ∈ (runLoop S W).1.effects) :
    ∃ (step : DispatchStep) (earlier : List DispatchStep), Trace S W step.before earlier ∧
      tool = step.call.fnName ∧ args = step.call.args ∧ context = toolContext S step.before := by
  rcases runLoop_trace S W with ⟨steps, trace⟩
  rw [(trace_ledger S W trace).effects] at member
  rcases List.mem_flatMap.mp member with ⟨step, among, own⟩
  rcases List.append_of_mem among with ⟨earlier, later, split⟩
  exact ⟨step, earlier, trace_before S W trace earlier step later split,
    invoke_context S W step tool args context own⟩

end

end GenesisAgents
