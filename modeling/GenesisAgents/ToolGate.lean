import GenesisAgents.RunLoop

/-! The dispatch gate of the run loop: which calls are executed, and what becomes of a refusal. -/

namespace GenesisAgents

open Value

section

variable (S : Setting) (W : World)

/-! One invariant rule for every statement about whole runs. -/

section

variable (Inv : LoopState → Prop)
  (begins : ∀ σ, Inv σ → Inv { σ with turn := σ.turn + 1 })
  (receives : ∀ σ response, Inv σ → Inv (receive σ response))
  (remembers : ∀ σ msg, Inv σ → Inv { σ with messages := σ.messages ++ [.assistant msg] })
  (dispatches : ∀ σ call, Inv σ → Inv (dispatch S W σ call).1)

include dispatches

theorem dispatchAll_invariant (calls : List ToolCall) :
    ∀ σ, Inv σ → Inv (dispatchAll S W σ calls).1 := by
  induction calls with
  | nil =>
    intro σ holds
    exact holds
  | cons call rest later =>
    intro σ holds
    have next := dispatches σ call holds
    rw [dispatchAll]
    rcases outcome : dispatch S W σ call with ⟨σ', _ | error⟩ <;> rw [outcome] at next
    · exact later σ' next
    · exact next

include begins receives remembers

theorem turn_invariant (σ : LoopState) (holds : Inv σ) : Inv (turn S W σ).1 := by
  have started := begins σ holds
  rw [turn]
  dsimp only
  split
  · exact started
  split
  · exact started
  split
  · exact started
  · rename_i response _
    have received := receives _ response started
    split
    · exact received
    split
    · exact received
    · rename_i msg _
      split
      · exact received
      · have done := dispatchAll_invariant S W Inv dispatches msg.toolCalls _
          (remembers _ msg received)
        rcases outcome : dispatchAll S W _ msg.toolCalls with ⟨σ', _ | error⟩ <;>
          rw [outcome] at done <;> exact done

theorem turns_invariant (left : Nat) : ∀ σ, Inv σ → Inv (turns S W left σ).1 := by
  induction left with
  | zero =>
    intro σ holds
    exact holds
  | succ left later =>
    intro σ holds
    have next := turn_invariant S W Inv begins receives remembers dispatches σ holds
    rw [turns]
    rcases outcome : turn S W σ with ⟨σ', _ | result⟩ <;> rw [outcome] at next
    · exact later σ' next
    · exact next

theorem runLoop_invariant (initial : Inv (initialState S)) : Inv (runLoop S W).1 := by
  exact turns_invariant S W Inv begins receives remembers dispatches maxTurns _ initial

end

def appendedMessage (σ : LoopState) (call : ToolCall) (attempt : Attempt) : Option Message :=
  if !attempt.cancelled && (call.args.isDict && (answer W σ call attempt).dumpable) then
    some (.tool call.tcId (answer W σ call attempt))
  else none

/-- What `dispatch` records of a call. -/
def account (σ : LoopState) (call : ToolCall) : Dispatch :=
  let branch := callBranch S W σ call
  { call := call, refusal := branch.refusal
    invoked := branch.attempt.elim false Attempt.invoked
    appended := branch.attempt.bind (appendedMessage W σ call) }

theorem isDict_of_not_dict {v : Value} (bare : ∀ items, v = dict items → False) :
    v.isDict = false := by
  cases v with
  | dict items => exact absurd rfl (bare items)
  | _ => rfl

theorem appendedMessage_cancelled (σ : LoopState) (call : ToolCall) (attempt : Attempt)
    (cancelled : attempt.cancelled = true) : appendedMessage W σ call attempt = none := by
  rw [appendedMessage, cancelled]
  rfl

theorem conclude_dispatches (σ : LoopState) (call : ToolCall) (branch : Branch)
    (attempt : Attempt) (awaited : attempt.cancelled = false) :
    (conclude S W σ call branch attempt).1.dispatches = σ.dispatches ++
      [{ call := call, refusal := branch.refusal, invoked := attempt.invoked
         appended := appendedMessage W σ call attempt }] := by
  unfold conclude appendedMessage
  generalize answer W σ call attempt = result
  rw [awaited]
  dsimp only
  split
  · rename_i items object
    cases result.dumpable <;> simp [object, isDict]
  · rename_i bare
    simp [isDict_of_not_dict bare]

theorem dispatch_dispatches (σ : LoopState) (call : ToolCall) :
    (dispatch S W σ call).1.dispatches = σ.dispatches ++ [account S W σ call] := by
  unfold dispatch account
  generalize callBranch S W σ call = branch
  rcases branch with ⟨refusal, deploymentAuthorized, _ | attempt⟩
  · rfl
  · dsimp only
    split
    · rename_i cancelled
      rw [Option.bind_some, appendedMessage_cancelled W σ call attempt cancelled]
      rfl
    · rename_i awaited
      exact conclude_dispatches S W σ call _ attempt (by simpa using awaited)

/-- Every dispatch of a run is the account of its call in some state of the loop. -/
theorem runLoop_dispatches :
    ∀ d ∈ (runLoop S W).1.dispatches, ∃ σ, d = account S W σ d.call := by
  refine runLoop_invariant S W (fun σ => ∀ d ∈ σ.dispatches, ∃ σ₀, d = account S W σ₀ d.call)
    (fun _ holds => holds) (fun _ _ holds => holds) (fun _ _ holds => holds) ?_ ?_
  · intro σ call holds d member
    rw [dispatch_dispatches, List.mem_append, List.mem_singleton] at member
    rcases member with earlier | rfl
    · exact holds d earlier
    · exact ⟨σ, rfl⟩
  · intro d member
    simp [initialState] at member

/-! The accounts are those of the history and of the effects. -/

def Message.isTool : Message → Bool
  | .tool _ _ => true
  | _ => false

def Effect.invocation? : Effect → Option (String × Value)
  | .invoke tool args _ => some (tool, args)
  | _ => none

/-- The tool messages of the history and the tools entered, call by call. -/
structure Ledger (σ : LoopState) : Prop where
  history : σ.messages.filter Message.isTool = σ.dispatches.filterMap Dispatch.appended
  invocations : σ.effects.filterMap Effect.invocation? =
    (σ.dispatches.filter Dispatch.invoked).map fun d => (d.call.fnName, d.call.args)

theorem runTool_invocations (σ : LoopState) (fnName : String) (args : Value) :
    (runTool S W σ fnName args).effects.filterMap Effect.invocation? =
      if (runTool S W σ fnName args).invoked then [(fnName, args)] else [] := by
  rw [runTool]
  split <;> rfl

theorem executeTool_invocations (σ : LoopState) (fnName : String) (args : Value)
    (policy : Policy) :
    (executeTool S W σ fnName args policy).effects.filterMap Effect.invocation? =
      if (executeTool S W σ fnName args policy).invoked then [(fnName, args)] else [] := by
  rw [executeTool]
  split
  · exact runTool_invocations S W σ fnName args
  · dsimp only
    rw [List.filterMap_cons_none rfl]
    split
    · exact runTool_invocations S W σ fnName args
    · rfl

theorem policyChain_invocations (σ : LoopState) (fnName : String) (args : Value)
    (policy : Policy) :
    (policyChain S W σ fnName args policy).effects.filterMap Effect.invocation? = [] := by
  rw [policyChain]
  repeat' split
  all_goals rfl

theorem dispatchBranch_invocations (σ : LoopState) (fnName : String) (args : Value)
    (attempt : Attempt)
    (attempted : (dispatchBranch S W σ fnName args).attempt = some attempt) :
    attempt.effects.filterMap Effect.invocation? =
      if attempt.invoked then [(fnName, args)] else [] := by
  rw [dispatchBranch] at attempted
  split at attempted
  · obtain rfl := Option.some.inj attempted
    rfl
  split at attempted
  · obtain rfl := Option.some.inj attempted
    rfl
  dsimp only at attempted
  split at attempted
  · contradiction
  · obtain rfl := Option.some.inj attempted
    exact policyChain_invocations S W σ fnName args _
  · obtain rfl := Option.some.inj attempted
    dsimp only
    rw [List.filterMap_append, policyChain_invocations, List.nil_append]
    exact executeTool_invocations S W σ fnName args _

theorem callBranch_invocations (σ : LoopState) (call : ToolCall) (attempt : Attempt)
    (attempted : (callBranch S W σ call).attempt = some attempt) :
    attempt.effects.filterMap Effect.invocation? =
      if attempt.invoked then [(call.fnName, call.args)] else [] := by
  rw [callBranch] at attempted
  split at attempted
  · rename_i fnName named
    rw [ToolCall.fnName, named]
    exact dispatchBranch_invocations S W σ fnName call.args attempt attempted
  split at attempted
  · obtain rfl := Option.some.inj attempted
    rfl
  · contradiction

theorem conclude_messages (σ : LoopState) (call : ToolCall) (branch : Branch)
    (attempt : Attempt) (awaited : attempt.cancelled = false) :
    (conclude S W σ call branch attempt).1.messages =
      σ.messages ++ (appendedMessage W σ call attempt).toList := by
  unfold conclude appendedMessage
  generalize answer W σ call attempt = result
  rw [awaited]
  dsimp only
  split
  · rename_i items object
    cases result.dumpable <;> simp [object, isDict]
  · rename_i bare
    simp [isDict_of_not_dict bare]

theorem conclude_effects (σ : LoopState) (call : ToolCall) (branch : Branch)
    (attempt : Attempt) :
    (conclude S W σ call branch attempt).1.effects.filterMap Effect.invocation? =
      σ.effects.filterMap Effect.invocation? ++ attempt.effects.filterMap Effect.invocation? := by
  rw [conclude]
  dsimp only
  split
  · split <;> cases attempt.toolExecuted <;>
      simp [List.filterMap_append, List.filterMap_cons, Effect.invocation?]
  · cases attempt.toolExecuted <;>
      simp [List.filterMap_append, List.filterMap_cons, Effect.invocation?]

theorem appendedMessage_isTool (σ : LoopState) (call : ToolCall) (attempt : Attempt) :
    (appendedMessage W σ call attempt).toList.filter Message.isTool =
      (appendedMessage W σ call attempt).toList := by
  rw [appendedMessage]
  split <;> rfl

theorem dispatch_ledger (σ : LoopState) (call : ToolCall) (holds : Ledger σ) :
    Ledger (dispatch S W σ call).1 := by
  have spent := callBranch_invocations S W σ call
  rw [dispatch]
  rcases branched : callBranch S W σ call with ⟨refusal, deploymentAuthorized, _ | attempt⟩
  · exact ⟨by simp [holds.history], by simp [holds.invocations]⟩
  have entered := spent attempt (by rw [branched])
  dsimp only
  split
  · constructor
    · simp [abandon, holds.history]
    · simp only [abandon, List.filterMap_append, List.filter_append, List.map_append, holds.invocations, entered]
      cases attempt.invoked <;> simp
  · rename_i awaited
    have awaited : attempt.cancelled = false := by simpa using awaited
    constructor
    · rw [conclude_messages S W σ call _ attempt awaited, conclude_dispatches S W σ call _ attempt awaited,
        List.filter_append, holds.history, List.filterMap_append, appendedMessage_isTool]
      cases appendedMessage W σ call attempt <;> rfl
    · rw [conclude_effects, conclude_dispatches S W σ call _ attempt awaited, List.filter_append, List.map_append,
        holds.invocations, entered]
      cases attempt.invoked <;> simp

theorem runLoop_ledger : Ledger (runLoop S W).1 := by
  refine runLoop_invariant S W Ledger ?_ ?_ ?_ (dispatch_ledger S W) ⟨rfl, rfl⟩
  · exact fun _ holds => ⟨holds.history, holds.invocations⟩
  · exact fun _ _ holds => ⟨holds.history, holds.invocations⟩
  · intro σ msg holds
    refine ⟨?_, holds.invocations⟩
    rw [List.filter_append, holds.history]
    exact List.append_nil _

structure Cleared (fnName : String) : Prop where
  notProhibited : isProhibited S.tables fnName S.slug = false
  advertised : fnName ∈ S.toolsAdvertised
  policyOk : (checkToolPolicy S.tables S.slug fnName).ok = true
  delegated : ∀ risks, S.delegatedAllowedRisks = some risks →
    (checkToolPolicy S.tables S.slug fnName).riskClass ∈ risks

structure GateSound (d : Dispatch) : Prop where
  cleared : d.invoked = true → Cleared S d.call.fnName
  refused : ∀ refusal, d.refusal = some refusal →
    d.invoked = false ∧ d.appended = some (.tool d.call.tcId refusal)

def reachesPolicy (fnName : String) : Bool :=
  !isProhibited S.tables fnName S.slug &&
    (S.registry.contains fnName && S.toolsAdvertised.contains fnName)

theorem clear_of_reached (fnName : String) (reached : reachesPolicy S fnName = true) :
    isProhibited S.tables fnName S.slug = false := by
  rw [reachesPolicy, Bool.and_eq_true, Bool.not_eq_true'] at reached
  exact reached.1

def ToolCall.reaches (call : ToolCall) : Bool := call.fnName?.any (reachesPolicy S)

theorem named_of_reaches (call : ToolCall) (reaches : call.reaches S = true) :
    call.fnName? = some call.fnName ∧ reachesPolicy S call.fnName = true := by
  rw [ToolCall.reaches, Option.any_eq_true] at reaches
  rcases reaches with ⟨fnName, named, reached⟩
  rw [ToolCall.fnName, named]
  exact ⟨rfl, reached⟩

theorem hashable_of_named (call : ToolCall) (fnName : String) (named : call.fnName? = some fnName) :
    call.hashable = true ∧ call.nameValue = str fnName := by
  rw [ToolCall.fnName?] at named
  split at named
  · rename_i name text
    rw [ToolCall.hashable, text, Option.some.inj named]
    exact ⟨rfl, rfl⟩
  · contradiction

theorem dispatchBranch_reached (σ : LoopState) (fnName : String) (args : Value)
    (reached : reachesPolicy S fnName = true) :
    dispatchBranch S W σ fnName args =
      let policy := checkToolPolicy S.tables S.slug fnName
      let outcome := policyChain S W σ fnName args policy
      ⟨outcome.toolResult, outcome.deploymentAuthorized,
        match approvalChain σ fnName policy outcome.deploymentAuthorized with
        | .unbound => none
        | .refuse result => some { Attempt.refused σ result with effects := outcome.effects }
        | .proceed =>
          some { executeTool S W σ fnName args policy with
            effects := outcome.effects ++ (executeTool S W σ fnName args policy).effects }⟩ := by
  have clear := clear_of_reached S fnName reached
  rw [reachesPolicy, clear, Bool.not_false, Bool.true_and, Bool.and_eq_true] at reached
  have listed : ¬(!S.registry.contains fnName || !S.toolsAdvertised.contains fnName) = true := by
    simp only [reached.1, reached.2, Bool.not_true, Bool.or_self, Bool.false_eq_true,
      not_false_eq_true]
  rw [dispatchBranch, clear, if_neg Bool.false_ne_true]
  exact if_neg listed

def refusedByPolicy (fnName : String) : Bool :=
  !(checkToolPolicy S.tables S.slug fnName).ok ||
    escalates S (checkToolPolicy S.tables S.slug fnName).riskClass

/-- The calls the gate handles as it should: one that reaches the policy is accepted by it, and one
refused earlier has arguments that decode to an object. A name that is not hashable stops the loop before
anything is refused. -/
def gateHolds (call : ToolCall) : Bool :=
  if !call.hashable then true
  else if call.reaches S then !refusedByPolicy S call.fnName
  else call.args.isDict && call.nameValue.dumpable

theorem escalates_eq_false_iff (risk : Risk) :
    escalates S risk = false ↔ ∀ risks, S.delegatedAllowedRisks = some risks → risk ∈ risks := by
  rw [escalates]
  rcases S.delegatedAllowedRisks with _ | risks <;> simp

theorem cleared_of_accepted (fnName : String) (reached : reachesPolicy S fnName = true)
    (accepted : refusedByPolicy S fnName = false) : Cleared S fnName := by
  simp only [reachesPolicy, Bool.and_eq_true, Bool.not_eq_true', List.contains_eq_mem,
    decide_eq_true_eq] at reached
  simp only [refusedByPolicy, Bool.or_eq_false_iff, Bool.not_eq_false'] at accepted
  exact
    { notProhibited := reached.1
      advertised := reached.2.2
      policyOk := accepted.1
      delegated := (escalates_eq_false_iff S _).mp accepted.2 }

/-! Refusals before the policy: the call is skipped and the refusal is the answer. -/

@[simp] theorem refused_invoked (σ : LoopState) (refusal : Value) :
    (Attempt.refused σ refusal).invoked = false := rfl

theorem dispatchBranch_early (σ : LoopState) (fnName : String) (args : Value)
    (early : reachesPolicy S fnName = false) :
    ∃ refusal, refusal.dumpable = true ∧ dispatchBranch S W σ fnName args =
      ⟨some refusal, σ.deploymentAuthorized, some (.refused σ refusal)⟩ := by
  rw [dispatchBranch]
  by_cases prohibited : isProhibited S.tables fnName S.slug = true
  · rw [if_pos prohibited]
    exact ⟨_, Envelope.prohibitedRefusal_dumpable _ _ _ _, rfl⟩
  · have unlisted :
        (!S.registry.contains fnName || !S.toolsAdvertised.contains fnName) = true := by
      rw [reachesPolicy, Bool.not_eq_true] at *
      rw [prohibited, Bool.not_false, Bool.true_and] at early
      rw [← Bool.not_and, early, Bool.not_false]
    rw [if_neg prohibited, if_pos unlisted]
    exact ⟨toolNotAllowed fnName, rfl, rfl⟩

theorem callBranch_early (σ : LoopState) (call : ToolCall) (early : call.reaches S = false)
    (hashable : call.hashable = true) :
    ∃ refusal, refusal.dumpable = call.nameValue.dumpable ∧ callBranch S W σ call =
      ⟨some refusal, σ.deploymentAuthorized, some (.refused σ refusal)⟩ := by
  rw [callBranch]
  rcases named : call.fnName? with _ | fnName
  · dsimp only
    rw [if_pos hashable]
    exact ⟨_, by simp [dumpable, jsonable, jsonableItems, writable, writableItems], rfl⟩
  · rw [ToolCall.reaches, named] at early
    rcases dispatchBranch_early S W σ fnName call.args early with ⟨refusal, encodes, branch⟩
    refine ⟨refusal, ?_, branch⟩
    rw [encodes, (hashable_of_named call fnName named).2]
    rfl

theorem callBranch_unhashable (σ : LoopState) (call : ToolCall) (unhashable : call.hashable = false) :
    callBranch S W σ call = ⟨none, σ.deploymentAuthorized, none⟩ := by
  rcases named : call.fnName? with _ | fnName
  · rw [callBranch, named, unhashable]
    rfl
  · rw [(hashable_of_named call fnName named).1] at unhashable
    contradiction

theorem callBranch_unreached (σ : LoopState) (call : ToolCall) (early : call.reaches S = false) :
    (callBranch S W σ call).attempt = none ∨
      ∃ refusal, (callBranch S W σ call).attempt = some (.refused σ refusal) := by
  rcases hashes : call.hashable with _ | _
  · left
    rw [callBranch_unhashable S W σ call hashes]
  · rcases callBranch_early S W σ call early hashes with ⟨refusal, -, branch⟩
    right
    rw [branch]
    exact ⟨refusal, rfl⟩

theorem callBranch_reached (σ : LoopState) (call : ToolCall) (reaches : call.reaches S = true) :
    callBranch S W σ call = dispatchBranch S W σ call.fnName call.args := by
  rw [callBranch, (named_of_reaches S call reaches).1]

theorem gateSound_early (σ : LoopState) (call : ToolCall) (early : call.reaches S = false)
    (hashable : call.hashable = true) :
    GateSound S (account S W σ call) ↔ (call.args.isDict && call.nameValue.dumpable) = true := by
  rcases callBranch_early S W σ call early hashable with ⟨refusal, encodes, branch⟩
  have recorded : account S W σ call =
      { call := call, refusal := some refusal, invoked := false
        appended := if call.args.isDict && refusal.dumpable then some (.tool call.tcId refusal) else none } := by
    rw [account, branch]
    rfl
  rw [recorded, encodes]
  constructor
  · intro sound
    have kept := (sound.refused refusal rfl).2
    by_contra bare
    simp [bare] at kept
  · intro object
    refine ⟨fun invoked => absurd invoked (by simp), ?_⟩
    rintro other same
    obtain rfl := Option.some.inj same
    rw [object]
    exact ⟨rfl, rfl⟩

/-- A call with such a name is neither executed nor refused. -/
theorem gateSound_unhashable (σ : LoopState) (call : ToolCall) (unhashable : call.hashable = false) :
    GateSound S (account S W σ call) := by
  rw [account, callBranch_unhashable S W σ call unhashable]
  exact ⟨fun invoked => absurd invoked (by simp), fun refusal refused => absurd refused (by simp)⟩

/-! From the policy on: a refusal of the first chain never reaches the history. -/

def laterErrors : List String :=
  ["deployment_approval_required", "file_write_limit_exceeded", "audit_preflight_failed",
   "tool_exception", "audit_append_failed"]

def FailsLater (result : Value) : Prop := ∃ error ∈ laterErrors, result.get "error" = str error

theorem deploymentApprovalRequired_failsLater (tool : String) :
    FailsLater (deploymentApprovalRequired tool) :=
  ⟨"deployment_approval_required", by decide, rfl⟩

theorem fileWriteLimitExceeded_failsLater (filesWritten : Nat) :
    FailsLater (fileWriteLimitExceeded filesWritten) :=
  ⟨"file_write_limit_exceeded", by decide, rfl⟩

theorem auditPreflightFailed_failsLater (tool : String) : FailsLater (auditPreflightFailed tool) :=
  ⟨"audit_preflight_failed", by decide, rfl⟩

theorem auditAppendFailed_failsLater (tool : String) : FailsLater (auditAppendFailed tool) :=
  ⟨"audit_append_failed", by decide, rfl⟩

theorem toolException_failsLater (type message : String) :
    FailsLater (toolException type message) :=
  ⟨"tool_exception", by decide, rfl⟩

theorem runTool_skipped (σ : LoopState) (fnName : String) (args : Value)
    (skipped : (runTool S W σ fnName args).invoked = false) :
    FailsLater (runTool S W σ fnName args).toolResult := by
  unfold runTool at *
  split
  · rename_i binds
    simp [binds] at skipped
  · exact toolException_failsLater _ _

theorem executeTool_skipped (σ : LoopState) (fnName : String) (args : Value) (policy : Policy)
    (skipped : (executeTool S W σ fnName args policy).invoked = false) :
    FailsLater (executeTool S W σ fnName args policy).toolResult := by
  unfold executeTool at *
  split
  · rename_i harmless
    rw [if_pos harmless] at skipped
    exact runTool_skipped S W σ fnName args skipped
  · rename_i risky
    rw [if_neg risky] at skipped
    dsimp only at *
    split
    · rename_i stored
      rw [if_pos stored] at skipped
      exact runTool_skipped S W σ fnName args skipped
    · exact auditPreflightFailed_failsLater fnName

theorem quotaChain_refuse (σ : LoopState) (fnName : String) (result : Value)
    (refused : quotaChain σ fnName = .refuse result) : FailsLater result := by
  rw [quotaChain] at refused
  split at refused
  · obtain rfl := Verdict.refuse.inj refused
    exact fileWriteLimitExceeded_failsLater _
  · contradiction

theorem approvalChain_refuse (σ : LoopState) (fnName : String) (policy : Policy)
    (deploymentAuthorized : Option Bool) (result : Value)
    (refused : approvalChain σ fnName policy deploymentAuthorized = .refuse result) :
    FailsLater result := by
  unfold approvalChain at refused
  split at refused
  · rcases deploymentAuthorized with _ | _ | _
    · contradiction
    · obtain rfl := Verdict.refuse.inj refused
      exact deploymentApprovalRequired_failsLater fnName
    · exact quotaChain_refuse σ fnName result refused
  · exact quotaChain_refuse σ fnName result refused

theorem dispatchBranch_policy (σ : LoopState) (fnName : String) (args : Value)
    (reached : reachesPolicy S fnName = true) :
    (dispatchBranch S W σ fnName args).refusal =
        (policyChain S W σ fnName args (checkToolPolicy S.tables S.slug fnName)).toolResult ∧
      ∀ attempt, (dispatchBranch S W σ fnName args).attempt = some attempt →
        attempt.invoked = false → FailsLater attempt.toolResult := by
  rw [dispatchBranch_reached S W σ fnName args reached]
  dsimp only
  refine ⟨rfl, ?_⟩
  intro attempt attempted skipped
  split at attempted
  · contradiction
  · rename_i result refused
    obtain rfl := Option.some.inj attempted
    exact approvalChain_refuse σ fnName _ _ result refused
  · obtain rfl := Option.some.inj attempted
    exact executeTool_skipped S W σ fnName args _ skipped

theorem policyChain_refuses (σ : LoopState) (fnName : String) (args : Value)
    (refused : refusedByPolicy S fnName = true) :
    ∃ refusal, ¬FailsLater refusal ∧
      (policyChain S W σ fnName args (checkToolPolicy S.tables S.slug fnName)).toolResult =
        some refusal := by
  rw [policyChain]
  by_cases denied : (!(checkToolPolicy S.tables S.slug fnName).ok) = true
  · rw [if_pos denied]
    refine ⟨_, ?_, rfl⟩
    rintro ⟨error, later, same⟩
    obtain rfl : "tool_policy_denied" = error := Value.str.inj same
    exact absurd later (by decide)
  · rw [if_neg denied]
    rw [refusedByPolicy, Bool.or_eq_true] at refused
    rw [if_pos (refused.resolve_left denied)]
    refine ⟨_, ?_, rfl⟩
    rintro ⟨error, later, same⟩
    obtain rfl : "delegation_privilege_escalation" = error := Value.str.inj same
    exact absurd later (by decide)

theorem policyChain_accepts (σ : LoopState) (fnName : String) (args : Value)
    (accepted : refusedByPolicy S fnName = false) :
    (policyChain S W σ fnName args (checkToolPolicy S.tables S.slug fnName)).toolResult = none := by
  rw [refusedByPolicy, Bool.or_eq_false_iff] at accepted
  rw [policyChain]
  rw [if_neg (by simp [accepted.1]), if_neg (by simp [accepted.2])]
  split <;> rfl

/-- A refusal of the policy falls through: the call is executed, or something else answers it. -/
theorem not_gateSound_refused (σ : LoopState) (call : ToolCall) (reaches : call.reaches S = true)
    (refused : refusedByPolicy S call.fnName = true) : ¬GateSound S (account S W σ call) := by
  intro sound
  have reached := (named_of_reaches S call reaches).2
  obtain ⟨same, skips⟩ := dispatchBranch_policy S W σ call.fnName call.args reached
  obtain ⟨refusal, distinct, computed⟩ := policyChain_refuses S W σ call.fnName call.args refused
  have branch := callBranch_reached S W σ call reaches
  rw [← branch] at same skips
  obtain ⟨skipped, kept⟩ := sound.refused refusal (same.trans computed)
  simp only [account] at skipped kept
  rcases attempted : (callBranch S W σ call).attempt with _ | attempt
  · simp [attempted] at kept
  · simp only [attempted, Option.elim_some, Option.bind_some] at skipped kept
    have answered : answer W σ call attempt = refusal := by
      rw [appendedMessage] at kept
      split at kept
      · exact (Message.tool.inj (Option.some.inj kept)).2
      · contradiction
    refine distinct (answered ▸ ?_)
    rw [answer]
    split
    · exact auditAppendFailed_failsLater call.fnName
    · exact skips attempt attempted skipped

theorem gateSound_accepted (σ : LoopState) (call : ToolCall) (reaches : call.reaches S = true)
    (accepted : refusedByPolicy S call.fnName = false) : GateSound S (account S W σ call) := by
  have reached := (named_of_reaches S call reaches).2
  constructor
  · intro _
    exact cleared_of_accepted S call.fnName reached accepted
  · intro refusal computed
    have none_ := (dispatchBranch_policy S W σ call.fnName call.args reached).1.trans
      (policyChain_accepts S W σ call.fnName call.args accepted)
    rw [← callBranch_reached S W σ call reaches] at none_
    exact absurd (none_.symm.trans computed) (by simp)

theorem gateSound_account_iff (σ : LoopState) (call : ToolCall) :
    GateSound S (account S W σ call) ↔ gateHolds S call = true := by
  rw [gateHolds]
  rcases hashes : call.hashable with _ | _
  · exact iff_of_true (gateSound_unhashable S W σ call hashes) rfl
  rw [if_neg (by decide)]
  by_cases reaches : call.reaches S = true
  · rw [if_pos reaches]
    rcases verdict : refusedByPolicy S call.fnName
    · simpa using gateSound_accepted S W σ call reaches verdict
    · simpa using not_gateSound_refused S W σ call reaches verdict
  · rw [if_neg reaches]
    exact gateSound_early S W σ call (by simpa using reaches) hashes

theorem gateSound_iff (d : Dispatch) (member : d ∈ (runLoop S W).1.dispatches) :
    GateSound S d ↔ gateHolds S d.call = true := by
  obtain ⟨σ, recorded⟩ := runLoop_dispatches S W d member
  have pointwise := gateSound_account_iff S W σ d.call
  rwa [← recorded] at pointwise

/-- A run passes the gate exactly when every call in it is one the gate handles. -/
theorem runLoop_gateSound_iff :
    (∀ d ∈ (runLoop S W).1.dispatches, GateSound S d) ↔
      ∀ d ∈ (runLoop S W).1.dispatches, gateHolds S d.call = true := by
  exact forall₂_congr fun d member => gateSound_iff S W d member

end

/-! A call the policy refuses and the loop executes: sending mail is left to a human. -/

def mailBundle : Bundle :=
  { slug := "genesis-email", systemPrompt := "", toolsAdvertised := ["send_email"]
    tokenBudget := 50000, conduitBudgetCents := 0 }

def mailSetting : Setting :=
  { unicode := { lower := id, printable := fun _ => true }
    tables := productionTables, registry := ["send_email"], bundle := mailBundle
    task := "write to the customer", params := dict [], jobId := "job-1", sessionId := "session-1"
    delegationChain := [], delegationDepth := 0, delegatedAllowedRisks := none }

def mailCall : ToolCall :=
  { id := some "call-1", name := some (str "send_email"), arguments := some (dict []) }

def mailWorld : World :=
  { timedOut := fun _ => false
    llm := fun turn => .responded
      { swarmsync := none, totalTokens := some 100
        message := some { content := str "done", toolCalls := if turn = 1 then [mailCall] else [] } }
    requestId := fun _ => "request-1", grant := fun _ => false, intent := fun _ => true
    tool := fun _ => .returned (dict [("ok", bool true)]) 0, event := fun _ => true }

theorem refused_mail_sent :
    ¬∀ (S : Setting) (W : World), ∀ d ∈ (runLoop S W).1.dispatches, GateSound S d := by
  intro sound
  have calls : (runLoop mailSetting mailWorld).1.dispatches.map Dispatch.call = [mailCall] := rfl
  obtain ⟨d, member, same⟩ : ∃ d ∈ (runLoop mailSetting mailWorld).1.dispatches,
      d.call = mailCall := by
    rw [← List.mem_map, calls]
    exact List.mem_singleton_self _
  have holds := (gateSound_iff mailSetting mailWorld d member).mp (sound _ _ d member)
  rw [same] at holds
  exact absurd holds (by decide)

end GenesisAgents
