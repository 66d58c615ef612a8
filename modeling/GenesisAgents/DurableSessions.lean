import GenesisAgents.AnthropicWire
import GenesisAgents.Library.Runs
import GenesisAgents.SuccessCriteria
import Mathlib.Logic.Function.Basic

/-! The durable session of a run: the writes that `AgentRuntime._execute_agent_inner` of
`agent_runtime.py` submits to `durable_store.py`, and what the single writer makes of them. -/

namespace GenesisAgents

open Value

/-- The statuses the callers of `session_finish` pass. -/
inductive FinalStatus where
  | completed | failed
  deriving DecidableEq

def FinalStatus.name : FinalStatus → String
  | completed => "COMPLETED"
  | failed => "FAILED"

/-- A write for the background thread; `null` leaves its column alone. -/
inductive SessionWrite where
  | create (sessionId jobId agentSlug : String) (parentJobId parentSessionId : Option String)
      (workspaceRoot : String)
  | finish (sessionId : String) (status : FinalStatus) (trace error : Value)

def SessionWrite.isCreate : SessionWrite → Bool
  | create _ _ _ _ _ _ => true
  | finish _ _ _ _ => false

/-- The status column of `genesis_agent_sessions`. -/
abbrev SessionRows := String → Option String

/-- A working database; `jsonb` says which texts the cast of `traceJson` takes. -/
structure SessionDb where
  jsonb : String → Bool

def SessionDb.takes (D : SessionDb) : Value → Bool
  | null => true
  | trace => D.jsonb (dumpsDefault trace)

/-- One write, on the background thread. A statement that the database refuses changes nothing. -/
def SessionDb.execute (D : SessionDb) (rows : SessionRows) : SessionWrite → SessionRows
  | .create sessionId _ _ _ _ _ =>
    if (rows sessionId).isSome then rows else Function.update rows sessionId (some "ACTIVE")
  | .finish sessionId status trace _ =>
    if (rows sessionId).isSome && D.takes trace then
      Function.update rows sessionId (some status.name)
    else rows

def SessionDb.drain (D : SessionDb) : SessionRows → List SessionWrite → SessionRows :=
  Runs.run D.execute

/-- What decides whether `_submit_write` hands a write to the executor. -/
structure SubmitState where
  databaseUrl : Bool
  tablesMissing : Bool
  executorTakes : Bool

def SubmitState.submits (s : SubmitState) : Bool :=
  s.databaseUrl && !s.tablesMissing && s.executorTakes

/-- How an awaited call ends. `cancelled` is no `Exception`. -/
inductive Awaited (α : Type) where
  | returned (value : α)
  | raised
  | cancelled

/-- `SPECIALIST_SLUGS` -/
def specialistSlugs : List String :=
  ["genesis-e4l-revenue", "genesis-e4l-shopify", "genesis-e4l-stripe", "genesis-e4l-cash",
   "genesis-e4l-ap", "genesis-e4l-ar", "genesis-e4l-cogs-cm", "genesis-e4l-commissions",
   "genesis-e4l-intercompany", "genesis-e4l-close", "genesis-e4l-journals",
   "genesis-e4l-fs-integrity", "genesis-e4l-controller", "genesis-e4l-treasury"]

structure InnerCall where
  slug : String
  jobId : Option String
  sessionId : Option String
  parentJobId : Option String
  parentSessionId : Option String
  inheritedTokenBudget : Option Int
  inheritedCostBudgetCents : Option Int
  freshJobId : String
  freshSessionId : String
  /-- `load_bundle(slug)` -/
  bundle : Option (List (String × Value))
  /-- The specialized prompt; `none` when building it raises. -/
  specializedPrompt : Option String
  /-- The directory of the workspace; `none` when it cannot be made. -/
  jobDir : Option String
  /-- `_DURABLE_OK` -/
  durable : Bool
  atCreate : SubmitState
  atFinish : SubmitState
  /-- Is `ConduitBridge` imported and built? -/
  bridgeBuilt : Bool
  /-- `load_session(...)`; `none` when it raises. -/
  buyerSession : Option Value
  /-- Does the `delete_session` of the early return come back? -/
  sessionDeleted : Bool
  /-- `await self._run_loop(...)` -/
  loop : Awaited (List (String × Value))
  /-- `await bridge.stop()` -/
  stop : Awaited Unit

inductive CallEnd where
  | returned (result : Value)
  | raised

/-- `needle in v` -/
def pyIn (needle : String) : Value → Option Bool
  | str s => some (isSubstring needle s)
  | list xs => some (xs.any (pyEq (str needle)))
  | dict kvs => some (kvs.any fun kv => kv.1 == needle)
  | _ => none

namespace InnerCall

variable (N : Numerals) (U : Unicode) (call : InnerCall)

def job : String := (call.jobId.filter (· ≠ "")).getD call.freshJobId
def session : String := (call.sessionId.filter (· ≠ "")).getD call.freshSessionId

def unknownSlug : Value :=
  dict [("ok", bool false), ("error", str "unknown_slug"), ("slug", str call.slug)]

def refusal (error : String) : Value :=
  dict [("ok", bool false), ("error", str error), ("slug", str call.slug), ("job_id", str call.job)]

/-- `is_e4l_specialist(str(bundle.get("slug") or slug))` -/
def isSpecialist (bundle : Value) : Bool :=
  specialistSlugs.contains (strip (((bundle.get "slug").orElse (str call.slug)).text U))

/-- A budget of the parent caps that of the bundle; `none` when `int` refuses the bundle's. -/
def inherit (key : String) (budget : Option Int) (bundle : Value) : Option Value :=
  match budget with
  | none => some bundle
  | some given => (toInt N.int (bundle.getD key (int given))).map fun own =>
      bundle.insert key (int (min own (max 0 given)))

/-- `None if _ok else (_result or {}).get("error")`, and the rest of `session_finish` -/
def finishWrite (result : Option Value) : SessionWrite :=
  let result := (result.getD null).orElse (dict [])
  let ok := (result.get "ok").truthy
  .finish call.session (if ok then .completed else .failed) (result.get "trace")
    (if ok then null else result.get "error")

/-- The `try` around the run loop and its `finally`. A cancelled `bridge.stop()` leaves the `finally`
at once. -/
def runStage (bridge : Bool) : List SessionWrite × CallEnd :=
  let result := match call.loop with
    | .returned items => some (dict items)
    | _ => none
  match bridge, call.stop with
  | true, .cancelled => ([], .raised)
  | _, _ => (if call.durable && call.atFinish.submits then [call.finishWrite result] else [],
      result.elim .raised .returned)

def hasBuyerSession : Bool :=
  match call.buyerSession with
  | none => false
  | some reply => (reply.get "ok").truthy && (reply.get "session_data").truthy

/-- `bundle.get("tools_advertised", [])` -/
def advertisedTools (bundle : Value) : Value := bundle.getD "tools_advertised" (list [])

/-- From the conduit bridge on. The early return for a buyer session stands before the `try`. -/
def bridgeStage (bundle : Value) : List SessionWrite × CallEnd :=
  match pyIn "conduit" (advertisedTools bundle) with
  | none => ([], .raised)
  | some advertised =>
    let bridge := advertised && call.bridgeBuilt
    if bridge && call.hasBuyerSession && call.sessionDeleted then
      ([], .returned (call.refusal "buyer_session_injection_unsupported"))
    else call.runStage bridge

def startStage (bundle : Value) (jobDir : String) : List SessionWrite × CallEnd :=
  let created := if call.durable && call.atCreate.submits then
    [SessionWrite.create call.session call.job call.slug call.parentJobId call.parentSessionId jobDir]
    else []
  let rest := call.bridgeStage bundle
  (created ++ rest.1, rest.2)

/-- `_execute_agent_inner` -/
def executeAgentInner : List SessionWrite × CallEnd :=
  match call.bundle with
  | none => ([], .returned call.unknownSlug)
  | some items =>
    let prompted := if call.isSpecialist U (dict items) then
      call.specializedPrompt.map fun prompt => (dict items).insert "system_prompt" (str prompt)
      else some (dict items)
    match prompted with
    | none => ([], .returned (call.refusal "accounting_entity_load_failed"))
    | some bundle =>
      let budgeted := (inherit N "token_budget" call.inheritedTokenBudget bundle).bind
        (inherit N "conduit_budget_cents" call.inheritedCostBudgetCents)
      match budgeted, call.jobDir with
      | some bundle, some jobDir => call.startStage bundle jobDir
      | _, _ => ([], .raised)

def submitted : List SessionWrite := (call.executeAgentInner N U).1

end InnerCall

def SessionWrite.creates (sessionId : String) : SessionWrite → Prop
  | create id _ _ _ _ _ => id = sessionId
  | finish _ _ _ _ => False

def SessionWrite.finishes (sessionId : String) : SessionWrite → Prop
  | create _ _ _ _ _ _ => False
  | finish id _ _ _ => id = sessionId

def RowEnded (sessionId : String) (rows : SessionRows) : Prop :=
  ∃ status : FinalStatus, rows sessionId = some status.name

section

variable (D : SessionDb) (sessionId : String)

theorem execute_present (rows : SessionRows) (write : SessionWrite)
    (present : (rows sessionId).isSome = true) : (D.execute rows write sessionId).isSome = true := by
  unfold SessionDb.execute
  split
  · rename_i id _ _ _ _ _
    split
    · exact present
    · by_cases same : sessionId = id
      · rw [same, Function.update_self]
        rfl
      · rw [Function.update_of_ne same]
        exact present
  · rename_i id status _ _
    split
    · by_cases same : sessionId = id
      · rw [same, Function.update_self]
        rfl
      · rw [Function.update_of_ne same]
        exact present
    · exact present

theorem execute_creates (rows : SessionRows) (write : SessionWrite) (creates : write.creates sessionId) :
    (D.execute rows write sessionId).isSome = true := by
  cases write with
  | finish id status trace error => exact creates.elim
  | create id job slug parentJob parentSession root =>
    have same : id = sessionId := creates
    subst same
    rw [SessionDb.execute]
    split
    · assumption
    · rw [Function.update_self]
      rfl

/-- No write takes a final status back. -/
theorem execute_finished (rows : SessionRows) (write : SessionWrite) (done : RowEnded sessionId rows) :
    RowEnded sessionId (D.execute rows write) := by
  rcases done with ⟨before, final⟩
  unfold SessionDb.execute
  split
  · rename_i id _ _ _ _ _
    split
    · exact ⟨before, final⟩
    · rename_i missing
      have apart : sessionId ≠ id := fun same => missing (by rw [← same, final]; rfl)
      exact ⟨before, (Function.update_of_ne apart _ _).trans final⟩
  · rename_i id status _ _
    split
    · by_cases same : sessionId = id
      · exact ⟨status, by rw [same, Function.update_self]⟩
      · exact ⟨before, (Function.update_of_ne same _ _).trans final⟩
    · exact ⟨before, final⟩

theorem execute_finishes (rows : SessionRows) (status : FinalStatus) (trace error : Value)
    (present : (rows sessionId).isSome = true) (taken : D.takes trace = true) :
    RowEnded sessionId (D.execute rows (.finish sessionId status trace error)) := by
  refine ⟨status, ?_⟩
  rw [SessionDb.execute, present, taken, Bool.and_self, if_pos rfl, Function.update_self]

theorem drain_present (rows : SessionRows) (queue : List SessionWrite)
    (present : (rows sessionId).isSome = true) : (D.drain rows queue sessionId).isSome = true :=
  Runs.run_always D.execute (fun rows => (rows sessionId).isSome = true)
    (fun rows write => execute_present D sessionId rows write) queue rows present

theorem drain_finished (rows : SessionRows) (queue : List SessionWrite)
    (done : RowEnded sessionId rows) : RowEnded sessionId (D.drain rows queue) :=
  Runs.run_always D.execute (RowEnded sessionId)
    (fun rows write => execute_finished D sessionId rows write) queue rows done

/-- Whatever else stands in the queue, a row that is created and then finished ends with a final
status. -/
theorem drain_closed (rows : SessionRows) (queue : List SessionWrite) (created : SessionWrite)
    (status : FinalStatus) (trace error : Value) (creates : created.creates sessionId)
    (taken : D.takes trace = true)
    (ordered : [created, .finish sessionId status trace error].Sublist queue) :
    RowEnded sessionId (D.drain rows queue) := by
  rcases List.cons_sublist_iff.mp ordered with ⟨front, back, rfl, first, rest⟩
  rcases List.append_of_mem first with ⟨before, between, rfl⟩
  rcases List.append_of_mem (List.singleton_sublist.mp rest) with ⟨middle, after, rfl⟩
  simp only [SessionDb.drain, Runs.run_append, Runs.run_cons]
  refine drain_finished D sessionId _ after (execute_finishes D sessionId _ status trace error ?_ taken)
  refine drain_present D sessionId _ middle (drain_present D sessionId _ between ?_)
  exact execute_creates D sessionId _ created creates

theorem drain_refused (create : SessionWrite) (status : FinalStatus) (trace error : Value)
    (creates : create.creates sessionId) (refused : ¬D.takes trace = true) :
    D.drain (fun _ => none) [create, .finish sessionId status trace error] sessionId = some "ACTIVE" := by
  cases create with
  | finish id status trace error => exact creates.elim
  | create id job slug parentJob parentSession root =>
    have same : id = sessionId := creates
    subst same
    rw [Bool.not_eq_true] at refused
    simp only [SessionDb.drain, Runs.run_cons, Runs.run_nil, SessionDb.execute, refused,
      Bool.and_false, Bool.false_eq_true, if_false, Option.isSome_none, Function.update_self]

end

namespace InnerCall

variable (N : Numerals) (U : Unicode) (D : SessionDb) (call : InnerCall)

/-- A finish of the session follows its create among the submitted writes; and whatever the writer
runs beside them, the row of the session does not stay active. -/
structure Closed : Prop where
  ordered : ∃ earlier created later finished, call.submitted N U = earlier ++ created :: later ∧
    created.creates call.session ∧ finished ∈ later ∧ finished.finishes call.session
  settled : ∀ rows queue, (call.submitted N U).Sublist queue →
    ∃ status, D.drain rows queue call.session = some status ∧ status ≠ "ACTIVE"

def pack : Value := dict (call.bundle.getD [])

def bridged : Bool :=
  (pyIn "conduit" (advertisedTools call.pack)).getD false && call.bridgeBuilt

structure Finishes : Prop where
  readable : (pyIn "conduit" (advertisedTools call.pack)).isSome = true
  accepted : call.bridged = true → call.hasBuyerSession = true → call.sessionDeleted = false
  stopped : call.bridged = true → call.stop ≠ .cancelled
  enabled : call.atFinish.submits = true

def TraceTaken : Prop :=
  ∀ items, call.loop = .returned items → D.takes ((dict items).get "trace") = true

/-- `_result` -/
def loopResult : Option Value :=
  match call.loop with
  | .returned items => some (dict items)
  | _ => none

theorem orElse_empty (items : List (String × Value)) : (dict items).orElse (dict []) = dict items := by
  cases items <;> rfl

theorem finishWrite_taken :
    (∃ status trace error, call.finishWrite call.loopResult = .finish call.session status trace error ∧
      D.takes trace = true) ↔ call.TraceTaken D := by
  unfold TraceTaken finishWrite loopResult
  rcases call.loop with items | _ | _
  · simp [orElse_empty]
  all_goals exact iff_of_true ⟨_, _, _, rfl, rfl⟩ nofun

theorem bridgeStage_eq (bundle : Value) (same : advertisedTools bundle = advertisedTools call.pack)
    (readable : (pyIn "conduit" (advertisedTools call.pack)).isSome = true) :
    call.bridgeStage bundle = if call.bridged && call.hasBuyerSession && call.sessionDeleted then
        ([], .returned (call.refusal "buyer_session_injection_unsupported"))
      else call.runStage call.bridged := by
  rcases read : pyIn "conduit" (advertisedTools call.pack) with _ | advertised
  · rw [read] at readable
    contradiction
  · rw [bridgeStage, same, bridged, read]
    rfl

theorem runStage_writes (bridge : Bool) (durable : call.durable = true) :
    ((bridge = true → call.stop ≠ .cancelled) ∧ call.atFinish.submits = true ∧
        (call.runStage bridge).1 = [call.finishWrite call.loopResult]) ∨
      (¬((bridge = true → call.stop ≠ .cancelled) ∧ call.atFinish.submits = true) ∧
        (call.runStage bridge).1 = []) := by
  unfold runStage
  dsimp only
  rw [durable, Bool.true_and]
  split
  · rename_i halted
    exact .inr ⟨fun both => both.1 rfl halted, rfl⟩
  · rename_i bridge _ _ goes
    have stopped : bridge = true → call.stop ≠ .cancelled := fun bridged halted => goes bridged halted
    rcases enabled : call.atFinish.submits with _ | _
    · exact .inr ⟨fun both => Bool.false_ne_true both.2, rfl⟩
    · exact .inl ⟨stopped, rfl, rfl⟩

/-- The finish is submitted by the calls that get to it, and by no others. -/
theorem bridgeStage_writes (bundle : Value) (durable : call.durable = true)
    (same : advertisedTools bundle = advertisedTools call.pack) :
    (call.Finishes ∧ (call.bridgeStage bundle).1 = [call.finishWrite call.loopResult]) ∨
      (¬call.Finishes ∧ (call.bridgeStage bundle).1 = []) := by
  by_cases readable : (pyIn "conduit" (advertisedTools call.pack)).isSome = true
  · rw [bridgeStage_eq call bundle same readable]
    split
    · rename_i refused
      simp only [Bool.and_eq_true] at refused
      refine .inr ⟨fun finishes => ?_, rfl⟩
      rw [finishes.accepted refused.1.1 refused.1.2] at refused
      exact absurd refused.2 Bool.false_ne_true
    · rename_i goes
      rcases runStage_writes call call.bridged durable with ⟨stopped, enabled, writes⟩ | ⟨stays, writes⟩
      · refine .inl ⟨⟨readable, fun bridge session => ?_, stopped, enabled⟩, writes⟩
        simpa [bridge, session] using goes
      · exact .inr ⟨fun finishes => stays ⟨finishes.stopped, finishes.enabled⟩, writes⟩
  · refine .inr ⟨fun finishes => readable finishes.readable, ?_⟩
    rw [Option.not_isSome_iff_eq_none] at readable
    rw [bridgeStage, same, readable]

theorem inherit_tools (key : String) (budget : Option Int) (bundle budgeted : Value)
    (apart : "tools_advertised" ≠ key) (inherited : inherit N key budget bundle = some budgeted) :
    advertisedTools budgeted = advertisedTools bundle := by
  rcases budget with _ | given
  · rw [← Option.some.inj inherited]
  · rcases Option.map_eq_some_iff.mp inherited with ⟨own, -, rfl⟩
    rw [advertisedTools, getD, get?_insert_other _ _ _ _ apart]
    rfl

theorem submitted_cases : call.submitted N U = [] ∨ ∃ bundle jobDir,
    advertisedTools bundle = advertisedTools call.pack ∧
      call.submitted N U = (call.startStage bundle jobDir).1 := by
  unfold submitted executeAgentInner
  split
  · exact .inl rfl
  rename_i items given
  have packed : call.pack = dict items := by rw [pack, given]; rfl
  dsimp only
  split
  · exact .inl rfl
  rename_i bundle prompted
  split
  · rename_i budgeted jobDir agreed placed
    refine .inr ⟨budgeted, jobDir, ?_, rfl⟩
    rcases Option.bind_eq_some_iff.mp agreed with ⟨tokens, first, second⟩
    rw [inherit_tools N _ _ _ _ (by decide) second, inherit_tools N _ _ _ _ (by decide) first, packed]
    split at prompted
    · rcases Option.map_eq_some_iff.mp prompted with ⟨prompt, -, rfl⟩
      rw [advertisedTools, getD, get?_insert_other _ _ _ _ (by decide)]
      rfl
    · rw [← Option.some.inj prompted]
  · exact .inl rfl

theorem bridgeStage_creates (bundle : Value) :
    ∀ write ∈ (call.bridgeStage bundle).1, write.isCreate = false := by
  intro write member
  unfold bridgeStage at member
  split at member
  · exact absurd member List.not_mem_nil
  dsimp only at member
  split at member
  · exact absurd member List.not_mem_nil
  unfold runStage at member
  dsimp only at member
  split at member
  · exact absurd member List.not_mem_nil
  split at member
  · rw [List.mem_singleton.mp member]
    rfl
  · exact absurd member List.not_mem_nil

/-- A call that creates its session: the create comes first, the writes from the bridge on follow. -/
theorem submitted_created (created : ∃ write ∈ call.submitted N U, write.isCreate = true) :
    ∃ create bundle, create.creates call.session ∧ call.durable = true ∧
      advertisedTools bundle = advertisedTools call.pack ∧
      call.submitted N U = create :: (call.bridgeStage bundle).1 := by
  rcases created with ⟨write, member, creates⟩
  rcases submitted_cases N U call with nothing | ⟨bundle, jobDir, same, starts⟩
  · rw [nothing] at member
    exact absurd member List.not_mem_nil
  rw [starts] at member ⊢
  unfold startStage at member ⊢
  dsimp only at member ⊢
  cases submits : call.durable && call.atCreate.submits with
  | true =>
    rw [if_pos rfl]
    rw [Bool.and_eq_true] at submits
    exact ⟨.create call.session call.job call.slug call.parentJobId call.parentSessionId jobDir, bundle,
      rfl, submits.1, same, rfl⟩
  | false =>
    rw [submits, if_neg Bool.false_ne_true, List.nil_append] at member
    rw [bridgeStage_creates call bundle write member] at creates
    contradiction

/-- The session of a call that creates it is closed exactly when the call gets to the finish and the
database takes the trace. -/
theorem session_closed_iff (created : ∃ write ∈ call.submitted N U, write.isCreate = true) :
    call.Closed N U D ↔ call.Finishes ∧ call.TraceTaken D := by
  rcases submitted_created N U call created with ⟨create, bundle, creates, durable, same, writes⟩
  rw [← finishWrite_taken]
  rcases bridgeStage_writes call bundle durable same with ⟨finishes, rest⟩ | ⟨unfinished, rest⟩
  · rw [and_iff_right finishes]
    rw [rest] at writes
    constructor
    · intro closed
      refine ⟨_, _, _, rfl, ?_⟩
      by_contra refused
      rcases closed.settled (fun _ => none) _ (List.Sublist.refl _) with ⟨status, settled, ended⟩
      rw [writes] at settled
      exact ended (Option.some.inj (settled.symm.trans (drain_refused D _ create _ _ _ creates refused)))
    · rintro ⟨status, trace, error, write, taken⟩
      rw [write] at writes
      refine ⟨⟨[], create, _, _, writes, creates, List.mem_singleton_self _, rfl⟩, ?_⟩
      intro rows queue ordered
      rw [writes] at ordered
      rcases drain_closed D call.session rows queue create status trace error creates taken ordered with
        ⟨final, settled⟩
      exact ⟨final.name, settled, by cases final <;> decide⟩
  · refine iff_of_false (fun closed => ?_) fun both => unfinished both.1
    rcases closed.ordered with ⟨earlier, created, later, finished, split, -, member, -⟩
    rw [writes, rest] at split
    rcases List.append_eq_singleton_iff.mp split.symm with ⟨-, alone⟩ | ⟨-, nothing⟩
    · rw [(List.cons.inj alone).2] at member
      exact absurd member List.not_mem_nil
    · contradiction

end InnerCall

/-! A job whose buyer has left a browser session. -/

def submitting : SubmitState := ⟨true, false, true⟩

def plainCall : InnerCall :=
  { slug := "genesis-research", jobId := "job-1", sessionId := "session-1", parentJobId := none
    parentSessionId := none, inheritedTokenBudget := none, inheritedCostBudgetCents := none
    freshJobId := "job-2", freshSessionId := "session-2"
    bundle := some [("slug", str "genesis-research"), ("tools_advertised", list [str "conduit"])]
    specializedPrompt := none, jobDir := "/tmp/jobs/job-1", durable := true, atCreate := submitting
    atFinish := submitting, bridgeBuilt := true, buyerSession := some (dict [("ok", bool false)])
    sessionDeleted := true, loop := .returned [("ok", bool true), ("trace", dict [])]
    stop := .returned () }

theorem plain_call_closed :
    (∃ write ∈ plainCall.submitted noNumerals plainTables, write.isCreate = true) ∧
      plainCall.Closed noNumerals plainTables ⟨fun _ => true⟩ := by
  have created : ∃ write ∈ plainCall.submitted noNumerals plainTables, write.isCreate = true := by
    rw [← List.any_eq_true]
    decide
  refine ⟨created, (InnerCall.session_closed_iff noNumerals plainTables _ plainCall created).mpr
    ⟨⟨by decide, fun _ session => ?_, nofun, rfl⟩, ?_⟩⟩
  · exact absurd session (by decide)
  · intro items given
    rw [← Awaited.returned.inj given]
    rfl

def conciergeCall : InnerCall :=
  { plainCall with
    buyerSession := some (dict [("ok", bool true), ("session_data", dict [("cookies", list [])])]) }

theorem concierge_session_stays_open :
    ¬∀ (N : Numerals) (U : Unicode) (D : SessionDb) (call : InnerCall),
      (∃ write ∈ call.submitted N U, write.isCreate = true) → call.Closed N U D := by
  intro closes
  have writes : conciergeCall.submitted noNumerals plainTables =
      [.create "session-1" "job-1" "genesis-research" none none "/tmp/jobs/job-1"] := rfl
  have closed := closes noNumerals plainTables ⟨fun _ => true⟩ conciergeCall (by
    rw [writes]
    exact ⟨_, List.mem_singleton_self _, rfl⟩)
  rcases closed.ordered with ⟨earlier, created, later, finished, split, -, member, -⟩
  rw [writes] at split
  rcases List.append_eq_singleton_iff.mp split.symm with ⟨-, alone⟩ | ⟨-, nothing⟩
  · rw [(List.cons.inj alone).2] at member
    exact absurd member List.not_mem_nil
  · contradiction

end GenesisAgents
