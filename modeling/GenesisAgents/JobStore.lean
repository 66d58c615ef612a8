import GenesisAgents.Value
import GenesisAgents.Library.Runs
import GenesisAgents.Library.RowLocks

/-! The job store of `job_store.py` on Postgres under READ COMMITTED. Every call is a transaction of
its own and moves one statement, or one row of a statement over many rows, at a time. The insert of
its event is taken together with its commit: nobody else can see it before. -/

namespace GenesisAgents

open RowLocks

inductive JobStatus where
  | queued | running | delivered | deliveredWithArtifactWarning | failed | settled | refunded
  | expired | disputed
  /-- Any other text in the column. -/
  | other (text : String)
  deriving DecidableEq, Repr

def terminalJobStatuses : List JobStatus := [.delivered, .failed, .settled, .refunded, .expired]

def JobStatus.isTerminal (s : JobStatus) : Bool := terminalJobStatuses.contains s

abbrev JobId := String

/-- A row of `genesis_jobs`; times are microseconds. -/
structure JobRow where
  id : JobId
  agentSlug : String
  buyerWalletId : Option String
  buyerClientId : Option String
  tenantId : Option String
  ownerPrincipalId : Option String
  prompt : String
  params : Value
  status : JobStatus
  priceTierCents : Option Int
  idempotencyKey : Option String
  webhookUrl : Option String
  webhookSecret : Option String
  escrowId : Option String
  outputArtifactUris : List String
  resultSummary : Option String
  errorCode : Option String
  errorMessage : Option String
  startedAt : Option Int
  completedAt : Option Int
  lastHeartbeatAt : Option Int
  createdAt : Int
  updatedAt : Int

/-- A `status_change` row of `genesis_job_events`. -/
structure JobEvent where
  jobId : JobId
  fromStatus : Option JobStatus
  toStatus : JobStatus
  deriving DecidableEq, Repr

/-- The arguments of `update_job_status`. -/
structure StatusUpdate where
  jobId : JobId
  newStatus : JobStatus
  errorCode : Option String
  errorMessage : Option String
  resultSummary : Option String
  outputArtifactUris : Option (List String)
  allowTerminalOverride : Bool

namespace StatusUpdate

def plain (jobId : JobId) (newStatus : JobStatus) : StatusUpdate :=
  { jobId := jobId, newStatus := newStatus, errorCode := none, errorMessage := none
    resultSummary := none, outputArtifactUris := none, allowTerminalOverride := false }

/-- The guard between the `SELECT` and the `UPDATE`. -/
def refuses (u : StatusUpdate) (fromStatus : JobStatus) : Bool :=
  fromStatus.isTerminal && u.newStatus != fromStatus && !u.allowTerminalOverride

/-- The statuses that stamp `completedAt`. -/
def completes (u : StatusUpdate) : Bool :=
  [JobStatus.delivered, .failed, .settled, .refunded, .expired].contains u.newStatus

/-- The `SET` clauses, with the `NOW()` of the transaction. -/
def apply (u : StatusUpdate) (now : Int) (row : JobRow) : JobRow :=
  { row with
    status := u.newStatus
    updatedAt := now
    startedAt := if u.newStatus = .running then some (row.startedAt.getD now) else row.startedAt
    completedAt := if u.completes then some now else row.completedAt
    errorCode := u.errorCode.or row.errorCode
    errorMessage := u.errorMessage.or row.errorMessage
    resultSummary := u.resultSummary.or row.resultSummary
    outputArtifactUris := u.outputArtifactUris.getD row.outputArtifactUris }

@[simp] theorem apply_status (u : StatusUpdate) (now : Int) (row : JobRow) :
    (u.apply now row).status = u.newStatus := rfl

end StatusUpdate

namespace JobRow

/-- The row `create_job` inserts when no optional column is given. -/
def queued (id : JobId) (agentSlug : String) (now : Int) : JobRow :=
  { id := id, agentSlug := agentSlug, buyerWalletId := none, buyerClientId := none
    tenantId := none, ownerPrincipalId := none, prompt := "", params := .dict [], status := .queued
    priceTierCents := none, idempotencyKey := none, webhookUrl := none, webhookSecret := none
    escrowId := none, outputArtifactUris := [], resultSummary := none, errorCode := none
    errorMessage := none, startedAt := none, completedAt := none, lastHeartbeatAt := none
    createdAt := now, updatedAt := now }

def beat (now : Int) (row : JobRow) : JobRow := { row with lastHeartbeatAt := some now }

/-- The `SET` of both claims. -/
def claim (now : Int) (row : JobRow) : JobRow :=
  { row with
    status := .running, startedAt := some (row.startedAt.getD now), lastHeartbeatAt := some now
    updatedAt := now }

/-- `make_interval(mins => n)` -/
def minutes (n : Int) : Int := n * 60000000

def isStale (staleMinutes now : Int) (row : JobRow) : Bool :=
  row.status = .running &&
    decide ((row.lastHeartbeatAt.orElse fun _ => row.startedAt).getD row.createdAt <
      now - minutes staleMinutes)

def expire (staleMinutes now : Int) (row : JobRow) : JobRow :=
  { row with
    status := .expired, completedAt := some now, updatedAt := now
    errorCode := some "stale_heartbeat"
    errorMessage := some ("No heartbeat for " ++ toString staleMinutes ++ "+ minutes") }

end JobRow

inductive StoreCall where
  | updateJobStatus (u : StatusUpdate)
  | heartbeat (jobId : JobId)
  | claimJobById (jobId : JobId)
  | claimQueuedJobs (limit : Nat)
  | expireStaleRunningJobs (staleMinutes : Int)

inductive CallResult where
  | flag (ok : Bool)
  | job (row : Option JobRow)
  | jobs (rows : List JobRow)
  | count (n : Nat)

inductive CallPhase where
  | ready
  /-- `update_job_status` has read this status. -/
  | selected (began : Int) (fromStatus : JobStatus)
  /-- Rows are written and locked, nothing is committed. -/
  | holding (began : Int) (fromStatus : Option JobStatus) (touched : List JobId)
  /-- The call is over; `left` is the committed status of its job at that moment. -/
  | returned (result : CallResult) (left : Option JobStatus)
  | raised

structure Call where
  request : StoreCall
  phase : CallPhase

structure StoreState where
  clock : Int
  /-- A call locks rows under its own number. -/
  table : Table JobId Nat JobRow
  events : List JobEvent
  calls : List Call

inductive StoreEvent where
  | tick (microseconds : Nat)
  | call (request : StoreCall)
  /-- The next statement of a call about one row. -/
  | advance (i : Nat)
  /-- One more row of a call over many rows. -/
  | touch (i : Nat) (jobId : JobId)
  | commit (i : Nat)
  /-- The connection fails: the call raises and its transaction is rolled back. -/
  | fail (i : Nat)

namespace StoreState

def start (clock : Int) (rows : JobId → Option JobRow) : StoreState :=
  { clock := clock, table := Table.ofRows rows, events := [], calls := [] }

def statusOf (σ : StoreState) (jobId : JobId) : Option JobStatus :=
  (σ.table.read jobId).map JobRow.status

def setPhase (σ : StoreState) (i : Nat) (request : StoreCall) (phase : CallPhase) : StoreState :=
  { σ with calls := σ.calls.set i ⟨request, phase⟩ }

/-- Writes one row and goes on holding its lock. -/
def hold (σ : StoreState) (i : Nat) (request : StoreCall) (began : Int)
    (fromStatus : Option JobStatus) (touched : List JobId) (jobId : JobId) (f : JobRow → JobRow) :
    StoreState :=
  { σ.setPhase i request (.holding began fromStatus (touched ++ [jobId])) with
    table := σ.table.write i jobId f }

def advanceUpdate (σ : StoreState) (i : Nat) (u : StatusUpdate) : CallPhase → StoreState
  | .ready =>
    match σ.table.read u.jobId with
    | none => σ.setPhase i (.updateJobStatus u) (.returned (.flag false) none)
    | some row =>
      if u.refuses row.status then
        σ.setPhase i (.updateJobStatus u) (.returned (.flag false) (some row.status))
      else σ.setPhase i (.updateJobStatus u) (.selected σ.clock row.status)
  | .selected began fromStatus =>
    match σ.table u.jobId with
    | none => σ.setPhase i (.updateJobStatus u) (.holding began (some fromStatus) [])
    | some cell =>
      if cell.free i then
        σ.hold i (.updateJobStatus u) began (some fromStatus) [] u.jobId (u.apply began)
      else σ
  | _ => σ

def advanceHeartbeat (σ : StoreState) (i : Nat) (jobId : JobId) : CallPhase → StoreState
  | .ready =>
    match σ.table jobId with
    | none => σ.setPhase i (.heartbeat jobId) (.holding σ.clock none [])
    | some cell =>
      if cell.free i then σ.hold i (.heartbeat jobId) σ.clock none [] jobId (JobRow.beat σ.clock)
      else σ
  | _ => σ

/-- A row that no longer matches after a wait for its lock is not claimed. -/
def advanceClaim (σ : StoreState) (i : Nat) (jobId : JobId) : CallPhase → StoreState
  | .ready =>
    match σ.table jobId with
    | none => σ.setPhase i (.claimJobById jobId) (.returned (.job none) none)
    | some cell =>
      if cell.free i then
        if cell.latest.status = .queued then
          σ.hold i (.claimJobById jobId) σ.clock none [] jobId (JobRow.claim σ.clock)
        else σ.setPhase i (.claimJobById jobId) (.returned (.job none) none)
      else if cell.committed.status = .queued then σ
      else σ.setPhase i (.claimJobById jobId) (.returned (.job none) none)
  | _ => σ

def advance (σ : StoreState) (i : Nat) : StoreState :=
  match σ.calls[i]? with
  | some ⟨.updateJobStatus u, phase⟩ => σ.advanceUpdate i u phase
  | some ⟨.heartbeat jobId, phase⟩ => σ.advanceHeartbeat i jobId phase
  | some ⟨.claimJobById jobId, phase⟩ => σ.advanceClaim i jobId phase
  | _ => σ

def taking (σ : StoreState) : CallPhase → Option (Int × List JobId)
  | .ready => some (σ.clock, [])
  | .holding began _ touched => some (began, touched)
  | _ => none

/-- One row of `claim_queued_jobs`, which skips locked rows, or of the reaper, which waits for them.
Which matching rows come first is left open. -/
def touch (σ : StoreState) (i : Nat) (jobId : JobId) : StoreState :=
  match σ.calls[i]?, σ.table jobId with
  | some ⟨.claimQueuedJobs limit, phase⟩, some cell =>
    match σ.taking phase with
    | some (began, touched) =>
      if touched.length < limit ∧ cell.pending.isNone ∧ cell.latest.status = .queued then
        σ.hold i (.claimQueuedJobs limit) began none touched jobId (JobRow.claim began)
      else σ
    | none => σ
  | some ⟨.expireStaleRunningJobs staleMinutes, phase⟩, some cell =>
    match σ.taking phase with
    | some (began, touched) =>
      if cell.pending.isNone ∧ cell.latest.isStale staleMinutes began then
        σ.hold i (.expireStaleRunningJobs staleMinutes) began none touched jobId
          (JobRow.expire staleMinutes began)
      else σ
    | none => σ
  | _, _ => σ

def heldRows (σ : StoreState) (touched : List JobId) : List JobRow :=
  touched.filterMap fun jobId => (σ.table jobId).map Cell.latest

def completion (σ : StoreState) : Call → Option (CallResult × List JobEvent)
  | ⟨.updateJobStatus u, .holding _ fromStatus _⟩ =>
    some (.flag true, [⟨u.jobId, fromStatus, u.newStatus⟩])
  | ⟨.heartbeat _, .holding _ _ touched⟩ => some (.flag !touched.isEmpty, [])
  | ⟨.claimJobById _, .holding _ _ touched⟩ =>
    some (.job (σ.heldRows touched).head?, touched.map fun id => ⟨id, some .queued, .running⟩)
  | ⟨.claimQueuedJobs _, phase⟩ => (σ.taking phase).map fun (_, touched) =>
    (.jobs (σ.heldRows touched), touched.map fun id => ⟨id, some .queued, .running⟩)
  | ⟨.expireStaleRunningJobs _, phase⟩ => (σ.taking phase).map fun (_, touched) =>
    (.count touched.length, touched.map fun id => ⟨id, some .running, .expired⟩)
  | _ => none

def jobOf : StoreCall → Option JobId
  | .updateJobStatus u => some u.jobId
  | .heartbeat jobId => some jobId
  | .claimJobById jobId => some jobId
  | _ => none

def commit (σ : StoreState) (i : Nat) : StoreState :=
  match σ.calls[i]? with
  | some call =>
    match σ.completion call with
    | some (result, events) =>
      let table := σ.table.commit i
      let left := (jobOf call.request).bind fun jobId => (table.read jobId).map JobRow.status
      { σ with
        table := table, events := σ.events ++ events
        calls := σ.calls.set i ⟨call.request, .returned result left⟩ }
    | none => σ
  | none => σ

def isOver : CallPhase → Bool
  | .returned _ _ => true
  | .raised => true
  | _ => false

def fail (σ : StoreState) (i : Nat) : StoreState :=
  match σ.calls[i]? with
  | some call =>
    if isOver call.phase then σ
    else { σ.setPhase i call.request .raised with table := σ.table.rollback i }
  | none => σ

def step (σ : StoreState) : StoreEvent → StoreState
  | .tick microseconds => { σ with clock := σ.clock + microseconds }
  | .call request => { σ with calls := σ.calls ++ [⟨request, .ready⟩] }
  | .advance i => σ.advance i
  | .touch i jobId => σ.touch i jobId
  | .commit i => σ.commit i
  | .fail i => σ.fail i

end StoreState

open StoreState

def Gathers : CallPhase → Int → List JobId → Prop
  | .ready, _, touched => touched = []
  | .holding began _ rows, start, touched => start = began ∧ touched = rows
  | _, _, _ => False

/-- The one row a call may write next: from which phase, with which start and rows so far, and what
the row must look like. -/
inductive RowWrite (event : StoreEvent) (i : Nat) : StoreCall → CallPhase → Int → Option JobStatus →
    List JobId → JobId → (JobRow → JobRow) → Cell Nat JobRow → Prop where
  | update (u : StatusUpdate) (began : Int) (fromStatus : JobStatus) (cell : Cell Nat JobRow)
      (advances : event = .advance i) :
      RowWrite event i (.updateJobStatus u) (.selected began fromStatus) began (some fromStatus) []
        u.jobId (u.apply began) cell
  | beat (jobId : JobId) (began : Int) (cell : Cell Nat JobRow) :
      RowWrite event i (.heartbeat jobId) .ready began none [] jobId (JobRow.beat began) cell
  | claim (jobId : JobId) (began : Int) (cell : Cell Nat JobRow)
      (matching : cell.latest.status = .queued) :
      RowWrite event i (.claimJobById jobId) .ready began none [] jobId (JobRow.claim began) cell
  | claimOne (limit : Nat) (phase : CallPhase) (began : Int) (touched : List JobId) (jobId : JobId)
      (cell : Cell Nat JobRow) (room : touched.length < limit)
      (matching : cell.latest.status = .queued) (earlier : Gathers phase began touched) :
      RowWrite event i (.claimQueuedJobs limit) phase began none touched jobId (JobRow.claim began)
        cell
  | expire (staleMinutes : Int) (phase : CallPhase) (began : Int) (touched : List JobId)
      (jobId : JobId) (cell : Cell Nat JobRow)
      (matching : cell.latest.isStale staleMinutes began = true)
      (earlier : Gathers phase began touched) :
      RowWrite event i (.expireStaleRunningJobs staleMinutes) phase began none touched jobId
        (JobRow.expire staleMinutes began) cell

inductive StoreStep (σ : StoreState) (event : StoreEvent) :
    List Call → Table JobId Nat JobRow → Prop where
  | same : StoreStep σ event σ.calls σ.table
  | start (request : StoreCall) (starts : event = .call request) :
      StoreStep σ event (σ.calls ++ [⟨request, .ready⟩]) σ.table
  | read (i : Nat) (u : StatusUpdate) (row : JobRow) (advances : event = .advance i)
      (present : σ.calls[i]? = some ⟨.updateJobStatus u, .ready⟩)
      (found : σ.table.read u.jobId = some row) (accepted : u.refuses row.status = false) :
      StoreStep σ event (σ.calls.set i ⟨.updateJobStatus u, .selected σ.clock row.status⟩) σ.table
  | refuse (i : Nat) (u : StatusUpdate) (left : Option JobStatus) (advances : event = .advance i)
      (present : σ.calls[i]? = some ⟨.updateJobStatus u, .ready⟩)
      (found : left = σ.statusOf u.jobId)
      (refused : ∀ status, left = some status → u.refuses status = true) :
      StoreStep σ event (σ.calls.set i ⟨.updateJobStatus u, .returned (.flag false) left⟩) σ.table
  | miss (i : Nat) (jobId : JobId)
      (present : σ.calls[i]? = some ⟨.claimJobById jobId, .ready⟩) :
      StoreStep σ event (σ.calls.set i ⟨.claimJobById jobId, .returned (.job none) none⟩) σ.table
  | empty (i : Nat) (request : StoreCall) (old : CallPhase) (jobId : JobId) (began : Int)
      (fromStatus : Option JobStatus) (present : σ.calls[i]? = some ⟨request, old⟩)
      (running : isOver old = false) (single : jobOf request = some jobId)
      (absent : σ.table jobId = none)
      (later : ∀ u, request = .updateJobStatus u → ∃ began fromStatus,
        old = .selected began fromStatus) :
      StoreStep σ event (σ.calls.set i ⟨request, .holding began fromStatus []⟩) σ.table
  | hold (i : Nat) (request : StoreCall) (old : CallPhase) (began : Int)
      (fromStatus : Option JobStatus) (touched : List JobId) (jobId : JobId) (f : JobRow → JobRow)
      (cell : Cell Nat JobRow) (present : σ.calls[i]? = some ⟨request, old⟩)
      (running : isOver old = false) (found : σ.table jobId = some cell)
      (unlocked : cell.free i = true)
      (writes : RowWrite event i request old began fromStatus touched jobId f cell) :
      StoreStep σ event (σ.calls.set i ⟨request, .holding began fromStatus (touched ++ [jobId])⟩)
        (σ.table.write i jobId f)
  | commit (i : Nat) (call : Call) (result : CallResult) (events : List JobEvent)
      (present : σ.calls[i]? = some call) (complete : σ.completion call = some (result, events))
      (commits : event = .commit i) :
      StoreStep σ event
        (σ.calls.set i ⟨call.request, .returned result ((jobOf call.request).bind fun jobId =>
          ((σ.table.commit i).read jobId).map JobRow.status)⟩)
        (σ.table.commit i)
  | fail (i : Nat) (call : Call) (present : σ.calls[i]? = some call)
      (running : isOver call.phase = false) :
      StoreStep σ event (σ.calls.set i ⟨call.request, .raised⟩) (σ.table.rollback i)

theorem free_of_pending_none (cell : Cell Nat JobRow) (i : Nat)
    (unlocked : cell.pending.isNone = true) : cell.free i = true := by
  rw [Cell.free]
  rw [Option.isNone_iff_eq_none] at unlocked
  rw [unlocked]

theorem advanceUpdate_step (σ : StoreState) (i : Nat) (u : StatusUpdate) (phase : CallPhase)
    (present : σ.calls[i]? = some ⟨.updateJobStatus u, phase⟩) :
    StoreStep σ (.advance i) (σ.advanceUpdate i u phase).calls (σ.advanceUpdate i u phase).table := by
  unfold advanceUpdate
  split
  · split
    · rename_i absent
      exact .refuse i u none rfl present (by rw [statusOf, absent]; rfl) (by simp)
    · rename_i row found
      split
      · rename_i refused
        refine .refuse i u (some row.status) rfl present (by rw [statusOf, found]; rfl) ?_
        rintro status same
        rwa [← Option.some.inj same]
      · rename_i accepted
        exact .read i u row rfl present found (by simpa using accepted)
  · split
    · rename_i absent
      exact .empty i _ _ u.jobId _ _ present rfl rfl absent fun _ _ => ⟨_, _, rfl⟩
    · rename_i cell found
      split
      · rename_i unlocked
        exact .hold i _ _ _ _ [] _ _ cell present rfl found unlocked (.update u _ _ cell rfl)
      · exact .same
  · exact .same

theorem advanceHeartbeat_step (σ : StoreState) (i : Nat) (jobId : JobId) (phase : CallPhase)
    (present : σ.calls[i]? = some ⟨.heartbeat jobId, phase⟩) :
    StoreStep σ (.advance i) (σ.advanceHeartbeat i jobId phase).calls
      (σ.advanceHeartbeat i jobId phase).table := by
  unfold advanceHeartbeat
  split
  · split
    · rename_i absent
      exact .empty i _ _ jobId _ _ present rfl rfl absent (by simp)
    · rename_i cell found
      split
      · rename_i unlocked
        exact .hold i _ _ _ _ [] _ _ cell present rfl found unlocked (.beat jobId _ cell)
      · exact .same
  · exact .same

theorem advanceClaim_step (σ : StoreState) (i : Nat) (jobId : JobId) (phase : CallPhase)
    (present : σ.calls[i]? = some ⟨.claimJobById jobId, phase⟩) :
    StoreStep σ (.advance i) (σ.advanceClaim i jobId phase).calls
      (σ.advanceClaim i jobId phase).table := by
  unfold advanceClaim
  split
  · split
    · exact .miss i jobId present
    · rename_i cell found
      split
      · rename_i unlocked
        split
        · rename_i matching
          exact .hold i _ _ _ _ [] _ _ cell present rfl found unlocked
            (.claim jobId _ cell matching)
        · exact .miss i jobId present
      · split
        · exact .same
        · exact .miss i jobId present
  · exact .same

theorem taking_running (σ : StoreState) (phase : CallPhase) (rows : Int × List JobId)
    (takes : σ.taking phase = some rows) : isOver phase = false := by
  cases phase with
  | returned result left => contradiction
  | raised => contradiction
  | _ => rfl

theorem taking_gathers (σ : StoreState) (phase : CallPhase) (began : Int) (touched : List JobId)
    (takes : σ.taking phase = some (began, touched)) : Gathers phase began touched := by
  cases phase with
  | ready => exact (Prod.mk.inj (Option.some.inj takes)).2.symm
  | holding start fromStatus rows =>
    obtain ⟨rfl, rfl⟩ := Prod.mk.inj (Option.some.inj takes)
    exact ⟨rfl, rfl⟩
  | _ => contradiction

theorem touch_step (σ : StoreState) (i : Nat) (jobId : JobId) :
    StoreStep σ (.touch i jobId) (σ.touch i jobId).calls (σ.touch i jobId).table := by
  rw [touch]
  split
  · rename_i limit phase cell present found
    split
    · rename_i began touched takes
      split
      · rename_i allowed
        exact .hold i _ _ _ _ touched _ _ cell present (taking_running σ phase _ takes) found
          (free_of_pending_none cell i allowed.2.1)
          (.claimOne limit phase began touched jobId cell allowed.1 allowed.2.2
            (taking_gathers σ phase began touched takes))
      · exact .same
    · exact .same
  · rename_i staleMinutes phase cell present found
    split
    · rename_i began touched takes
      split
      · rename_i allowed
        exact .hold i _ _ _ _ touched _ _ cell present (taking_running σ phase _ takes) found
          (free_of_pending_none cell i allowed.1)
          (.expire staleMinutes phase began touched jobId cell allowed.2
            (taking_gathers σ phase began touched takes))
      · exact .same
    · exact .same
  · exact .same

theorem step_cases (σ : StoreState) (event : StoreEvent) :
    StoreStep σ event (σ.step event).calls (σ.step event).table := by
  cases event with
  | tick microseconds => exact .same
  | call request => exact .start request rfl
  | advance i =>
    rw [step, advance]
    split
    · rename_i u phase present
      exact advanceUpdate_step σ i u phase present
    · rename_i jobId phase present
      exact advanceHeartbeat_step σ i jobId phase present
    · rename_i jobId phase present
      exact advanceClaim_step σ i jobId phase present
    · exact .same
  | touch i jobId => exact touch_step σ i jobId
  | commit i =>
    rw [step, StoreState.commit]
    split
    · rename_i call present
      split
      · rename_i result events complete
        exact .commit i call result events present complete rfl
      · exact .same
    · exact .same
  | fail i =>
    rw [step, fail]
    split
    · rename_i call present
      split
      · exact .same
      · rename_i running
        exact .fail i call present (by simpa using running)
    · exact .same

/-- What every write of a row keeps, a step keeps: between the committed and the written version of
each row, and between the committed rows before and after. -/
theorem step_rows (P : JobRow → JobRow → Prop) (refl : ∀ row, P row row)
    (trans : ∀ first second third, P first second → P second third → P first third)
    (σ : StoreState) (event : StoreEvent) (both : σ.table.Both P)
    (good : ∀ i request old began fromStatus touched jobId f cell,
      σ.calls[i]? = some ⟨request, old⟩ → σ.table jobId = some cell → cell.free i = true →
      RowWrite event i request old began fromStatus touched jobId f cell →
      P cell.latest (f cell.latest)) :
    (σ.step event).table.Both P ∧ σ.table.Climbs P (σ.step event).table := by
  have unmoved := Table.climbs_refl P refl σ.table
  have moved := step_cases σ event
  generalize (σ.step event).calls = calls at moved
  generalize (σ.step event).table = table at moved ⊢
  cases moved with
  | hold i request old began fromStatus touched jobId f cell present running found unlocked writes =>
    refine ⟨Table.both_write P trans σ.table i jobId f both fun other same => ?_,
      Table.climbs_of_read_eq P refl _ _ (Table.read_write _ _ _ _)⟩
    obtain rfl := Option.some.inj (found.symm.trans same)
    exact good i request old began fromStatus touched jobId f cell present found unlocked writes
  | commit i call result events present complete =>
    exact ⟨Table.both_commit P σ.table i both, Table.climbs_commit P refl σ.table i both⟩
  | fail i call present running =>
    exact ⟨Table.both_rollback P σ.table i both,
      Table.climbs_of_read_eq P refl _ _ (Table.read_rollback _ _)⟩
  | _ => exact ⟨both, unmoved⟩

end GenesisAgents
