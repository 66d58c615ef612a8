import GenesisAgents.JobStore

/-! The job store of `job_store.py` with its calls committed one after another: the rows of
`genesis_jobs` and the `status_change` rows of `genesis_job_events`, in the order of insertion. -/

namespace GenesisAgents

open Value

/-- The arguments of `create_job`. -/
structure JobRequest where
  agentSlug : String
  prompt : String
  params : Option (List (String × Value))
  buyerWalletId : Option String
  buyerClientId : Option String
  priceTierCents : Option Int
  idempotencyKey : Option String
  webhookUrl : Option String
  webhookSecret : Option String
  escrowId : Option String
  tenantId : Option String
  ownerPrincipalId : Option String

/-- The row `create_job` inserts. -/
def JobRequest.row (request : JobRequest) (id : JobId) (now : Int) : JobRow :=
  { id := id, agentSlug := request.agentSlug, buyerWalletId := request.buyerWalletId
    buyerClientId := request.buyerClientId, tenantId := request.tenantId
    ownerPrincipalId := request.ownerPrincipalId, prompt := request.prompt
    params := dict (request.params.getD []), status := .queued
    priceTierCents := request.priceTierCents, idempotencyKey := request.idempotencyKey
    webhookUrl := request.webhookUrl, webhookSecret := request.webhookSecret
    escrowId := request.escrowId, outputArtifactUris := [], resultSummary := none
    errorCode := none, errorMessage := none, startedAt := none, completedAt := none
    lastHeartbeatAt := none, createdAt := now, updatedAt := now }

/-- The arguments of `create_child_job`. -/
structure ChildRequest where
  childJobId : JobId
  agentSlug : String
  prompt : String
  parentJobId : JobId
  params : Option (List (String × Value))

/-- `parent.get("tenantId")` and `parent.get("ownerPrincipalId")`, of no row when there is none. -/
def inherited (parent : Option JobRow) : Option String × Option String :=
  (parent.bind JobRow.tenantId, parent.bind JobRow.ownerPrincipalId)

/-- The row `create_child_job` inserts. -/
def ChildRequest.row (request : ChildRequest) (parent : Option JobRow) (now : Int) : JobRow :=
  { id := request.childJobId, agentSlug := request.agentSlug, buyerWalletId := none
    buyerClientId := none, tenantId := (inherited parent).1
    ownerPrincipalId := (inherited parent).2, prompt := request.prompt
    params := (dict (request.params.getD [])).insert "_parent_job_id" (str request.parentJobId)
    status := .running, priceTierCents := none, idempotencyKey := none, webhookUrl := none
    webhookSecret := none, escrowId := none, outputArtifactUris := [], resultSummary := none
    errorCode := none, errorMessage := none, startedAt := some now, completedAt := none
    lastHeartbeatAt := some now, createdAt := now, updatedAt := now }

inductive JobOp where
  | tick (microseconds : Nat)
  /-- `create_job`, which drew this id. -/
  | createJob (request : JobRequest) (id : JobId)
  | createChildJob (request : ChildRequest)
  | claimQueuedJobs (limit : Nat)
  | claimJobById (jobId : JobId)
  | updateJobStatus (u : StatusUpdate)
  | heartbeat (jobId : JobId)
  | expireStaleRunningJobs (staleMinutes : Int)

inductive JobReply where
  /-- The job that has the idempotency key already. -/
  | hit (id : JobId) (status : JobStatus)
  | inserted (id : JobId) (status : JobStatus) (createdAt : Int)
  | child (id : JobId)
  | result (result : CallResult)
  /-- The insert violates a constraint. -/
  | raised

/-- The committed store. `id` is the primary key of `genesis_jobs`, and an event references a row. -/
structure JobLedger where
  clock : Int
  rows : List JobRow
  events : List JobEvent
  keyed : (rows.map JobRow.id).Nodup
  referenced : ∀ event ∈ events, event.jobId ∈ rows.map JobRow.id

namespace JobLedger

def empty (clock : Int) : JobLedger := ⟨clock, [], [], .nil, by simp⟩

/-- `SELECT … WHERE id = …` -/
def find (l : JobLedger) (jobId : JobId) : Option JobRow := l.rows.find? fun row => row.id == jobId

def statusAt (l : JobLedger) (jobId : JobId) : Option JobStatus := (l.find jobId).map JobRow.status

def ids (l : JobLedger) : List JobId := l.rows.map JobRow.id

def insertRow (l : JobLedger) (row : JobRow) (fresh : row.id ∉ l.ids) : JobLedger where
  clock := l.clock
  rows := l.rows ++ [row]
  events := l.events ++ [⟨row.id, none, row.status⟩]
  keyed := by
    rw [List.map_append, List.nodup_append_comm]
    exact List.nodup_cons.mpr ⟨fresh, l.keyed⟩
  referenced := by
    intro event member
    rw [List.map_append]
    rcases List.mem_append.mp member with earlier | new
    · exact List.mem_append_left _ (l.referenced event earlier)
    · rw [List.mem_singleton.mp new]
      exact List.mem_append_right _ (List.mem_singleton_self _)

theorem ids_rewritten (rows : List JobRow) (hits : JobRow → Bool) (write : JobRow → JobRow)
    (keeps : ∀ row, (write row).id = row.id) :
    (rows.map fun row => if hits row then write row else row).map JobRow.id =
      rows.map JobRow.id := by
  rw [List.map_map]
  apply List.map_congr_left
  intro row _
  rw [Function.comp]
  split
  · exact keeps row
  · rfl

/-- One `UPDATE` of the rows that match, and an event for each row it returns. -/
def update (l : JobLedger) (hits : JobRow → Bool) (write : JobRow → JobRow)
    (event : JobRow → Option (Option JobStatus × JobStatus))
    (keeps : ∀ row, (write row).id = row.id) : JobLedger where
  clock := l.clock
  rows := l.rows.map fun row => if hits row then write row else row
  events := l.events ++ (l.rows.filter hits).filterMap fun row =>
    (event row).map fun (fromStatus, toStatus) => ⟨row.id, fromStatus, toStatus⟩
  keyed := by
    rw [ids_rewritten l.rows hits write keeps]
    exact l.keyed
  referenced := by
    rw [ids_rewritten l.rows hits write keeps]
    intro e member
    rcases List.mem_append.mp member with earlier | new
    · exact l.referenced e earlier
    · obtain ⟨row, returned, written⟩ := List.mem_filterMap.mp new
      obtain ⟨move, -, rfl⟩ := Option.map_eq_some_iff.mp written
      exact List.mem_map_of_mem (List.mem_of_mem_filter returned)

/-- `create_job`; an empty key is not looked up, but it is unique in its column. -/
def createJob (l : JobLedger) (request : JobRequest) (id : JobId) : JobLedger × JobReply :=
  let row := request.row id l.clock
  match l.rows.find? fun existing => existing.idempotencyKey.isSome &&
      existing.idempotencyKey == request.idempotencyKey with
  | some existing =>
    if request.idempotencyKey = some "" then (l, .raised) else (l, .hit existing.id existing.status)
  | none =>
    if fresh : row.id ∉ l.ids then (l.insertRow row fresh, .inserted id row.status l.clock)
    else (l, .raised)

/-- `create_child_job`; `ON CONFLICT (id) DO NOTHING`, and then its event in any case. -/
def createChildJob (l : JobLedger) (request : ChildRequest) : JobLedger × JobReply :=
  let row := request.row (l.find request.parentJobId) l.clock
  if fresh : row.id ∉ l.ids then (l.insertRow row fresh, .child row.id)
  else
    ({ l with
        events := l.events ++ [⟨row.id, none, .running⟩]
        referenced := by
          intro event member
          rcases List.mem_append.mp member with earlier | new
          · exact l.referenced event earlier
          · rw [List.mem_singleton.mp new]
            exact not_not.mp fresh }, .child row.id)

/-- The ids of the common table expression `claimed`. -/
def claimable (l : JobLedger) (limit : Nat) : List JobId :=
  (((l.rows.filter fun row => row.status = .queued).mergeSort fun row other =>
    row.createdAt ≤ other.createdAt).take limit).map JobRow.id

def claimQueuedJobs (l : JobLedger) (limit : Nat) : JobLedger × JobReply :=
  let claimed := l.claimable limit
  let hits (row : JobRow) : Bool := claimed.contains row.id
  (l.update hits (JobRow.claim l.clock) (fun _ => some (some .queued, .running)) fun _ => rfl,
    .result (.jobs ((l.rows.filter hits).map (JobRow.claim l.clock))))

def claimJobById (l : JobLedger) (jobId : JobId) : JobLedger × JobReply :=
  let hits (row : JobRow) : Bool := row.id == jobId && row.status == .queued
  (l.update hits (JobRow.claim l.clock) (fun _ => some (some .queued, .running)) fun _ => rfl,
    .result (.job ((l.rows.filter hits).map (JobRow.claim l.clock)).head?))

def updateJobStatus (l : JobLedger) (u : StatusUpdate) : JobLedger × JobReply :=
  match l.find u.jobId with
  | none => (l, .result (.flag false))
  | some row =>
    if u.refuses row.status then (l, .result (.flag false))
    else
      (l.update (fun other => other.id == u.jobId) (u.apply l.clock)
        (fun _ => some (some row.status, u.newStatus)) fun _ => rfl, .result (.flag true))

def heartbeat (l : JobLedger) (jobId : JobId) : JobLedger × JobReply :=
  (l.update (fun row => row.id == jobId) (JobRow.beat l.clock) (fun _ => none) fun _ => rfl,
    .result (.flag (l.find jobId).isSome))

def expireStaleRunningJobs (l : JobLedger) (staleMinutes : Int) : JobLedger × JobReply :=
  (l.update (JobRow.isStale staleMinutes l.clock) (JobRow.expire staleMinutes l.clock)
    (fun _ => some (some .running, .expired)) fun _ => rfl,
    .result (.count (l.rows.filter (JobRow.isStale staleMinutes l.clock)).length))

def perform (l : JobLedger) : JobOp → JobLedger × JobReply
  | .tick microseconds => ({ l with clock := l.clock + microseconds }, .result (.count 0))
  | .createJob request id => l.createJob request id
  | .createChildJob request => l.createChildJob request
  | .claimQueuedJobs limit => l.claimQueuedJobs limit
  | .claimJobById jobId => l.claimJobById jobId
  | .updateJobStatus u => l.updateJobStatus u
  | .heartbeat jobId => l.heartbeat jobId
  | .expireStaleRunningJobs staleMinutes => l.expireStaleRunningJobs staleMinutes

def step (l : JobLedger) (op : JobOp) : JobLedger := (l.perform op).1

theorem find_some (l : JobLedger) (jobId : JobId) (row : JobRow) (found : l.find jobId = some row) :
    row.id = jobId ∧ row ∈ l.rows := by
  have matching := List.find?_some found
  exact ⟨by simpa using matching, List.mem_of_find?_eq_some found⟩

theorem eq_of_id (l : JobLedger) (row other : JobRow) (member : row ∈ l.rows)
    (member' : other ∈ l.rows) (same : row.id = other.id) : row = other :=
  List.inj_on_of_nodup_map l.keyed member member' same

theorem find_of_mem (l : JobLedger) (row : JobRow) (member : row ∈ l.rows) :
    l.find row.id = some row := by
  have present : (l.find row.id).isSome = true :=
    List.find?_isSome.mpr ⟨row, member, beq_self_eq_true row.id⟩
  obtain ⟨other, found⟩ := Option.isSome_iff_exists.mp present
  have here := find_some l row.id other found
  rw [found, eq_of_id l other row here.2 member here.1]

theorem find_eq_none (l : JobLedger) (jobId : JobId) : l.find jobId = none ↔ jobId ∉ l.ids := by
  rw [find, List.find?_eq_none, ids, List.mem_map]
  simp

theorem find_insertRow (l : JobLedger) (row : JobRow) (fresh : row.id ∉ l.ids) (jobId : JobId) :
    (l.insertRow row fresh).find jobId = if row.id = jobId then some row else l.find jobId := by
  have split : (l.insertRow row fresh).find jobId =
      (l.find jobId).or (if row.id = jobId then some row else none) := by
    simp [find, insertRow, List.find?_append, List.find?_singleton]
  rw [split]
  by_cases same : row.id = jobId
  · subst same
    rw [(find_eq_none l row.id).mpr fresh, Option.none_or, if_pos rfl]
  · rw [if_neg same, if_neg same, Option.or_none]

theorem find_update (l : JobLedger) (hits : JobRow → Bool) (write : JobRow → JobRow)
    (event : JobRow → Option (Option JobStatus × JobStatus))
    (keeps : ∀ row, (write row).id = row.id) (jobId : JobId) :
    (l.update hits write event keeps).find jobId =
      (l.find jobId).map fun row => if hits row then write row else row := by
  rw [find, update, List.find?_map]
  have same : ((fun row : JobRow => row.id == jobId) ∘ fun row => if hits row then write row else row) =
      fun row => row.id == jobId := by
    funext row
    rw [Function.comp]
    split
    · rw [keeps]
    · rfl
  rw [same]
  rfl

theorem claimable_queued (l : JobLedger) (limit : Nat) (row : JobRow) (member : row ∈ l.rows)
    (claimed : row.id ∈ l.claimable limit) : row.status = .queued := by
  rw [claimable, List.mem_map] at claimed
  obtain ⟨other, taken, same⟩ := claimed
  have candidate := List.mem_mergeSort.mp (List.mem_of_mem_take taken)
  rw [List.mem_filter] at candidate
  rw [eq_of_id l row other member candidate.1 same.symm]
  exact of_decide_eq_true candidate.2

end JobLedger

end GenesisAgents
