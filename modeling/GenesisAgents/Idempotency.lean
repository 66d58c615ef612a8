import GenesisAgents.EscrowOwnership
import GenesisAgents.JobOwnership
import Mathlib.Data.List.Pairwise

/-! Idempotency keys: `submit_job` passes on whatever key the body has, `create_job` looks it up in
the whole table, and the column is unique in the whole table. -/

namespace GenesisAgents

open Value JobLedger

/-- A request to `/agents/{slug}/jobs` after authentication, with the id that `create_job` draws. -/
structure SubmitRequest where
  slug : String
  body : Value
  principal : Principal
  id : JobId

namespace SubmitRequest

/-- The arguments of `create_job`; `none` when `submit_job` refuses before it. -/
def newJob (D : Deployment) (request : SubmitRequest) : Option NewJob :=
  match submitJob D request.slug request.body request.principal with
  | .ok (.enqueue new _) => some new
  | _ => none

def owner (request : SubmitRequest) : Option String × Option String :=
  (some request.principal.tenantId, some request.principal.principalId)

end SubmitRequest

def Columns.key (C : Columns) (new : NewJob) : Option String := (C.text new.idempotencyKey).join

namespace JobLedger

/-- `SELECT … WHERE "idempotencyKey" = …` -/
def keyRow (l : JobLedger) (key : String) : Option JobRow :=
  l.rows.find? fun row => row.idempotencyKey == some key

/-- The unique constraint on the column refuses the key; no `NULL` equals another. -/
def keyTaken (l : JobLedger) (key : Option String) : Bool :=
  l.rows.any fun row => row.idempotencyKey.isSome && row.idempotencyKey == key

/-- `create_job` and its commit. -/
def storeJob (C : Columns) (l : JobLedger) (new : NewJob) (id : JobId) : JobLedger × JobReply :=
  match GenesisAgents.createJob C (fun key => (l.keyRow key).map JobRow.id) new id l.clock with
  | none => (l, .raised)
  | some (.hit existing) =>
    match l.find existing with
    | some row => (l, .hit row.id row.status)
    | none => (l, .raised)
  | some (.inserted row) =>
    if l.keyTaken row.idempotencyKey then (l, .raised)
    else if fresh : row.id ∉ l.ids then (l.insertRow row fresh, .inserted row.id row.status l.clock)
    else (l, .raised)

end JobLedger

inductive SubmitEvent where
  | submit (request : SubmitRequest)
  /-- Any other call of the job store. -/
  | other (op : JobOp)

section

variable (D : Deployment) (C : Columns)

/-- `submit_job`; `none` stands for a refusal before `create_job`. -/
def submit (l : JobLedger) (request : SubmitRequest) : JobLedger × Option JobReply :=
  match request.newJob D with
  | none => (l, none)
  | some new =>
    let (l', reply) := l.storeJob C new request.id
    (l', some reply)

def submitStep (l : JobLedger) : SubmitEvent → JobLedger
  | .submit request => (submit D C l request).1
  | .other op => l.step op

def submitted (clock : Int) (events : List SubmitEvent) : JobLedger :=
  Runs.run (submitStep D C) (JobLedger.empty clock) events

end

def JobReply.jobId? : JobReply → Option JobId
  | .hit id _ => some id
  | .inserted id _ _ => some id
  | _ => none

/-- The insert of the request violates no other constraint than that on its key. -/
def Storable (C : Columns) (l : JobLedger) (new : NewJob) (id : JobId) : Prop :=
  (insertedRow C new id l.clock).isSome = true ∧ id ∉ l.ids

def DifferentKeys (row other : JobRow) : Prop :=
  ∀ key, row.idempotencyKey = some key → other.idempotencyKey ≠ some key

instance : Std.Symm DifferentKeys where
  symm _ _ distinct key held held' := distinct key held' held

def KeysApart (l : JobLedger) : Prop := l.rows.Pairwise DifferentKeys

/-- A request is answered with a job of its own: an idempotent hit is a job of its tenant and its
principal, and where another tenant has used its key it gets a job that is its own all the same. -/
structure KeepsToOwner (D : Deployment) (C : Columns) (l : JobLedger) (request : SubmitRequest) :
    Prop where
  hit : ∀ id status, (submit D C l request).2 = some (.hit id status) →
    l.ownerAt id = some request.owner
  own : ∀ new, request.newJob D = some new → Storable C l new request.id →
    ∀ row ∈ l.rows, row.idempotencyKey = C.key new → row.idempotencyKey.isSome = true →
      row.tenantId ≠ some request.principal.tenantId →
        ∃ reply id, (submit D C l request).2 = some reply ∧ reply.jobId? = some id ∧
          (submit D C l request).1.ownerAt id = some request.owner

/-- No job of another owner has the key: of another principal, if the key is looked up, and of another
tenant, if it is only stored. -/
structure KeyFree (D : Deployment) (C : Columns) (l : JobLedger) (request : SubmitRequest) :
    Prop where
  looked : ∀ new key, request.newJob D = some new → new.idempotencyKey = str key → key ≠ "" →
    ∀ row ∈ l.rows, row.idempotencyKey = some key → row.owner = request.owner
  stored : ∀ new, request.newJob D = some new → Storable C l new request.id →
    ∀ row ∈ l.rows, row.idempotencyKey = C.key new → row.idempotencyKey.isSome = true →
      row.tenantId = some request.principal.tenantId

/-! What `create_job` does with a key. -/

theorem newJob_eq (D : Deployment) (request : SubmitRequest) (new : NewJob)
    (accepted : request.newJob D = some new) :
    new = submittedJob request.slug request.body request.principal := by
  rw [SubmitRequest.newJob, submitJob] at accepted
  split at accepted
  · rename_i enqueued
    split at enqueued
    · contradiction
    split at enqueued
    · contradiction
    split at enqueued
    · contradiction
    · have same := (Execution.enqueue.inj (Except.ok.inj enqueued)).1
      rw [← Option.some.inj accepted, same]
  · contradiction

theorem insertedRow_columns (C : Columns) (new : NewJob) (id : JobId) (now : Int) (row : JobRow)
    (inserted : insertedRow C new id now = some row) :
    row.id = id ∧ C.text new.idempotencyKey = some row.idempotencyKey ∧
      row.owner = (some new.tenantId, some new.ownerPrincipalId) := by
  simp only [insertedRow, bind, Option.bind_eq_some_iff] at inserted
  obtain ⟨_, -, _, -, _, -, _, -, _, -, key, keyed, _, -, _, -, made⟩ := inserted
  obtain rfl := Option.some.inj made
  exact ⟨rfl, keyed, rfl⟩

theorem keyRow_some (l : JobLedger) (key : String) (row : JobRow) (found : l.keyRow key = some row) :
    row ∈ l.rows ∧ row.idempotencyKey = some key :=
  ⟨List.mem_of_find?_eq_some found, by simpa using List.find?_some found⟩

theorem ownerAt_of_mem (l : JobLedger) (row : JobRow) (member : row ∈ l.rows) :
    l.ownerAt row.id = some row.owner := by
  rw [ownerAt, find_of_mem l row member]
  rfl

theorem keyTaken_iff (l : JobLedger) (key : Option String) :
    l.keyTaken key = true ↔
      ∃ row ∈ l.rows, row.idempotencyKey.isSome = true ∧ row.idempotencyKey = key := by
  simp [keyTaken]

/-- The outcomes of `create_job`. -/
inductive Stores (C : Columns) (l : JobLedger) (new : NewJob) (id : JobId) :
    JobLedger × JobReply → Prop where
  | raised : Stores C l new id (l, .raised)
  | hit (key : String) (row : JobRow) (looked : new.idempotencyKey = str key) (solid : key ≠ "")
      (found : l.keyRow key = some row) : Stores C l new id (l, .hit row.id row.status)
  | inserted (row : JobRow) (made : insertedRow C new id l.clock = some row)
      (free : l.keyTaken row.idempotencyKey = false) (fresh : row.id ∉ l.ids) :
      Stores C l new id (l.insertRow row fresh, .inserted row.id row.status l.clock)

theorem createJob_hit (C : Columns) (keyed : String → Option JobId) (new : NewJob)
    (id existing : JobId) (now : Int)
    (created : GenesisAgents.createJob C keyed new id now = some (.hit existing)) :
    ∃ key, new.idempotencyKey = str key ∧ key ≠ "" ∧ keyed key = some existing := by
  have no_hit (made : Option JobRow) : made.map Created.inserted ≠ some (.hit existing) := by
    rcases made with _ | row <;> simp
  rw [GenesisAgents.createJob] at created
  split at created
  · rename_i truthy
    split at created
    · rename_i key looked
      rw [looked] at truthy
      split at created
      · rename_i other found
        obtain rfl : other = existing := by simpa using created
        exact ⟨key, looked, by simpa [Value.truthy] using truthy, found⟩
      · exact absurd created (no_hit _)
    · contradiction
  · exact absurd created (no_hit _)

theorem createJob_inserted (C : Columns) (keyed : String → Option JobId) (new : NewJob) (id : JobId)
    (now : Int) (row : JobRow)
    (created : GenesisAgents.createJob C keyed new id now = some (.inserted row)) :
    insertedRow C new id now = some row := by
  have row_of (made : Option JobRow) (same : made.map Created.inserted = some (.inserted row)) :
      made = some row := by
    rcases made with _ | other <;> simp_all
  rw [GenesisAgents.createJob] at created
  split at created
  · split at created
    · split at created
      · cases created
      · exact row_of _ created
    · contradiction
  · exact row_of _ created

theorem storeJob_stores (C : Columns) (l : JobLedger) (new : NewJob) (id : JobId) :
    Stores C l new id (l.storeJob C new id) := by
  rw [storeJob]
  split
  · exact .raised
  · rename_i existing created
    obtain ⟨key, looked, solid, keyed⟩ := createJob_hit C _ new id existing l.clock created
    obtain ⟨row, found, rfl⟩ := Option.map_eq_some_iff.mp keyed
    rw [find_of_mem l row (keyRow_some l key row found).1]
    exact .hit key row looked solid found
  · rename_i row created
    have made := createJob_inserted C _ new id l.clock row created
    split
    · exact .raised
    · rename_i free
      split
      · exact .inserted row made (Bool.eq_false_iff.mpr free) _
      · exact .raised

theorem storeJob_looked (C : Columns) (l : JobLedger) (new : NewJob) (id : JobId) (key : String)
    (row : JobRow) (looked : new.idempotencyKey = str key) (solid : key ≠ "")
    (found : l.keyRow key = some row) : l.storeJob C new id = (l, .hit row.id row.status) := by
  have truthy : (str key).truthy = true := by simpa [Value.truthy] using solid
  rw [storeJob, GenesisAgents.createJob]
  simp only [looked, truthy, if_true, found, Option.map_some]
  rw [find_of_mem l row (keyRow_some l key row found).1]

theorem apart_insertRow (l : JobLedger) (row : JobRow) (fresh : row.id ∉ l.ids) (apart : KeysApart l)
    (free : ∀ key, row.idempotencyKey = some key → ∀ other ∈ l.rows,
      other.idempotencyKey ≠ some key) : KeysApart (l.insertRow row fresh) := by
  refine List.pairwise_append.mpr ⟨apart, List.pairwise_singleton _ _, ?_⟩
  intro earlier member last new key held
  rw [List.mem_singleton.mp new]
  exact fun same => free key same earlier member held

theorem apart_update (l : JobLedger) (hits : JobRow → Bool) (write : JobRow → JobRow)
    (event : JobRow → Option (Option JobStatus × JobStatus))
    (keeps : ∀ row, (write row).id = row.id) (apart : KeysApart l)
    (spares : ∀ row, (write row).idempotencyKey = row.idempotencyKey) :
    KeysApart (l.update hits write event keeps) := by
  have same (row : JobRow) :
      (if hits row then write row else row).idempotencyKey = row.idempotencyKey := by
    split
    · exact spares row
    · rfl
  refine List.pairwise_map.mpr (apart.imp ?_)
  intro row other distinct
  rw [DifferentKeys, same, same]
  exact distinct

theorem step_apart (l : JobLedger) (op : JobOp) (apart : KeysApart l) : KeysApart (l.step op) := by
  cases op with
  | tick microseconds => exact apart
  | createJob request id =>
    rw [JobLedger.step, perform, JobLedger.createJob]
    split
    · split <;> exact apart
    · rename_i missing
      split
      · apply apart_insertRow l _ ‹_› apart
        intro key own other member same
        have unlike := List.find?_eq_none.mp missing other member
        have keyed : request.idempotencyKey = some key := own
        simp [same, keyed] at unlike
      · exact apart
  | createChildJob request =>
    rw [JobLedger.step, perform, createChildJob]
    split
    · apply apart_insertRow l _ ‹_› apart
      intro key own
      cases own
    · exact apart
  | claimQueuedJobs limit =>
    apply apart_update l _ _ _ _ apart
    · exact fun _ => rfl
    · exact fun _ => rfl
  | claimJobById id =>
    apply apart_update l _ _ _ _ apart
    · exact fun _ => rfl
    · exact fun _ => rfl
  | updateJobStatus u =>
    rw [JobLedger.step, perform, updateJobStatus]
    split
    · exact apart
    · split
      · exact apart
      · apply apart_update l _ _ _ _ apart
        · exact fun _ => rfl
        · exact fun _ => rfl
  | heartbeat id =>
    apply apart_update l _ _ _ _ apart
    · exact fun _ => rfl
    · exact fun _ => rfl
  | expireStaleRunningJobs staleMinutes =>
    apply apart_update l _ _ _ _ apart
    · exact fun _ => rfl
    · exact fun _ => rfl

theorem submit_apart (D : Deployment) (C : Columns) (l : JobLedger) (request : SubmitRequest)
    (apart : KeysApart l) : KeysApart (submit D C l request).1 := by
  rw [submit]
  split
  · exact apart
  · rename_i new accepted
    have stores := storeJob_stores C l new request.id
    generalize l.storeJob C new request.id = outcome at stores
    cases stores with
    | raised => exact apart
    | hit key row looked solid found => exact apart
    | inserted row made free fresh =>
      apply apart_insertRow l row fresh apart
      intro key own other member same
      have taken := (keyTaken_iff l row.idempotencyKey).mpr
        ⟨other, member, by rw [same]; rfl, same.trans own.symm⟩
      rw [free] at taken
      contradiction

theorem submitted_apart (D : Deployment) (C : Columns) (clock : Int) (events : List SubmitEvent) :
    KeysApart (submitted D C clock events) := by
  apply Runs.run_always (submitStep D C) KeysApart
  · intro l event apart
    cases event with
    | submit request => exact submit_apart D C l request apart
    | other op => exact step_apart l op apart
  · exact .nil

theorem keyRow_of_mem (l : JobLedger) (apart : KeysApart l) (row : JobRow) (member : row ∈ l.rows)
    (key : String) (held : row.idempotencyKey = some key) : l.keyRow key = some row := by
  have present : (l.keyRow key).isSome = true :=
    List.find?_isSome.mpr ⟨row, member, by simp [held]⟩
  obtain ⟨other, found⟩ := Option.isSome_iff_exists.mp present
  obtain ⟨member', held'⟩ := keyRow_some l key other found
  by_cases same : other = row
  · rw [found, same]
  · exact absurd held (apart.forall member' member same key held')

/-! When a request is answered with a job of its own. -/

theorem keepsToOwner_iff (D : Deployment) (C : Columns)
    (textual : ∀ s stored, C.text (str s) = some stored → stored = some s) (l : JobLedger)
    (apart : KeysApart l) (request : SubmitRequest) :
    KeepsToOwner D C l request ↔ KeyFree D C l request := by
  constructor
  · rintro ⟨hit, own⟩
    constructor
    · intro new key accepted looked solid row member held
      have found := keyRow_of_mem l apart row member key held
      have reply : (submit D C l request).2 = some (.hit row.id row.status) := by
        rw [submit, accepted]
        simp only [storeJob_looked C l new request.id key row looked solid found]
      exact Option.some.inj ((ownerAt_of_mem l row member).symm.trans (hit _ _ reply))
    · intro new accepted storable row member held keyed
      by_contra other
      obtain ⟨reply, id, answered, names, owned⟩ := own new accepted storable row member held keyed other
      have stores := storeJob_stores C l new request.id
      rw [submit, accepted] at answered owned
      dsimp only at answered owned
      generalize l.storeJob C new request.id = outcome at stores answered owned
      obtain rfl := Option.some.inj answered
      cases stores with
      | raised => contradiction
      | hit key existing looked solid found =>
        obtain ⟨inserted, made⟩ := Option.isSome_iff_exists.mp storable.1
        have stored := (insertedRow_columns C new request.id l.clock inserted made).2.1
        rw [Columns.key, stored, Option.join_some] at held
        rw [looked] at stored
        have same := keyRow_of_mem l apart row member key (held.trans (textual key _ stored))
        obtain rfl := Option.some.inj (same.symm.trans found)
        obtain rfl := Option.some.inj names
        rw [ownerAt_of_mem l row member] at owned
        exact other (congrArg Prod.fst (Option.some.inj owned))
      | inserted inserted made free fresh =>
        have columns := insertedRow_columns C new request.id l.clock inserted made
        rw [Columns.key, columns.2.1, Option.join_some] at held
        have taken := (keyTaken_iff l inserted.idempotencyKey).mpr ⟨row, member, keyed, held⟩
        rw [free] at taken
        contradiction
  · rintro ⟨looked, stored⟩
    constructor
    · intro id status reply
      rw [submit] at reply
      split at reply
      · contradiction
      · rename_i new accepted
        have stores := storeJob_stores C l new request.id
        generalize l.storeJob C new request.id = outcome at stores reply
        cases stores with
        | raised => cases reply
        | hit key existing textual solid found =>
          obtain ⟨member, held⟩ := keyRow_some l key existing found
          obtain ⟨rfl, -⟩ := JobReply.hit.inj (Option.some.inj reply)
          rw [ownerAt_of_mem l existing member]
          exact congrArg some (looked new key accepted textual solid existing member held)
        | inserted row made free fresh => cases reply
    · intro new accepted storable row member held keyed other
      exact absurd (stored new accepted storable row member held keyed) other

/-- In a run, the requests keep to their owners exactly when no key comes to a job of another one. -/
theorem keys_keep_to_owners_iff (D : Deployment) (C : Columns)
    (textual : ∀ s stored, C.text (str s) = some stored → stored = some s) (clock : Int)
    (events : List SubmitEvent) :
    (∀ past request future, events = past ++ .submit request :: future →
        KeepsToOwner D C (submitted D C clock past) request) ↔
      ∀ past request future, events = past ++ .submit request :: future →
        KeyFree D C (submitted D C clock past) request := by
  have each (past : List SubmitEvent) (request : SubmitRequest) :=
    keepsToOwner_iff D C textual _ (submitted_apart D C clock past) request
  constructor
  · intro keeps past request future split
    exact (each past request).mp (keeps past request future split)
  · intro free past request future split
    exact (each past request).mpr (free past request future split)

/-! The job of an answer stays with its owner. -/

theorem submitStep_ownerAt (D : Deployment) (C : Columns) (l : JobLedger) (event : SubmitEvent)
    (id : JobId) (owner : Option String × Option String) (owned : l.ownerAt id = some owner) :
    (submitStep D C l event).ownerAt id = some owner := by
  cases event with
  | other op => exact step_ownerAt l op id owner owned
  | submit request =>
    rw [submitStep, submit]
    split
    · exact owned
    · rename_i new accepted
      have stores := storeJob_stores C l new request.id
      generalize l.storeJob C new request.id = outcome at stores
      cases stores with
      | raised => exact owned
      | hit key row looked solid found => exact owned
      | inserted row made free fresh => exact ownerAt_insertRow l row fresh id owner owned

theorem answer_owned (D : Deployment) (C : Columns) (l : JobLedger) (request : SubmitRequest)
    (keeps : KeepsToOwner D C l request) (reply : JobReply) (id : JobId)
    (answered : (submit D C l request).2 = some reply) (names : reply.jobId? = some id) :
    (submit D C l request).1.ownerAt id = some request.owner := by
  have hit := keeps.hit
  rw [submit] at answered hit ⊢
  split at answered
  · contradiction
  · rename_i new accepted
    have stores := storeJob_stores C l new request.id
    rw [accepted] at hit
    dsimp only at hit answered ⊢
    generalize l.storeJob C new request.id = outcome at stores hit answered
    obtain rfl := Option.some.inj answered
    cases stores with
    | raised => contradiction
    | hit key row looked solid found =>
      obtain rfl := Option.some.inj names
      exact hit row.id row.status rfl
    | inserted row made free fresh =>
      obtain rfl := Option.some.inj names
      have columns := insertedRow_columns C new request.id l.clock row made
      rw [ownerAt, find_insertRow, if_pos rfl, Option.map_some, columns.2.2, newJob_eq D request new accepted]
      rfl

/-- Two owners are never answered with one job. -/
theorem owners_get_different_jobs (D : Deployment) (C : Columns) (clock : Int)
    (past between : List SubmitEvent) (first second : SubmitRequest) (other : first.owner ≠ second.owner)
    (keeps : KeepsToOwner D C (submitted D C clock past) first)
    (keeps' : KeepsToOwner D C (submitted D C clock (past ++ .submit first :: between)) second)
    (reply reply' : JobReply) (id id' : JobId)
    (answered : (submit D C (submitted D C clock past) first).2 = some reply)
    (answered' : (submit D C (submitted D C clock (past ++ .submit first :: between)) second).2 =
      some reply')
    (names : reply.jobId? = some id) (names' : reply'.jobId? = some id') : id ≠ id' := by
  rintro rfl
  have owned := answer_owned D C _ first keeps reply id answered names
  have later : (submitted D C clock (past ++ .submit first :: between)).ownerAt id =
      some first.owner := by
    rw [submitted, Runs.run_append, Runs.run_cons]
    apply Runs.run_always (submitStep D C) fun l => l.ownerAt id = some first.owner
    · exact fun l event held => submitStep_ownerAt D C l event id first.owner held
    · exact owned
  have still := submitStep_ownerAt D C _ (.submit second) id first.owner later
  have owned' := answer_owned D C _ second keeps' reply' id answered' names'
  exact other (Option.some.inj (still.symm.trans owned'))

/-! Two tenants use one key: the second is told of the job of the first. -/

def textColumns : Columns where
  text
    | null => some none
    | str s => some (some s)
    | _ => none
  integer
    | null => some none
    | int n => some (some n)
    | _ => none

def invoiceRequest (tenantId principalId id : String) : SubmitRequest where
  slug := "genesis-research"
  body := dict [("prompt", str "list the invoices"), ("idempotency_key", str "invoices-2026-01")]
  principal := { principalId := principalId, tenantId := tenantId, clientId := "cato"
                 scopes := ["agent.invoke"], authMethod := "ap2", expiresAt := 0 }
  id := id

def firstTenant : List SubmitEvent := [.submit (invoiceRequest "tenant-1" "user:1" "job-1")]

theorem key_hits_other_tenant :
    ¬∀ (D : Deployment) (C : Columns) (clock : Int) (events past : List SubmitEvent)
      (request : SubmitRequest) (future : List SubmitEvent),
      (∀ s stored, C.text (str s) = some stored → stored = some s) →
      events = past ++ .submit request :: future →
        KeepsToOwner D C (submitted D C clock past) request := by
  intro keeps
  have textual : ∀ s stored, textColumns.text (str s) = some stored → stored = some s :=
    fun s stored same => (Option.some.inj same).symm
  have second := keeps researchDeployment textColumns 0 _ firstTenant
    (invoiceRequest "tenant-2" "user:2" "job-2") [] textual rfl
  have hit := second.hit "job-1" .queued rfl
  exact absurd hit (by decide)

/-- A principal that comes back with its key is answered with its own job. -/
theorem own_key_keeps_to_owner :
    KeepsToOwner researchDeployment textColumns (submitted researchDeployment textColumns 0 firstTenant)
      (invoiceRequest "tenant-1" "user:1" "job-2") := by
  let again := invoiceRequest "tenant-1" "user:1" "job-2"
  have own : ∀ past request future, firstTenant ++ [.submit again] = past ++ .submit request :: future →
      KeyFree researchDeployment textColumns (submitted researchDeployment textColumns 0 past)
        request := by
    intro past request future split
    have owners : request.owner = again.owner ∧
        ∀ row ∈ (submitted researchDeployment textColumns 0 past).rows, row.owner = again.owner := by
      rcases past with _ | ⟨event, _ | ⟨_, _⟩⟩
      · obtain rfl := SubmitEvent.submit.inj (List.cons.inj split).1
        exact ⟨rfl, List.forall_mem_nil _⟩
      · obtain ⟨rfl, tail⟩ := List.cons.inj split
        obtain rfl := SubmitEvent.submit.inj (List.cons.inj tail).1
        exact ⟨rfl, List.forall_mem_singleton.mpr rfl⟩
      · simp [firstTenant] at split
    constructor
    · intro new key accepted looked solid row member held
      exact (owners.2 row member).trans owners.1.symm
    · intro new accepted storable row member held keyed
      exact congrArg Prod.fst ((owners.2 row member).trans owners.1.symm)
  exact (keys_keep_to_owners_iff researchDeployment textColumns
    (fun s stored same => (Option.some.inj same).symm) 0 _).mpr own firstTenant again [] rfl

end GenesisAgents
