import GenesisAgents.JobLedger
import GenesisAgents.Library.Runs
import Mathlib.Data.List.Induction
import Mathlib.Logic.Function.Basic

/-! The records of a delegation: the rows that `genesis_call` of `tools/genesis_call_tool.py` writes for a child, at
once in `genesis_jobs` and through the background thread of `durable_store.py` in `genesis_job_relationships`, and
what `get_job_trace` of `main.py` reads of them. -/

namespace GenesisAgents.DelegationRecords

open Value

inductive DelegationStatus where
  | dispatched | completed | failed
  deriving DecidableEq

/-- A row of `genesis_job_relationships`. -/
structure Relation where
  parentJobId : JobId
  childJobId : JobId
  parentSessionId : Option String
  childSessionId : String
  parentAgentSlug : Option String
  childAgentSlug : String
  delegationStatus : DelegationStatus

def Relation.tell (status : DelegationStatus) (row : Relation) : Relation :=
  { row with delegationStatus := status }

/-- A write for the background thread: `relationship_create`, `relationship_update`. -/
inductive RelationWrite where
  | create (row : Relation)
  | update (childJobId : JobId) (status : DelegationStatus)

def RelationWrite.childJobId : RelationWrite → JobId
  | create row => row.childJobId
  | update childJobId _ => childJobId

/-- One statement; no two rows have the same `childJobId`. -/
def execute (relations : List Relation) : RelationWrite → List Relation
  | .create row =>
    if relations.any fun other => other.childJobId == row.childJobId then relations else relations ++ [row]
  | .update childJobId status =>
    relations.map fun row => if row.childJobId = childJobId then row.tell status else row

/-- The column `createdAt` of the rows, by the child, after a statement at this time. -/
def stamp (relations : List Relation) (createdAt : JobId → Nat) (now : Nat) : RelationWrite → JobId → Nat
  | .create row =>
    if relations.any fun other => other.childJobId == row.childJobId then createdAt
    else Function.update createdAt row.childJobId now
  | .update _ _ => createdAt

/-! A call of `genesis_call` that is let through. -/

structure Delegation where
  childJobId : JobId
  childSessionId : String
  agent : String
  task : String
  params : Option (List (String × Value))
  parentJobId : JobId
  parentSessionId : Option String
  parentSlug : Option String

namespace Delegation

variable (d : Delegation)

def request : ChildRequest :=
  { childJobId := d.childJobId, agentSlug := d.agent, prompt := d.task, parentJobId := d.parentJobId
    params := d.params }

def row : Relation :=
  { parentJobId := d.parentJobId, childJobId := d.childJobId, parentSessionId := d.parentSessionId
    childSessionId := d.childSessionId, parentAgentSlug := d.parentSlug, childAgentSlug := d.agent
    delegationStatus := .dispatched }

end Delegation

/-- How `execute_agent` ends for the child. -/
inductive ChildEnd where
  | returned (result : Value)
  | raised
  | cancelled

/-- `(result.get("trace") or {}).get` has no such attribute. -/
def summaryRaises (result : Value) : Bool := (result.get "trace").truthy && !(result.get "trace").isDict

/-- `child_ok` of each call of `_persist_child_finish`; a result that the summary cannot read gives two. -/
def ChildEnd.finishes : ChildEnd → List Bool
  | returned result =>
    if result.isDict then (result.get "ok").truthy :: (if summaryRaises result then [false] else []) else [false]
  | raised => [false]
  | cancelled => []

def finishedJob (childOk : Bool) : JobStatus := if childOk then .delivered else .failed

def finishedRelation (childOk : Bool) : DelegationStatus := if childOk then .completed else .failed

/-- Where a call stands; `left` are the finishes that it has yet to persist. -/
inductive Phase where
  | absent
  | running
  | ended (how : ChildEnd) (left : List Bool)

namespace Phase

def isAbsent : Phase → Bool
  | absent => true
  | _ => false

def isRunning : Phase → Bool
  | running => true
  | _ => false

/-- `_child_heartbeat` is not cancelled yet. -/
def pumps : Phase → Bool
  | running => true
  | ended _ (_ :: _) => true
  | _ => false

def killed : Phase → Phase
  | absent => absent
  | running => ended .cancelled []
  | ended how _ => ended how []

end Phase

structure Records where
  ledger : JobLedger
  relations : List Relation
  createdAt : JobId → Nat
  /-- What the background thread has still to write. -/
  queue : List RelationWrite
  phase : JobId → Phase
  /-- The calls so far. -/
  delegations : List Delegation

inductive Event where
  /-- `_persist_child_start`: does the row of the child get in, and does the executor take the other write? -/
  | start (d : Delegation) (created submitted : Bool)
  | beat (childJobId : JobId) (landed : Bool)
  | ends (childJobId : JobId) (how : ChildEnd)
  /-- `_persist_child_finish` -/
  | persist (childJobId : JobId) (landed submitted : Bool)
  /-- The background thread takes its next write. -/
  | write (landed : Bool) (now : Nat)
  /-- Any other call of the job store. -/
  | jobs (op : JobOp)
  | restart

def idle (ledger : JobLedger) : Records :=
  { ledger := ledger, relations := [], createdAt := fun _ => 0, queue := [], phase := fun _ => .absent, delegations := [] }

def step (σ : Records) : Event → Records
  | .start d created submitted =>
    { ledger := if d.parentJobId ≠ "" ∧ created then (σ.ledger.createChildJob d.request).1 else σ.ledger
      relations := σ.relations
      createdAt := σ.createdAt
      queue := if d.parentJobId ≠ "" ∧ submitted then σ.queue ++ [.create d.row] else σ.queue
      phase := Function.update σ.phase d.childJobId .running
      delegations := σ.delegations ++ [d] }
  | .beat childJobId landed =>
    if (σ.phase childJobId).pumps && landed then { σ with ledger := (σ.ledger.heartbeat childJobId).1 } else σ
  | .ends childJobId how =>
    if (σ.phase childJobId).isRunning then
      { σ with phase := Function.update σ.phase childJobId (.ended how how.finishes) }
    else σ
  | .persist childJobId landed submitted =>
    match σ.phase childJobId with
    | .ended how (childOk :: left) =>
      { σ with
        ledger := if landed then (σ.ledger.updateJobStatus (.plain childJobId (finishedJob childOk))).1 else σ.ledger
        queue := if submitted then σ.queue ++ [.update childJobId (finishedRelation childOk)] else σ.queue
        phase := Function.update σ.phase childJobId (.ended how left) }
    | _ => σ
  | .write landed now =>
    match σ.queue with
    | [] => σ
    | next :: rest =>
      { σ with
        relations := if landed then execute σ.relations next else σ.relations
        createdAt := if landed then stamp σ.relations σ.createdAt now next else σ.createdAt
        queue := rest }
  | .jobs op => { σ with ledger := σ.ledger.step op }
  | .restart => { σ with queue := [], phase := fun childJobId => (σ.phase childJobId).killed }

/-- `relationships_by_parent`: `ORDER BY "createdAt"` -/
def relationshipsByParent (σ : Records) (parentJobId : JobId) : List Relation :=
  (σ.relations.filter fun row => row.parentJobId == parentJobId).mergeSort fun row other =>
    σ.createdAt row.childJobId ≤ σ.createdAt other.childJobId

/-- The `children` of `get_job_trace`. -/
def traceChildren (σ : Records) (parentJobId : JobId) : List (Relation × Option JobRow) :=
  (relationshipsByParent σ parentJobId).map fun row => (row, σ.ledger.find row.childJobId)

/-- `uuid4` draws an id that nothing has, and the worker delivers only jobs that it has claimed: no child, which is
never queued. -/
def ordinary (σ : Records) : Event → Bool
  | .start d _ _ => (σ.phase d.childJobId).isAbsent && (σ.ledger.find d.childJobId).isNone
  | .jobs (.updateJobStatus u) => u.newStatus != .delivered || (σ.phase u.jobId).isAbsent
  | _ => true

inductive Later : Phase → Phase → Prop
  | same (phase : Phase) : Later phase phase
  | starts : Later .absent .running
  | ends (how : ChildEnd) : Later .running (.ended how how.finishes)
  | goesOn (how : ChildEnd) (left fewer : List Bool) (within : fewer ⊆ left) :
      Later (.ended how left) (.ended how fewer)

theorem isAbsent_iff (phase : Phase) : phase.isAbsent = true ↔ phase = .absent := by
  cases phase <;> simp [Phase.isAbsent]

theorem isRunning_iff (phase : Phase) : phase.isRunning = true ↔ phase = .running := by
  cases phase <;> simp [Phase.isRunning]

theorem later_killed (phase : Phase) : Later phase phase.killed := by
  cases phase with
  | absent => exact .same _
  | running => exact .ends .cancelled
  | ended how left => exact .goesOn how left [] (List.nil_subset _)

theorem later_update (phase : JobId → Phase) (childJobId c : JobId) (next : Phase)
    (later : Later (phase childJobId) next) : Later (phase c) (Function.update phase childJobId next c) := by
  by_cases same : c = childJobId
  · rw [same, Function.update_self]
    exact later
  · rw [Function.update_of_ne same]
    exact .same _

theorem step_later (σ : Records) (event : Event) (allowed : ordinary σ event = true) (c : JobId) :
    Later (σ.phase c) ((step σ event).phase c) := by
  cases event with
  | start d created submitted =>
    rw [ordinary, Bool.and_eq_true, isAbsent_iff] at allowed
    apply later_update
    rw [allowed.1]
    exact .starts
  | beat childJobId landed =>
    rw [step]
    split <;> exact .same _
  | ends childJobId how =>
    rw [step]
    split
    · rename_i runs
      apply later_update
      rw [(isRunning_iff _).mp runs]
      exact .ends how
    · exact .same _
  | persist childJobId landed submitted =>
    rw [step]
    split
    · rename_i how childOk left stands
      apply later_update
      rw [stands]
      exact .goesOn how _ left (List.subset_cons_self childOk left)
    · exact .same _
  | write landed =>
    rw [step]
    split <;> exact .same _
  | jobs op => exact .same _
  | restart => exact later_killed _

/-- The child has returned a dict with a true `ok`. -/
def EndedWell (σ : Records) (childJobId : JobId) : Prop :=
  ∃ result left, σ.phase childJobId = .ended (.returned result) left ∧ result.isDict = true ∧
    (result.get "ok").truthy = true

theorem endedWell_later (σ σ' : Records) (c : JobId) (later : Later (σ.phase c) (σ'.phase c))
    (well : EndedWell σ c) : EndedWell σ' c := by
  obtain ⟨result, left, stands, object, ok⟩ := well
  rw [stands] at later
  generalize next : σ'.phase c = phase at later
  cases later with
  | same => exact ⟨result, left, next, object, ok⟩
  | goesOn _ _ fewer within => exact ⟨result, fewer, next, object, ok⟩

theorem finishes_true (how : ChildEnd) (member : true ∈ how.finishes) :
    ∃ result, how = .returned result ∧ result.isDict = true ∧ (result.get "ok").truthy = true := by
  cases how with
  | returned result =>
    rw [ChildEnd.finishes] at member
    split at member
    · rename_i object
      refine ⟨result, rfl, object, ?_⟩
      cases List.mem_cons.mp member with
      | inl first => exact first.symm
      | inr second =>
        split at second
        · cases List.mem_singleton.mp second
        · cases second
    · cases List.mem_singleton.mp member
  | raised => cases List.mem_singleton.mp member
  | cancelled => cases member

theorem update_delivered (l : JobLedger) (hits : JobRow → Bool) (write : JobRow → JobRow)
    (event : JobRow → Option (Option JobStatus × JobStatus)) (keeps : ∀ row, (write row).id = row.id) (c : JobId)
    (fails : ∀ row, l.find c = some row → hits row = true → (write row).status ≠ .delivered)
    (delivered : (l.update hits write event keeps).statusAt c = some .delivered) :
    l.statusAt c = some .delivered := by
  rw [JobLedger.statusAt, JobLedger.find_update] at delivered
  rw [JobLedger.statusAt]
  cases found : l.find c with
  | none =>
    rw [found] at delivered
    cases delivered
  | some row =>
    rw [found, Option.map_some, Option.map_some, Option.some.injEq] at delivered
    split at delivered
    · rename_i hit
      exact absurd delivered (fails row found hit)
    · rw [Option.map_some, delivered]

theorem insertRow_delivered (l : JobLedger) (row : JobRow) (fresh : row.id ∉ l.ids) (c : JobId)
    (unfinished : row.status ≠ .delivered) (delivered : (l.insertRow row fresh).statusAt c = some .delivered) :
    l.statusAt c = some .delivered := by
  rw [JobLedger.statusAt, JobLedger.find_insertRow] at delivered
  split at delivered
  · exact absurd (Option.some.inj delivered) unfinished
  · exact delivered

theorem createChildJob_delivered (l : JobLedger) (request : ChildRequest) (c : JobId)
    (delivered : (l.createChildJob request).1.statusAt c = some .delivered) : l.statusAt c = some .delivered := by
  rw [JobLedger.createChildJob] at delivered
  split at delivered
  · apply insertRow_delivered l _ ‹_› c _ delivered
    simp [ChildRequest.row]
  · exact delivered

theorem updateJobStatus_delivered (l : JobLedger) (u : StatusUpdate) (c : JobId)
    (other : u.newStatus = .delivered → u.jobId ≠ c)
    (delivered : (l.updateJobStatus u).1.statusAt c = some .delivered) : l.statusAt c = some .delivered := by
  rw [JobLedger.updateJobStatus] at delivered
  split at delivered
  · exact delivered
  · split at delivered
    · exact delivered
    · apply update_delivered l _ (u.apply l.clock) _ (fun _ => rfl) c _ delivered
      intro row found hit
      rw [StatusUpdate.apply_status]
      intro wins
      have here := (JobLedger.find_some l c row found).1
      exact other wins ((beq_iff_eq.mp hit).symm.trans here)

theorem heartbeat_find (l : JobLedger) (jobId c : JobId) : (l.heartbeat jobId).1.find c =
    (l.find c).map fun row => if row.id == jobId then row.beat l.clock else row :=
  JobLedger.find_update l _ (JobRow.beat l.clock) _ (fun _ => rfl) c

theorem heartbeat_delivered (l : JobLedger) (jobId c : JobId)
    (delivered : (l.heartbeat jobId).1.statusAt c = some .delivered) : l.statusAt c = some .delivered := by
  rw [JobLedger.statusAt, heartbeat_find, Option.map_map] at delivered
  rw [← delivered, JobLedger.statusAt]
  apply congrArg (fun f => (l.find c).map f)
  funext row
  rw [Function.comp]
  split <;> rfl

theorem step_delivered (l : JobLedger) (op : JobOp) (c : JobId)
    (other : ∀ u, op = .updateJobStatus u → u.newStatus = .delivered → u.jobId ≠ c)
    (delivered : (l.step op).statusAt c = some .delivered) : l.statusAt c = some .delivered := by
  cases op with
  | tick microseconds => exact delivered
  | createJob request id =>
    rw [JobLedger.step, JobLedger.perform, JobLedger.createJob] at delivered
    split at delivered
    · split at delivered <;> exact delivered
    · split at delivered
      · apply insertRow_delivered l _ ‹_› c _ delivered
        simp [JobRequest.row]
      · exact delivered
  | createChildJob request => exact createChildJob_delivered l request c delivered
  | claimQueuedJobs limit =>
    apply update_delivered l _ (JobRow.claim l.clock) _ (fun _ => rfl) c _ delivered
    intro row _ _ won
    cases won
  | claimJobById jobId =>
    apply update_delivered l _ (JobRow.claim l.clock) _ (fun _ => rfl) c _ delivered
    intro row _ _ won
    cases won
  | updateJobStatus u => exact updateJobStatus_delivered l u c (other u rfl) delivered
  | heartbeat jobId => exact heartbeat_delivered l jobId c delivered
  | expireStaleRunningJobs staleMinutes =>
    apply update_delivered l _ (JobRow.expire staleMinutes l.clock) _ (fun _ => rfl) c _ delivered
    intro row _ _ won
    cases won

def Delegation.hasParent (d : Delegation) : Bool := d.parentJobId != ""

def RelationWrite.created : RelationWrite → Option Relation
  | create row => some row
  | update _ _ => none

structure Honest (σ : Records) : Prop where
  fewer : ∀ c how left, σ.phase c = .ended how left → left ⊆ how.finishes
  known : ∀ d ∈ σ.delegations, (σ.phase d.childJobId).isAbsent = false
  distinct : (σ.delegations.map Delegation.childJobId).Nodup
  rows : (σ.relations.map (Relation.tell .dispatched) ++ σ.queue.filterMap RelationWrite.created).Sublist
    ((σ.delegations.filter Delegation.hasParent).map Delegation.row)
  told : ∀ row ∈ σ.relations, row.delegationStatus = .completed → EndedWell σ row.childJobId
  queued : ∀ c, RelationWrite.update c .completed ∈ σ.queue → EndedWell σ c
  delivered : ∀ c, (σ.phase c).isAbsent = false → σ.ledger.statusAt c = some .delivered → EndedWell σ c

theorem idle_honest (ledger : JobLedger) : Honest (idle ledger) where
  fewer := nofun
  known := nofun
  distinct := List.nodup_nil
  rows := List.Sublist.slnil
  told := nofun
  queued := nofun
  delivered := nofun

theorem later_fewer (p q : Phase) (later : Later p q)
    (fewer : ∀ how left, p = .ended how left → left ⊆ how.finishes) (how : ChildEnd) (left : List Bool)
    (stands : q = .ended how left) : left ⊆ how.finishes := by
  cases later with
  | same => exact fewer how left stands
  | starts => cases stands
  | ends =>
    cases stands
    exact List.Subset.refl _
  | goesOn how' before fewer' within =>
    cases stands
    exact List.Subset.trans within (fewer how before rfl)

theorem later_present (p q : Phase) (later : Later p q) (present : p.isAbsent = false) : q.isAbsent = false := by
  cases later with
  | same => exact present
  | starts | ends | goesOn => rfl

theorem execute_update_tell (relations : List Relation) (childJobId : JobId) (status : DelegationStatus) :
    (execute relations (.update childJobId status)).map (Relation.tell .dispatched) =
      relations.map (Relation.tell .dispatched) := by
  rw [execute, List.map_map]
  apply List.map_congr_left
  intro row _
  rw [Function.comp]
  split <;> rfl

theorem Honest.waiting {σ : Records} (honest : Honest σ) (row : Relation)
    (waits : RelationWrite.create row ∈ σ.queue) : ∃ d ∈ σ.delegations, d.row = row := by
  have member : row ∈ σ.queue.filterMap RelationWrite.created := List.mem_filterMap.mpr ⟨_, waits, rfl⟩
  have inside := honest.rows.subset (List.mem_append_right _ member)
  obtain ⟨d, kept, same⟩ := List.mem_map.mp inside
  exact ⟨d, (List.mem_filter.mp kept).1, same⟩

def Event.started : Event → List Delegation
  | start d _ _ => [d]
  | _ => []

theorem step_delegations (σ : Records) (event : Event) :
    (step σ event).delegations = σ.delegations ++ event.started := by
  cases event with
  | start d created submitted => rfl
  | jobs | restart => exact (List.append_nil _).symm
  | beat | ends | persist | write =>
    rw [step]
    split <;> exact (List.append_nil _).symm

theorem started_fresh (σ : Records) (event : Event) (allowed : ordinary σ event = true) :
    ∀ d ∈ event.started, (σ.phase d.childJobId).isAbsent = true ∧ (σ.ledger.find d.childJobId).isNone = true ∧
      (step σ event).phase d.childJobId = .running := by
  intro d member
  cases event with
  | start other created submitted =>
    rw [List.mem_singleton.mp member]
    rw [ordinary, Bool.and_eq_true] at allowed
    exact ⟨allowed.1, allowed.2, Function.update_self _ _ _⟩
  | _ => cases member

theorem Honest.step_known {σ : Records} (honest : Honest σ) (event : Event) (allowed : ordinary σ event = true) :
    ∀ d ∈ (step σ event).delegations, ((step σ event).phase d.childJobId).isAbsent = false := by
  intro d member
  rw [step_delegations] at member
  cases List.mem_append.mp member with
  | inl earlier => exact later_present _ _ (step_later σ event allowed d.childJobId) (honest.known d earlier)
  | inr new =>
    rw [(started_fresh σ event allowed d new).2.2]
    rfl

theorem Honest.step_distinct {σ : Records} (honest : Honest σ) (event : Event) (allowed : ordinary σ event = true) :
    ((step σ event).delegations.map Delegation.childJobId).Nodup := by
  have unheard (d : Delegation) (new : d ∈ event.started) : d.childJobId ∉ σ.delegations.map Delegation.childJobId := by
    intro member
    obtain ⟨other, earlier, same⟩ := List.mem_map.mp member
    have present := honest.known other earlier
    rw [same, (started_fresh σ event allowed d new).1] at present
    contradiction
  rw [step_delegations]
  cases event with
  | start d created submitted =>
    rw [List.map_append, List.nodup_append_comm]
    exact List.nodup_cons.mpr ⟨unheard d (List.mem_singleton_self d), honest.distinct⟩
  | beat | ends | persist | write | jobs | restart => simpa [Event.started] using honest.distinct

/-- What waits for the background thread after a step, unless that is gone or has taken a write. -/
def Event.submits (σ : Records) : Event → List RelationWrite
  | start d _ submitted => if d.parentJobId ≠ "" ∧ submitted then [.create d.row] else []
  | persist childJobId _ submitted =>
    match σ.phase childJobId with
    | .ended _ (childOk :: _) => if submitted then [.update childJobId (finishedRelation childOk)] else []
    | _ => []
  | _ => []

inductive Written (σ : Records) (event : Event) (σ' : Records) : Prop where
  | queued (relations : σ'.relations = σ.relations) (queue : σ'.queue = σ.queue ++ event.submits σ)
  | taken (next : RelationWrite) (rest : List RelationWrite) (landed : Bool) (now : Nat)
      (is : event = .write landed now) (front : σ.queue = next :: rest) (queue : σ'.queue = rest)
      (relations : σ'.relations = if landed then execute σ.relations next else σ.relations)
  | dropped (is : event = .restart) (relations : σ'.relations = σ.relations) (queue : σ'.queue = [])

theorem step_written (σ : Records) (event : Event) : Written σ event (step σ event) := by
  cases event with
  | start d created submitted =>
    refine .queued rfl ?_
    rw [step, Event.submits]
    dsimp only
    by_cases taken : d.parentJobId ≠ "" ∧ submitted = true
    · rw [if_pos taken, if_pos taken]
    · rw [if_neg taken, if_neg taken, List.append_nil]
  | beat childJobId landed =>
    rw [step]
    split <;> exact .queued rfl (List.append_nil _).symm
  | ends childJobId how =>
    rw [step]
    split <;> exact .queued rfl (List.append_nil _).symm
  | persist childJobId landed submitted =>
    rw [step]
    split
    · rename_i how childOk left stands
      refine .queued rfl ?_
      rw [Event.submits, stands]
      dsimp only
      split
      · rfl
      · exact (List.append_nil _).symm
    · rename_i other
      refine .queued rfl ?_
      rw [Event.submits]
      split
      · rename_i how childOk left stands
        exact (other how childOk left stands).elim
      · exact (List.append_nil _).symm
  | write landed now =>
    rw [step]
    split
    · exact .queued rfl (List.append_nil _).symm
    · rename_i next rest front
      exact .taken next rest landed now rfl front rfl rfl
  | jobs op => exact .queued rfl (List.append_nil _).symm
  | restart => exact .dropped rfl rfl rfl

theorem submits_created (σ : Records) (event : Event) :
    ((event.submits σ).filterMap RelationWrite.created).Sublist
      ((event.started.filter Delegation.hasParent).map Delegation.row) := by
  cases event with
  | start d created submitted =>
    rw [Event.submits, Event.started]
    split
    · rename_i taken
      have kept : d.hasParent = true := bne_iff_ne.mpr taken.1
      rw [List.filter_cons, if_pos kept]
      exact List.Sublist.refl _
    · exact List.nil_sublist _
  | persist childJobId landed submitted =>
    rw [Event.submits]
    split
    · split <;> exact List.Sublist.refl _
    · exact List.Sublist.refl _
  | beat | ends | write | jobs | restart => exact List.Sublist.refl _

theorem Honest.step_rows {σ : Records} (honest : Honest σ) (event : Event) :
    ((step σ event).relations.map (Relation.tell .dispatched) ++
        (step σ event).queue.filterMap RelationWrite.created).Sublist
      (((step σ event).delegations.filter Delegation.hasParent).map Delegation.row) := by
  have grown := honest.rows.append (submits_created σ event)
  rw [step_delegations, List.filter_append, List.map_append]
  cases step_written σ event with
  | queued relations queue =>
    rw [relations, queue, List.filterMap_append, ← List.append_assoc]
    exact grown
  | taken next rest landed now is front queue relations =>
    have before := honest.rows
    rw [front] at before
    have unstarted : event.started = [] := by
      rw [is]
      rfl
    rw [unstarted, List.filter_nil, List.map_nil, List.append_nil, queue, relations]
    cases next with
    | update childJobId status =>
      have same : (if landed = true then execute σ.relations (.update childJobId status) else σ.relations).map
          (Relation.tell .dispatched) = σ.relations.map (Relation.tell .dispatched) := by
        split
        · exact execute_update_tell σ.relations childJobId status
        · rfl
      rw [same]
      exact before
    | create row =>
      obtain ⟨d, known, same⟩ := honest.waiting row (front ▸ List.mem_cons_self)
      have told : row.tell .dispatched = row := by
        rw [← same]
        rfl
      have skipped : (σ.relations.map (Relation.tell .dispatched) ++ rest.filterMap RelationWrite.created).Sublist
          ((σ.delegations.filter Delegation.hasParent).map Delegation.row) :=
        ((List.Sublist.refl _).append (List.sublist_cons_self row _)).trans before
      split
      · rw [execute]
        split
        · exact skipped
        · rw [List.map_append, List.map_cons, List.map_nil, told, List.append_assoc]
          exact before
      · exact skipped
  | dropped is relations queue =>
    have unstarted : event.started = [] := by
      rw [is]
      rfl
    rw [unstarted, List.filter_nil, List.map_nil, List.append_nil, queue, relations, List.filterMap_nil,
      List.append_nil]
    exact (List.sublist_append_left _ _).trans honest.rows

theorem Honest.step_told {σ : Records} (honest : Honest σ) (event : Event) (allowed : ordinary σ event = true) :
    ∀ row ∈ (step σ event).relations, row.delegationStatus = .completed →
      EndedWell (step σ event) row.childJobId := by
  have onward (c : JobId) (well : EndedWell σ c) : EndedWell (step σ event) c :=
    endedWell_later σ _ c (step_later σ event allowed c) well
  have kept : ∀ row ∈ σ.relations, row.delegationStatus = .completed → EndedWell (step σ event) row.childJobId :=
    fun row member completed => onward _ (honest.told row member completed)
  cases step_written σ event with
  | queued relations queue =>
    rw [relations]
    exact kept
  | dropped is relations queue =>
    rw [relations]
    exact kept
  | taken next rest landed now is front queue relations =>
    rw [relations]
    split
    · cases next with
      | update childJobId status =>
        intro row member completed
        obtain ⟨old, earlier, same⟩ := List.mem_map.mp member
        split at same
        · rename_i meant
          rw [← same] at completed ⊢
          have claimed : status = .completed := completed
          rw [claimed] at front
          apply onward
          change EndedWell σ old.childJobId
          rw [meant]
          exact honest.queued childJobId (front ▸ List.mem_cons_self)
        · rw [← same] at completed ⊢
          exact kept old earlier completed
      | create row =>
        rw [execute]
        split
        · exact kept
        · intro other member completed
          cases List.mem_append.mp member with
          | inl earlier => exact kept other earlier completed
          | inr new =>
            obtain ⟨d, known, same⟩ := honest.waiting row (front ▸ List.mem_cons_self)
            rw [List.mem_singleton.mp new, ← same] at completed
            cases completed
    · exact kept

theorem finishedRelation_completed (childOk : Bool) (completed : finishedRelation childOk = .completed) :
    childOk = true := by
  cases childOk with
  | true => rfl
  | false => cases completed

theorem finishedJob_delivered (childOk : Bool) (delivered : finishedJob childOk = .delivered) : childOk = true := by
  cases childOk with
  | true => rfl
  | false => cases delivered

theorem Honest.due {σ : Records} (honest : Honest σ) (c : JobId) (how : ChildEnd) (left : List Bool)
    (stands : σ.phase c = .ended how (true :: left)) : EndedWell σ c := by
  have member := honest.fewer c how _ stands List.mem_cons_self
  obtain ⟨result, same, object, ok⟩ := finishes_true how member
  exact ⟨result, true :: left, same ▸ stands, object, ok⟩

theorem Honest.step_queued {σ : Records} (honest : Honest σ) (event : Event) (allowed : ordinary σ event = true) :
    ∀ c, RelationWrite.update c .completed ∈ (step σ event).queue → EndedWell (step σ event) c := by
  intro c member
  apply endedWell_later σ _ c (step_later σ event allowed c)
  cases step_written σ event with
  | queued relations queue =>
    rw [queue] at member
    cases List.mem_append.mp member with
    | inl earlier => exact honest.queued c earlier
    | inr new =>
      cases event with
      | start d created submitted =>
        rw [Event.submits] at new
        split at new
        · cases List.mem_singleton.mp new
        · cases new
      | persist childJobId landed submitted =>
        rw [Event.submits] at new
        split at new
        · rename_i how childOk left stands
          split at new
          · have same := List.mem_singleton.mp new
            rw [RelationWrite.update.injEq] at same
            have won := finishedRelation_completed childOk same.2.symm
            rw [same.1]
            exact honest.due childJobId how left (won ▸ stands)
          · cases new
        · cases new
      | beat | ends | write | jobs | restart => cases new
  | taken next rest landed now is front queue relations =>
    rw [queue] at member
    exact honest.queued c (front ▸ List.mem_cons_of_mem _ member)
  | dropped is relations queue =>
    rw [queue] at member
    cases member

theorem absent_started (σ : Records) (event : Event) (c : JobId) (absent : (σ.phase c).isAbsent = true)
    (present : ((step σ event).phase c).isAbsent = false) : ∃ d ∈ event.started, d.childJobId = c := by
  have stays (phase : JobId → Phase) (childJobId : JobId) (next : Phase) (there : (phase childJobId).isAbsent = false)
      (before : (phase c).isAbsent = true) : (Function.update phase childJobId next c).isAbsent = true := by
    have other : c ≠ childJobId := by
      intro same
      rw [same, there] at before
      contradiction
    rw [Function.update_of_ne other]
    exact before
  cases event with
  | start d created submitted =>
    refine ⟨d, List.mem_singleton_self d, ?_⟩
    by_contra other
    rw [step] at present
    dsimp only at present
    rw [Function.update_of_ne (Ne.symm other), absent] at present
    contradiction
  | beat childJobId landed =>
    rw [step] at present
    split at present <;> exact absurd (absent.symm.trans present) (by decide)
  | ends childJobId how =>
    rw [step] at present
    split at present
    · rename_i runs
      have there : (σ.phase childJobId).isAbsent = false := by
        rw [(isRunning_iff _).mp runs]
        rfl
      exact absurd ((stays σ.phase childJobId _ there absent).symm.trans present) (by decide)
    · exact absurd (absent.symm.trans present) (by decide)
  | persist childJobId landed submitted =>
    rw [step] at present
    split at present
    · rename_i how childOk left stands
      have there : (σ.phase childJobId).isAbsent = false := by
        rw [stands]
        rfl
      exact absurd ((stays σ.phase childJobId _ there absent).symm.trans present) (by decide)
    · exact absurd (absent.symm.trans present) (by decide)
  | write landed =>
    rw [step] at present
    split at present <;> exact absurd (absent.symm.trans present) (by decide)
  | jobs op => exact absurd (absent.symm.trans present) (by decide)
  | restart =>
    rw [step] at present
    dsimp only at present
    rw [(isAbsent_iff _).mp absent] at present
    cases present

/-- A row that says DELIVERED has said so before, or a call has just persisted it, or another caller. -/
theorem step_delivers (σ : Records) (event : Event) (c : JobId)
    (delivered : (step σ event).ledger.statusAt c = some .delivered) :
    σ.ledger.statusAt c = some .delivered ∨ (∃ how left, σ.phase c = .ended how (true :: left)) ∨
      ∃ u, event = .jobs (.updateJobStatus u) ∧ u.newStatus = .delivered ∧ u.jobId = c := by
  cases event with
  | start d created submitted =>
    rw [step] at delivered
    dsimp only at delivered
    split at delivered
    · exact .inl (createChildJob_delivered _ _ _ delivered)
    · exact .inl delivered
  | beat childJobId landed =>
    rw [step] at delivered
    split at delivered
    · exact .inl (heartbeat_delivered _ _ _ delivered)
    · exact .inl delivered
  | ends childJobId how =>
    rw [step] at delivered
    split at delivered <;> exact .inl delivered
  | persist childJobId landed submitted =>
    rw [step] at delivered
    split at delivered
    · rename_i how childOk left stands
      dsimp only at delivered
      split at delivered
      · by_cases here : childOk = true ∧ childJobId = c
        · rw [here.1, here.2] at stands
          exact .inr (.inl ⟨how, left, stands⟩)
        · apply Or.inl
          apply updateJobStatus_delivered _ _ _ _ delivered
          intro won same
          exact here ⟨finishedJob_delivered childOk won, same⟩
      · exact .inl delivered
    · exact .inl delivered
  | write landed =>
    rw [step] at delivered
    split at delivered <;> exact .inl delivered
  | jobs op =>
    by_cases here : ∃ u, op = .updateJobStatus u ∧ u.newStatus = .delivered ∧ u.jobId = c
    · obtain ⟨u, same, moved⟩ := here
      exact .inr (.inr ⟨u, congrArg Event.jobs same, moved⟩)
    · apply Or.inl
      apply step_delivered _ op c _ delivered
      intro u same won meant
      exact here ⟨u, same, won, meant⟩
  | restart => exact .inl delivered

theorem Honest.step_jobs {σ : Records} (honest : Honest σ) (event : Event) (allowed : ordinary σ event = true) :
    ∀ c, ((step σ event).phase c).isAbsent = false → (step σ event).ledger.statusAt c = some .delivered →
      EndedWell (step σ event) c := by
  intro c present delivered
  apply endedWell_later σ _ c (step_later σ event allowed c)
  cases absent : (σ.phase c).isAbsent with
  | false =>
    cases step_delivers σ event c delivered with
    | inl before => exact honest.delivered c absent before
    | inr now =>
      cases now with
      | inl due =>
        obtain ⟨how, left, stands⟩ := due
        exact honest.due c how left stands
      | inr other =>
        obtain ⟨u, same, won, meant⟩ := other
        rw [same, ordinary, won, meant, absent] at allowed
        cases allowed
  | true =>
    obtain ⟨d, started, same⟩ := absent_started σ event c absent present
    have fresh := (started_fresh σ event allowed d started).2.1
    rw [same, Option.isNone_iff_eq_none] at fresh
    have unknown : σ.ledger.statusAt c = none := by
      rw [JobLedger.statusAt, fresh]
      rfl
    cases step_delivers σ event c delivered with
    | inl before =>
      rw [unknown] at before
      cases before
    | inr now =>
      cases now with
      | inl due =>
        obtain ⟨how, left, stands⟩ := due
        rw [stands] at absent
        cases absent
      | inr other =>
        obtain ⟨u, is, -⟩ := other
        rw [is] at started
        cases started

theorem step_honest (σ : Records) (event : Event) (honest : Honest σ) (allowed : ordinary σ event = true) :
    Honest (step σ event) where
  fewer c := later_fewer _ _ (step_later σ event allowed c) (honest.fewer c)
  known := honest.step_known event allowed
  distinct := honest.step_distinct event allowed
  rows := honest.step_rows event
  told := honest.step_told event allowed
  queued := honest.step_queued event allowed
  delivered := honest.step_jobs event allowed

theorem run_honest (ledger : JobLedger) (events : List Event)
    (regular : Runs.Guarded step ordinary (idle ledger) events = true) :
    Honest (Runs.run step (idle ledger) events) :=
  Runs.run_invariant step Honest ordinary step_honest events (idle ledger) (idle_honest ledger) regular

theorem Honest.relation {σ : Records} (honest : Honest σ) (row : Relation) (member : row ∈ σ.relations) :
    ∃ d ∈ σ.delegations, d.row = row.tell .dispatched := by
  have told : row.tell .dispatched ∈ σ.relations.map (Relation.tell .dispatched) := List.mem_map_of_mem member
  obtain ⟨d, kept, same⟩ := List.mem_map.mp (honest.rows.subset (List.mem_append_left _ told))
  exact ⟨d, (List.mem_filter.mp kept).1, same⟩

theorem Honest.children {σ : Records} (honest : Honest σ) : (σ.relations.map Relation.childJobId).Nodup := by
  have untold : σ.relations.map Relation.childJobId =
      (σ.relations.map (Relation.tell .dispatched)).map Relation.childJobId := by
    rw [List.map_map]
    rfl
  have drawn : (σ.delegations.filter Delegation.hasParent).map Delegation.childJobId =
      ((σ.delegations.filter Delegation.hasParent).map Delegation.row).map Relation.childJobId := by
    rw [List.map_map]
    rfl
  have within : (σ.relations.map Relation.childJobId).Sublist (σ.delegations.map Delegation.childJobId) := by
    rw [untold]
    apply (((List.sublist_append_left _ _).trans honest.rows).map Relation.childJobId).trans
    rw [← drawn]
    exact List.filter_sublist.map _
  exact within.nodup honest.distinct

def times : List Event → List Nat := List.filterMap fun event =>
  match event with
  | .write _ now => some now
  | _ => none

def Records.stamps (σ : Records) : List Nat := σ.relations.map fun row => σ.createdAt row.childJobId

theorem execute_stamps (relations : List Relation) (createdAt : JobId → Nat) (now : Nat) (next : RelationWrite) :
    ((execute relations next).map fun row => stamp relations createdAt now next row.childJobId).Sublist
      ((relations.map fun row => createdAt row.childJobId) ++ [now]) := by
  cases next with
  | update childJobId status =>
    have same : ((execute relations (.update childJobId status)).map fun row => createdAt row.childJobId) =
        relations.map fun row => createdAt row.childJobId := by
      rw [execute, List.map_map]
      apply List.map_congr_left
      intro row _
      dsimp only [Function.comp]
      split <;> rfl
    exact same ▸ List.sublist_append_left _ _
  | create row =>
    rw [execute, stamp]
    cases present : relations.any fun other => other.childJobId == row.childJobId with
    | true => exact List.sublist_append_left _ _
    | false =>
      rw [List.any_eq_false] at present
      have kept : (relations.map fun other => Function.update createdAt row.childJobId now other.childJobId) =
          relations.map fun other => createdAt other.childJobId := by
        apply List.map_congr_left
        intro other member
        exact Function.update_of_ne (by simpa using present other member) _ _
      rw [if_neg Bool.false_ne_true, if_neg Bool.false_ne_true, List.map_append, kept, List.map_singleton,
        Function.update_self]

theorem step_stamps (σ : Records) (event : Event) :
    ((step σ event).stamps).Sublist (σ.stamps ++ times [event]) := by
  cases event with
  | write landed now =>
    rw [step]
    split
    · exact List.sublist_append_left _ _
    · rename_i next rest front
      cases landed with
      | true => exact execute_stamps σ.relations σ.createdAt now next
      | false => exact List.sublist_append_left _ _
  | beat | ends =>
    rw [step]
    split <;> exact List.sublist_append_left _ _
  | persist =>
    rw [step]
    split <;> exact List.sublist_append_left _ _
  | start | jobs | restart => exact List.sublist_append_left _ _

theorem run_stamps (ledger : JobLedger) (events : List Event) :
    (Runs.run step (idle ledger) events).stamps.Sublist (times events) := by
  induction events using List.reverseRecOn with
  | nil => exact List.Sublist.slnil
  | append_singleton events event later =>
    have split : times (events ++ [event]) = times events ++ times [event] := List.filterMap_append
    rw [Runs.run_append, split]
    exact (step_stamps _ event).trans (later.append_right _)

/-- Where the clock of the database has gone on between any two writes, the rows come in the order of their
inserts. -/
theorem relationshipsByParent_eq (ledger : JobLedger) (events : List Event)
    (clock : (times events).Pairwise (· < ·)) (parentJobId : JobId) :
    relationshipsByParent (Runs.run step (idle ledger) events) parentJobId =
      (Runs.run step (idle ledger) events).relations.filter fun row => row.parentJobId == parentJobId := by
  have stamps : (Runs.run step (idle ledger) events).stamps.Pairwise (· < ·) :=
    clock.sublist (run_stamps ledger events)
  have rows := (List.pairwise_map.mp stamps).sublist
    (List.filter_sublist (p := fun row : Relation => row.parentJobId == parentJobId))
  apply List.mergeSort_of_pairwise
  apply rows.imp
  intro row other before
  exact decide_eq_true (Nat.le_of_lt before)

/-- What the trace of a job tells of its children: each of them was called for that job, with these fields and in
this order, none is told twice, and one that is said to have been completed or delivered has ended well. -/
theorem trace_truthful (ledger : JobLedger) (events : List Event)
    (regular : Runs.Guarded step ordinary (idle ledger) events = true)
    (clock : (times events).Pairwise (· < ·)) (parentJobId : JobId) :
    let σ := Runs.run step (idle ledger) events
    ((relationshipsByParent σ parentJobId).map (Relation.tell .dispatched)).Sublist
        ((σ.delegations.filter fun d => d.parentJobId == parentJobId).map Delegation.row) ∧
      ((traceChildren σ parentJobId).map fun entry => entry.1.childJobId).Nodup ∧
      ∀ entry ∈ traceChildren σ parentJobId,
        (entry.1.delegationStatus = .completed → EndedWell σ entry.1.childJobId) ∧
          ∀ row, entry.2 = some row → row.status = .delivered → EndedWell σ entry.1.childJobId := by
  intro σ
  have honest : Honest σ := run_honest ledger events regular
  have ordered := relationshipsByParent_eq ledger events clock parentJobId
  refine ⟨?_, ?_, ?_⟩
  · rw [ordered]
    have rows := (List.sublist_append_left _ _).trans honest.rows
    have mine := rows.filter fun row => row.parentJobId == parentJobId
    rw [List.filter_map, List.filter_map] at mine
    apply mine.trans
    apply List.Sublist.map
    exact List.filter_sublist.filter _
  · have names : (traceChildren σ parentJobId).map (fun entry => entry.1.childJobId) =
        (relationshipsByParent σ parentJobId).map Relation.childJobId := by
      rw [traceChildren, List.map_map]
      rfl
    rw [names, ordered]
    exact (List.filter_sublist.map _).nodup honest.children
  · intro entry member
    obtain ⟨row, listed, same⟩ := List.mem_map.mp member
    rw [ordered] at listed
    have stored : row ∈ σ.relations := (List.mem_filter.mp listed).1
    rw [← same]
    refine ⟨honest.told row stored, ?_⟩
    intro job found delivered
    obtain ⟨d, known, as⟩ := honest.relation row stored
    have child : d.childJobId = row.childJobId := congrArg Relation.childJobId as
    apply honest.delivered row.childJobId
    · rw [← child]
      exact honest.known d known
    · have there : σ.ledger.find row.childJobId = some job := found
      rw [JobLedger.statusAt, there, Option.map_some, delivered]

def pricingCall : Delegation :=
  { childJobId := "child-1", childSessionId := "session-2", agent := "genesis-pricing", task := "quote", params := none
    parentJobId := "job-1", parentSessionId := some "session-1", parentSlug := some "genesis-meta" }

def starvedEvents : List Event :=
  [.write true 1, .beat "child-1" false, .jobs (.tick 300000001), .jobs (.expireStaleRunningJobs 5),
   .ends "child-1" (.returned (dict [("ok", bool true)])), .persist "child-1" true true, .write true 2]

theorem trace_truthful_starved :
    let σ := Runs.run step (idle (.empty 0)) (.start pricingCall true true :: starvedEvents)
    (traceChildren σ "job-1").map (fun entry => entry.1.delegationStatus) = [.completed] ∧ EndedWell σ "child-1" := by
  intro σ
  have truthful := trace_truthful (.empty 0) (.start pricingCall true true :: starvedEvents) (by decide) (by decide)
    "job-1"
  have listed : traceChildren σ "job-1" = [(pricingCall.row.tell .completed, σ.ledger.find "child-1")] := by
    rw [traceChildren, relationshipsByParent_eq (.empty 0) _ (by decide)]
    rfl
  have entry : (pricingCall.row.tell .completed, σ.ledger.find "child-1") ∈ traceChildren σ "job-1" := by
    rw [listed]
    exact List.mem_singleton_self _
  refine ⟨?_, (truthful.2.2 _ entry).1 rfl⟩
  rw [listed]
  rfl

end GenesisAgents.DelegationRecords
