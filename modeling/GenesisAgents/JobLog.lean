import GenesisAgents.JobLedger
import GenesisAgents.Library.MoveLog

/-! Does the event log of a job lead to the status in its row? Every operation writes the row and its
event by separate statements; `create_child_job` writes the event of a creation also when the row was
there before. -/

namespace GenesisAgents

open MoveLog JobLedger

def JobEvent.move (event : JobEvent) : Move JobStatus := ⟨event.fromStatus, event.toStatus⟩

namespace JobLedger

/-- The `status_change` events of a job in the order of insertion. -/
def movesOf (l : JobLedger) (jobId : JobId) : List (Move JobStatus) :=
  (l.events.filter fun event => event.jobId == jobId).map JobEvent.move

/-- Every row has the status its events lead to. -/
def Reconstructible (l : JobLedger) : Prop :=
  ∀ row ∈ l.rows, Reconstructs (l.movesOf row.id) row.status

/-- The child of `create_child_job` is new. -/
def newChild (l : JobLedger) : JobOp → Bool
  | .createChildJob request => !l.ids.contains request.childJobId
  | _ => true

def Logged (l : JobLedger) : Prop := ∀ row ∈ l.rows, l.movesOf row.id ≠ []

theorem movesOf_absent (l : JobLedger) (jobId : JobId) (absent : jobId ∉ l.ids) :
    l.movesOf jobId = [] := by
  rw [movesOf, List.map_eq_nil_iff, List.filter_eq_nil_iff]
  intro event member matching
  have present := l.referenced event member
  rw [eq_of_beq matching] at present
  exact absent present

/-- The log of a job leads to its status, of every job, also of those that are not in the table. -/
theorem reconstructible_iff (l : JobLedger) :
    l.Reconstructible ↔ ∀ jobId, Path none (l.movesOf jobId) (l.statusAt jobId) := by
  constructor
  · intro whole jobId
    rcases found : l.find jobId with _ | row
    · rw [movesOf_absent l jobId ((find_eq_none l jobId).mp found), statusAt, found]
      exact rfl
    · obtain ⟨rfl, member⟩ := find_some l jobId row found
      rw [statusAt, found]
      exact (reconstructs_iff _ _).mp (whole row member)
  · intro paths row member
    have path := paths row.id
    rw [statusAt, find_of_mem l row member] at path
    exact (reconstructs_iff _ _).mpr path

/-! What an operation adds to the log of a job. -/

theorem movesOf_insertRow (l : JobLedger) (row : JobRow) (fresh : row.id ∉ l.ids) (jobId : JobId) :
    (l.insertRow row fresh).movesOf jobId =
      l.movesOf jobId ++ if row.id = jobId then [⟨none, row.status⟩] else [] := by
  rw [movesOf, movesOf, insertRow, List.filter_append, List.map_append]
  by_cases same : row.id = jobId
  · simp [same, JobEvent.move]
  · simp [same]

theorem filter_id (rows : List JobRow) (keyed : (rows.map JobRow.id).Nodup) (jobId : JobId) :
    rows.filter (fun row => row.id == jobId) = (rows.find? fun row => row.id == jobId).toList := by
  induction rows with
  | nil => rfl
  | cons row rest later =>
    rw [List.map_cons, List.nodup_cons] at keyed
    rw [List.filter_cons, List.find?_cons]
    by_cases same : row.id = jobId
    · have others : rest.filter (fun row => row.id == jobId) = [] := by
        rw [List.filter_eq_nil_iff]
        intro other member matching
        have copy := List.mem_map_of_mem (f := JobRow.id) member
        rw [eq_of_beq matching, ← same] at copy
        exact keyed.1 copy
      simp [same, others]
    · have other : (row.id == jobId) = false := beq_false_of_ne same
      simp [other, later keyed.2]

theorem movesOf_update (l : JobLedger) (hits : JobRow → Bool) (write : JobRow → JobRow)
    (event : JobRow → Option (Option JobStatus × JobStatus))
    (keeps : ∀ row, (write row).id = row.id) (jobId : JobId) :
    (l.update hits write event keeps).movesOf jobId = l.movesOf jobId ++
      (((l.find jobId).filter hits).bind event).toList.map fun (fromStatus, toStatus) =>
        ⟨fromStatus, toStatus⟩ := by
  let record (row : JobRow) : Option JobEvent :=
    (event row).map fun (fromStatus, toStatus) => ⟨row.id, fromStatus, toStatus⟩
  have own : ∀ row, (record row).filter (fun e => e.jobId == jobId) =
      if row.id == jobId then record row else none := by
    intro row
    rcases written : event row with _ | ⟨fromStatus, toStatus⟩
    · simp [record, written]
    · simp [record, written, Option.filter]
  have added : ((l.rows.filter hits).filterMap record).filter (fun e => e.jobId == jobId) =
      ((l.find jobId).toList.filter hits).filterMap record := by
    calc ((l.rows.filter hits).filterMap record).filter (fun e => e.jobId == jobId)
      _ = (l.rows.filter hits).filterMap fun row =>
            if row.id == jobId then record row else none := by
          rw [List.filter_filterMap]
          exact congrArg (List.filterMap · _) (funext own)
      _ = ((l.rows.filter hits).filter fun row => row.id == jobId).filterMap record :=
          List.filterMap_filter.symm
      _ = ((l.find jobId).toList.filter hits).filterMap record := by
          rw [List.filter_comm, filter_id l.rows l.keyed jobId]
          rfl
  rw [movesOf, movesOf, update, List.filter_append, List.map_append]
  apply congrArg
  rw [added]
  rcases l.find jobId with _ | row
  · rfl
  · rcases hit : hits row with _ | _
    · simp [Option.filter, hit]
    · rcases written : event row with _ | ⟨fromStatus, toStatus⟩
      · simp [Option.filter, hit, record, written]
      · simp [Option.filter, hit, record, written, JobEvent.move]

def Leads (l l' : JobLedger) : Prop :=
  ∀ jobId, ∃ moves, l'.movesOf jobId = l.movesOf jobId ++ moves ∧
    Path (l.statusAt jobId) moves (l'.statusAt jobId)

theorem leads_self (l : JobLedger) : Leads l l := fun _ => ⟨[], (List.append_nil _).symm, rfl⟩

theorem insertRow_leads (l : JobLedger) (row : JobRow) (fresh : row.id ∉ l.ids) :
    Leads l (l.insertRow row fresh) := by
  intro jobId
  refine ⟨_, movesOf_insertRow l row fresh jobId, ?_⟩
  rw [statusAt, statusAt, find_insertRow]
  by_cases same : row.id = jobId
  · subst same
    rw [(find_eq_none l row.id).mpr fresh, if_pos rfl, if_pos rfl]
    exact ⟨rfl, rfl⟩
  · rw [if_neg same, if_neg same]
    exact rfl

/-- An `UPDATE` whose event names, of every row it returns, the status before and after. -/
theorem update_leads (l : JobLedger) (hits : JobRow → Bool) (write : JobRow → JobRow)
    (event : JobRow → Option (Option JobStatus × JobStatus))
    (keeps : ∀ row, (write row).id = row.id)
    (faithful : ∀ row ∈ l.rows, hits row = true →
      event row = some (some row.status, (write row).status)) :
    Leads l (l.update hits write event keeps) := by
  intro jobId
  refine ⟨_, movesOf_update l hits write event keeps jobId, ?_⟩
  rw [statusAt, statusAt, find_update]
  rcases found : l.find jobId with _ | row
  · exact rfl
  · rcases hit : hits row with _ | _
    · simp [Option.filter, hit, path_nil]
    · have written := faithful row (find_some l jobId row found).2 hit
      simp [Option.filter, hit, written, path_single]

theorem update_silent (l : JobLedger) (hits : JobRow → Bool) (write : JobRow → JobRow)
    (keeps : ∀ row, (write row).id = row.id) (kept : ∀ row, (write row).status = row.status) :
    Leads l (l.update hits write (fun _ => none) keeps) := by
  intro jobId
  refine ⟨_, movesOf_update l hits write _ keeps jobId, ?_⟩
  rw [statusAt, statusAt, find_update]
  rcases l.find jobId with _ | row
  · exact rfl
  · rcases hit : hits row with _ | _
    · simp [hit, path_nil]
    · simp [hit, kept, path_nil]

theorem step_leads (l : JobLedger) (op : JobOp) (fresh : l.newChild op = true) :
    Leads l (l.step op) := by
  cases op with
  | tick microseconds => exact fun _ => ⟨[], (List.append_nil _).symm, rfl⟩
  | createJob request id =>
    rw [step, perform, createJob]
    split
    · split
      · exact leads_self l
      · exact leads_self l
    · split
      · rename_i fresh
        exact insertRow_leads l _ fresh
      · exact leads_self l
  | createChildJob request =>
    rw [step, perform, createChildJob]
    split
    · rename_i absent
      exact insertRow_leads l _ absent
    · rename_i present
      have listed : l.ids.contains request.childJobId = true :=
        List.contains_iff_mem.mpr (not_not.mp present)
      rw [newChild, listed] at fresh
      contradiction
  | claimQueuedJobs limit =>
    refine update_leads l _ (JobRow.claim l.clock) _ (fun _ => rfl) ?_
    intro row member hit
    rw [claimable_queued l limit row member (List.contains_iff_mem.mp hit)]
    rfl
  | claimJobById jobId =>
    refine update_leads l _ (JobRow.claim l.clock) _ (fun _ => rfl) ?_
    intro row member hit
    rw [eq_of_beq (Bool.and_eq_true_iff.mp hit).2]
    rfl
  | updateJobStatus u =>
    rw [step, perform, updateJobStatus]
    split
    · exact leads_self l
    · rename_i read found
      split
      · exact leads_self l
      · refine update_leads l _ (u.apply l.clock) _ (fun _ => rfl) ?_
        intro row member hit
        have same := find_of_mem l row member
        rw [eq_of_beq hit, found] at same
        obtain rfl := Option.some.inj same
        rfl
  | heartbeat jobId => exact update_silent l _ (JobRow.beat l.clock) (fun _ => rfl) fun _ => rfl
  | expireStaleRunningJobs staleMinutes =>
    refine update_leads l _ (JobRow.expire staleMinutes l.clock) _ (fun _ => rfl) ?_
    intro row member hit
    simp only [JobRow.isStale, Bool.and_eq_true, decide_eq_true_eq] at hit
    rw [hit.1]
    rfl

/-! The event of a creation after others. -/

theorem repeated_child (l : JobLedger) (op : JobOp) (repeated : l.newChild op = false) :
    ∃ jobId ∈ l.ids, (l.step op).movesOf jobId = l.movesOf jobId ++ [⟨none, .running⟩] := by
  cases op with
  | createChildJob request =>
    have present : request.childJobId ∈ l.ids := by
      rw [newChild, Bool.not_eq_false', List.contains_iff_mem] at repeated
      exact repeated
    refine ⟨request.childJobId, present, ?_⟩
    rw [step, perform, createChildJob]
    split
    · contradiction
    · simp [movesOf, ChildRequest.row, JobEvent.move]
  | _ => contradiction

theorem repeated_lost (l : JobLedger) (op : JobOp) (logged : l.Logged)
    (repeated : l.newChild op = false) : ¬(l.step op).Reconstructible := by
  rw [reconstructible_iff]
  intro paths
  obtain ⟨jobId, present, added⟩ := repeated_child l op repeated
  obtain ⟨row, member, rfl⟩ := List.mem_map.mp present
  have path := paths row.id
  rw [added, path_append] at path
  obtain ⟨middle, early, late⟩ := path
  have created : middle = none := late.1.symm
  rw [created] at early
  exact logged row member (path_none _ _ early).1

theorem logged_of_leads (l l' : JobLedger) (logged : l.Logged) (leads : Leads l l') : l'.Logged := by
  intro row member empty
  obtain ⟨moves, added, path⟩ := leads row.id
  rw [empty, eq_comm, List.append_eq_nil_iff] at added
  obtain ⟨none_before, rfl⟩ := added
  have shown : l'.statusAt row.id = some row.status := by
    rw [statusAt, find_of_mem l' row member, Option.map_some]
  have before : l.statusAt row.id = some row.status := Eq.trans path shown
  rw [statusAt, Option.map_eq_some_iff] at before
  obtain ⟨old, found, -⟩ := before
  obtain ⟨same, old_member⟩ := find_some l row.id old found
  rw [← same] at none_before
  exact logged old old_member none_before

theorem repeated_logged (l : JobLedger) (op : JobOp) (logged : l.Logged)
    (repeated : l.newChild op = false) : (l.step op).Logged := by
  cases op with
  | createChildJob request =>
    rw [step, perform, createChildJob]
    split
    · rename_i absent
      exact logged_of_leads l _ logged (insertRow_leads l _ absent)
    · intro row member none_left
      have kept := logged row member
      rw [movesOf, List.filter_append, List.map_append, List.append_eq_nil_iff] at none_left
      exact kept none_left.1
  | _ => contradiction

theorem step_logged (l : JobLedger) (op : JobOp) (logged : l.Logged) : (l.step op).Logged := by
  rcases fresh : l.newChild op with _ | _
  · exact repeated_logged l op logged fresh
  · exact logged_of_leads l _ logged (step_leads l op fresh)

theorem step_reconstructible (l : JobLedger) (op : JobOp) (fresh : l.newChild op = true) :
    (l.step op).Reconstructible ↔ l.Reconstructible := by
  have leads := step_leads l op fresh
  rw [reconstructible_iff, reconstructible_iff]
  constructor
  · intro paths jobId
    obtain ⟨moves, added, onward⟩ := leads jobId
    have path := paths jobId
    rw [added] at path
    exact path_retract _ _ _ _ _ _ onward path fun _ => rfl
  · intro paths jobId
    obtain ⟨moves, added, onward⟩ := leads jobId
    rw [added]
    exact (path_extend _ _ _ _ _ (paths jobId)).mpr onward

/-- After a run from the empty store the log reconstructs every status exactly when no child was
created under an id that was there already. -/
theorem log_reconstructs_iff (clock : Int) (ops : List JobOp) :
    (Runs.run step (empty clock) ops).Reconstructible ↔
      Runs.Guarded step newChild (empty clock) ops = true := by
  have exact_step : ∀ (l : JobLedger) (op : JobOp), l.Logged → l.Reconstructible →
      (l.newChild op = true ↔ (l.step op).Reconstructible) := by
    intro l op logged whole
    constructor
    · exact fun fresh => (step_reconstructible l op fresh).mpr whole
    · intro after
      by_contra repeated
      exact repeated_lost l op logged (Bool.eq_false_iff.mpr repeated) after
  have lost : ∀ (l : JobLedger) (op : JobOp), l.Logged → (l.step op).Reconstructible →
      l.Reconstructible := by
    intro l op logged after
    rcases fresh : l.newChild op with _ | _
    · exact absurd after (repeated_lost l op logged fresh)
    · exact (step_reconstructible l op fresh).mp after
  have logged : (empty clock).Logged := by simp [Logged, empty]
  have whole : (empty clock).Reconstructible := by simp [Reconstructible, empty]
  exact (Runs.guarded_iff step Logged Reconstructible newChild step_logged exact_step lost ops
    (empty clock) logged whole).symm

/-- A child that is created twice, as a retry of `genesis_call` would. -/
def repeatedChild : List JobOp :=
  let child : ChildRequest :=
    { childJobId := "child-1", agentSlug := "genesis-research", prompt := "task"
      parentJobId := "job-1", params := none }
  [.createChildJob child, .createChildJob child]

theorem repeated_child_breaks_log :
    ¬∀ (clock : Int) (ops : List JobOp), (Runs.run step (empty clock) ops).Reconstructible := by
  intro always
  have whole := always 0 repeatedChild
  have row_there : ∃ row ∈ (Runs.run step (empty 0) repeatedChild).rows, row.id = "child-1" :=
    ⟨_, List.mem_singleton_self _, rfl⟩
  obtain ⟨row, member, named⟩ := row_there
  have chained := (whole row member).chained 0 ⟨none, .running⟩ ⟨none, .running⟩
  rw [named] at chained
  exact absurd (chained rfl rfl) (by simp)

end JobLedger

end GenesisAgents
