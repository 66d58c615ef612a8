import GenesisAgents.JobStore

/-! Are terminal job statuses absorbing? Every statement of the store but one looks at the status it
replaces; the `UPDATE` of `update_job_status` relies on what an earlier `SELECT` saw. -/

namespace GenesisAgents

open RowLocks StoreState

def Absorbs (before after : JobRow) : Prop :=
  before.status.isTerminal = true → after.status = before.status

theorem absorbs_refl (row : JobRow) : Absorbs row row := fun _ => rfl

theorem absorbs_trans (first second third : JobRow) (left : Absorbs first second)
    (right : Absorbs second third) : Absorbs first third := by
  intro terminal
  have kept := left terminal
  exact (right (kept ▸ terminal)).trans kept

theorem absorbs_of_open (before after : JobRow) (unfinished : before.status.isTerminal = false) :
    Absorbs before after := by
  intro terminal
  rw [unfinished] at terminal
  contradiction

theorem isStale_running (staleMinutes now : Int) (row : JobRow)
    (stale : row.isStale staleMinutes now = true) : row.status = .running := by
  simp only [JobRow.isStale, Bool.and_eq_true, decide_eq_true_eq] at stale
  exact stale.1

/-- The `UPDATE` of `update_job_status` finds the status its `SELECT` read, or one that is still
open, or the one it writes. -/
def undisturbed (σ : StoreState) : StoreEvent → Bool
  | .advance i =>
    match σ.calls[i]? with
    | some ⟨.updateJobStatus u, .selected _ fromStatus⟩ =>
      match σ.table u.jobId with
      | some cell => !cell.free i || cell.latest.status == fromStatus ||
          !cell.latest.status.isTerminal || cell.latest.status == u.newStatus
      | none => true
    | _ => true
  | _ => true

/-- No call is started with the override of the human-initiated moves. -/
def withoutOverride : StoreEvent → Bool
  | .call (.updateJobStatus u) => !u.allowTerminalOverride
  | _ => true

def Admitted : Call → Prop
  | ⟨.updateJobStatus u, phase⟩ => u.allowTerminalOverride = false ∧
      ∀ began fromStatus, phase = .selected began fromStatus → u.refuses fromStatus = false
  | _ => True

structure Orderly (σ : StoreState) : Prop where
  calls : ∀ call ∈ σ.calls, Admitted call
  rows : σ.table.Both Absorbs

theorem admitted_set (σ : StoreState) (i : Nat) (old new : Call) (holds : ∀ c ∈ σ.calls, Admitted c)
    (present : σ.calls[i]? = some old) (next : Admitted old → Admitted new) :
    ∀ c ∈ σ.calls.set i new, Admitted c := by
  intro c member
  rcases List.mem_or_eq_of_mem_set member with earlier | rfl
  · exact holds c earlier
  · exact next (holds old (List.mem_of_getElem? present))

theorem admitted_phase (request : StoreCall) (old new : CallPhase)
    (later : ∀ began fromStatus, new ≠ .selected began fromStatus) :
    Admitted ⟨request, old⟩ → Admitted ⟨request, new⟩ := by
  cases request with
  | updateJobStatus u => exact fun ok => ⟨ok.1, fun b f same => absurd same (later b f)⟩
  | _ => exact fun ok => ok

theorem step_admitted (σ : StoreState) (event : StoreEvent) (allowed : withoutOverride event = true)
    (holds : ∀ c ∈ σ.calls, Admitted c) : ∀ c ∈ (σ.step event).calls, Admitted c := by
  have moved := step_cases σ event
  generalize (σ.step event).calls = calls at moved
  generalize (σ.step event).table = table at moved
  cases moved with
  | same => exact holds
  | start request starts =>
    subst starts
    intro c member
    rcases List.mem_append.mp member with earlier | new
    · exact holds c earlier
    · obtain rfl := List.mem_singleton.mp new
      cases request with
      | updateJobStatus u => exact ⟨by simpa [withoutOverride] using allowed, by simp⟩
      | _ => trivial
  | read i u row advances present found accepted =>
    refine admitted_set σ i _ _ holds present fun ok => ⟨ok.1, ?_⟩
    rintro began fromStatus same
    obtain ⟨-, rfl⟩ := CallPhase.selected.inj same
    exact accepted
  | refuse i u left advances present found refused =>
    exact admitted_set σ i _ _ holds present (admitted_phase _ _ _ (by simp))
  | miss i jobId present =>
    exact admitted_set σ i _ _ holds present (admitted_phase _ _ _ (by simp))
  | empty i request old jobId began fromStatus present running single absent later =>
    exact admitted_set σ i _ _ holds present (admitted_phase _ _ _ (by simp))
  | hold i request old began fromStatus touched jobId f cell present running found unlocked writes =>
    exact admitted_set σ i _ _ holds present (admitted_phase _ _ _ (by simp))
  | commit i call result events present complete =>
    exact admitted_set σ i _ _ holds present (admitted_phase _ _ _ (by simp))
  | fail i call present running =>
    exact admitted_set σ i _ _ holds present (admitted_phase _ _ _ (by simp))

theorem update_absorbs (σ : StoreState) (i : Nat) (u : StatusUpdate) (began : Int)
    (fromStatus : JobStatus) (cell : Cell Nat JobRow)
    (reading : σ.calls[i]? = some ⟨.updateJobStatus u, .selected began fromStatus⟩)
    (present : σ.table u.jobId = some cell) (unlocked : cell.free i = true)
    (admitted : Admitted ⟨.updateJobStatus u, .selected began fromStatus⟩)
    (calm : undisturbed σ (.advance i) = true) : Absorbs cell.latest (u.apply began cell.latest) := by
  intro terminal
  have guarded := admitted.2 began fromStatus rfl
  simp only [StatusUpdate.refuses, admitted.1, Bool.not_false, Bool.and_true] at guarded
  simp only [undisturbed, reading, present, unlocked, terminal, Bool.not_true, Bool.false_or,
    Bool.or_false, Bool.or_eq_true, beq_iff_eq] at calm
  rw [StatusUpdate.apply_status]
  rcases calm with asRead | asWritten
  · rw [← asRead, terminal, Bool.true_and] at guarded
    simpa using guarded
  · exact asWritten.symm

theorem step_absorbs (σ : StoreState) (event : StoreEvent) (orderly : Orderly σ)
    (calm : undisturbed σ event = true) :
    (σ.step event).table.Both Absorbs ∧ σ.table.Climbs Absorbs (σ.step event).table := by
  refine step_rows Absorbs absorbs_refl absorbs_trans σ event orderly.rows ?_
  intro i request old began fromStatus touched jobId f cell present found unlocked writes
  cases writes with
  | update u began fromStatus cell advances =>
    subst advances
    exact update_absorbs σ i u began fromStatus cell present found unlocked
      (orderly.calls _ (List.mem_of_getElem? present)) calm
  | beat jobId began cell => exact fun _ => rfl
  | claim jobId began cell matching => exact absorbs_of_open _ _ (by rw [matching]; rfl)
  | claimOne limit phase began touched jobId cell room matching =>
    exact absorbs_of_open _ _ (by rw [matching]; rfl)
  | expire staleMinutes phase began touched jobId cell matching =>
    exact absorbs_of_open _ _ (by rw [isStale_running _ _ _ matching]; rfl)

theorem step_orderly (σ : StoreState) (event : StoreEvent) (orderly : Orderly σ)
    (allowed : (withoutOverride event && undisturbed σ event) = true) : Orderly (σ.step event) := by
  rw [Bool.and_eq_true] at allowed
  exact ⟨step_admitted σ event allowed.1 orderly.calls, (step_absorbs σ event orderly allowed.2).1⟩

theorem start_orderly (clock : Int) (rows : JobId → Option JobRow) : Orderly (start clock rows) :=
  ⟨fun _ member => by simp [start] at member, Table.both_ofRows Absorbs rows⟩

/-- In a run whose updates are undisturbed no committed row leaves a terminal status. -/
theorem terminal_absorbing (clock : Int) (rows : JobId → Option JobRow)
    (first second : List StoreEvent)
    (noOverride : ∀ event ∈ first ++ second, withoutOverride event = true)
    (calm : Runs.Guarded step undisturbed (start clock rows) (first ++ second) = true)
    (jobId : JobId) (row : JobRow)
    (committed : (Runs.run step (start clock rows) first).table.read jobId = some row)
    (terminal : row.status.isTerminal = true) :
    (Runs.run step (start clock rows) (first ++ second)).statusOf jobId = some row.status := by
  have allowed := Runs.guarded_and step undisturbed withoutOverride _ noOverride _ calm
  rw [Runs.guarded_append, Bool.and_eq_true] at allowed
  have middle := Runs.run_invariant step Orderly _ step_orderly first _
    (start_orderly clock rows) allowed.1
  have climbed := Runs.run_related step Orderly
    (fun σ σ' => σ.table.Climbs Absorbs σ'.table)
    (fun σ => Table.climbs_refl Absorbs absorbs_refl σ.table)
    (fun _ _ _ => Table.climbs_trans Absorbs absorbs_trans _ _ _) _ step_orderly
    (fun σ event orderly ok => (step_absorbs σ event orderly (Bool.and_eq_true _ _ ▸ ok).2).2)
    second _ middle allowed.2
  obtain ⟨row', committed', kept⟩ := climbed jobId row committed
  rw [Runs.run_append, statusOf, committed', Option.map_some, kept terminal]

/-! The reaper between the `SELECT` and the `UPDATE` of a worker. -/

def stalledRow : JobRow := (JobRow.queued "job-1" "genesis-research" 0).claim 0

def stalledRows (jobId : JobId) : Option JobRow := if jobId = "job-1" then some stalledRow else none

/-- The worker reads RUNNING, the reaper expires the job and commits. -/
def reapedSchedule : List StoreEvent :=
  [.call (.updateJobStatus (.plain "job-1" .delivered)), .advance 0,
   .call (.expireStaleRunningJobs 5), .touch 1 "job-1", .commit 1]

/-- The worker goes on with its `UPDATE` and commits. -/
def deliveredSchedule : List StoreEvent := [.advance 0, .commit 0]

theorem expired_job_delivered :
    ¬∀ (clock : Int) (rows : JobId → Option JobRow) (first second : List StoreEvent),
      (∀ event ∈ first ++ second, withoutOverride event = true) →
      ∀ jobId row, (Runs.run step (start clock rows) first).table.read jobId = some row →
        row.status.isTerminal = true →
        (Runs.run step (start clock rows) (first ++ second)).statusOf jobId = some row.status := by
  intro absorbing
  have kept := absorbing 600000000 stalledRows reapedSchedule deliveredSchedule (by decide) "job-1"
    (stalledRow.expire 5 600000000) rfl (by decide)
  exact absurd kept (by decide)

/-- The same worker without the reaper: it delivers, and the status stays. -/
theorem delivered_job_stays :
    (Runs.run step (start 600000000 stalledRows)
      ([.call (.updateJobStatus (.plain "job-1" .delivered)), .advance 0, .advance 0, .commit 0] ++
        [.call (.expireStaleRunningJobs 5), .touch 1 "job-1", .commit 1])).statusOf "job-1" =
      some .delivered :=
  terminal_absorbing 600000000 stalledRows _ _ (by decide) (by decide) "job-1"
    ((StatusUpdate.plain "job-1" .delivered).apply 600000000 stalledRow) rfl (by decide)

end GenesisAgents
