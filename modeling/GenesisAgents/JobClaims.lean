import GenesisAgents.StatusWrites
import GenesisAgents.TerminalStatus
import GenesisAgents.Library.CallTable

/-! Who gets a queued job? `claim_queued_jobs` skips locked rows, `claim_job_by_id` waits for them and
looks again; a row of either is queued until that call commits and never again. -/

namespace GenesisAgents

open RowLocks StoreState

/-- The rows of `genesis_jobs`, each under its primary key. -/
structure JobRows where
  row : JobId → Option JobRow
  keyed : ∀ jobId found, row jobId = some found → found.id = jobId

def sparesQueue : StoreEvent → Bool
  | .call (.updateJobStatus u) => u.newStatus != .queued
  | _ => true

def roomOf : StoreCall → Option Nat
  | .claimJobById _ => some 1
  | .claimQueuedJobs limit => some limit
  | _ => none

def claimedIds : Call → List JobId
  | ⟨.claimJobById _, .returned (.job row) _⟩ => row.toList.map JobRow.id
  | ⟨.claimQueuedJobs _, .returned (.jobs rows) _⟩ => rows.map JobRow.id
  | _ => []

structure LeavesQueue (before after : JobRow) : Prop where
  id : after.id = before.id
  status : before.status ≠ .queued → after.status ≠ .queued

theorem leavesQueue_refl (row : JobRow) : LeavesQueue row row := ⟨rfl, id⟩

theorem leavesQueue_trans (first second third : JobRow) (left : LeavesQueue first second)
    (right : LeavesQueue second third) : LeavesQueue first third :=
  ⟨right.id.trans left.id, fun out => right.status (left.status out)⟩

def Took (table : Table JobId Nat JobRow) (i : Nat) (jobId : JobId) : Prop :=
  ∃ cell row, table jobId = some cell ∧ cell.committed.status = .queued ∧
    cell.pending = some (i, row) ∧ row.id = jobId ∧ row.status = .running

def OutOfQueue (table : Table JobId Nat JobRow) (jobId : JobId) : Prop :=
  ∃ row, table.read jobId = some row ∧ row.status ≠ .queued

structure Takes (table : Table JobId Nat JobRow) (i : Nat) (call : Call) : Prop where
  holding : ∀ room began fromStatus touched, roomOf call.request = some room →
    call.phase = .holding began fromStatus touched →
    touched.length ≤ room ∧ touched.Nodup ∧ ∀ jobId ∈ touched, Took table i jobId
  room : ∀ room, roomOf call.request = some room → (claimedIds call).length ≤ room
  once : (claimedIds call).Nodup
  out : ∀ jobId ∈ claimedIds call, OutOfQueue table jobId

structure ClaimInv (σ : StoreState) : Prop where
  updates : ∀ (i : Nat) (u : StatusUpdate) (phase : CallPhase),
    σ.calls[i]? = some ⟨.updateJobStatus u, phase⟩ → u.newStatus ≠ .queued
  rows : σ.table.Both LeavesQueue
  keyed : ∀ jobId row, σ.table.read jobId = some row → row.id = jobId
  takes : ∀ i call, σ.calls[i]? = some call → Takes σ.table i call
  apart : CallTable.Each (fun p q => List.Disjoint (claimedIds p) (claimedIds q)) σ.calls

theorem takes_other (table : Table JobId Nat JobRow) (i : Nat) (call : Call)
    (other : roomOf call.request = none) : Takes table i call := by
  have nothing : claimedIds call = [] := by
    rcases call with ⟨request, phase⟩
    cases request <;> first | rfl | contradiction
  exact
    { holding := by simp [other], room := by simp [other], once := by simp [nothing]
      out := by simp [nothing] }

theorem takes_nothing (table : Table JobId Nat JobRow) (i : Nat) (call : Call)
    (none_held : ∀ began fromStatus touched, call.phase = .holding began fromStatus touched →
      touched = [])
    (none_returned : claimedIds call = []) : Takes table i call where
  holding room began fromStatus touched _ holds := by simp [none_held _ _ _ holds]
  room := by simp [none_returned]
  once := by simp [none_returned]
  out := by simp [none_returned]

theorem takes_table (table table' : Table JobId Nat JobRow) (i : Nat) (call : Call)
    (locks : ∀ jobId cell row, table jobId = some cell → cell.pending = some (i, row) →
      table' jobId = some cell)
    (rows : table.Climbs LeavesQueue table') (takes : Takes table i call) :
    Takes table' i call where
  holding room began fromStatus touched fits holds := by
    obtain ⟨short, once, took⟩ := takes.holding room began fromStatus touched fits holds
    refine ⟨short, once, fun jobId member => ?_⟩
    obtain ⟨cell, row, present, queued, pending, rest⟩ := took jobId member
    exact ⟨cell, row, locks jobId cell row present pending, queued, pending, rest⟩
  room := takes.room
  once := takes.once
  out jobId member := by
    obtain ⟨row, present, out⟩ := takes.out jobId member
    obtain ⟨row', present', leaves⟩ := rows jobId row present
    exact ⟨row', present', leaves.status out⟩

theorem write_leaves (σ : StoreState) (event : StoreEvent) (inv : ClaimInv σ) (i : Nat)
    (request : StoreCall) (old : CallPhase) (began : Int) (fromStatus : Option JobStatus)
    (touched : List JobId) (jobId : JobId) (f : JobRow → JobRow) (cell : Cell Nat JobRow)
    (present : σ.calls[i]? = some ⟨request, old⟩)
    (writes : RowWrite event i request old began fromStatus touched jobId f cell) :
    LeavesQueue cell.latest (f cell.latest) := by
  cases writes with
  | update u began fromStatus cell advances =>
    exact ⟨rfl, fun _ => inv.updates i u _ present⟩
  | beat jobId began cell => exact ⟨rfl, fun out => out⟩
  | claim jobId began cell matching => exact ⟨rfl, fun out => absurd matching out⟩
  | claimOne limit phase began touched jobId cell room matching earlier =>
    exact ⟨rfl, fun out => absurd matching out⟩
  | expire staleMinutes phase began touched jobId cell matching earlier =>
    exact ⟨rfl, fun _ => by simp [JobRow.expire]⟩

theorem latest_leaves (cell : Cell Nat JobRow) (both : cell.Both LeavesQueue) :
    LeavesQueue cell.committed cell.latest := by
  rcases pending : cell.pending with _ | ⟨owner, row⟩
  · have same : cell.latest = cell.committed := by simp [Cell.latest, pending]
    exact same ▸ leavesQueue_refl _
  · have same : cell.latest = row := by simp [Cell.latest, pending]
    exact same ▸ both owner row pending

theorem claim_took (σ : StoreState) (inv : ClaimInv σ) (i : Nat) (jobId : JobId) (began : Int)
    (cell : Cell Nat JobRow) (found : σ.table jobId = some cell)
    (matching : cell.latest.status = .queued) :
    Took (σ.table.write i jobId (JobRow.claim began)) i jobId := by
  have leaves := latest_leaves cell (inv.rows jobId cell found)
  have committed : σ.table.read jobId = some cell.committed := by
    rw [Table.read, found, Option.map_some]
  refine ⟨cell.write i (JobRow.claim began), cell.latest.claim began, ?_, ?_, rfl, ?_, rfl⟩
  · rw [Table.write, Function.update_self, found, Option.map_some]
  · by_contra out
    exact leaves.status out matching
  · exact leaves.id.trans (inv.keyed jobId _ committed)

theorem took_not_queued (table : Table JobId Nat JobRow) (i : Nat) (jobId : JobId)
    (cell : Cell Nat JobRow) (took : Took table i jobId) (found : table jobId = some cell) :
    cell.latest.status = .running := by
  obtain ⟨same, row, present, -, pending, -, running⟩ := took
  obtain rfl := Option.some.inj (found.symm.trans present)
  rwa [Cell.latest, pending]

theorem took_write (table : Table JobId Nat JobRow) (i : Nat) (jobId other : JobId)
    (f : JobRow → JobRow) (distinct : other ≠ jobId) (took : Took table i other) :
    Took (table.write i jobId f) i other := by
  obtain ⟨cell, row, present, rest⟩ := took
  exact ⟨cell, row, by rw [Table.write, Function.update_of_ne distinct, present], rest⟩

theorem hold_takes (σ : StoreState) (event : StoreEvent) (inv : ClaimInv σ) (i : Nat)
    (request : StoreCall) (old : CallPhase) (began : Int) (fromStatus : Option JobStatus)
    (touched : List JobId) (jobId : JobId) (f : JobRow → JobRow) (cell : Cell Nat JobRow)
    (present : σ.calls[i]? = some ⟨request, old⟩) (found : σ.table jobId = some cell)
    (writes : RowWrite event i request old began fromStatus touched jobId f cell) :
    Takes (σ.table.write i jobId f) i ⟨request, .holding began fromStatus (touched ++ [jobId])⟩ := by
  cases writes with
  | update u began fromStatus cell advances => exact takes_other _ _ _ rfl
  | beat jobId began cell => exact takes_other _ _ _ rfl
  | expire staleMinutes phase began touched jobId cell matching earlier =>
    exact takes_other _ _ _ rfl
  | claim jobId began cell matching =>
    refine ⟨?_, by simp [claimedIds], by simp [claimedIds], by simp [claimedIds]⟩
    intro room began' fromStatus' touched' fits holds
    obtain rfl := Option.some.inj fits
    obtain ⟨-, -, rfl⟩ := CallPhase.holding.inj holds
    refine ⟨le_refl _, by simp, ?_⟩
    intro other member
    obtain rfl := List.mem_singleton.mp member
    exact claim_took σ inv i other began cell found matching
  | claimOne limit phase began touched jobId cell room matching earlier =>
    refine ⟨?_, by simp [claimedIds], by simp [claimedIds], by simp [claimedIds]⟩
    intro room' began' fromStatus' touched' fits holds
    obtain rfl := Option.some.inj fits
    obtain ⟨-, -, rfl⟩ := CallPhase.holding.inj holds
    have before : touched.Nodup ∧ ∀ other ∈ touched, Took σ.table i other := by
      cases old with
      | ready =>
        obtain rfl : touched = [] := earlier
        simp
      | holding start from_ rows =>
        obtain ⟨rfl, rfl⟩ : began = start ∧ touched = rows := earlier
        exact ((inv.takes i _ present).holding limit began from_ touched rfl rfl).2
      | _ => exact earlier.elim
    have absent : jobId ∉ touched := by
      intro member
      have running := took_not_queued _ i jobId cell (before.2 jobId member) found
      rw [matching] at running
      contradiction
    refine ⟨?_, ?_, ?_⟩
    · rw [List.length_append, List.length_singleton]
      omega
    · rw [List.nodup_append_comm]
      exact List.nodup_cons.mpr ⟨absent, before.1⟩
    · intro other member
      rcases List.mem_append.mp member with earlier | last
      · have distinct : other ≠ jobId := fun same => absent (same ▸ earlier)
        exact took_write σ.table i jobId other _ distinct (before.2 other earlier)
      · obtain rfl := List.mem_singleton.mp last
        exact claim_took σ inv i other began cell found matching

def touchedOf : CallPhase → List JobId
  | .holding _ _ touched => touched
  | _ => []

theorem heldRows_ids (σ : StoreState) (i : Nat) (touched : List JobId)
    (took : ∀ jobId ∈ touched, Took σ.table i jobId) :
    (σ.heldRows touched).map JobRow.id = touched := by
  induction touched with
  | nil => rfl
  | cons jobId rest later =>
    obtain ⟨cell, row, present, -, pending, named, -⟩ := took jobId List.mem_cons_self
    have last : cell.latest = row := by simp [Cell.latest, pending]
    have tail := later fun other member => took other (List.mem_cons_of_mem _ member)
    rw [heldRows] at tail ⊢
    simp [present, last, named, tail]

theorem completion_ids (σ : StoreState) (i : Nat) (call : Call) (result : CallResult)
    (events : List JobEvent) (left : Option JobStatus)
    (complete : σ.completion call = some (result, events)) (takes : Takes σ.table i call)
    (room : Nat) (fits : roomOf call.request = some room) :
    claimedIds ⟨call.request, .returned result left⟩ = touchedOf call.phase := by
  rcases call with ⟨request, phase⟩
  cases request with
  | claimJobById jobId =>
    cases phase with
    | holding began fromStatus touched =>
      obtain ⟨rfl, -⟩ := Prod.mk.inj (Option.some.inj complete)
      obtain rfl := Option.some.inj fits
      obtain ⟨short, -, took⟩ := takes.holding 1 began fromStatus touched rfl rfl
      have ids := heldRows_ids σ i touched took
      rcases held : σ.heldRows touched with _ | ⟨row, rest⟩
      · rw [held] at ids
        exact ids
      · rw [held] at ids
        have single : rest = [] := by
          rw [← ids, List.length_map, List.length_cons] at short
          exact List.length_eq_zero_iff.mp (by omega)
        rw [single] at ids
        exact ids
    | _ => contradiction
  | claimQueuedJobs limit =>
    cases phase with
    | ready =>
      obtain ⟨rfl, -⟩ := Prod.mk.inj (Option.some.inj complete)
      rfl
    | holding began fromStatus touched =>
      obtain ⟨rfl, -⟩ := Prod.mk.inj (Option.some.inj complete)
      obtain ⟨-, -, took⟩ := takes.holding limit began fromStatus touched rfl rfl
      exact heldRows_ids σ i touched took
    | _ => contradiction
  | _ => contradiction

/-- Each row of a claim is published as running. -/
theorem commit_publishes (table : Table JobId Nat JobRow) (i : Nat) (jobId : JobId)
    (took : Took table i jobId) :
    (table.read jobId).map JobRow.status = some .queued ∧
      ((table.commit i).read jobId).map JobRow.status = some .running := by
  obtain ⟨cell, row, present, queued, pending, -, running⟩ := took
  have published := table.read_commit_of_holds i jobId row ⟨cell, present, pending⟩
  refine ⟨?_, ?_⟩
  · rw [Table.read, present, Option.map_some, Option.map_some, queued]
  · rw [published, Option.map_some, running]

theorem outOfQueue_of_status (table : Table JobId Nat JobRow) (jobId : JobId) (status : JobStatus)
    (shown : (table.read jobId).map JobRow.status = some status) (out : status ≠ .queued) :
    OutOfQueue table jobId := by
  obtain ⟨row, present, rfl⟩ := Option.map_eq_some_iff.mp shown
  exact ⟨row, present, out⟩

theorem commit_takes (σ : StoreState) (inv : ClaimInv σ) (i : Nat) (call : Call)
    (result : CallResult) (events : List JobEvent) (left : Option JobStatus)
    (present : σ.calls[i]? = some call) (complete : σ.completion call = some (result, events)) :
    Takes (σ.table.commit i) i ⟨call.request, .returned result left⟩ ∧
      (∀ jobId ∈ claimedIds ⟨call.request, .returned result left⟩, Took σ.table i jobId) := by
  have takes := inv.takes i call present
  rcases fits : roomOf call.request with _ | room
  · have nothing : claimedIds ⟨call.request, .returned result left⟩ = [] := by
      cases request : call.request <;> first | rfl | (rw [request] at fits; contradiction)
    exact ⟨takes_other _ _ _ fits, by simp [nothing]⟩
  · have ids := completion_ids σ i call result events left complete takes room fits
    have rows : (touchedOf call.phase).length ≤ room ∧ (touchedOf call.phase).Nodup ∧
        ∀ jobId ∈ touchedOf call.phase, Took σ.table i jobId := by
      cases held : call.phase with
      | holding began fromStatus touched =>
        exact takes.holding room began fromStatus touched fits held
      | _ => simp [touchedOf]
    rw [← ids] at rows
    refine ⟨⟨?_, ?_, rows.2.1, ?_⟩, rows.2.2⟩
    · intro _ _ _ _ _ holds
      contradiction
    · intro room' fits'
      obtain rfl := Option.some.inj (fits.symm.trans fits')
      exact rows.1
    · intro jobId member
      have shown := (commit_publishes σ.table i jobId (rows.2.2 jobId member)).2
      exact outOfQueue_of_status _ _ _ shown (by simp)

theorem step_isSome (σ : StoreState) (event : StoreEvent) (jobId : JobId) :
    ((σ.step event).table jobId).isSome = (σ.table jobId).isSome := by
  have moved := step_cases σ event
  generalize (σ.step event).calls = calls at moved
  generalize (σ.step event).table = table at moved ⊢
  cases moved with
  | hold i request old began fromStatus touched id f cell present running found unlocked writes =>
    exact Table.isSome_write _ _ _ _ _
  | commit i call result events present complete => exact Table.isSome_commit _ _ _
  | fail i call present running => exact Table.isSome_rollback _ _ _
  | _ => rfl

theorem step_leavesQueue (σ : StoreState) (event : StoreEvent) (inv : ClaimInv σ) :
    (σ.step event).table.Both LeavesQueue ∧ σ.table.Climbs LeavesQueue (σ.step event).table := by
  apply step_rows LeavesQueue leavesQueue_refl leavesQueue_trans σ event inv.rows
  intro i request old began fromStatus touched jobId f cell present found unlocked writes
  exact write_leaves σ event inv i request old began fromStatus touched jobId f cell present writes

theorem step_keyed (σ : StoreState) (event : StoreEvent) (inv : ClaimInv σ) (jobId : JobId)
    (row : JobRow) (shown : (σ.step event).table.read jobId = some row) : row.id = jobId := by
  have there := step_isSome σ event jobId
  rcases before : σ.table jobId with _ | cell
  · rw [before] at there
    rw [Table.read, Option.map_eq_some_iff] at shown
    obtain ⟨cell, present, -⟩ := shown
    rw [present] at there
    contradiction
  · have read : σ.table.read jobId = some cell.committed := by
      rw [Table.read, before, Option.map_some]
    obtain ⟨row', present, leaves⟩ := (step_leavesQueue σ event inv).2 jobId _ read
    obtain rfl := Option.some.inj (shown.symm.trans present)
    exact leaves.id.trans (inv.keyed jobId _ read)

theorem step_updates (σ : StoreState) (event : StoreEvent) (spares : sparesQueue event = true)
    (inv : ClaimInv σ) (i : Nat) (u : StatusUpdate) (phase : CallPhase)
    (present : (σ.step event).calls[i]? = some ⟨.updateJobStatus u, phase⟩) :
    u.newStatus ≠ .queued := by
  have set_request (k : Nat) (old : Call) (next : CallPhase) (held : σ.calls[k]? = some old)
      (found : (σ.calls.set k ⟨old.request, next⟩)[i]? = some ⟨.updateJobStatus u, phase⟩) :
      u.newStatus ≠ .queued := by
    rcases CallTable.getElem?_set_cases _ _ _ _ _ found with ⟨-, own⟩ | ⟨-, kept⟩
    · rcases old with ⟨request, phase'⟩
      obtain ⟨rfl, -⟩ := Call.mk.inj own
      exact inv.updates k u phase' held
    · exact inv.updates i u phase kept
  have moved := step_cases σ event
  generalize (σ.step event).calls = calls at moved present
  generalize (σ.step event).table = table at moved
  cases moved with
  | same => exact inv.updates i u phase present
  | start request starts =>
    rcases CallTable.getElem?_concat_cases _ _ _ _ present with ⟨-, own⟩ | kept
    · obtain ⟨rfl, -⟩ := Call.mk.inj own
      subst starts
      simpa [sparesQueue] using spares
    · exact inv.updates i u phase kept
  | read k u' row advances held found accepted => exact set_request k _ _ held present
  | refuse k u' left advances held found refused => exact set_request k _ _ held present
  | miss k jobId held => exact set_request k _ _ held present
  | empty k request old jobId began fromStatus held running single absent later =>
    exact set_request k _ _ held present
  | hold k request old began fromStatus touched jobId f cell held running found unlocked writes =>
    exact set_request k _ _ held present
  | commit k call result events held complete => exact set_request k _ _ held present
  | fail k call held running => exact set_request k _ _ held present

theorem takes_set (σ : StoreState) (inv : ClaimInv σ) (table : Table JobId Nat JobRow) (i : Nat)
    (new : Call)
    (locks : ∀ k jobId cell row, k ≠ i → σ.table jobId = some cell →
      cell.pending = some (k, row) → table jobId = some cell)
    (rows : σ.table.Climbs LeavesQueue table) (fresh : Takes table i new) :
    ∀ k call, (σ.calls.set i new)[k]? = some call → Takes table k call := by
  intro k call found
  rcases CallTable.getElem?_set_cases _ _ _ _ _ found with ⟨rfl, rfl⟩ | ⟨distinct, kept⟩
  · exact fresh
  · exact takes_table σ.table table k call
      (fun jobId cell row => locks k jobId cell row (Ne.symm distinct)) rows (inv.takes k call kept)

theorem apart_nothing (σ : StoreState) (inv : ClaimInv σ) (i : Nat) (new : Call)
    (nothing : claimedIds new = []) :
    CallTable.Each (fun p q => List.Disjoint (claimedIds p) (claimedIds q)) (σ.calls.set i new) := by
  apply CallTable.each_set _ _ _ _ inv.apart
  intro j q _ _
  simp [nothing]

theorem claimedIds_open (request : StoreCall) (phase : CallPhase)
    (unfinished : ∀ result left, phase ≠ .returned result left) :
    claimedIds ⟨request, phase⟩ = [] := by
  cases phase with
  | returned result left => exact absurd rfl (unfinished result left)
  | _ => cases request <;> rfl

theorem step_takes (σ : StoreState) (event : StoreEvent) (inv : ClaimInv σ) :
    (∀ i call, (σ.step event).calls[i]? = some call → Takes (σ.step event).table i call) ∧
      CallTable.Each (fun p q => List.Disjoint (claimedIds p) (claimedIds q))
        (σ.step event).calls := by
  have rows := (step_leavesQueue σ event inv).2
  have moved := step_cases σ event
  generalize (σ.step event).calls = calls at moved ⊢
  generalize (σ.step event).table = table at moved rows ⊢
  cases moved with
  | same => exact ⟨inv.takes, inv.apart⟩
  | start request starts =>
    have nothing : claimedIds ⟨request, .ready⟩ = [] := claimedIds_open _ _ (by simp)
    refine ⟨?_, CallTable.each_concat _ _ _ inv.apart (by simp [nothing])⟩
    intro k call found
    rcases CallTable.getElem?_concat_cases _ _ _ _ found with ⟨-, rfl⟩ | kept
    · exact takes_nothing _ _ _ (by simp) nothing
    · exact inv.takes k call kept
  | read i u row advances present found accepted =>
    exact ⟨takes_set σ inv _ i _ (fun _ _ _ _ _ found _ => found) rows (takes_other _ _ _ rfl),
      apart_nothing σ inv i _ rfl⟩
  | refuse i u left advances present found refused =>
    exact ⟨takes_set σ inv _ i _ (fun _ _ _ _ _ found _ => found) rows (takes_other _ _ _ rfl),
      apart_nothing σ inv i _ rfl⟩
  | miss i jobId present =>
    exact ⟨takes_set σ inv _ i _ (fun _ _ _ _ _ found _ => found) rows
      (takes_nothing _ _ _ (by simp) rfl), apart_nothing σ inv i _ rfl⟩
  | empty i request old jobId began fromStatus present running single absent later =>
    have nothing : claimedIds ⟨request, .holding began fromStatus []⟩ = [] :=
      claimedIds_open _ _ (by simp)
    refine ⟨takes_set σ inv _ i _ (fun _ _ _ _ _ found _ => found) rows
      (takes_nothing _ _ _ ?_ nothing), apart_nothing σ inv i _ nothing⟩
    intro _ _ touched holds
    exact (CallPhase.holding.inj holds).2.2.symm
  | hold i request old began fromStatus touched jobId f cell present running found unlocked writes =>
    have nothing : claimedIds ⟨request, .holding began fromStatus (touched ++ [jobId])⟩ = [] :=
      claimedIds_open _ _ (by simp)
    refine ⟨takes_set σ inv _ i _ ?_ rows (hold_takes σ event inv i request old began fromStatus
      touched jobId f cell present found writes), apart_nothing σ inv i _ nothing⟩
    intro k other held row distinct there pending
    exact σ.table.write_held k i jobId other f cell held row there pending distinct found unlocked
  | commit i call result events present complete =>
    have own := commit_takes σ inv i call result events ((jobOf call.request).bind fun jobId =>
      ((σ.table.commit i).read jobId).map JobRow.status) present complete
    refine ⟨takes_set σ inv _ i _ ?_ rows own.1, CallTable.each_set _ _ _ _ inv.apart ?_⟩
    · intro k jobId held row distinct there pending
      exact σ.table.commit_held k i jobId held row there pending distinct
    · intro j q _ there
      have disjoint : ∀ jobId ∈ claimedIds q, ∀ other ∈ claimedIds ⟨call.request,
          .returned result ((jobOf call.request).bind fun jobId =>
            ((σ.table.commit i).read jobId).map JobRow.status)⟩, jobId ≠ other := by
        rintro jobId member _ taken rfl
        obtain ⟨row, shown, out⟩ := (inv.takes j q there).out jobId member
        have queued := (commit_publishes σ.table i jobId (own.2 jobId taken)).1
        rw [shown] at queued
        exact out (Option.some.inj queued)
      exact ⟨fun jobId left right => disjoint jobId left jobId right rfl,
        fun jobId left right => disjoint jobId right jobId left rfl⟩
  | fail i call present running =>
    have nothing : claimedIds ⟨call.request, .raised⟩ = [] := claimedIds_open _ _ (by simp)
    refine ⟨takes_set σ inv _ i _ ?_ rows (takes_nothing _ _ _ (by simp) nothing),
      apart_nothing σ inv i _ nothing⟩
    intro k jobId held row distinct there pending
    exact σ.table.rollback_held k i jobId held row there pending distinct

theorem step_claimInv (σ : StoreState) (event : StoreEvent) (spares : sparesQueue event = true)
    (inv : ClaimInv σ) : ClaimInv (σ.step event) where
  updates := step_updates σ event spares inv
  rows := (step_leavesQueue σ event inv).1
  keyed := step_keyed σ event inv
  takes := (step_takes σ event inv).1
  apart := (step_takes σ event inv).2

theorem start_claimInv (clock : Int) (rows : JobRows) : ClaimInv (start clock rows.row) where
  updates := by simp [start]
  rows := Table.both_ofRows LeavesQueue rows.row
  keyed := by
    intro jobId row shown
    have same : (start clock rows.row).table.read jobId = rows.row jobId := by
      simp [start, Table.read, Table.ofRows, Function.comp_def]
    exact rows.keyed jobId row (same.symm.trans shown)
  takes := by simp [start]
  apart := CallTable.each_nil _

theorem run_claimInv (clock : Int) (rows : JobRows) (events : List StoreEvent)
    (spares : ∀ event ∈ events, sparesQueue event = true) :
    ClaimInv (Runs.run step (start clock rows.row) events) :=
  Runs.run_of_events step ClaimInv (fun event => sparesQueue event = true) step_claimInv events
    spares _ (start_claimInv clock rows)

def returnedBy (σ : StoreState) (i : Nat) : List JobId := σ.calls[i]?.elim [] claimedIds

theorem returnedBy_of_mem (σ : StoreState) (i : Nat) (jobId : JobId)
    (member : jobId ∈ returnedBy σ i) : ∃ call, σ.calls[i]? = some call ∧ jobId ∈ claimedIds call := by
  rw [returnedBy] at member
  rcases found : σ.calls[i]? with _ | call
  · simp [found] at member
  · exact ⟨call, rfl, by simpa [found] using member⟩

/-- A job is new among those a call has returned only at the commit of that call. -/
theorem step_returned (σ : StoreState) (event : StoreEvent) (inv : ClaimInv σ) (i : Nat)
    (jobId : JobId) (after : jobId ∈ returnedBy (σ.step event) i)
    (before : jobId ∉ returnedBy σ i) :
    σ.statusOf jobId = some .queued ∧ (σ.step event).statusOf jobId = some .running := by
  obtain ⟨call', found, member⟩ := returnedBy_of_mem _ i jobId after
  have kept (call : Call) (present : σ.calls[i]? = some call) : jobId ∉ claimedIds call := by
    rw [returnedBy, present] at before
    exact before
  have unmoved (k : Nat) (new : Call) (nothing : claimedIds new = [])
      (found : (σ.calls.set k new)[i]? = some call') : False := by
    rcases CallTable.getElem?_set_cases _ _ _ _ _ found with ⟨-, rfl⟩ | ⟨-, present⟩
    · rw [nothing] at member
      contradiction
    · exact kept call' present member
  have moved := step_cases σ event
  rw [statusOf, statusOf]
  generalize (σ.step event).calls = calls at moved found
  generalize (σ.step event).table = table at moved ⊢
  cases moved with
  | same => exact absurd member (kept call' found)
  | start request starts =>
    rcases CallTable.getElem?_concat_cases _ _ _ _ found with ⟨-, rfl⟩ | present
    · rw [claimedIds_open request .ready (by simp)] at member
      contradiction
    · exact absurd member (kept call' present)
  | read k u row advances present seen accepted => exact (unmoved k _ rfl found).elim
  | refuse k u left advances present seen refused => exact (unmoved k _ rfl found).elim
  | miss k id present => exact (unmoved k _ rfl found).elim
  | empty k request old id began fromStatus present running single absent later =>
    exact (unmoved k _ (claimedIds_open _ _ (by simp)) found).elim
  | hold k request old began fromStatus touched id f cell present running seen unlocked writes =>
    exact (unmoved k _ (claimedIds_open _ _ (by simp)) found).elim
  | commit k call result events present complete =>
    rcases CallTable.getElem?_set_cases _ _ _ _ _ found with ⟨-, rfl⟩ | ⟨-, other⟩
    · apply commit_publishes σ.table k jobId
      exact (commit_takes σ inv k call result events _ present complete).2 jobId member
    · exact absurd member (kept call' other)
  | fail k call present running => exact (unmoved k _ (claimedIds_open _ _ (by simp)) found).elim

/-- In every run of claims, updates that do not write QUEUED, heartbeats and reaper passes a job is
returned by one claim at most, which takes it from QUEUED to RUNNING. -/
theorem claimed_at_most_once (clock : Int) (rows : JobRows) (events : List StoreEvent)
    (spares : ∀ event ∈ events, sparesQueue event = true) :
    (∀ jobId i j, jobId ∈ returnedBy (Runs.run step (start clock rows.row) events) i →
      jobId ∈ returnedBy (Runs.run step (start clock rows.row) events) j → i = j) ∧
    (∀ i, (returnedBy (Runs.run step (start clock rows.row) events) i).Nodup) ∧
    (∀ (i limit : Nat) (found : List JobRow) (left : Option JobStatus),
      (Runs.run step (start clock rows.row) events).calls[i]? =
        some ⟨.claimQueuedJobs limit, .returned (.jobs found) left⟩ → found.length ≤ limit) ∧
    (∀ first event rest, events = first ++ event :: rest → ∀ i jobId,
      jobId ∉ returnedBy (Runs.run step (start clock rows.row) first) i →
      jobId ∈ returnedBy (Runs.run step (start clock rows.row) (first ++ [event])) i →
      (Runs.run step (start clock rows.row) first).statusOf jobId = some .queued ∧
      (Runs.run step (start clock rows.row) (first ++ [event])).statusOf jobId =
        some .running) := by
  have inv := run_claimInv clock rows events spares
  refine ⟨?_, ?_, ?_, ?_⟩
  · intro jobId i j left right
    by_contra distinct
    obtain ⟨p, present, member⟩ := returnedBy_of_mem _ i jobId left
    obtain ⟨q, present', member'⟩ := returnedBy_of_mem _ j jobId right
    exact inv.apart i j p q distinct present present' member member'
  · intro i
    rw [returnedBy]
    rcases found : (Runs.run step (start clock rows.row) events).calls[i]? with _ | call
    · exact .nil
    · exact (inv.takes i call found).once
  · intro i limit found left present
    have room := (inv.takes i _ present).room limit rfl
    rwa [claimedIds, List.length_map] at room
  · intro first event rest split i jobId before after
    have earlier := run_claimInv clock rows first fun other member =>
      spares other (split ▸ List.mem_append_left _ member)
    rw [Runs.run_append] at after ⊢
    exact step_returned _ event earlier i jobId after before

/-! A claim of the queue and a claim by id meet on one job. -/

def waitingRows : JobRows where
  row jobId := if jobId = "job-1" then some (.queued "job-1" "genesis-research" 0) else none
  keyed jobId found present := by
    split at present
    · rename_i same
      rw [same, ← Option.some.inj present]
      rfl
    · contradiction

def racingClaims : List StoreEvent :=
  [.call (.claimQueuedJobs 5), .call (.claimJobById "job-1"), .touch 0 "job-1", .advance 1,
   .commit 0, .advance 1]

theorem racing_claims :
    returnedBy (Runs.run step (start 0 waitingRows.row) racingClaims) 0 = ["job-1"] ∧
      ∀ j, "job-1" ∈ returnedBy (Runs.run step (start 0 waitingRows.row) racingClaims) j → 0 = j := by
  have returned : returnedBy (Runs.run step (start 0 waitingRows.row) racingClaims) 0 = ["job-1"] := by
    decide
  have once := claimed_at_most_once 0 waitingRows racingClaims (by decide)
  refine ⟨returned, fun j member => once.1 "job-1" 0 j ?_ member⟩
  rw [returned]
  exact List.mem_singleton_self _

end GenesisAgents
