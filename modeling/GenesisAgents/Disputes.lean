import GenesisAgents.WorkerCalls
import GenesisAgents.TerminalStatus

/-! Who may end a dispute? DISPUTED is not among the terminal statuses, so the guard of
`update_job_status` lets an automatic write leave it. -/

namespace GenesisAgents

open RowLocks
open StoreState (isOver completion statusOf)

def DisputesHeld (calls : List Call) (table : Table JobId Nat JobRow) : Prop :=
  ∀ jobId cell i row, table jobId = some cell → cell.pending = some (i, row) →
    (cell.committed.status = .disputed ↔ row.status = .disputed) ∨
      ∃ u began fromStatus touched, u.jobId = jobId ∧ row.status = u.newStatus ∧
        calls[i]? = some ⟨.updateJobStatus u, .holding began fromStatus touched⟩

theorem disputes_set (calls : List Call) (table : Table JobId Nat JobRow) (i : Nat) (old new : Call)
    (held : DisputesHeld calls table) (present : calls[i]? = some old)
    (other : ∀ u began fromStatus touched,
      old ≠ ⟨.updateJobStatus u, .holding began fromStatus touched⟩) :
    DisputesHeld (calls.set i new) table := by
  intro jobId cell k row found pending
  rcases held jobId cell k row found pending with
    kept | ⟨u, began, fromStatus, touched, about, written, there⟩
  · exact .inl kept
  · have distinct : i ≠ k := by
      rintro rfl
      exact other u began fromStatus touched (Option.some.inj (present.symm.trans there))
    exact .inr ⟨u, began, fromStatus, touched, about, written, by
      rw [List.getElem?_set_ne distinct, there]⟩

theorem latest_disputed (calls : List Call) (table : Table JobId Nat JobRow) (jobId : JobId)
    (cell : Cell Nat JobRow) (i : Nat) (call : Call) (held : DisputesHeld calls table)
    (present : calls[i]? = some call) (found : table jobId = some cell) (unlocked : cell.free i = true)
    (other : ∀ u began fromStatus touched,
      call ≠ ⟨.updateJobStatus u, .holding began fromStatus touched⟩) :
    cell.committed.status = .disputed ↔ cell.latest.status = .disputed := by
  cases pending : cell.pending with
  | none => rw [Cell.latest, pending]
  | some version =>
    obtain ⟨owner, row⟩ := version
    obtain rfl := cell.free_of_held owner i row pending unlocked
    rw [Cell.latest, pending]
    rcases held jobId cell owner row found pending with kept | ⟨u, b, f, t, -, -, there⟩
    · exact kept
    · exact absurd (Option.some.inj (present.symm.trans there)) (other u b f t)

theorem hold_disputes (calls : List Call) (table : Table JobId Nat JobRow) (event : StoreEvent)
    (i : Nat) (request : StoreCall) (old : CallPhase) (began : Int) (fromStatus : Option JobStatus)
    (touched : List JobId) (jobId : JobId) (f : JobRow → JobRow) (cell : Cell Nat JobRow)
    (held : DisputesHeld calls table) (present : calls[i]? = some ⟨request, old⟩)
    (found : table jobId = some cell) (unlocked : cell.free i = true)
    (writes : RowWrite event i request old began fromStatus touched jobId f cell) :
    DisputesHeld (calls.set i ⟨request, .holding began fromStatus (touched ++ [jobId])⟩)
      (table.write i jobId f) := by
  have inside := (List.getElem?_eq_some_iff.mp present).1
  have other : ∀ u began fromStatus touched, (⟨request, old⟩ : Call) ≠
      ⟨.updateJobStatus u, .holding began fromStatus touched⟩ := by
    rintro u b g t same
    obtain ⟨rfl, rfl⟩ := Call.mk.inj same
    cases writes
  intro id cell' k row present' pending
  by_cases same : id = jobId
  · subst same
    rw [Table.write, Function.update_self, found, Option.map_some] at present'
    obtain rfl := Option.some.inj present'
    obtain ⟨rfl, rfl⟩ := Prod.mk.inj (Option.some.inj pending)
    have latest := latest_disputed calls table id cell i _ held present found unlocked other
    cases writes with
    | update u began fromStatus cell advances =>
      exact .inr ⟨u, began, some fromStatus, _, rfl, rfl, List.getElem?_set_self inside⟩
    | beat jobId began cell => exact .inl latest
    | claim jobId began cell matching =>
      rw [matching] at latest
      exact .inl (latest.trans (by simp [JobRow.claim]))
    | claimOne limit phase began touched jobId cell room matching earlier =>
      rw [matching] at latest
      exact .inl (latest.trans (by simp [JobRow.claim]))
    | expire minutes phase began touched jobId cell matching earlier =>
      rw [isStale_running _ _ _ matching] at latest
      exact .inl (latest.trans (by simp [JobRow.expire]))
  · rw [Table.write, Function.update_of_ne same] at present'
    exact disputes_set calls table i _ _ held present other id cell' k row present' pending

theorem end_disputes (calls : List Call) (table table' : Table JobId Nat JobRow) (i : Nat) (new : Call)
    (held : DisputesHeld calls table)
    (others : ∀ jobId cell k row, table' jobId = some cell → cell.pending = some (k, row) →
      k ≠ i ∧ table jobId = some cell) :
    DisputesHeld (calls.set i new) table' := by
  intro jobId cell k row found pending
  obtain ⟨distinct, before⟩ := others jobId cell k row found pending
  rcases held jobId cell k row before pending with kept | ⟨u, b, f, t, about, written, there⟩
  · exact .inl kept
  · exact .inr ⟨u, b, f, t, about, written, by
      rw [List.getElem?_set_ne (Ne.symm distinct), there]⟩

theorem step_disputes (σ : StoreState) (event : StoreEvent) (held : DisputesHeld σ.calls σ.table) :
    DisputesHeld (σ.step event).calls (σ.step event).table := by
  have moved := step_cases σ event
  generalize (σ.step event).calls = calls at moved ⊢
  generalize (σ.step event).table = table at moved ⊢
  cases moved with
  | same => exact held
  | start request starts =>
    intro jobId cell k row found pending
    rcases held jobId cell k row found pending with kept | ⟨u, b, f, t, about, written, there⟩
    · exact .inl kept
    · have inside := (List.getElem?_eq_some_iff.mp there).1
      exact .inr ⟨u, b, f, t, about, written, by rw [List.getElem?_append_left inside, there]⟩
  | read i u row advances present found accepted =>
    exact disputes_set _ _ i _ _ held present (by simp)
  | refuse i u left advances present found refused =>
    exact disputes_set _ _ i _ _ held present (by simp)
  | miss i jobId present => exact disputes_set _ _ i _ _ held present (by simp)
  | empty i request old jobId began fromStatus present running single absent later =>
    apply disputes_set _ _ i _ _ held present
    rintro u b f t same
    obtain ⟨rfl, rfl⟩ := Call.mk.inj same
    obtain ⟨_, _, impossible⟩ := later u rfl
    contradiction
  | hold i request old began fromStatus touched jobId f cell present running found unlocked writes =>
    exact hold_disputes σ.calls σ.table event i request old began fromStatus touched jobId f cell held
      present found unlocked writes
  | commit i call result events present complete commits =>
    apply end_disputes _ _ _ i _ held
    intro jobId cell k row found pending
    exact σ.table.pending_commit i k jobId cell row found pending
  | fail i call present running =>
    apply end_disputes _ _ _ i _ held
    intro jobId cell k row found pending
    exact σ.table.pending_rollback i k jobId cell row found pending

/-- A dispute begins and ends at the commit of a status update only. -/
theorem step_turns_dispute (σ : StoreState) (event : StoreEvent) (held : DisputesHeld σ.calls σ.table)
    (jobId : JobId) (turned : ¬(σ.statusOf jobId = some .disputed ↔
      (σ.step event).statusOf jobId = some .disputed)) :
    ∃ i u began fromStatus touched, event = .commit i ∧ u.jobId = jobId ∧
      (σ.step event).statusOf jobId = some u.newStatus ∧
      σ.calls[i]? = some ⟨.updateJobStatus u, .holding began fromStatus touched⟩ := by
  have moved := step_cases σ event
  have same_read (table : Table JobId Nat JobRow) (same : table.read = σ.table.read) :
      σ.statusOf jobId = some .disputed ↔ (table.read jobId).map JobRow.status = some .disputed := by
    rw [same]
    exact Iff.rfl
  have statusOf_eq (τ : StoreState) : τ.statusOf jobId = (τ.table.read jobId).map JobRow.status := rfl
  rw [statusOf_eq (σ.step event)] at turned ⊢
  generalize (σ.step event).calls = calls at moved
  generalize (σ.step event).table = table at moved turned ⊢
  cases moved with
  | hold i request old began fromStatus touched id f cell present running found unlocked writes =>
    exact absurd (same_read _ (Table.read_write _ _ _ _)) turned
  | fail i call present running => exact absurd (same_read _ (Table.read_rollback _ _)) turned
  | commit i call result events present complete commits =>
    cases found : σ.table jobId with
    | none =>
      refine absurd (iff_of_false ?_ ?_) turned
      · simp [statusOf, Table.read, found]
      · simp [Table.read, Table.commit, found]
    | some cell =>
      have before : σ.statusOf jobId = some cell.committed.status := by
        simp [statusOf, Table.read, found]
      cases pending : cell.pending with
      | none =>
        have after : ((σ.table.commit i).read jobId).map JobRow.status = some cell.committed.status := by
          simp [Table.read, Table.commit, found, Cell.commit, pending]
        exact absurd (by rw [before, after]) turned
      | some version =>
        obtain ⟨owner, row⟩ := version
        by_cases own : owner = i
        · subst own
          have published := σ.table.read_commit_of_holds owner jobId row ⟨cell, found, pending⟩
          rw [published, Option.map_some] at turned ⊢
          rcases held jobId cell owner row found pending with kept | ⟨u, b, f, t, about, written, there⟩
          · rw [before, Option.some_inj, Option.some_inj] at turned
            exact absurd kept turned
          · exact ⟨owner, u, b, f, t, commits, about, congrArg some written, there⟩
        · have kept := σ.table.commit_held owner i jobId cell row found pending own
          have after : ((σ.table.commit i).read jobId).map JobRow.status = some cell.committed.status := by
            simp [Table.read, kept]
          exact absurd (by rw [before, after]) turned
  | _ => exact absurd (same_read _ rfl) turned

theorem step_ends_dispute (σ : StoreState) (event : StoreEvent) (held : DisputesHeld σ.calls σ.table)
    (jobId : JobId) (before : σ.statusOf jobId = some .disputed)
    (after : (σ.step event).statusOf jobId ≠ some .disputed) :
    ∃ i u began fromStatus touched, event = .commit i ∧ u.jobId = jobId ∧
      u.newStatus ≠ .disputed ∧
      σ.calls[i]? = some ⟨.updateJobStatus u, .holding began fromStatus touched⟩ := by
  obtain ⟨i, u, began, fromStatus, touched, commits, about, left, there⟩ :=
    step_turns_dispute σ event held jobId fun same => after (same.mp before)
  refine ⟨i, u, began, fromStatus, touched, commits, about, ?_, there⟩
  intro same
  rw [left, same] at after
  exact after rfl

/-- An update that is no human decision and writes another status than DISPUTED. -/
def StatusUpdate.automatic (u : StatusUpdate) : Bool :=
  !u.allowTerminalOverride && u.newStatus != .disputed

def Call.past : Call → Option JobId
  | ⟨.updateJobStatus u, .selected _ _⟩ => if u.automatic then some u.jobId else none
  | ⟨.updateJobStatus u, .holding _ _ _⟩ => if u.automatic then some u.jobId else none
  | _ => none

/-- The two ways past the guard: an automatic update reads a disputed row, which is not terminal, or the
dispute is committed after an automatic update has read the row and before it writes. -/
def missesDispute (σ : StoreState) : StoreEvent → Bool
  | .advance i =>
    match σ.calls[i]? with
    | some ⟨.updateJobStatus u, .ready⟩ => u.automatic && σ.statusOf u.jobId == some .disputed
    | _ => false
  | .commit i =>
    match σ.calls[i]? with
    | some ⟨.updateJobStatus u, .holding _ _ _⟩ =>
      u.newStatus == .disputed && σ.calls.any fun call => call.past == some u.jobId
    | _ => false
  | _ => false

/-- No automatic update is past its guard while the row is disputed. -/
def Unthreatened (σ : StoreState) : Prop :=
  ∀ call ∈ σ.calls, ∀ jobId, call.past = some jobId → σ.statusOf jobId ≠ some .disputed

theorem past_set (calls : List Call) (i : Nat) (old new : Call) (jobId : JobId)
    (present : calls[i]? = some old) (kept : new.past = some jobId → old.past = some jobId)
    (call : Call) (member : call ∈ calls.set i new) (past : call.past = some jobId) :
    ∃ earlier ∈ calls, earlier.past = some jobId := by
  rcases List.mem_or_eq_of_mem_set member with there | rfl
  · exact ⟨call, there, past⟩
  · exact ⟨old, List.mem_of_getElem? present, kept past⟩

theorem past_step (σ : StoreState) (event : StoreEvent) (call : Call) (jobId : JobId)
    (member : call ∈ (σ.step event).calls) (past : call.past = some jobId) :
    (∃ earlier ∈ σ.calls, earlier.past = some jobId) ∨
      ∃ i u, event = .advance i ∧ σ.calls[i]? = some ⟨.updateJobStatus u, .ready⟩ ∧
        u.automatic = true ∧ u.jobId = jobId ∧ (σ.step event).statusOf jobId = σ.statusOf jobId := by
  have moved := step_cases σ event
  have statusOf_eq : (σ.step event).statusOf jobId = ((σ.step event).table.read jobId).map JobRow.status := rfl
  rw [statusOf_eq]
  generalize (σ.step event).calls = calls at moved member
  generalize (σ.step event).table = table at moved
  cases moved with
  | same => exact .inl ⟨call, member, past⟩
  | start request starts =>
    rcases List.mem_append.mp member with there | new
    · exact .inl ⟨call, there, past⟩
    · rw [List.mem_singleton.mp new] at past
      cases request <;> cases past
  | read i u row advances present found accepted =>
    rcases List.mem_or_eq_of_mem_set member with there | rfl
    · exact .inl ⟨call, there, past⟩
    · right
      simp only [Call.past] at past
      split at past
      · rename_i automatic
        exact ⟨i, u, advances, present, automatic, Option.some.inj past, rfl⟩
      · cases past
  | refuse i u left advances present found refused =>
    exact .inl (past_set _ i _ _ jobId present (by simp [Call.past]) call member past)
  | miss i id present =>
    exact .inl (past_set _ i _ _ jobId present (by simp [Call.past]) call member past)
  | empty i request old id began fromStatus present running single absent later =>
    refine .inl (past_set _ i _ _ jobId present ?_ call member past)
    intro is
    cases request with
    | updateJobStatus u =>
      obtain ⟨_, _, rfl⟩ := later u rfl
      exact is
    | _ => cases is
  | hold i request old began fromStatus touched id f cell present running found unlocked writes =>
    refine .inl (past_set _ i _ _ jobId present ?_ call member past)
    intro is
    cases writes with
    | update u began fromStatus cell advances => exact is
    | _ => cases is
  | commit i old result events present complete commits =>
    refine .inl (past_set _ i _ _ jobId present ?_ call member past)
    intro is
    cases old with
    | mk request phase => cases request <;> cases is
  | fail i old present running =>
    refine .inl (past_set _ i _ _ jobId present ?_ call member past)
    intro is
    cases old with
    | mk request phase => cases request <;> cases is

theorem unthreatened_step (σ : StoreState) (event : StoreEvent) (held : DisputesHeld σ.calls σ.table)
    (unthreatened : Unthreatened σ) (guarded : missesDispute σ event = false) :
    Unthreatened (σ.step event) := by
  intro call member jobId past disputed
  rcases past_step σ event call jobId member past with
    ⟨earlier, there, before⟩ | ⟨i, u, rfl, present, automatic, rfl, same⟩
  · have open' := unthreatened earlier there jobId before
    obtain ⟨i, u, began, fromStatus, touched, rfl, about, left, holding⟩ :=
      step_turns_dispute σ event held jobId fun same => open' (same.mpr disputed)
    have disputes : u.newStatus = .disputed := Option.some.inj (left.symm.trans disputed)
    have waits : σ.calls.any (fun call => call.past == some u.jobId) = true :=
      List.any_eq_true.mpr ⟨earlier, there, by rw [before, about, beq_self_eq_true]⟩
    rw [missesDispute, holding] at guarded
    dsimp only at guarded
    rw [disputes, waits] at guarded
    cases guarded
  · rw [missesDispute, present] at guarded
    dsimp only at guarded
    rw [automatic, ← same, disputed] at guarded
    cases guarded

open SystemState

/-- Statements at the store that are not those of the endpoints: no call has the override. -/
def automatic : SystemEvent → Bool
  | .store event => withoutOverride event
  | _ => true

/-- The commit of the update of `admin_refund` or `admin_resolve`. -/
def HumanDecision (σ : SystemState) (event : SystemEvent) : Prop :=
  ∃ i, event = .store (.commit i) ∧ ∃ request ∈ σ.admins, request.phase = .updating i ∧
    (request.action = .adminRefund ∨ request.action = .adminResolve)

/-- No automatic update gets past the guard of `update_job_status` at a disputed row. -/
def heedsDispute (σ : SystemState) : SystemEvent → Bool
  | .store event => !missesDispute σ.store event
  | _ => true

structure DisputeInv (σ : SystemState) : Prop where
  disputes : DisputesHeld σ.store.calls σ.store.table
  landed : AllLanded σ.store
  /-- An update with the override is that of an endpoint that waits for it. -/
  overrides : ∀ (i : Nat) (u : StatusUpdate) (phase : CallPhase),
    σ.store.calls[i]? = some ⟨.updateJobStatus u, phase⟩ → u.allowTerminalOverride = true →
    isOver phase = false →
    ∃ request ∈ σ.admins, request.phase = .updating i ∧ request.action.status = u.newStatus
  waiting : ∀ request ∈ σ.admins, ∀ i, request.phase = .updating i →
    ∃ u phase, σ.store.calls[i]? = some ⟨.updateJobStatus u, phase⟩ ∧ u.allowTerminalOverride = true

theorem step_overrides (store : StoreState) (event : StoreEvent) (i : Nat) (u : StatusUpdate)
    (phase : CallPhase) (found : (store.step event).calls[i]? = some ⟨.updateJobStatus u, phase⟩)
    (unfinished : isOver phase = false) :
    (∃ earlier, store.calls[i]? = some ⟨.updateJobStatus u, earlier⟩ ∧ isOver earlier = false) ∨
      (i = store.calls.length ∧ event = .call (.updateJobStatus u)) := by
  rcases step_request store event i _ found with ⟨earlier, there⟩ | ⟨last, starts⟩
  · left
    refine ⟨earlier, there, ?_⟩
    obtain ⟨phase', moved, same⟩ := step_call store event i _ there
    obtain ⟨-, rfl⟩ := Call.mk.inj (Option.some.inj (found.symm.trans moved))
    rcases ended : isOver earlier with _ | _
    · rfl
    · rw [same ended, ended] at unfinished
      contradiction
  · exact .inr ⟨last, starts⟩

theorem store_disputeInv (σ : SystemState) (event : StoreEvent) (inv : DisputeInv σ)
    (plain : withoutOverride event = true) : DisputeInv { σ with store := σ.store.step event } where
  disputes := step_disputes σ.store event inv.disputes
  landed := step_landed σ.store event inv.landed
  overrides i u phase found override unfinished := by
    rcases step_overrides σ.store event i u phase found unfinished with
      ⟨earlier, there, running⟩ | ⟨-, starts⟩
    · exact inv.overrides i u earlier there override running
    · rw [starts, withoutOverride, override] at plain
      contradiction
  waiting request member i updating := by
    obtain ⟨u, phase, there, override⟩ := inv.waiting request member i updating
    obtain ⟨phase', moved, -⟩ := step_call σ.store event i _ there
    exact ⟨u, phase', moved, override⟩

theorem override_disputeInv (P : Processing) (σ : SystemState) (k : Nat) (request old : AdminRequest)
    (inv : DisputeInv σ) (present : σ.admins[k]? = some old)
    (ready : ∀ i, old.phase ≠ .updating i) : DisputeInv (SystemState.override P σ k request) := by
  have inside := (List.getElem?_eq_some_iff.mp present).1
  refine ⟨step_disputes σ.store _ inv.disputes, step_landed σ.store _ inv.landed, ?_, ?_⟩
  · intro i u phase found override unfinished
    rcases step_overrides σ.store _ i u phase found unfinished with
      ⟨earlier, there, running⟩ | ⟨last, starts⟩
    · obtain ⟨waiter, member, updating, status⟩ := inv.overrides i u earlier there override running
      obtain ⟨j, at_j⟩ := List.mem_iff_getElem?.mp member
      have distinct : k ≠ j := by
        rintro rfl
        obtain rfl := Option.some.inj (present.symm.trans at_j)
        exact ready i updating
      refine ⟨waiter, List.mem_iff_getElem?.mpr ⟨j, ?_⟩, updating, status⟩
      simp only [SystemState.override, setAdmin, callUpdate]
      rw [List.getElem?_set_ne distinct, at_j]
    · obtain rfl := StoreCall.updateJobStatus.inj (StoreEvent.call.inj starts)
      exact ⟨_, List.mem_set inside _, by rw [last], rfl⟩
  · intro waiter member i updating
    rcases List.mem_or_eq_of_mem_set member with earlier | rfl
    · obtain ⟨u, phase, there, override⟩ := inv.waiting waiter earlier i updating
      obtain ⟨phase', moved, -⟩ := step_call σ.store _ i _ there
      exact ⟨u, phase', moved, override⟩
    · obtain rfl := AdminPhase.updating.inj updating
      exact ⟨{ StatusUpdate.plain P.job.id request.action.status with allowTerminalOverride := true },
        .ready, by simp [SystemState.override, setAdmin, callUpdate, StoreState.step], rfl⟩

theorem step_disputeInv (P : Processing) (σ : SystemState) (event : SystemEvent)
    (plain : automatic event = true) (inv : DisputeInv σ) : DisputeInv (step P σ event) := by
  have moved := system_cases P σ event
  generalize step P σ event = τ at moved ⊢
  cases moved with
  | idle => exact inv
  | store inner asked =>
    rw [asked] at plain
    exact store_disputeInv σ inner inv plain
  | execute outcome upload running =>
    have written := store_disputeInv σ (.call (.updateJobStatus (P.exitOf outcome upload).1.update)) inv
      (by simp [withoutOverride, (exitOf_update P outcome upload).2.2])
    exact ⟨written.disputes, written.landed, written.overrides, written.waiting⟩
  | handle exit i type message waiting raised =>
    have written := store_disputeInv σ (.call (.updateJobStatus (P.raisedExit type message).update)) inv
      rfl
    exact ⟨written.disputes, written.landed, written.overrides, written.waiting⟩
  | request action =>
    refine ⟨inv.disputes, inv.landed, ?_, ?_⟩
    · intro i u phase found override unfinished
      obtain ⟨waiter, member, rest⟩ := inv.overrides i u phase found override unfinished
      exact ⟨waiter, List.mem_append_left _ member, rest⟩
    · intro waiter member i updating
      rcases List.mem_append.mp member with earlier | new
      · exact inv.waiting waiter earlier i updating
      · rw [List.mem_singleton.mp new] at updating
        contradiction
  | turn k request phase present onward reads settled ended =>
    refine ⟨inv.disputes, inv.landed, ?_, ?_⟩
    · intro i u callPhase found override unfinished
      obtain ⟨waiter, member, updating, status⟩ :=
        inv.overrides i u callPhase found override unfinished
      obtain ⟨j, at_j⟩ := List.mem_iff_getElem?.mp member
      have distinct : k ≠ j := by
        rintro rfl
        obtain rfl := Option.some.inj (present.symm.trans at_j)
        obtain ⟨last, called, finished⟩ := ended i updating
        rw [callPhase_eq σ i _ _ _ found called, finished] at unfinished
        contradiction
      refine ⟨waiter, List.mem_iff_getElem?.mpr ⟨j, ?_⟩, updating, status⟩
      rw [setAdmin, List.getElem?_set_ne distinct, at_j]
    · intro waiter member i updating
      rcases List.mem_or_eq_of_mem_set member with earlier | rfl
      · exact inv.waiting waiter earlier i updating
      · exact absurd updating (settled i)
  | override k request present reading =>
    exact override_disputeInv P σ k request request inv present (by simp [reading])
  | release k request escrowId present ready asked =>
    exact override_disputeInv P { σ with escrowCalls := _ } k { request with released := true } request
      ⟨inv.disputes, inv.landed, inv.overrides, inv.waiting⟩ present (by simp [ready])
  | _ => exact ⟨inv.disputes, inv.landed, inv.overrides, inv.waiting⟩

theorem run_disputeInv (P : Processing) (clock : Int) (rows : JobId → Option JobRow)
    (events : List SystemEvent) (plain : ∀ event ∈ events, automatic event = true) :
    DisputeInv (Runs.run (step P) (start clock rows) events) := by
  apply Runs.run_of_events (step P) DisputeInv (fun event => automatic event = true)
    (step_disputeInv P) events plain
  refine ⟨?_, start_landed clock rows, by simp [start, StoreState.start], by simp [start]⟩
  intro jobId cell i row found pending
  simp only [start, StoreState.start, Table.ofRows, Option.map_eq_some_iff] at found
  obtain ⟨_, -, rfl⟩ := found
  contradiction

/-- Every step that ends a dispute is the commit of a status update. -/
theorem system_ends_dispute (P : Processing) (σ : SystemState) (event : SystemEvent)
    (inv : DisputeInv σ) (jobId : JobId) (before : σ.store.statusOf jobId = some .disputed)
    (after : (step P σ event).store.statusOf jobId ≠ some .disputed) :
    ∃ i u began fromStatus touched, event = .store (.commit i) ∧ u.jobId = jobId ∧
      u.newStatus ≠ .disputed ∧
      σ.store.calls[i]? = some ⟨.updateJobStatus u, .holding began fromStatus touched⟩ := by
  have called (u : StatusUpdate)
      (after : (σ.store.step (.call (.updateJobStatus u))).statusOf jobId ≠ some .disputed) :
      False := after before
  have moved := system_cases P σ event
  generalize step P σ event = τ at moved after
  cases moved with
  | store inner asked =>
    obtain ⟨i, u, b, f, t, commits, rest⟩ :=
      step_ends_dispute σ.store inner inv.disputes jobId before after
    exact ⟨i, u, b, f, t, by rw [asked, commits], rest⟩
  | execute outcome upload running => exact (called _ after).elim
  | handle exit i type message waiting raised => exact (called _ after).elim
  | override k request present reading => exact (called _ after).elim
  | release k request escrowId present ready asked => exact (called _ after).elim
  | _ => exact absurd before after

theorem step_unthreatened (P : Processing) (σ : SystemState) (event : SystemEvent) (inv : DisputeInv σ)
    (unthreatened : Unthreatened σ.store) (heeds : heedsDispute σ event = true) :
    Unthreatened (step P σ event).store := by
  have called (request : StoreCall) : Unthreatened (σ.store.step (.call request)) :=
    unthreatened_step σ.store _ inv.disputes unthreatened rfl
  have moved := system_cases P σ event
  generalize step P σ event = τ at moved ⊢
  cases moved with
  | store inner asked =>
    rw [asked, heedsDispute, Bool.not_eq_true'] at heeds
    exact unthreatened_step σ.store inner inv.disputes unthreatened heeds
  | execute outcome upload running => exact called _
  | handle exit i type message waiting raised => exact called _
  | override k request present reading => exact called _
  | release k request escrowId present ready asked => exact called _
  | _ => exact unthreatened

/-- While no automatic update is past its guard, only a human decision ends a dispute. -/
theorem unthreatened_decided (P : Processing) (σ : SystemState) (event : SystemEvent) (inv : DisputeInv σ)
    (unthreatened : Unthreatened σ.store) (jobId : JobId) (before : σ.store.statusOf jobId = some .disputed) :
    (step P σ event).store.statusOf jobId = some .disputed ∨ HumanDecision σ event := by
  by_contra ended
  rw [not_or] at ended
  obtain ⟨i, u, began, fromStatus, touched, rfl, about, leaves, holding⟩ :=
    system_ends_dispute P σ event inv jobId before ended.1
  cases override : u.allowTerminalOverride with
  | true =>
    obtain ⟨request, member, updating, status⟩ := inv.overrides i u _ holding override rfl
    refine ended.2 ⟨i, rfl, request, member, updating, ?_⟩
    cases action : request.action with
    | fileDispute =>
      rw [action] at status
      exact absurd status.symm leaves
    | adminRefund => exact .inl rfl
    | adminResolve => exact .inr rfl
  | false =>
    have automatic : u.automatic = true := by
      rw [StatusUpdate.automatic, override, bne_iff_ne.mpr leaves]
      rfl
    refine unthreatened _ (List.mem_of_getElem? holding) jobId ?_ before
    rw [Call.past, if_pos automatic, about]

/-- Every dispute that stands in the run from here is ended by `admin_refund` or `admin_resolve`. -/
def Decided (P : Processing) (σ : SystemState) (events : List SystemEvent) : Prop :=
  ∀ first event rest, events = first ++ event :: rest → ∀ jobId,
    (Runs.run (step P) σ first).store.statusOf jobId = some .disputed →
    (Runs.run (step P) σ (first ++ [event])).store.statusOf jobId = some .disputed ∨
      HumanDecision (Runs.run (step P) σ first) event

theorem commit_update (store : StoreState) (i : Nat) (u : StatusUpdate) (began : Int)
    (fromStatus : Option JobStatus) (touched : List JobId) (row : JobRow)
    (there : store.calls[i]? = some ⟨.updateJobStatus u, .holding began fromStatus touched⟩)
    (owns : store.table.Holds i u.jobId row) (written : row.status = u.newStatus) :
    ∃ cell, (store.step (.commit i)).table u.jobId = some cell ∧ cell.pending = none ∧
      cell.committed.status = u.newStatus ∧
      (store.step (.commit i)).calls.length = store.calls.length ∧
      ∀ j, j ≠ i → (store.step (.commit i)).calls[j]? = store.calls[j]? := by
  obtain ⟨cell, found, pending⟩ := owns
  have committed : store.step (.commit i) = store.commit i := rfl
  rw [committed, StoreState.commit]
  simp only [there, completion]
  refine ⟨cell.commit i, by rw [Table.commit, found]; rfl, ?_, ?_, List.length_set, ?_⟩
  · simp [Cell.commit, pending]
  · simp [Cell.commit, pending, written]
  · intro j other
    exact List.getElem?_set_ne (Ne.symm other)

/-- An automatic update that has read a row, now disputed and free, ends the dispute. -/
theorem selected_undecided (P : Processing) (σ : SystemState) (inv : DisputeInv σ) (j : Nat) (u : StatusUpdate)
    (began : Int) (fromStatus : JobStatus) (cell : Cell Nat JobRow)
    (there : σ.store.calls[j]? = some ⟨.updateJobStatus u, .selected began fromStatus⟩)
    (automatic : u.automatic = true) (found : σ.store.table u.jobId = some cell)
    (disputed : cell.committed.status = .disputed) (unlocked : cell.free j = true) :
    ¬Decided P σ [.store (.advance j), .store (.commit j)] := by
  intro decided
  rw [StatusUpdate.automatic, Bool.and_eq_true, Bool.not_eq_true', bne_iff_ne] at automatic
  have inside := (List.getElem?_eq_some_iff.mp there).1
  have writes : σ.store.step (.advance j) = σ.store.hold j (.updateJobStatus u) began (some fromStatus) []
      u.jobId (u.apply began) := by
    simp [StoreState.step, StoreState.advance, there, StoreState.advanceUpdate, found, unlocked]
  have held : (σ.store.step (.advance j)).calls[j]? =
      some ⟨.updateJobStatus u, .holding began (some fromStatus) [u.jobId]⟩ := by
    rw [writes]
    exact List.getElem?_set_self inside
  have table : (σ.store.step (.advance j)).table = σ.store.table.write j u.jobId (u.apply began) := by
    rw [writes]
    rfl
  have stays : (σ.store.step (.advance j)).statusOf u.jobId = some .disputed := by
    rw [statusOf, table, Table.read_write, Table.read, found, Option.map_some, Option.map_some, disputed]
  have owns := σ.store.table.holds_write_self j u.jobId (u.apply began) cell found
  rw [← table] at owns
  have ends : ((σ.store.step (.advance j)).step (.commit j)).statusOf u.jobId = some u.newStatus := by
    obtain ⟨after, there', -, status, -⟩ := commit_update _ j u began _ _ _ held owns
      (StatusUpdate.apply_status u began cell.latest)
    rw [statusOf, Table.read, there', Option.map_some, Option.map_some, status]
  have decides := decided [.store (.advance j)] (.store (.commit j)) [] rfl u.jobId stays
  have next : DisputeInv { σ with store := σ.store.step (.advance j) } :=
    store_disputeInv σ (.advance j) inv rfl
  rcases decides with kept | ⟨i, same, request, member, updating, -⟩
  · exact automatic.2 (Option.some.inj (ends.symm.trans kept))
  · obtain rfl := StoreEvent.commit.inj (SystemEvent.store.inj same)
    obtain ⟨u', phase, there', override⟩ := next.waiting request member j updating
    obtain ⟨asked, -⟩ := Call.mk.inj (Option.some.inj (held.symm.trans there'))
    obtain rfl := StoreCall.updateJobStatus.inj asked
    rw [automatic.1] at override
    cases override

theorem past_update (call : Call) (jobId : JobId) (past : call.past = some jobId) :
    ∃ u, u.automatic = true ∧ u.jobId = jobId ∧
      ((∃ began fromStatus, call = ⟨.updateJobStatus u, .selected began fromStatus⟩) ∨
        ∃ began fromStatus touched, call = ⟨.updateJobStatus u, .holding began fromStatus touched⟩) := by
  unfold Call.past at past
  split at past
  · rename_i u began fromStatus
    split at past
    · rename_i automatic
      exact ⟨u, automatic, Option.some.inj past, .inl ⟨began, fromStatus, rfl⟩⟩
    · contradiction
  · rename_i u began fromStatus touched
    split at past
    · rename_i automatic
      exact ⟨u, automatic, Option.some.inj past, .inr ⟨began, fromStatus, touched, rfl⟩⟩
    · contradiction
  · contradiction

def unwritten (store : StoreState) (jobId : JobId) : Bool :=
  (store.table jobId).all fun cell => cell.pending.isNone

theorem free_of_unwritten (store : StoreState) (jobId : JobId) (cell : Cell Nat JobRow) (j : Nat)
    (found : store.table jobId = some cell) (free : unwritten store jobId = true) : cell.free j = true := by
  rw [unwritten, found, Option.all_some] at free
  exact free_of_pending_none cell j free

/-- Where an automatic update gets past the guard, it goes on to end the dispute once the row is free. -/
theorem unheeded_undecided (P : Processing) (σ : SystemState) (event : SystemEvent) (inv : DisputeInv σ)
    (plain : automatic event = true) (unheeded : heedsDispute σ event = false) :
    ∃ jobId j, unwritten (step P σ event).store jobId = true →
      ¬Decided P (step P σ event) [.store (.advance j), .store (.commit j)] := by
  have next := step_disputeInv P σ event plain inv
  cases event with
  | store inner =>
    rw [heedsDispute, Bool.not_eq_false'] at unheeded
    have stepped : (step P σ (.store inner)).store = σ.store.step inner := rfl
    unfold missesDispute at unheeded
    split at unheeded
    · rename_i i
      split at unheeded
      · rename_i u present
        rw [Bool.and_eq_true, beq_iff_eq] at unheeded
        obtain ⟨automatic, disputed⟩ := unheeded
        have inside := (List.getElem?_eq_some_iff.mp present).1
        cases found : σ.store.table u.jobId with
        | none => simp [statusOf, Table.read, found] at disputed
        | some cell =>
          have status : cell.committed.status = .disputed := by
            simpa [statusOf, Table.read, found] using disputed
          have accepted : u.refuses cell.committed.status = false := by
            rw [StatusUpdate.refuses, status]
            rfl
          have reads : σ.store.step (.advance i) =
              σ.store.setPhase i (.updateJobStatus u) (.selected σ.store.clock cell.committed.status) := by
            simp [StoreState.step, StoreState.advance, present, StoreState.advanceUpdate, Table.read, found,
              accepted]
          have table : (step P σ (.store (.advance i))).store.table u.jobId = some cell := by
            rw [stepped, reads]
            exact found
          refine ⟨u.jobId, i, fun free => ?_⟩
          apply selected_undecided P _ next i u σ.store.clock cell.committed.status cell ?_ automatic table
            status (free_of_unwritten _ u.jobId cell i table free)
          rw [stepped, reads]
          exact List.getElem?_set_self inside
      · contradiction
    · rename_i i
      split at unheeded
      · rename_i u began fromStatus touched holding
        rw [Bool.and_eq_true, beq_iff_eq, List.any_eq_true] at unheeded
        obtain ⟨disputes, waiter, member, past⟩ := unheeded
        rw [beq_iff_eq] at past
        obtain ⟨row, owns, written⟩ := inv.landed i _ holding
        obtain ⟨cell, table, free, status, -, others⟩ :=
          commit_update σ.store i u began fromStatus touched row holding owns written
        obtain ⟨j, present⟩ := List.mem_iff_getElem?.mp member
        obtain ⟨v, automatic, about, phase⟩ := past_update waiter u.jobId past
        rcases phase with ⟨began', from', rfl⟩ | ⟨began', from', touched', rfl⟩
        · have other : j ≠ i := by
            rintro rfl
            cases present.symm.trans holding
          refine ⟨v.jobId, j, fun _ => ?_⟩
          rw [← about] at table
          refine selected_undecided P _ next j v began' from' cell ?_ automatic table (status.trans disputes)
            (free_of_pending_none cell j (by rw [free]; rfl))
          exact (others j other).trans present
        · -- the row is locked by the dispute
          obtain ⟨row', owns', -⟩ := inv.landed j _ present
          obtain ⟨mine, found, pending⟩ := owns
          obtain ⟨theirs, found', pending'⟩ := owns'
          rw [about, found] at found'
          rw [← Option.some.inj found', pending] at pending'
          obtain ⟨rfl, -⟩ := Prod.mk.inj (Option.some.inj pending')
          obtain ⟨same, -⟩ := Call.mk.inj (Option.some.inj (holding.symm.trans present))
          rw [← StoreCall.updateJobStatus.inj same, StatusUpdate.automatic, disputes, Bool.and_eq_true] at automatic
          exact absurd automatic.2 (by decide)
      · contradiction
    · contradiction
  | _ => cases unheeded

/-- In a run in which no automatic status update gets past the guard at a disputed row, every dispute is
ended by `admin_refund` or `admin_resolve`; and where one does, it ends the dispute once the row is free. -/
theorem dispute_decided (P : Processing) (clock : Int) (rows : JobId → Option JobRow)
    (events : List SystemEvent) (plain : ∀ event ∈ events, automatic event = true) :
    (Runs.Guarded (step P) heedsDispute (start clock rows) events = true →
      Decided P (start clock rows) events) ∧
    ∀ first event rest, events = first ++ event :: rest →
      heedsDispute (Runs.run (step P) (start clock rows) first) event = false →
      ∃ jobId j, unwritten (Runs.run (step P) (start clock rows) (first ++ [event])).store jobId = true →
        ¬Decided P (Runs.run (step P) (start clock rows) (first ++ [event]))
          [.store (.advance j), .store (.commit j)] := by
  have invs (first rest : List SystemEvent) (split : events = first ++ rest) :=
    run_disputeInv P clock rows first fun other member => plain other (split ▸ List.mem_append_left _ member)
  constructor
  · intro guarded first event rest split jobId before
    rw [split, Runs.guarded_append, Bool.and_eq_true] at guarded
    have heeded := Runs.guarded_and (step P) heedsDispute automatic first (fun other member =>
      plain other (split ▸ List.mem_append_left _ member)) _ guarded.1
    have unthreatened := (Runs.run_invariant (step P) (fun σ => DisputeInv σ ∧ Unthreatened σ.store)
      (fun σ event => automatic event && heedsDispute σ event) (fun σ event holds allowed => by
        rw [Bool.and_eq_true] at allowed
        exact ⟨step_disputeInv P σ event allowed.1 holds.1,
          step_unthreatened P σ event holds.1 holds.2 allowed.2⟩) first _
      ⟨run_disputeInv P clock rows [] (by simp), fun call member => by cases member⟩ heeded).2
    have decided := unthreatened_decided P _ event (invs first (event :: rest) split) unthreatened jobId before
    rwa [Runs.run_append, Runs.run_cons, Runs.run_nil]
  · intro first event rest split unheeded
    rw [Runs.run_append, Runs.run_cons, Runs.run_nil]
    exact unheeded_undecided P _ event (invs first (event :: rest) split)
      (plain event (split ▸ List.mem_append_right _ List.mem_cons_self)) unheeded

/-! A dispute while the worker runs the job. -/

def disputedJob : Processing := .escrowEnabled stalledRow

def disputeFiled : List SystemEvent :=
  [.request .fileDispute, .adminStep 0, .store (.advance 0), .store (.advance 0), .store (.commit 0)]

def workerFails : List SystemEvent :=
  [.execute (.raised "TimeoutError" "slow") .noDirectory, .store (.advance 1), .store (.advance 1)]

theorem worker_ends_dispute :
    ¬∀ (P : Processing) (clock : Int) (rows : JobId → Option JobRow) (events : List SystemEvent),
      (∀ event ∈ events, automatic event = true) → Decided P (start clock rows) events := by
  intro decided
  have ended := decided disputedJob 600000000 stalledRows
    (disputeFiled ++ workerFails ++ [.store (.commit 1)]) (by decide) (disputeFiled ++ workerFails)
    (.store (.commit 1)) [] rfl "job-1" (by decide)
  rcases ended with kept | ⟨i, same, request, member, updating, -⟩
  · exact absurd kept (by decide)
  · obtain rfl := StoreEvent.commit.inj (SystemEvent.store.inj same)
    have idle : ∀ request ∈ (Runs.run (step disputedJob) (start 600000000 stalledRows)
        (disputeFiled ++ workerFails)).admins, request.phase ≠ .updating 1 := by
      intro request member
      rw [List.mem_singleton.mp member]
      exact fun same => absurd (AdminPhase.updating.inj same) (by decide)
    exact idle request member updating

def adminResolves : List SystemEvent :=
  [.request .adminResolve, .adminStep 1, .store (.advance 1), .store (.advance 1)]

theorem admin_ends_dispute :
    HumanDecision (Runs.run (step disputedJob) (start 600000000 stalledRows)
      (disputeFiled ++ adminResolves)) (.store (.commit 1)) := by
  have decided := (dispute_decided disputedJob 600000000 stalledRows
    (disputeFiled ++ adminResolves ++ [.store (.commit 1)]) (by decide)).1 (by decide)
    (disputeFiled ++ adminResolves) (.store (.commit 1)) [] rfl "job-1" (by decide)
  exact decided.resolve_left (by decide)

end GenesisAgents
