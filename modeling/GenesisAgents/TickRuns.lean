import GenesisAgents.RunTick
import GenesisAgents.WorkerCalls
import GenesisAgents.JobClaims

/-! Is a claimed job still RUNNING when its turn comes? Nobody but a reaper pass writes the row of a
job that waits for its turn, and a pass that began in time does not match it. -/

namespace GenesisAgents

open RowLocks StoreState TickState

def AsClaimed (calls : List Call) (table : Table JobId Nat JobRow) (job : JobRow) : Prop :=
  job.status = .running ∧ ∃ cell, table job.id = some cell ∧ cell.committed = job ∧
    ∀ i row, cell.pending = some (i, row) → ∃ minutes began fromStatus touched,
      calls[i]? = some ⟨.expireStaleRunningJobs minutes, .holding began fromStatus touched⟩ ∧
      job.isStale minutes began = true

def LeftAlone (calls : List Call) (jobId : JobId) : Prop :=
  ∀ (i : Nat) (call : Call), calls[i]? = some call → jobOf call.request ≠ some jobId

def SparedBy (store : StoreState) (event : StoreEvent) (job : JobRow) : Prop :=
  ∀ i minutes began fromStatus touched, event = .commit i →
    store.calls[i]? = some ⟨.expireStaleRunningJobs minutes, .holding began fromStatus touched⟩ →
    job.isStale minutes began = false

theorem asClaimed_set (calls : List Call) (table : Table JobId Nat JobRow) (job : JobRow) (i : Nat)
    (old new : Call) (claimed : AsClaimed calls table job) (present : calls[i]? = some old)
    (other : ∀ minutes, old.request ≠ .expireStaleRunningJobs minutes) :
    AsClaimed (calls.set i new) table job := by
  obtain ⟨running, cell, found, committed, passes⟩ := claimed
  refine ⟨running, cell, found, committed, fun k row pending => ?_⟩
  obtain ⟨minutes, began, fromStatus, touched, held, stale⟩ := passes k row pending
  have distinct : i ≠ k := by
    rintro rfl
    obtain rfl := Option.some.inj (present.symm.trans held)
    exact other minutes rfl
  exact ⟨minutes, began, fromStatus, touched, by rw [List.getElem?_set_ne distinct, held], stale⟩

theorem asClaimed_latest (calls : List Call) (cell : Cell Nat JobRow) (job : JobRow) (i : Nat)
    (call : Call) (present : calls[i]? = some call) (committed : cell.committed = job)
    (passes : ∀ i row, cell.pending = some (i, row) → ∃ minutes began fromStatus touched,
      calls[i]? = some ⟨.expireStaleRunningJobs minutes, .holding began fromStatus touched⟩ ∧
      job.isStale minutes began = true)
    (unlocked : cell.free i = true) :
    cell.latest = job ∨ ∃ minutes began fromStatus touched,
      call = ⟨.expireStaleRunningJobs minutes, .holding began fromStatus touched⟩ ∧
      job.isStale minutes began = true := by
  rcases pending : cell.pending with _ | ⟨owner, row⟩
  · exact .inl (by rw [Cell.latest, pending]; exact committed)
  · obtain rfl := cell.free_of_held owner i row pending unlocked
    obtain ⟨minutes, began, fromStatus, touched, held, stale⟩ := passes owner row pending
    obtain rfl := Option.some.inj (present.symm.trans held)
    exact .inr ⟨minutes, began, fromStatus, touched, rfl, stale⟩

theorem hold_asClaimed (calls : List Call) (table : Table JobId Nat JobRow) (event : StoreEvent)
    (job : JobRow) (i : Nat) (request : StoreCall) (old : CallPhase) (began : Int)
    (fromStatus : Option JobStatus) (touched : List JobId) (jobId : JobId) (f : JobRow → JobRow)
    (cell : Cell Nat JobRow) (claimed : AsClaimed calls table job)
    (alone : LeftAlone calls job.id) (present : calls[i]? = some ⟨request, old⟩)
    (found : table jobId = some cell) (unlocked : cell.free i = true)
    (writes : RowWrite event i request old began fromStatus touched jobId f cell) :
    AsClaimed (calls.set i ⟨request, .holding began fromStatus (touched ++ [jobId])⟩)
      (table.write i jobId f) job := by
  have inside := (List.getElem?_eq_some_iff.mp present).1
  obtain ⟨running, own, there, committed, passes⟩ := claimed
  by_cases same : jobId = job.id
  · obtain rfl := Option.some.inj ((same ▸ found).symm.trans there)
    have latest := asClaimed_latest calls cell job i _ present committed passes unlocked
    cases writes with
    | update u began fromStatus cell advances =>
      exact absurd (congrArg some same) (alone i _ present)
    | beat jobId began cell => exact absurd (congrArg some same) (alone i _ present)
    | claim jobId began cell matching => exact absurd (congrArg some same) (alone i _ present)
    | claimOne limit phase began touched jobId cell room matching earlier =>
      rcases latest with asIs | ⟨minutes, _, _, _, impossible, -⟩
      · rw [asIs, running] at matching
        contradiction
      · cases impossible
    | expire minutes phase began touched jobId cell matching earlier =>
      refine ⟨running, cell.write i (JobRow.expire minutes began), ?_, committed, ?_⟩
      · rw [Table.write, ← same, Function.update_self, found, Option.map_some]
      · intro k row pending
        obtain ⟨rfl, -⟩ := Prod.mk.inj (Option.some.inj pending)
        refine ⟨minutes, began, none, touched ++ [jobId], List.getElem?_set_self inside, ?_⟩
        rcases latest with asIs | ⟨minutes', began', _, _, moved, stale⟩
        · rwa [asIs] at matching
        · obtain ⟨asked, rfl⟩ := Call.mk.inj moved
          obtain rfl := StoreCall.expireStaleRunningJobs.inj asked
          rwa [earlier.1]
  · have kept : table.write i jobId f job.id = some own := by
      rw [Table.write, Function.update_of_ne (Ne.symm same), there]
    refine ⟨running, own, kept, committed, fun k row pending => ?_⟩
    obtain ⟨minutes, began', _, _, held, stale⟩ := passes k row pending
    by_cases here : i = k
    · subst here
      obtain ⟨rfl, rfl⟩ := Call.mk.inj (Option.some.inj (present.symm.trans held))
      cases writes with
      | expire minutes phase began touched jobId cell matching earlier =>
        refine ⟨minutes, began, none, touched ++ [jobId], List.getElem?_set_self inside, ?_⟩
        rwa [earlier.1]
    · exact ⟨minutes, began', _, _, by rw [List.getElem?_set_ne here, held], stale⟩

/-- What a step of the store leaves of a job that waits. -/
theorem step_asClaimed (store : StoreState) (event : StoreEvent) (job : JobRow)
    (alone : LeftAlone store.calls job.id) (spared : SparedBy store event job)
    (claimed : AsClaimed store.calls store.table job) :
    AsClaimed (store.step event).calls (store.step event).table job := by
  have moved := step_cases store event
  generalize (store.step event).calls = calls at moved ⊢
  generalize (store.step event).table = table at moved ⊢
  cases moved with
  | same => exact claimed
  | start request starts =>
    obtain ⟨running, cell, found, committed, passes⟩ := claimed
    refine ⟨running, cell, found, committed, fun k row pending => ?_⟩
    obtain ⟨minutes, began, _, _, held, stale⟩ := passes k row pending
    have inside := (List.getElem?_eq_some_iff.mp held).1
    exact ⟨minutes, began, _, _, by rw [List.getElem?_append_left inside, held], stale⟩
  | read i u row advances present found accepted =>
    exact asClaimed_set _ _ job i _ _ claimed present (by simp)
  | refuse i u left advances present found refused =>
    exact asClaimed_set _ _ job i _ _ claimed present (by simp)
  | miss i jobId present => exact asClaimed_set _ _ job i _ _ claimed present (by simp)
  | empty i request old jobId began fromStatus present running single absent later =>
    apply asClaimed_set _ _ job i _ _ claimed present
    rintro minutes rfl
    contradiction
  | hold i request old began fromStatus touched jobId f cell present running found unlocked writes =>
    exact hold_asClaimed store.calls store.table event job i request old began fromStatus touched
      jobId f cell claimed alone present found unlocked writes
  | commit i call result events present complete commits =>
    obtain ⟨running, cell, found, committed, passes⟩ := claimed
    have kept : cell.commit i = cell := by
      rcases pending : cell.pending with _ | ⟨owner, row⟩
      · rw [Cell.commit, pending]
      · apply cell.commit_other owner i row pending
        rintro rfl
        obtain ⟨minutes, began, _, _, held, stale⟩ := passes owner row pending
        rw [spared owner minutes began _ _ commits held] at stale
        contradiction
    refine ⟨running, cell, by rw [Table.commit, found, Option.map_some, kept], committed,
      fun k row pending => ?_⟩
    obtain ⟨minutes, began, _, _, held, stale⟩ := passes k row pending
    have distinct : i ≠ k := by
      rintro rfl
      rw [spared i minutes began _ _ commits held] at stale
      contradiction
    exact ⟨minutes, began, _, _, by rw [List.getElem?_set_ne distinct, held], stale⟩
  | fail i call present unfinished =>
    obtain ⟨running, cell, found, committed, passes⟩ := claimed
    rcases pending : cell.pending with _ | ⟨owner, row⟩
    · refine ⟨running, cell, ?_, committed, ?_⟩
      · rw [Table.rollback, found, Option.map_some, Cell.rollback, pending]
      · intro k row held
        rw [pending] at held
        contradiction
    · by_cases own : owner = i
      · refine ⟨running, ⟨cell.committed, none⟩, ?_, committed, by simp⟩
        rw [Table.rollback, found, Option.map_some, Cell.rollback, pending]
        exact congrArg some (if_pos own)
      · refine ⟨running, cell, store.table.rollback_held owner i job.id cell row found pending own,
          committed, fun k row' held => ?_⟩
        obtain ⟨minutes, began, _, _, there, stale⟩ := passes k row' held
        rw [pending] at held
        obtain ⟨rfl, -⟩ := Prod.mk.inj (Option.some.inj held)
        exact ⟨minutes, began, _, _, by rw [List.getElem?_set_ne (Ne.symm own), there], stale⟩

theorem heldRows_took (store : StoreState) (i : Nat) (touched : List JobId)
    (took : ∀ jobId ∈ touched, Took store.table i jobId) (row : JobRow)
    (held : row ∈ store.heldRows touched) : ∃ cell, store.table row.id = some cell ∧
      cell.committed.status = .queued ∧ cell.pending = some (i, row) ∧ row.status = .running := by
  rw [heldRows, List.mem_filterMap] at held
  obtain ⟨jobId, member, shown⟩ := held
  obtain ⟨cell, version, present, queued, pending, rfl, running⟩ := took jobId member
  rw [present, Option.map_some, Cell.latest, pending] at shown
  obtain rfl := Option.some.inj shown
  exact ⟨cell, present, queued, pending, running⟩

theorem step_claimed (store : StoreState) (event : StoreEvent) (inv : ClaimInv store) (i limit : Nat)
    (phase : CallPhase) (rows : List JobRow) (left : Option JobStatus)
    (before : store.calls[i]? = some ⟨.claimQueuedJobs limit, phase⟩) (unfinished : isOver phase = false)
    (after : (store.step event).calls[i]? =
      some ⟨.claimQueuedJobs limit, .returned (.jobs rows) left⟩) (row : JobRow)
    (member : row ∈ rows) :
    store.statusOf row.id = some .queued ∧
      AsClaimed (store.step event).calls (store.step event).table row := by
  have moved := step_cases store event
  generalize (store.step event).calls = calls at moved after ⊢
  generalize (store.step event).table = table at moved ⊢
  have unmoved (k : Nat) (new : Call)
      (differs : new ≠ ⟨.claimQueuedJobs limit, .returned (.jobs rows) left⟩)
      (found : (store.calls.set k new)[i]? =
        some ⟨.claimQueuedJobs limit, .returned (.jobs rows) left⟩) : False := by
    rcases CallTable.getElem?_set_cases _ _ _ _ _ found with ⟨-, same⟩ | ⟨-, there⟩
    · exact differs same.symm
    · rw [before] at there
      obtain ⟨-, rfl⟩ := Call.mk.inj (Option.some.inj there)
      contradiction
  cases moved with
  | same =>
    rw [before] at after
    obtain ⟨-, rfl⟩ := Call.mk.inj (Option.some.inj after)
    contradiction
  | start request starts =>
    have inside := (List.getElem?_eq_some_iff.mp before).1
    rw [List.getElem?_append_left inside, before] at after
    obtain ⟨-, rfl⟩ := Call.mk.inj (Option.some.inj after)
    contradiction
  | commit k call result events present complete commits =>
    rcases CallTable.getElem?_set_cases _ _ _ _ _ after with ⟨rfl, same⟩ | ⟨-, there⟩
    · obtain rfl := Option.some.inj (before.symm.trans present)
      obtain ⟨-, returned⟩ := Call.mk.inj same
      obtain ⟨ended, -⟩ := CallPhase.returned.inj returned
      have held : ∃ began fromStatus touched, phase = .holding began fromStatus touched ∧
          rows = store.heldRows touched := by
        cases phase with
        | ready =>
          obtain ⟨rfl, -⟩ := Prod.mk.inj (Option.some.inj complete)
          rw [CallResult.jobs.inj ended] at member
          contradiction
        | holding began fromStatus touched =>
          obtain ⟨rfl, -⟩ := Prod.mk.inj (Option.some.inj complete)
          exact ⟨began, fromStatus, touched, rfl, CallResult.jobs.inj ended⟩
        | _ => contradiction
      obtain ⟨began, fromStatus, touched, rfl, rfl⟩ := held
      obtain ⟨-, -, took⟩ := (inv.takes k _ before).holding limit began fromStatus touched rfl rfl
      obtain ⟨cell, found, queued, pending, running⟩ := heldRows_took store k touched took row member
      refine ⟨?_, running, ⟨row, none⟩, ?_, rfl, by simp⟩
      · rw [statusOf, Table.read, found, Option.map_some, Option.map_some, queued]
      · rw [Table.commit, found, Option.map_some, Cell.commit, pending]
        exact congrArg some (if_pos rfl)
    · rw [before] at there
      obtain ⟨-, rfl⟩ := Call.mk.inj (Option.some.inj there)
      contradiction
  | read k u row' advances present found accepted => exact (unmoved k _ (by simp) after).elim
  | refuse k u left' advances present found refused => exact (unmoved k _ (by simp) after).elim
  | miss k jobId present => exact (unmoved k _ (by simp) after).elim
  | empty k request old jobId began fromStatus present running single absent later =>
    exact (unmoved k _ (by simp) after).elim
  | hold k request old began fromStatus touched jobId f cell present running found unlocked writes =>
    exact (unmoved k _ (by simp) after).elim
  | fail k call present running => exact (unmoved k _ (by simp) after).elim

namespace TickState

def begun (σ : TickState) : List JobId := σ.executions.map JobExecution.jobId

end TickState

structure TickOk (store : StoreState) (begun : List JobId) (tick : Tick) : Prop where
  claiming : ∀ i, tick.phase = .claiming i → tick.claim = some i
  claim : ∀ i, tick.claim = some i →
    ∃ limit phase, store.calls[i]? = some ⟨.claimQueuedJobs limit, phase⟩
  current : ∀ job worker waiting, tick.phase = .processing job worker waiting → job.id ∈ begun
  fresh : ∀ job ∈ waitingOf store tick, job.id ∉ begun
  asClaimed : ∀ job ∈ waitingOf store tick, AsClaimed store.calls store.table job
  owned : ∀ job ∈ waitingOf store tick, ∃ i, tick.claim = some i ∧ job.id ∈ returnedBy store i
  once : ((waitingOf store tick).map JobRow.id).Nodup

structure TickInv (σ : TickState) : Prop where
  claims : ClaimInv σ.store
  asked : ∀ (i : Nat) (call : Call) (jobId : JobId), σ.store.calls[i]? = some call →
    jobOf call.request = some jobId → jobId ∈ σ.begun
  out : ∀ jobId ∈ σ.begun, OutOfQueue σ.store.table jobId
  ticks : ∀ (k : Nat) (tick : Tick), σ.ticks[k]? = some tick → TickOk σ.store σ.begun tick
  apart : CallTable.Apart Tick.claim σ.ticks
  running : ∀ call ∈ σ.executions, call.status = some .running

theorem step_returnedBy (store : StoreState) (event : StoreEvent) (i : Nat) (jobId : JobId)
    (member : jobId ∈ returnedBy store i) : jobId ∈ returnedBy (store.step event) i := by
  obtain ⟨call, found, taken⟩ := returnedBy_of_mem store i jobId member
  obtain ⟨phase, moved, same⟩ := step_call store event i call found
  have done : isOver call.phase = true := by
    rcases call with ⟨request, phase⟩
    cases phase with
    | returned result left => rfl
    | raised => rfl
    | _ =>
      rw [claimedIds_open _ _ (by simp)] at taken
      contradiction
  rw [returnedBy, moved, same done]
  exact taken

/-- The jobs a tick waits with after a step of the store: those of before, or a batch whose claim has
just committed. -/
theorem step_waiting (store : StoreState) (event : StoreEvent) (begun : List JobId) (tick : Tick)
    (ok : TickOk store begun tick) : waitingOf (store.step event) tick = waitingOf store tick ∨
      ∃ i limit phase rows left, tick.phase = .claiming i ∧
        store.calls[i]? = some ⟨.claimQueuedJobs limit, phase⟩ ∧ isOver phase = false ∧
        (store.step event).calls[i]? =
          some ⟨.claimQueuedJobs limit, .returned (.jobs rows) left⟩ ∧
        waitingOf (store.step event) tick = rows := by
  cases at_phase : tick.phase with
  | claiming i =>
    obtain ⟨limit, phase, found⟩ := ok.claim i (ok.claiming i at_phase)
    obtain ⟨phase', moved, same⟩ := step_call store event i _ found
    rcases done : isOver phase with _ | _
    · by_cases returned : ∃ rows left, phase' = .returned (.jobs rows) left
      · obtain ⟨rows, left, rfl⟩ := returned
        exact .inr ⟨i, limit, phase, rows, left, rfl, found, done, moved, by
          simp [waitingOf, at_phase, moved]⟩
      · left
        have nothing (store' : StoreState) (phase'' : CallPhase)
            (there : store'.calls[i]? = some ⟨.claimQueuedJobs limit, phase''⟩)
            (open_ : ¬∃ rows left, phase'' = .returned (.jobs rows) left) :
            waitingOf store' tick = [] := by
          rw [waitingOf, at_phase]
          simp only [there]
          split
          · rename_i _ rows left same
            exact absurd ⟨rows, left, (Call.mk.inj (Option.some.inj same)).2⟩ open_
          · rfl
        rw [nothing _ phase' moved returned, nothing _ phase found]
        rintro ⟨rows, left, rfl⟩
        contradiction
    · left
      rw [same done] at moved
      simp [waitingOf, at_phase, moved, found]
  | _ => exact .inl (by simp [waitingOf, at_phase])

theorem step_tickOk (store : StoreState) (event : StoreEvent) (begun : List JobId) (tick : Tick)
    (inv : ClaimInv store) (spares : sparesQueue event = true)
    (out : ∀ jobId ∈ begun, OutOfQueue store.table jobId)
    (asked : ∀ (i : Nat) (call : Call) (jobId : JobId), store.calls[i]? = some call →
      jobOf call.request = some jobId → jobId ∈ begun)
    (spared : ∀ job ∈ waitingOf store tick, SparedBy store event job)
    (ok : TickOk store begun tick) : TickOk (store.step event) begun tick := by
  have claim : ∀ i, tick.claim = some i →
      ∃ limit phase, (store.step event).calls[i]? = some ⟨.claimQueuedJobs limit, phase⟩ := by
    intro i own
    obtain ⟨limit, phase, found⟩ := ok.claim i own
    obtain ⟨phase', moved, -⟩ := step_call store event i _ found
    exact ⟨limit, phase', moved⟩
  rcases step_waiting store event begun tick ok with
    same | ⟨i, limit, phase, rows, left, at_phase, before, unfinished, after, same⟩
  · refine ⟨ok.claiming, claim, ok.current, ?_, ?_, ?_, ?_⟩
    · rw [same]
      exact ok.fresh
    · rw [same]
      intro job member
      exact step_asClaimed store event job (fun i call found single =>
        ok.fresh job member (asked i call job.id found single)) (spared job member)
        (ok.asClaimed job member)
    · rw [same]
      intro job member
      obtain ⟨i, own, taken⟩ := ok.owned job member
      exact ⟨i, own, step_returnedBy store event i job.id taken⟩
    · rw [same]
      exact ok.once
  · have claimed := step_claimed store event inv i limit phase rows left before unfinished after
    refine ⟨ok.claiming, claim, ok.current, ?_, ?_, ?_, ?_⟩
    · rw [same]
      intro job member already
      obtain ⟨row, shown, away⟩ := out job.id already
      have queued := (claimed job member).1
      rw [statusOf, shown] at queued
      exact away (Option.some.inj queued)
    · rw [same]
      exact fun job member => (claimed job member).2
    · rw [same]
      intro job member
      refine ⟨i, ok.claiming i at_phase, ?_⟩
      rw [returnedBy, after]
      exact List.mem_map_of_mem member
    · rw [same]
      exact ((step_claimInv store event spares inv).takes i _ after).once

theorem step_out (store : StoreState) (event : StoreEvent) (inv : ClaimInv store) (jobId : JobId)
    (out : OutOfQueue store.table jobId) : OutOfQueue (store.step event).table jobId := by
  obtain ⟨row, shown, away⟩ := out
  obtain ⟨row', shown', leaves⟩ := (step_leavesQueue store event inv).2 jobId row shown
  exact ⟨row', shown', leaves.status away⟩

theorem store_keeps_inv (σ : TickState) (event : StoreEvent) (inv : TickInv σ)
    (spares : sparesQueue event = true)
    (about : ∀ request jobId, event = .call request → jobOf request = some jobId → jobId ∈ σ.begun)
    (spared : ∀ (k : Nat) (tick : Tick), σ.ticks[k]? = some tick →
      ∀ job ∈ waitingOf σ.store tick, SparedBy σ.store event job) :
    TickInv (σ.atStore event) where
  claims := step_claimInv σ.store event spares inv.claims
  asked := by
    intro i call jobId found single
    rcases step_request σ.store event i call found with ⟨phase, there⟩ | ⟨-, starts⟩
    · exact inv.asked i _ jobId there single
    · exact about call.request jobId starts single
  out jobId member := step_out σ.store event inv.claims jobId (inv.out jobId member)
  ticks k tick there := step_tickOk σ.store event σ.begun tick inv.claims spares inv.out inv.asked
    (spared k tick there) (inv.ticks k tick there)
  apart := inv.apart
  running := inv.running

theorem spared_of_silent (store : StoreState) (event : StoreEvent) (job : JobRow)
    (silent : ∀ i, event ≠ .commit i) : SparedBy store event job :=
  fun i _ _ _ _ same => absurd same (silent i)

theorem call_keeps_inv (σ : TickState) (request : StoreCall) (inv : TickInv σ)
    (spares : sparesQueue (.call request) = true)
    (begun : ∀ jobId, jobOf request = some jobId → jobId ∈ σ.begun) :
    TickInv (σ.atStore (.call request)) := by
  apply store_keeps_inv σ _ inv spares
  · intro asked jobId starts single
    obtain rfl := StoreEvent.call.inj starts
    exact begun jobId single
  · exact fun _ _ _ job _ => spared_of_silent _ _ job (by simp)

theorem silent_keeps_inv (σ : TickState) (event : StoreEvent) (inv : TickInv σ)
    (spares : sparesQueue event = true) (no_call : ∀ request, event ≠ .call request)
    (silent : ∀ i, event ≠ .commit i) : TickInv (σ.atStore event) := by
  apply store_keeps_inv σ event inv spares
  · exact fun request _ starts => absurd starts (no_call request)
  · exact fun _ _ _ job _ => spared_of_silent _ _ job silent

theorem set_keeps_inv (σ : TickState) (k : Nat) (tick new : Tick) (inv : TickInv σ)
    (present : σ.ticks[k]? = some tick) (ok : TickOk σ.store σ.begun new)
    (claim : ∀ i, new.claim = some i → tick.claim = some i ∨ ∀ other ∈ σ.ticks, other.claim ≠ some i) :
    TickInv (σ.setTick k new) where
  claims := inv.claims
  asked := inv.asked
  out := inv.out
  ticks := by
    intro j other found
    rcases CallTable.getElem?_set_cases _ _ _ _ _ found with ⟨-, rfl⟩ | ⟨-, there⟩
    · exact ok
    · exact inv.ticks j other there
  apart := CallTable.apart_set Tick.claim σ.ticks k tick new inv.apart present claim
  running := inv.running

theorem tickOk_idle (store : StoreState) (begun : List JobId) (tick new : Tick)
    (ok : TickOk store begun tick) (claim : new.claim = tick.claim) (nothing : waitingOf store new = [])
    (open_ : ∀ i, new.phase ≠ .claiming i)
    (idle : ∀ job worker waiting, new.phase ≠ .processing job worker waiting) :
    TickOk store begun new where
  claiming i at_phase := absurd at_phase (open_ i)
  claim i own := ok.claim i (claim ▸ own)
  current job worker waiting at_phase := absurd at_phase (idle job worker waiting)
  fresh := by simp [nothing]
  asClaimed := by simp [nothing]
  owned := by simp [nothing]
  once := by simp [nothing]

theorem rests_inv (σ : TickState) (k : Nat) (tick : Tick) (phase : TickPhase) (inv : TickInv σ)
    (present : σ.ticks[k]? = some tick)
    (nothing : waitingOf σ.store { tick with phase := phase } = [])
    (open_ : ∀ i, phase ≠ .claiming i)
    (idle : ∀ job worker waiting, phase ≠ .processing job worker waiting) :
    TickInv (σ.setTick k { tick with phase := phase }) := by
  apply set_keeps_inv σ k tick _ inv present
  · exact tickOk_idle _ _ tick _ (inv.ticks k tick present) rfl nothing open_ idle
  · exact fun i own => .inl own

theorem tickOk_waits (store : StoreState) (begun : List JobId) (tick new : Tick)
    (ok : TickOk store begun tick) (claim : new.claim = tick.claim)
    (fewer : List.Sublist (waitingOf store new) (waitingOf store tick))
    (open_ : ∀ i, new.phase ≠ .claiming i)
    (current : ∀ job worker waiting, new.phase = .processing job worker waiting → job.id ∈ begun) :
    TickOk store begun new where
  claiming i at_phase := absurd at_phase (open_ i)
  claim i own := ok.claim i (claim ▸ own)
  current := current
  fresh job member := ok.fresh job (fewer.subset member)
  asClaimed job member := ok.asClaimed job (fewer.subset member)
  owned job member := by
    rw [claim]
    exact ok.owned job (fewer.subset member)
  once := (fewer.map JobRow.id).nodup ok.once

theorem claiming_ok (σ : TickState) (slots : Nat) (begun : List JobId) :
    TickOk (σ.callClaim slots).store begun (σ.claiming slots) := by
  rw [callClaim, TickState.claiming]
  by_cases none_left : slots = 0
  · rw [if_pos none_left, if_pos none_left]
    exact ⟨by simp, by simp, by simp, by simp [waitingOf], by simp [waitingOf], by simp [waitingOf],
      .nil⟩
  · rw [if_neg none_left, if_neg none_left]
    have called : (σ.atStore (.call (.claimQueuedJobs slots))).store.calls[σ.store.calls.length]? =
        some ⟨.claimQueuedJobs slots, .ready⟩ := by
      simp [atStore, StoreState.step]
    have nothing : waitingOf (σ.atStore (.call (.claimQueuedJobs slots))).store
        ⟨slots, some σ.store.calls.length, .claiming σ.store.calls.length⟩ = [] := by
      simp [waitingOf, called]
    refine ⟨by simp, ?_, by simp, by simp [nothing], by simp [nothing], by simp [nothing],
      by simp [nothing]⟩
    intro i own
    obtain rfl := Option.some.inj own
    exact ⟨slots, .ready, called⟩

theorem claiming_fresh (σ : TickState) (inv : TickInv σ) (slots i : Nat)
    (own : (σ.claiming slots).claim = some i) : ∀ other ∈ σ.ticks, other.claim ≠ some i := by
  intro other member taken
  obtain ⟨k, there⟩ := List.mem_iff_getElem?.mp member
  obtain ⟨limit, phase, found⟩ := (inv.ticks k other there).claim i taken
  have inside := (List.getElem?_eq_some_iff.mp found).1
  rw [TickState.claiming] at own
  split at own
  · contradiction
  · have last := Option.some.inj own
    omega

theorem callClaim_ticks (σ : TickState) (slots : Nat) : (σ.callClaim slots).ticks = σ.ticks := by
  rw [callClaim]
  split <;> rfl

theorem callClaim_inv (σ : TickState) (slots : Nat) (inv : TickInv σ) :
    TickInv (σ.callClaim slots) := by
  rw [callClaim]
  split
  · exact inv
  · apply call_keeps_inv σ _ inv rfl
    intro jobId single
    contradiction

/-- Two ticks do not wait with one job. -/
theorem waiting_apart (σ : TickState) (inv : TickInv σ) (j k : Nat) (first second : Tick)
    (distinct : j ≠ k) (left : σ.ticks[j]? = some first) (right : σ.ticks[k]? = some second)
    (job other : JobRow) (member : job ∈ waitingOf σ.store first)
    (member' : other ∈ waitingOf σ.store second) : job.id ≠ other.id := by
  intro same
  obtain ⟨i, own, taken⟩ := (inv.ticks j first left).owned job member
  obtain ⟨i', own', taken'⟩ := (inv.ticks k second right).owned other member'
  by_cases one : i = i'
  · exact inv.apart j k first second distinct left right i own (one ▸ own')
  · obtain ⟨p, present, mine⟩ := returnedBy_of_mem _ i job.id taken
    obtain ⟨q, present', theirs⟩ := returnedBy_of_mem _ i' other.id taken'
    exact inv.claims.apart i i' p q one present present' mine (same ▸ theirs)

theorem asClaimed_status (store : StoreState) (job : JobRow)
    (claimed : AsClaimed store.calls store.table job) :
    store.table.read job.id = some job ∧ store.statusOf job.id = some .running := by
  obtain ⟨running, cell, found, committed, -⟩ := claimed
  have read : store.table.read job.id = some job := by
    rw [Table.read, found, Option.map_some, committed]
  exact ⟨read, by rw [statusOf, read, Option.map_some, running]⟩

theorem tickOk_begun (store : StoreState) (begun : List JobId) (jobId : JobId) (tick : Tick)
    (ok : TickOk store begun tick) (other : ∀ job ∈ waitingOf store tick, job.id ≠ jobId) :
    TickOk store (begun ++ [jobId]) tick where
  claiming := ok.claiming
  claim := ok.claim
  current job worker waiting at_phase :=
    List.mem_append_left _ (ok.current job worker waiting at_phase)
  fresh job member again := by
    rcases List.mem_append.mp again with earlier | last
    · exact ok.fresh job member earlier
    · exact other job member (List.mem_singleton.mp last)
  asClaimed := ok.asClaimed
  owned := ok.owned
  once := ok.once

theorem begin_inv (σ : TickState) (k : Nat) (tick : Tick) (job : JobRow) (waiting : List JobRow)
    (inv : TickInv σ) (present : σ.ticks[k]? = some tick)
    (at_phase : tick.phase = .batch (job :: waiting)) :
    TickInv (σ.begin k tick job waiting) := by
  have ok := inv.ticks k tick present
  have batch : waitingOf σ.store tick = job :: waiting := by rw [waitingOf, at_phase]
  have head : job ∈ waitingOf σ.store tick := batch ▸ List.mem_cons_self
  have once := ok.once
  rw [batch, List.map_cons, List.nodup_cons] at once
  have status := asClaimed_status σ.store job (ok.asClaimed job head)
  have begun : (σ.begin k tick job waiting).begun = σ.begun ++ [job.id] := by
    simp [TickState.begun, TickState.begin]
  refine ⟨inv.claims, ?_, ?_, ?_, ?_, ?_⟩
  · intro i call jobId found single
    rw [begun]
    exact List.mem_append_left _ (inv.asked i call jobId found single)
  · intro jobId member
    rw [begun] at member
    rcases List.mem_append.mp member with earlier | last
    · exact inv.out jobId earlier
    · rw [List.mem_singleton.mp last]
      exact outOfQueue_of_status _ _ _ status.2 (by simp)
  · intro j other found
    rw [begun]
    rcases CallTable.getElem?_set_cases _ _ _ _ _ found with ⟨-, rfl⟩ | ⟨distinct, there⟩
    · have goes := tickOk_waits σ.store (σ.begun ++ [job.id])
        { tick with phase := .batch waiting } { tick with phase := .processing job .executing waiting }
      apply goes
      · apply tickOk_begun
        · refine tickOk_waits σ.store σ.begun tick _ ok rfl ?_ (by simp) (by simp)
          rw [batch]
          exact List.sublist_cons_self job waiting
        · intro later member same
          exact once.1 (same ▸ List.mem_map_of_mem member)
      · rfl
      · exact List.Sublist.refl _
      · simp
      · intro job' worker waiting' same
        obtain ⟨rfl, -, -⟩ := TickPhase.processing.inj same
        exact List.mem_append_right _ (List.mem_singleton_self _)
    · exact tickOk_begun σ.store σ.begun job.id other (inv.ticks j other there) fun later member =>
        waiting_apart σ inv j k other tick (Ne.symm distinct) there present later job member head
  · apply CallTable.apart_set Tick.claim σ.ticks k tick _ inv.apart present
    exact fun i own => .inl own
  · intro call member
    rcases List.mem_append.mp member with earlier | last
    · exact inv.running call earlier
    · rw [List.mem_singleton.mp last]
      exact status.2

/-! What `process_job` does to the store. -/

theorem process_store (P : Processing) (store : StoreState) (worker : WorkerPhase)
    (event : ProcessEvent) :
    (SystemState.step P ⟨store, worker, [], [], []⟩ event.system).store = store ∨
      ∃ u : StatusUpdate, u.jobId = P.job.id ∧ u.newStatus ≠ .queued ∧
        (SystemState.step P ⟨store, worker, [], [], []⟩ event.system).store =
          store.step (.call (.updateJobStatus u)) := by
  have moved := system_cases P ⟨store, worker, [], [], []⟩ event.system
  generalize SystemState.step P ⟨store, worker, [], [], []⟩ event.system = τ at moved ⊢
  cases moved with
  | store inner asked => cases event <;> contradiction
  | execute outcome upload running =>
    have exits := exitOf_update P outcome upload
    exact .inr ⟨_, exits.1, exits.2.1, rfl⟩
  | handle exit i type message waiting raised =>
    have failed : JobStatus.failed ≠ .queued := by decide
    exact .inr ⟨(P.raisedExit type message).update, rfl, failed, rfl⟩
  | override k request present reading => simp at present
  | release k request escrowId present ready asked => simp at present
  | turn k request phase present onward reads => simp at present
  | _ => exact .inl rfl

theorem nextPhase_cases (event : ProcessEvent) (job : JobRow) (waiting : List JobRow)
    (worker : WorkerPhase) : nextPhase event job waiting worker = .ended ∨
      nextPhase event job waiting worker = .batch waiting ∨
      nextPhase event job waiting worker = .processing job worker waiting := by
  cases worker with
  | ended final last =>
    rw [nextPhase]
    split
    · exact .inl rfl
    · exact .inr (.inl rfl)
  | _ => exact .inr (.inr rfl)

theorem process_inv (base : Processing) (σ : TickState) (k : Nat) (event : ProcessEvent)
    (inv : TickInv σ) : TickInv (σ.process base k event) := by
  rw [TickState.process]
  split
  · exact inv
  · rename_i tick present
    split
    · rename_i job worker waiting at_phase
      have mine := (inv.ticks k tick present).current job worker waiting at_phase
      have store_inv : TickInv { σ with store := (SystemState.step { base with job := job }
          ⟨σ.store, worker, [], [], []⟩ event.system).store } := by
        rcases process_store { base with job := job } σ.store worker event with
          same | ⟨u, about, away, same⟩
        · rw [same]
          exact inv
        · rw [same]
          apply call_keeps_inv σ _ inv
          · simpa [sparesQueue] using away
          · intro jobId single
            obtain rfl := Option.some.inj single
            exact about ▸ mine
      apply set_keeps_inv _ k tick _ store_inv present
      · have ok := store_inv.ticks k tick present
        rcases nextPhase_cases event job waiting (SystemState.step { base with job := job }
            ⟨σ.store, worker, [], [], []⟩ event.system).worker with ended | next | busy
        · rw [ended]
          exact tickOk_idle _ _ tick _ ok rfl rfl (by simp) (by simp)
        · rw [next]
          refine tickOk_waits _ _ tick _ ok rfl ?_ (by simp) (by simp)
          simp [waitingOf, at_phase]
        · rw [busy]
          refine tickOk_waits _ _ tick _ ok rfl ?_ (by simp) ?_
          · simp [waitingOf, at_phase]
          · intro job' worker' waiting' same
            obtain ⟨rfl, -, -⟩ := TickPhase.processing.inj same
            exact mine
      · exact fun i own => .inl own
    · exact inv

theorem beat_inv (σ : TickState) (k : Nat) (inv : TickInv σ) : TickInv (σ.beat k) := by
  rw [TickState.beat]
  rcases present : σ.ticks[k]? with _ | tick
  · exact inv
  · cases at_phase : tick.phase with
    | processing job worker waiting =>
      simp only [Option.map_some, at_phase]
      apply call_keeps_inv σ _ inv rfl
      intro jobId single
      obtain rfl := Option.some.inj single
      exact (inv.ticks k tick present).current job worker waiting at_phase
    | _ => simpa only [Option.map_some, at_phase] using inv

theorem reap_inv (σ : TickState) (inv : TickInv σ) :
    TickInv (σ.atStore (.call (.expireStaleRunningJobs staleMinutes))) := by
  apply call_keeps_inv σ _ inv rfl
  intro jobId single
  contradiction

theorem add_inv (σ : TickState) (new : Tick) (inv : TickInv σ) (ok : TickOk σ.store σ.begun new)
    (claim : ∀ i, new.claim = some i → ∀ other ∈ σ.ticks, other.claim ≠ some i) :
    TickInv { σ with ticks := σ.ticks ++ [new] } where
  claims := inv.claims
  asked := inv.asked
  out := inv.out
  ticks := by
    intro k tick found
    rcases CallTable.getElem?_concat_cases _ _ _ _ found with ⟨-, rfl⟩ | there
    · exact ok
    · exact inv.ticks k tick there
  apart := by
    intro i j p q distinct left right key held taken
    rcases CallTable.getElem?_concat_cases _ _ _ _ left with ⟨here, rfl⟩ | first
    · rcases CallTable.getElem?_concat_cases _ _ _ _ right with ⟨there, -⟩ | second
      · exact distinct (here.trans there.symm)
      · exact claim key held q (List.mem_of_getElem? second) taken
    · rcases CallTable.getElem?_concat_cases _ _ _ _ right with ⟨-, rfl⟩ | second
      · exact claim key taken p (List.mem_of_getElem? first) held
      · exact inv.apart i j p q distinct first second key held taken
  running := inv.running

theorem runTick_inv (σ : TickState) (slots : Nat) (expireStale : Bool) (inv : TickInv σ) :
    TickInv (σ.runTick slots expireStale) := by
  rw [TickState.runTick]
  split
  · apply add_inv _ _ (reap_inv σ inv)
    · exact ⟨by simp, by simp, by simp, by simp [waitingOf], by simp [waitingOf], by simp [waitingOf],
        .nil⟩
    · simp
  · have added := add_inv _ (σ.claiming slots) (callClaim_inv σ slots inv) (claiming_ok σ slots _)
    rw [callClaim_ticks] at added
    exact added (claiming_fresh σ inv slots)

theorem go_inv (σ : TickState) (k : Nat) (inv : TickInv σ) : TickInv (σ.go k) := by
  rw [TickState.go]
  split
  · exact inv
  · rename_i tick present
    have ok := inv.ticks k tick present
    split
    · rename_i i at_phase
      split
      · have there : (σ.callClaim tick.slots).ticks[k]? = some tick := by
          rw [callClaim_ticks, present]
        apply set_keeps_inv _ k tick _ (callClaim_inv σ tick.slots inv) there
        · exact claiming_ok σ tick.slots _
        · intro i own
          rw [callClaim_ticks]
          exact .inr (claiming_fresh σ inv tick.slots i own)
      · exact rests_inv σ k tick _ inv present rfl (by simp) (by simp)
      · exact inv
    · rename_i i at_phase
      split
      · rename_i rows left returned
        apply set_keeps_inv σ k tick _ inv present
        · refine tickOk_waits _ _ tick _ ok rfl ?_ (by simp) (by simp)
          have batch : waitingOf σ.store tick = rows := by
            rw [waitingOf, at_phase]
            rw [TickState.callPhase, Option.map_eq_some_iff] at returned
            obtain ⟨⟨request, phase⟩, found, rfl⟩ := returned
            simp [found]
          rw [batch]
          exact List.Sublist.refl _
        · exact fun i own => .inl own
      · exact rests_inv σ k tick _ inv present rfl (by simp) (by simp)
      · exact inv
    · exact rests_inv σ k tick _ inv present rfl (by simp) (by simp)
    · rename_i job waiting at_phase
      exact begin_inv σ k tick job waiting inv present at_phase
    · exact inv

theorem spared_of_turnsInTime (σ : TickState) (i : Nat) (timely : turnsInTime σ (.commit i) = true)
    (k : Nat) (tick : Tick) (there : σ.ticks[k]? = some tick) (job : JobRow)
    (member : job ∈ waitingOf σ.store tick) : SparedBy σ.store (.commit i) job := by
  intro other minutes began fromStatus touched same found
  obtain rfl := StoreEvent.commit.inj same
  rw [turnsInTime, found, List.all_eq_true] at timely
  have all_waiting := timely tick (List.mem_of_getElem? there)
  rw [List.all_eq_true] at all_waiting
  simpa using all_waiting job member

theorem step_tickInv (base : Processing) (concurrency : Int) (σ : TickState) (event : TickEvent)
    (inv : TickInv σ) (timely : turnsInTime σ event = true) :
    TickInv (TickState.step base concurrency σ event) := by
  cases event with
  | pass microseconds => exact silent_keeps_inv σ _ inv rfl (by simp) (by simp)
  | reap => exact reap_inv σ inv
  | tick limit expireStale => exact runTick_inv σ _ expireStale inv
  | go k => exact go_inv σ k inv
  | process k event => exact process_inv base σ k event inv
  | beat k => exact beat_inv σ k inv
  | advance i => exact silent_keeps_inv σ _ inv rfl (by simp) (by simp)
  | touch i jobId => exact silent_keeps_inv σ _ inv rfl (by simp) (by simp)
  | commit i =>
    apply store_keeps_inv σ _ inv rfl
    · exact fun request _ starts => absurd starts (by simp)
    · exact spared_of_turnsInTime σ i timely
  | fail i => exact silent_keeps_inv σ _ inv rfl (by simp) (by simp)

theorem start_tickInv (clock : Int) (rows : JobRows) :
    TickInv (TickState.start clock rows.row) where
  claims := start_claimInv clock rows
  asked := by simp [TickState.start, StoreState.start]
  out := by simp [TickState.begun, TickState.start]
  ticks := by simp [TickState.start]
  apart := CallTable.apart_nil _
  running := by simp [TickState.start]

/-- In a run in which no reaper pass commits that began too late for a job that waits for its turn,
every job is RUNNING when its agent is called. -/
theorem executed_while_running (base : Processing) (concurrency clock : Int) (rows : JobRows)
    (events : List TickEvent)
    (timely : Runs.Guarded (TickState.step base concurrency) turnsInTime
      (TickState.start clock rows.row) events = true) :
    ∀ call ∈ (Runs.run (TickState.step base concurrency) (TickState.start clock rows.row)
      events).executions, call.status = some .running :=
  (Runs.run_invariant (TickState.step base concurrency) TickInv turnsInTime
    (step_tickInv base concurrency) events _ (start_tickInv clock rows) timely).running

/-! The second job of a batch, while the first one runs for four minutes or for six. -/

def twoJobs : JobRows where
  row jobId :=
    if jobId = "job-1" ∨ jobId = "job-2" then some (.queued jobId "genesis-research" 0) else none
  keyed jobId found present := by
    split at present
    · rw [← Option.some.inj present]
      rfl
    · contradiction

def tickBase : Processing := .escrowEnabled (.queued "" "genesis-research" 0)

def firstTurn : List TickEvent :=
  [.tick (some 2) false, .touch 0 "job-1", .touch 0 "job-2", .commit 0, .go 0, .go 0]

def working (microseconds : Nat) : List TickEvent :=
  [.pass microseconds, .beat 0, .advance 1, .commit 1]

def reaperPass : List TickEvent := [.reap, .touch 2 "job-2", .commit 2]

def secondTurn : List TickEvent :=
  [.process 0 (.execute (.raised "TimeoutError" "slow") .noDirectory), .advance 3, .advance 3,
   .commit 3, .process 0 (.resume "" ""), .process 0 .settle, .process 0 (.close false), .go 0]

theorem expired_job_executed :
    ¬∀ (base : Processing) (concurrency clock : Int) (rows : JobRows) (events : List TickEvent),
      ∀ call ∈ (Runs.run (TickState.step base concurrency) (TickState.start clock rows.row)
        events).executions, call.status = some .running := by
  intro always
  have running := always tickBase 3 0 twoJobs
    (firstTurn ++ working 360000000 ++ reaperPass ++ secondTurn) ⟨"job-2", some .expired⟩ (by decide)
  contradiction

/-- When the first agent takes four minutes, the same pass does not match the second job. -/
theorem short_batch_executed :
    (Runs.run (TickState.step tickBase 3) (TickState.start 0 twoJobs.row)
        (firstTurn ++ working 240000000 ++ reaperPass ++ secondTurn)).executions ≠ [] ∧
      ∀ call ∈ (Runs.run (TickState.step tickBase 3) (TickState.start 0 twoJobs.row)
        (firstTurn ++ working 240000000 ++ reaperPass ++ secondTurn)).executions,
        call.status = some .running :=
  ⟨by decide, executed_while_running tickBase 3 0 twoJobs _ (by decide)⟩

end GenesisAgents
