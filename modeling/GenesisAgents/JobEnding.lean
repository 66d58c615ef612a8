import GenesisAgents.CallbackAgreement

/-! How `process_job` leaves the row of its job when nobody else touches it. -/

namespace GenesisAgents

open RowLocks SystemState StoreState

def JobRow.ending (row : JobRow) : JobStatus × Option Int := (row.status, row.completedAt)

def endings (store : StoreState) (jobId : JobId) :
    Option ((JobStatus × Option Int) × (JobStatus × Option Int)) :=
  (store.table jobId).map fun cell => (cell.committed.ending, cell.latest.ending)

def statusWrite (σ : SystemState) : StoreEvent → Bool
  | .advance i => σ.worker.call == some i
  | .commit i => σ.worker.call == some i
  | _ => false

def statusWriteFails (σ : SystemState) : StoreEvent → Bool
  | .fail i => σ.worker.call == some i
  | _ => false

/-- Status writes work, and every other statement leaves the status and the end of the job alone;
those of the heartbeat do. -/
def untouched (P : Processing) (σ : SystemState) : SystemEvent → Bool
  | .store event => !statusWriteFails σ event &&
      (statusWrite σ event || endings (σ.store.step event) P.job.id == endings σ.store P.job.id)
  | _ => true

/-- A returned result that can be packed into the summary of a delivery. -/
def packable (result : AgentResult) : Bool :=
  ((result.trace.getD .null).orElse (.dict [])).isDict &&
    ((result.response.getD (.str "")).writable && (result.trace.getD (.dict [])).dumpable)

def warns (outcome : AgentOutcome) (upload : Upload) : Bool :=
  match outcome, upload with
  | .returned result, .raised => result.ok && packable result
  | _, _ => false

/-- The row of the job is terminal and stamped, and its webhook was called once. -/
def WellEnded (P : Processing) (σ : SystemState) : Prop :=
  ∃ row, σ.store.table.read P.job.id = some row ∧ row.status.isTerminal = true ∧
    row.completedAt.isSome = true ∧ (isSet P.job.webhookUrl = true → σ.callbacks.length = 1)

theorem advance_elsewhere (store : StoreState) (k i : Nat) (other : k ≠ i) :
    (store.advance k).calls[i]? = store.calls[i]? := by
  unfold advance
  split
  · unfold advanceUpdate
    repeat' split
    all_goals first | rfl | exact List.getElem?_set_ne other
  · unfold advanceHeartbeat
    repeat' split
    all_goals first | rfl | exact List.getElem?_set_ne other
  · unfold advanceClaim
    repeat' split
    all_goals first | rfl | exact List.getElem?_set_ne other
  · rfl

theorem calls_step_other (store : StoreState) (event : StoreEvent) (i : Nat) (u : StatusUpdate)
    (phase : CallPhase) (found : store.calls[i]? = some ⟨.updateJobStatus u, phase⟩)
    (foreign : event ≠ .advance i ∧ event ≠ .commit i ∧ event ≠ .fail i) :
    (store.step event).calls[i]? = some ⟨.updateJobStatus u, phase⟩ := by
  rw [← found]
  cases event with
  | tick microseconds => rfl
  | call request =>
    exact List.getElem?_append_left (List.getElem?_eq_some_iff.mp found).1
  | advance k => exact advance_elsewhere store k i fun same => foreign.1 (by rw [same])
  | touch k jobId =>
    rw [StoreState.step, touch]
    by_cases same : k = i
    · rw [same, found]
      cases store.table jobId <;> exact found
    · repeat' split
      all_goals first | rfl | exact List.getElem?_set_ne same
  | commit k =>
    have other : k ≠ i := fun same => foreign.2.1 (by rw [same])
    rw [StoreState.step, StoreState.commit]
    repeat' split
    all_goals first | rfl | exact List.getElem?_set_ne other
  | fail k =>
    have other : k ≠ i := fun same => foreign.2.2 (by rw [same])
    rw [StoreState.step, StoreState.fail]
    repeat' split
    all_goals first | rfl | exact List.getElem?_set_ne other

def Underway (P : Processing) (store : StoreState) (u : StatusUpdate) : CallPhase → Prop
  | .ready | .selected _ _ => endings store P.job.id = some (P.job.ending, P.job.ending)
  | .holding began _ _ =>
    endings store P.job.id = some (P.job.ending, (u.apply began P.job).ending)
  | .returned (.flag true) _ => ∃ began,
    endings store P.job.id = some ((u.apply began P.job).ending, (u.apply began P.job).ending)
  | _ => False

theorem apply_ending (u : StatusUpdate) (began : Int) (row job : JobRow) (same : row.ending = job.ending) :
    (u.apply began row).ending = (u.apply began job).ending := by
  have stamped : row.completedAt = job.completedAt := congrArg Prod.snd same
  simp [JobRow.ending, StatusUpdate.apply, stamped]

theorem endings_cell (store : StoreState) (jobId : JobId) (first second : JobStatus × Option Int)
    (shows : endings store jobId = some (first, second)) :
    ∃ cell, store.table jobId = some cell ∧ cell.committed.ending = first ∧ cell.latest.ending = second := by
  rcases Option.map_eq_some_iff.mp shows with ⟨cell, present, same⟩
  exact ⟨cell, present, congrArg Prod.fst same, congrArg Prod.snd same⟩

variable (P : Processing) (store : StoreState) (i : Nat) (u : StatusUpdate)

theorem advance_underway (phase : CallPhase) (about : u.jobId = P.job.id)
    (unfinished : P.job.status.isTerminal = false)
    (found : store.calls[i]? = some ⟨.updateJobStatus u, phase⟩) (holds : Underway P store u phase) :
    ∃ phase', (store.advance i).calls[i]? = some ⟨.updateJobStatus u, phase'⟩ ∧
      Underway P (store.advance i) u phase' := by
  have inside := (List.getElem?_eq_some_iff.mp found).1
  have moved : store.advance i = store.advanceUpdate i u phase := by
    unfold advance
    rw [found]
  rw [moved]
  cases phase with
  | ready =>
    rcases endings_cell store _ _ _ holds with ⟨cell, present, committed, -⟩
    have read : store.table.read u.jobId = some cell.committed := by
      rw [about, Table.read, present]
      rfl
    have status : cell.committed.status = P.job.status := congrArg Prod.fst committed
    have accepted : u.refuses cell.committed.status = false := by
      rw [StatusUpdate.refuses, status, unfinished]
      rfl
    have next : store.advanceUpdate i u .ready =
        store.setPhase i (.updateJobStatus u) (.selected store.clock cell.committed.status) := by
      unfold advanceUpdate
      rw [read]
      exact if_neg (by simp [accepted])
    rw [next]
    exact ⟨_, List.getElem?_set_self inside, holds⟩
  | selected began fromStatus =>
    rcases endings_cell store _ _ _ holds with ⟨cell, present, committed, latest⟩
    by_cases unlocked : cell.free i = true
    · have next : store.advanceUpdate i u (.selected began fromStatus) =
          store.hold i (.updateJobStatus u) began (some fromStatus) [] u.jobId (u.apply began) := by
        unfold advanceUpdate
        rw [about, present]
        exact if_pos unlocked
      rw [next]
      refine ⟨_, List.getElem?_set_self inside, ?_⟩
      have written : (store.hold i (.updateJobStatus u) began (some fromStatus) [] u.jobId
          (u.apply began)).table P.job.id = some (cell.write i (u.apply began)) := by
        rw [about]
        simp [hold, Table.write, present]
      rw [Underway, endings, written, Option.map_some, Cell.committed_write, committed]
      exact congrArg (fun shown => some (P.job.ending, shown)) (apply_ending u began _ _ latest)
    · have next : store.advanceUpdate i u (.selected began fromStatus) = store := by
        unfold advanceUpdate
        rw [about, present]
        exact if_neg unlocked
      rw [next]
      exact ⟨_, found, holds⟩
  | holding began fromStatus touched => exact ⟨_, found, holds⟩
  | returned result left => exact ⟨_, found, holds⟩
  | raised => exact holds.elim

theorem commit_underway (phase : CallPhase) (about : u.jobId = P.job.id) (landed : AllLanded store)
    (found : store.calls[i]? = some ⟨.updateJobStatus u, phase⟩) (holds : Underway P store u phase) :
    ∃ phase', (store.commit i).calls[i]? = some ⟨.updateJobStatus u, phase'⟩ ∧
      Underway P (store.commit i) u phase' := by
  have inside := (List.getElem?_eq_some_iff.mp found).1
  cases phase with
  | holding began fromStatus touched =>
    rcases landed i _ found with ⟨row, ⟨cell, present, pending⟩, -⟩
    rw [about] at present
    have latest : cell.latest = row := by rw [Cell.latest, pending]
    have shown : row.ending = (u.apply began P.job).ending := by
      rcases endings_cell store _ _ _ holds with ⟨same, there, -, ends⟩
      rw [← Option.some.inj (present.symm.trans there), latest] at ends
      exact ends
    have next : (store.commit i).table = store.table.commit i ∧ (store.commit i).calls =
        store.calls.set i ⟨.updateJobStatus u, .returned (.flag true)
          (((store.table.commit i).read u.jobId).map JobRow.status)⟩ := by
      unfold StoreState.commit
      rw [found]
      exact ⟨rfl, rfl⟩
    refine ⟨.returned (.flag true) (((store.table.commit i).read u.jobId).map JobRow.status),
      by rw [next.2, List.getElem?_set_self inside], began, ?_⟩
    rw [endings, next.1, Table.commit, present, Option.map_some, Option.map_some, ← shown]
    simp [Cell.commit, pending, Cell.latest]
  | _ =>
    have next : store.commit i = store := by
      unfold StoreState.commit
      rw [found]
      rfl
    rw [next]
    exact ⟨_, found, holds⟩

theorem underway_congr (store' : StoreState) (phase : CallPhase)
    (same : endings store' P.job.id = endings store P.job.id) (holds : Underway P store u phase) :
    Underway P store' u phase := by
  cases phase with
  | returned result left =>
    cases result with
    | flag ok =>
      cases ok with
      | false => exact holds.elim
      | true =>
        rcases holds with ⟨began, shows⟩
        exact ⟨began, same.trans shows⟩
    | _ => exact holds.elim
  | raised => exact holds.elim
  | _ => exact same.trans holds

def WorkerPhase.exit : WorkerPhase → Option Exit
  | .executing => none
  | .writing exit _ _ => some exit
  | .settling exit _ => some exit
  | .closing final _ => final
  | .ended final _ => final

def Tended (P : Processing) (exit : Exit) (σ : SystemState) : Prop :=
  σ.worker.exit = some exit ∧ ∃ i phase, σ.worker.call = some i ∧
    σ.store.calls[i]? = some ⟨.updateJobStatus exit.update, phase⟩ ∧
    Underway P σ.store exit.update phase

def Unwritten (P : Processing) (σ : SystemState) : Prop :=
  σ.worker = .executing → endings σ.store P.job.id = some (P.job.ending, P.job.ending)

theorem step_unwritten (P : Processing) (σ : SystemState) (event : SystemEvent) (holds : Unwritten P σ)
    (calm : untouched P σ event = true) : Unwritten P (step P σ event) := by
  have moved := system_cases P σ event
  generalize step P σ event = τ at moved ⊢
  cases moved with
  | store inner asked =>
    subst asked
    intro running
    have quiet : statusWrite σ inner = false := by
      unfold statusWrite
      split <;> simp [show σ.worker = .executing from running, WorkerPhase.call]
    rw [untouched, quiet, Bool.false_or, Bool.and_eq_true] at calm
    exact (eq_of_beq calm.2).trans (holds running)
  | idle => exact holds
  | request action => exact holds
  | turn k request phase present onward reads => exact holds
  | override k request present reading => exact holds
  | release k request escrowId present ready asked => exact holds
  | _ =>
    intro running
    contradiction

theorem store_tended (P : Processing) (exit : Exit) (σ : SystemState) (event : StoreEvent)
    (about : exit.update.jobId = P.job.id) (unfinished : P.job.status.isTerminal = false)
    (landed : AllLanded σ.store) (holds : Tended P exit σ)
    (calm : untouched P σ (.store event) = true) :
    Tended P exit { σ with store := σ.store.step event } := by
  rcases holds with ⟨leaves, i, phase, current, found, underway⟩
  refine ⟨leaves, i, ?_⟩
  by_cases advances : event = .advance i
  · subst advances
    rcases advance_underway P σ.store i exit.update phase about unfinished found underway with
      ⟨phase', next, after⟩
    exact ⟨phase', current, next, after⟩
  by_cases commits : event = .commit i
  · subst commits
    rcases commit_underway P σ.store i exit.update phase about landed found underway with
      ⟨phase', next, after⟩
    exact ⟨phase', current, next, after⟩
  rw [untouched, Bool.and_eq_true] at calm
  have works : event ≠ .fail i := by
    rintro rfl
    have broken := calm.1
    rw [statusWriteFails, current, beq_self_eq_true] at broken
    contradiction
  have quiet : statusWrite σ event = false := by
    unfold statusWrite
    split
    · rename_i k
      rw [current]
      exact beq_false_of_ne fun same => advances (by rw [Option.some.inj same])
    · rename_i k
      rw [current]
      exact beq_false_of_ne fun same => commits (by rw [Option.some.inj same])
    · rfl
  rw [quiet, Bool.false_or] at calm
  exact ⟨phase, current, calls_step_other σ.store event i _ phase found ⟨advances, commits, works⟩,
    underway_congr P σ.store exit.update _ phase (eq_of_beq calm.2) underway⟩

theorem step_tended (P : Processing) (exit : Exit) (σ : SystemState) (event : SystemEvent)
    (about : exit.update.jobId = P.job.id) (unfinished : P.job.status.isTerminal = false)
    (landed : AllLanded σ.store) (holds : Tended P exit σ) (calm : untouched P σ event = true) :
    Tended P exit (step P σ event) := by
  have noRaise (i : Nat) (current : σ.worker.call = some i) (raised : σ.callPhase i = some .raised) :
      False := by
    rcases holds with ⟨leaves, k, phase, called, found, underway⟩
    obtain rfl := Option.some.inj (current.symm.trans called)
    obtain rfl := callPhase_eq σ _ _ _ _ found raised
    exact underway
  have moved := system_cases P σ event
  generalize step P σ event = τ at moved ⊢
  cases moved with
  | idle => exact holds
  | store inner asked =>
    subst asked
    exact store_tended P exit σ inner about unfinished landed holds calm
  | execute outcome upload running =>
    have leaves := holds.1
    rw [running] at leaves
    contradiction
  | handle written i type message waiting raised =>
    exact (noRaise i (by rw [waiting]; rfl) raised).elim
  | giveUp written i waiting raised => exact (noRaise i (by rw [waiting]; rfl) raised).elim
  | written written handling i result left waiting returned =>
    rw [Tended, waiting] at holds
    exact holds
  | settle written i waiting asked =>
    rw [Tended, waiting] at holds
    exact holds
  | close final i heartbeatRaised waiting =>
    rw [Tended, waiting] at holds
    exact holds
  | request action => exact holds
  | turn k request phase present onward reads => exact holds
  | override k request present reading =>
    exact store_tended P exit σ (.call _) about unfinished landed holds
      (by simp [untouched, statusWriteFails, endings, StoreState.step])
  | release k request escrowId present ready asked =>
    exact store_tended P exit σ (.call _) about unfinished landed holds
      (by simp [untouched, statusWriteFails, endings, StoreState.step])

theorem resultPayload_isSome (P : Processing) (result : AgentResult) :
    (P.resultPayload result).isSome =
      ((result.response.getD (.str "")).writable && (result.trace.getD (.dict [])).dumpable) := by
  rw [Processing.resultPayload, Value.dumpable, Bool.and_comm (Value.jsonable _), ← Bool.and_assoc]
  split
  · rename_i short
    rw [Value.dumps, Value.dumpsWith_isSome, short, Bool.true_and]
    simp [Value.jsonable, Value.jsonableItems]
  · rename_i long
    rw [Bool.not_eq_true] at long
    rw [long]
    rfl

/-- Every exit but a delivery with a warning is terminal. -/
theorem exitOf_terminal (P : Processing) (outcome : AgentOutcome) (upload : Upload) :
    (P.exitOf outcome upload).1.update.newStatus.isTerminal = !warns outcome upload := by
  cases outcome with
  | raised type message => rfl
  | returned result =>
    have packs := resultPayload_isSome P result
    rw [Processing.exitOf.eq_def]
    dsimp only
    split
    · rename_i succeeds
      rw [Processing.deliveredExit.eq_def]
      dsimp only
      rcases shape : ((result.trace.getD .null).orElse (.dict [])).isDict with _ | _
      · cases upload <;> simp [warns, packable, shape, Processing.raisedExit, StatusUpdate.plain] <;> rfl
      · rcases payload : P.resultPayload result with _ | text
        · rw [payload] at packs
          cases upload <;>
            simp [warns, packable, shape, ← packs, Processing.raisedExit, StatusUpdate.plain] <;> rfl
        · rw [payload] at packs
          cases upload <;>
            simp [warns, packable, shape, ← packs, succeeds, Processing.deliveryStatus] <;> rfl
    · rename_i fails
      cases upload <;> simp [warns, fails, Processing.failedExit, StatusUpdate.plain] <;> rfl

/-- The state in which `process_job` has ended: the row it leaves, and its callbacks. -/
theorem ended_iff (P : Processing) (exit : Exit) (σ : SystemState) (final : Option Exit) (last : Nat)
    (heartbeatRaised : Bool) (tended : Tended P exit σ) (placed : Placed σ.store σ.worker)
    (fired : Fired σ) (closing : σ.worker = .closing final last) :
    WellEnded P (step P σ (.close heartbeatRaised)) ↔ exit.update.newStatus.isTerminal = true ∧
      (isSet P.job.webhookUrl = true → heartbeatRaised = false) := by
  rcases tended with ⟨leaves, i, phase, current, found, underway⟩
  rw [closing] at leaves current placed
  obtain rfl : final = some exit := leaves
  obtain rfl : last = i := Option.some.inj current
  rcases placed with ⟨result, left, done⟩
  rw [found] at done
  obtain rfl := (Call.mk.inj (Option.some.inj done)).2
  rcases result with ⟨_ | _⟩ | _ | _ | _
  case flag.true =>
    rcases underway with ⟨began, shows⟩
    rcases endings_cell σ.store _ _ _ shows with ⟨cell, present, committed, -⟩
    have read : σ.store.table.read P.job.id = some cell.committed := by
      rw [Table.read, present]
      rfl
    have status : cell.committed.status = exit.update.newStatus := congrArg Prod.fst committed
    have stamp : cell.committed.completedAt =
        if exit.update.newStatus.isTerminal then some began else P.job.completedAt :=
      congrArg Prod.snd committed
    have silent : σ.callbacks = [] := by
      rw [Fired, closing] at fired
      exact fired
    have after : step P σ (.close heartbeatRaised) =
        { σ with
          worker := .ended (some exit) last
          callbacks := firedCallbacks P heartbeatRaised (some exit) } := by
      rw [SystemState.step, SystemState.close, closing]
      simp [silent]
    have once : (firedCallbacks P heartbeatRaised (some exit)).length = 1 ↔
        (heartbeatRaised = false ∧ isSet P.job.webhookUrl = true) := by
      rw [firedCallbacks]
      cases heartbeatRaised <;> cases isSet P.job.webhookUrl <;> simp
    rw [after]
    constructor
    · rintro ⟨row, there, terminal, -, called⟩
      obtain rfl := Option.some.inj (read.symm.trans there)
      exact ⟨status ▸ terminal, fun hooked => (once.mp (called hooked)).1⟩
    · rintro ⟨terminal, beats⟩
      refine ⟨cell.committed, read, status ▸ terminal, ?_, fun hooked => once.mpr ⟨beats hooked, hooked⟩⟩
      rw [stamp, if_pos terminal]
      rfl
  all_goals exact underway.elim

def warnedDelivery : List SystemEvent :=
  [.execute (.returned reportResult) .raised, .store (.advance 0), .store (.advance 0),
   .store (.commit 0), .resume "" "", .settle, .close false]

end GenesisAgents
