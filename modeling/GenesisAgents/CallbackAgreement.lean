import GenesisAgents.WorkerCalls

/-! Does the callback tell the marketplace what the job row says? `process_job` keeps its own final
status and does not look at whether the store took it. -/

namespace GenesisAgents

open RowLocks SystemState

def WorkerPhase.call : WorkerPhase → Option Nat
  | .executing => none
  | .writing _ _ i => some i
  | .settling _ i => some i
  | .closing _ i => some i
  | .ended _ i => some i

def statusAtLastWrite (σ : SystemState) : Option JobStatus :=
  match σ.lastWrite.bind σ.callPhase with
  | some (.returned _ left) => left
  | _ => none

/-- When a status write of the worker reads the row, its guard lets the write through. -/
def unrefused (σ : SystemState) : SystemEvent → Bool
  | .store (.advance i) =>
    match σ.worker, σ.callPhase i with
    | .writing exit _ k, some .ready => i != k ||
      match σ.store.statusOf exit.update.jobId with
      | some status => !exit.update.refuses status
      | none => false
    | _, _ => true
  | _ => true

def Accepted (σ : SystemState) : Prop :=
  ∀ i left, σ.worker.call = some i → σ.callPhase i ≠ some (.returned (.flag false) left)

theorem accepted_of_fresh (σ : SystemState) (exit : Exit) (handling : Bool) :
    Accepted (σ.write exit handling) := by
  intro i left current
  obtain rfl := Option.some.inj current
  simp [callPhase, write, callUpdate, StoreState.step]

theorem callPhase_of_finished (σ : SystemState) (event : StoreEvent) (final : Option Exit) (i : Nat)
    (finished : Finished σ.store final i) :
    ({ σ with store := σ.store.step event } : SystemState).callPhase i = σ.callPhase i := by
  cases final with
  | some exit =>
    obtain ⟨result, left, found⟩ := finished
    obtain ⟨phase, moved, same⟩ := step_call σ.store event i _ found
    rw [callPhase, callPhase, moved, found, same rfl]
  | none =>
    obtain ⟨request, found⟩ := finished
    obtain ⟨phase, moved, same⟩ := step_call σ.store event i _ found
    rw [callPhase, callPhase, moved, found, same rfl]

theorem store_step_accepted (σ : SystemState) (event : StoreEvent)
    (placed : Placed σ.store σ.worker) (holds : Accepted σ)
    (calm : unrefused σ (.store event) = true) :
    Accepted { σ with store := σ.store.step event } := by
  intro i left current after
  change σ.worker.call = some i at current
  have before := holds i left current
  have kept (final : Option Exit) (finished : Finished σ.store final i) : False := by
    rw [callPhase_of_finished σ event final i finished] at after
    exact before after
  rcases worker : σ.worker with _ | ⟨exit, handling, k⟩ | ⟨exit, k⟩ | ⟨final, k⟩ | ⟨final, k⟩
  all_goals rw [worker] at placed current
  · contradiction
  · obtain rfl := Option.some.inj current
    obtain ⟨phase, found⟩ := placed
    obtain ⟨phase', moved, -⟩ := step_call σ.store event k _ found
    obtain rfl : phase' = .returned (.flag false) left := by simpa [callPhase, moved] using after
    rcases step_refused σ.store event k exit.update phase left found moved with
      same | ⟨rfl, rfl, refused⟩
    · exact before (by rw [callPhase, found, same]; rfl)
    · have ready : σ.callPhase k = some .ready := by rw [callPhase, found]; rfl
      simp only [unrefused, worker, ready, bne_self_eq_false, Bool.false_or] at calm
      rcases status : σ.store.statusOf exit.update.jobId with _ | status'
      · simp [status] at calm
      · simp [status, refused status' status] at calm
  · obtain rfl := Option.some.inj current
    exact kept (some exit) placed
  · obtain rfl := Option.some.inj current
    exact kept final placed
  · obtain rfl := Option.some.inj current
    exact kept final placed

theorem step_accepted (P : Processing) (σ : SystemState) (event : SystemEvent)
    (placed : Placed σ.store σ.worker) (holds : Accepted σ) (calm : unrefused σ event = true) :
    Accepted (step P σ event) := by
  have moved := system_cases P σ event
  generalize step P σ event = τ at moved ⊢
  cases moved with
  | idle => exact holds
  | store inner asked =>
    subst asked
    exact store_step_accepted σ inner placed holds calm
  | execute outcome upload running => exact accepted_of_fresh σ _ _
  | handle exit i type message waiting raised => exact accepted_of_fresh σ _ _
  | giveUp exit i waiting raised =>
    exact fun k left current => holds k left (by rw [waiting]; exact current)
  | written exit handling i result left waiting returned =>
    exact fun k left current => holds k left (by rw [waiting]; exact current)
  | settle exit i waiting asked =>
    exact fun k left current => holds k left (by rw [waiting]; exact current)
  | close final i heartbeatRaised waiting =>
    exact fun k left current => holds k left (by rw [waiting]; exact current)
  | request action => exact holds
  | turn k request phase present onward reads => exact holds
  | override k request present reading => exact store_step_accepted σ (.call _) placed holds rfl
  | release k request escrowId present ready asked =>
    exact store_step_accepted σ (.call _) placed holds rfl

def Fired (σ : SystemState) : Prop :=
  match σ.worker with
  | .ended (some exit) _ => ∀ callback ∈ σ.callbacks, callback.status = exit.update.newStatus
  | _ => σ.callbacks = []

theorem firedCallbacks_status (P : Processing) (heartbeatRaised : Bool) (exit : Exit) :
    ∀ callback ∈ firedCallbacks P heartbeatRaised (some exit),
      callback.status = exit.update.newStatus := by
  intro callback member
  simp only [firedCallbacks] at member
  split at member
  · obtain rfl := List.mem_singleton.mp member
    rfl
  · contradiction

theorem step_fired (P : Processing) (σ : SystemState) (event : SystemEvent) (holds : Fired σ) :
    Fired (step P σ event) := by
  have moved := system_cases P σ event
  generalize step P σ event = τ at moved ⊢
  cases moved with
  | execute outcome upload running =>
    rw [Fired, running] at holds
    exact holds
  | handle exit i type message waiting raised =>
    rw [Fired, waiting] at holds
    exact holds
  | giveUp exit i waiting raised =>
    rw [Fired, waiting] at holds
    exact holds
  | written exit handling i result left waiting returned =>
    rw [Fired, waiting] at holds
    exact holds
  | settle exit i waiting asked =>
    rw [Fired, waiting] at holds
    exact holds
  | close final i heartbeatRaised waiting =>
    rw [Fired, waiting] at holds
    have none_before : σ.callbacks = [] := by cases final <;> exact holds
    cases final with
    | none => simp [Fired, none_before, firedCallbacks]
    | some exit =>
      simp only [Fired, none_before, List.nil_append]
      exact firedCallbacks_status P heartbeatRaised exit
  | _ => exact holds

theorem write_of_fired (σ : SystemState) (placed : Placed σ.store σ.worker) (fired : Fired σ)
    (callback : Callback) (member : callback ∈ σ.callbacks) :
    ∃ exit i result left, σ.worker = .ended (some exit) i ∧
      callback.status = exit.update.newStatus ∧
      σ.store.calls[i]? = some ⟨.updateJobStatus exit.update, .returned result left⟩ := by
  rw [Fired] at fired
  split at fired
  · rename_i exit i worker
    rw [worker] at placed
    obtain ⟨result, left, found⟩ := placed
    exact ⟨exit, i, result, left, worker, fired callback member, found⟩
  · rw [fired] at member
    contradiction

/-- A callback that was fired agrees with the row exactly when the store took the last write. -/
theorem agrees_iff_taken (σ : SystemState) (placed : Placed σ.store σ.worker)
    (landed : AllLanded σ.store) (fired : Fired σ) (callback : Callback)
    (member : callback ∈ σ.callbacks) :
    statusAtLastWrite σ = some callback.status ↔
      ∀ left, σ.lastWrite.bind σ.callPhase ≠ some (.returned (.flag false) left) := by
  obtain ⟨exit, i, result, left, worker, status, found⟩ := write_of_fired σ placed fired callback member
  have phase : σ.lastWrite.bind σ.callPhase = some (.returned result left) := by
    simp [lastWrite, worker, callPhase, found]
  have seen : statusAtLastWrite σ = left := by rw [statusAtLastWrite, phase]
  have outcome := landed i _ found
  rw [seen, status, phase]
  rcases result with ⟨_ | _⟩ | _ | _ | _
  · constructor
    · intro same
      have refused := outcome _ same
      simp [StatusUpdate.refuses] at refused
    · exact fun taken => absurd rfl (taken left)
  · exact ⟨fun _ => by simp, fun _ => outcome⟩
  · exact outcome.elim
  · exact outcome.elim
  · exact outcome.elim

/-- While the guard of the store lets the worker's writes through, a callback says what the row said
at the end of the last of them. -/
theorem callback_agrees (P : Processing) (clock : Int) (rows : JobId → Option JobRow)
    (events : List SystemEvent)
    (calm : Runs.Guarded (step P) unrefused (start clock rows) events = true) :
    ∀ callback ∈ (Runs.run (step P) (start clock rows) events).callbacks,
      statusAtLastWrite (Runs.run (step P) (start clock rows) events) = some callback.status := by
  have placed := run_placed P clock rows events
  have landed := run_landed P clock rows events
  have fired : Fired (Runs.run (step P) (start clock rows) events) :=
    Runs.run_always (step P) Fired (step_fired P) events _ rfl
  have accepted := (Runs.run_invariant (step P)
    (fun σ => Placed σ.store σ.worker ∧ Accepted σ) unrefused
    (fun σ event holds ok =>
      ⟨step_placed P σ event holds.1, step_accepted P σ event holds.1 holds.2 ok⟩)
    events (start clock rows) ⟨trivial, fun i left current => by contradiction⟩ calm).2
  intro callback member
  obtain ⟨exit, i, result, left, worker, -, -⟩ := write_of_fired _ placed fired callback member
  refine (agrees_iff_taken _ placed landed fired callback member).mpr fun left => ?_
  have last : (Runs.run (step P) (start clock rows) events).lastWrite = some i := by
    rw [lastWrite, worker]
  rw [last]
  exact accepted i left (by rw [worker]; rfl)

/-! The reaper expires the job before the worker reads its row. -/

def hookedJob : JobRow :=
  { (JobRow.queued "job-1" "genesis-research" 0).claim 0 with
    webhookUrl := some "https://market.example/hook" }

def hookedRows (jobId : JobId) : Option JobRow := if jobId = "job-1" then some hookedJob else none

def reapedDelivery : List SystemEvent :=
  [.execute (.returned reportResult) .noDirectory,
   .store (.call (.expireStaleRunningJobs 5)), .store (.touch 1 "job-1"), .store (.commit 1),
   .store (.advance 0), .resume "" "", .settle, .close false]

theorem refused_delivery_reported :
    ¬∀ (P : Processing) (clock : Int) (rows : JobId → Option JobRow) (events : List SystemEvent),
      rows P.job.id = some P.job → isSet P.job.webhookUrl = true →
      ∀ callback ∈ (Runs.run (step P) (start clock rows) events).callbacks,
        statusAtLastWrite (Runs.run (step P) (start clock rows) events) =
          some callback.status := by
  intro agrees
  have same := agrees (.escrowEnabled hookedJob) 600000000 hookedRows reapedDelivery rfl (by decide)
    ⟨"https://market.example/hook", "job-1", .delivered, some "done", none, none⟩
    (List.mem_singleton.mpr rfl)
  have expired : statusAtLastWrite (Runs.run (step (.escrowEnabled hookedJob))
      (start 600000000 hookedRows) reapedDelivery) = some .expired := rfl
  rw [expired] at same
  exact absurd same (by decide)

def promptDelivery : List SystemEvent :=
  [.execute (.returned reportResult) .noDirectory, .store (.advance 0), .store (.advance 0),
   .store (.commit 0), .resume "" "", .settle, .close false]

theorem delivery_reported :
    statusAtLastWrite (Runs.run (step (.escrowEnabled hookedJob)) (start 600000000 hookedRows)
      promptDelivery) = some .delivered :=
  callback_agrees (.escrowEnabled hookedJob) 600000000 hookedRows promptDelivery (by decide)
    ⟨"https://market.example/hook", "job-1", .delivered, some "done", none, none⟩
    (List.mem_singleton.mpr rfl)

end GenesisAgents
