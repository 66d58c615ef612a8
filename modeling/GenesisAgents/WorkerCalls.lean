import GenesisAgents.Worker

/-! Where the status writes of `process_job` stand in the store, in every phase of the worker. -/

namespace GenesisAgents

open RowLocks SystemState

theorem deliveredExit_update (P : Processing) (result : AgentResult) (upload : Upload) (exit : Exit)
    (delivered : P.deliveredExit result upload = .ok exit) :
    exit.update.jobId = P.job.id ∧ exit.update.newStatus = Processing.deliveryStatus upload ∧
      exit.update.allowTerminalOverride = false := by
  simp only [Processing.deliveredExit] at delivered
  split at delivered
  · contradiction
  · split at delivered
    · contradiction
    · obtain rfl := Except.ok.inj delivered
      exact ⟨rfl, rfl, rfl⟩

theorem exitOf_update (P : Processing) (outcome : AgentOutcome) (upload : Upload) :
    (P.exitOf outcome upload).1.update.jobId = P.job.id ∧
      (P.exitOf outcome upload).1.update.newStatus ≠ .queued ∧
      (P.exitOf outcome upload).1.update.allowTerminalOverride = false := by
  have failed : JobStatus.failed ≠ .queued := by decide
  cases outcome with
  | raised type message => exact ⟨rfl, failed, rfl⟩
  | returned result =>
    rw [Processing.exitOf.eq_def]
    dsimp only
    split
    · split
      · rename_i exit delivered
        obtain ⟨about, status, plain⟩ := deliveredExit_update P result upload exit delivered
        refine ⟨about, ?_, plain⟩
        rw [status]
        cases upload <;> simp [Processing.deliveryStatus]
      · exact ⟨rfl, failed, rfl⟩
    · exact ⟨rfl, failed, rfl⟩

def Finished (store : StoreState) : Option Exit → Nat → Prop
  | some exit, i => ∃ result left,
      store.calls[i]? = some ⟨.updateJobStatus exit.update, .returned result left⟩
  | none, i => ∃ request, store.calls[i]? = some ⟨request, .raised⟩

def Placed (store : StoreState) : WorkerPhase → Prop
  | .executing => True
  | .writing exit _ i => ∃ phase, store.calls[i]? = some ⟨.updateJobStatus exit.update, phase⟩
  | .settling exit i => Finished store (some exit) i
  | .closing final i => Finished store final i
  | .ended final i => Finished store final i

theorem step_finished (store : StoreState) (event : StoreEvent) (final : Option Exit) (i : Nat)
    (holds : Finished store final i) : Finished (store.step event) final i := by
  cases final with
  | some exit =>
    obtain ⟨result, left, found⟩ := holds
    obtain ⟨phase, moved, kept⟩ := step_call store event i _ found
    obtain rfl := kept rfl
    exact ⟨result, left, moved⟩
  | none =>
    obtain ⟨request, found⟩ := holds
    obtain ⟨phase, moved, kept⟩ := step_call store event i _ found
    obtain rfl := kept rfl
    exact ⟨request, moved⟩

theorem store_step_placed (store : StoreState) (event : StoreEvent) (worker : WorkerPhase)
    (holds : Placed store worker) : Placed (store.step event) worker := by
  cases worker with
  | executing => trivial
  | writing exit handling i =>
    obtain ⟨phase, found⟩ := holds
    obtain ⟨phase', moved, -⟩ := step_call store event i _ found
    exact ⟨phase', moved⟩
  | settling exit i => exact step_finished store event (some exit) i holds
  | closing final i => exact step_finished store event final i holds
  | ended final i => exact step_finished store event final i holds

theorem write_placed (σ : SystemState) (exit : Exit) (handling : Bool) :
    Placed (σ.write exit handling).store (σ.write exit handling).worker :=
  ⟨.ready, by simp [write, callUpdate, StoreState.step]⟩

theorem callPhase_eq (σ : SystemState) (i : Nat) (request : StoreCall) (phase phase' : CallPhase)
    (found : σ.store.calls[i]? = some ⟨request, phase⟩) (seen : σ.callPhase i = some phase') :
    phase = phase' := by
  simpa [callPhase, found] using seen

theorem step_placed (P : Processing) (σ : SystemState) (event : SystemEvent)
    (holds : Placed σ.store σ.worker) : Placed (step P σ event).store (step P σ event).worker := by
  have moved := system_cases P σ event
  generalize step P σ event = τ at moved ⊢
  cases moved with
  | idle => exact holds
  | store inner asked => exact store_step_placed σ.store inner σ.worker holds
  | execute outcome upload running => exact write_placed σ _ _
  | handle exit i type message waiting raised => exact write_placed σ _ _
  | giveUp exit i waiting raised =>
    rw [waiting] at holds
    obtain ⟨phase, found⟩ := holds
    obtain rfl := callPhase_eq σ i _ _ _ found raised
    exact ⟨_, found⟩
  | written exit handling i result left waiting returned =>
    rw [waiting] at holds
    obtain ⟨phase, found⟩ := holds
    obtain rfl := callPhase_eq σ i _ _ _ found returned
    exact ⟨result, left, found⟩
  | settle exit i waiting asked =>
    rw [waiting] at holds
    exact holds
  | close final i heartbeatRaised waiting =>
    rw [waiting] at holds
    exact holds
  | request action => exact holds
  | turn k request phase present onward reads => exact holds
  | override k request present reading => exact store_step_placed σ.store _ σ.worker holds
  | release k request escrowId present ready asked =>
    exact store_step_placed σ.store _ σ.worker holds

theorem run_placed (P : Processing) (clock : Int) (rows : JobId → Option JobRow)
    (events : List SystemEvent) :
    Placed (Runs.run (step P) (start clock rows) events).store
      (Runs.run (step P) (start clock rows) events).worker :=
  Runs.run_always (step P) (fun σ => Placed σ.store σ.worker) (step_placed P) events _ trivial

theorem run_landed (P : Processing) (clock : Int) (rows : JobId → Option JobRow)
    (events : List SystemEvent) :
    AllLanded (Runs.run (step P) (start clock rows) events).store :=
  Runs.run_always (step P) (fun σ => AllLanded σ.store)
    (step_keeps_store P AllLanded step_landed) events _ (start_landed clock rows)

end GenesisAgents
