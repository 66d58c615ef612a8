import GenesisAgents.WorkerCalls

/-! The calls of the escrow client, tied to how far the worker and the admin requests are. -/

namespace GenesisAgents

open RowLocks SystemState

def SameEscrow (before after : JobRow) : Prop := after.escrowId = before.escrowId

theorem sameEscrow_refl (row : JobRow) : SameEscrow row row := rfl

theorem sameEscrow_trans (first second third : JobRow) (left : SameEscrow first second)
    (right : SameEscrow second third) : SameEscrow first third := Eq.trans right left

theorem store_step_sameEscrow (store : StoreState) (event : StoreEvent)
    (both : store.table.Both SameEscrow) :
    (store.step event).table.Both SameEscrow ∧
      store.table.Climbs SameEscrow (store.step event).table := by
  refine step_rows SameEscrow sameEscrow_refl sameEscrow_trans store event both ?_
  intro i request old began fromStatus touched jobId f cell present found unlocked writes
  cases writes <;> rfl

structure CarriesEscrow (P : Processing) (store : StoreState) : Prop where
  rows : store.table.Both SameEscrow
  row : ∃ row, store.table.read P.job.id = some row ∧ row.escrowId = P.job.escrowId

theorem step_carriesEscrow (P : Processing) (store : StoreState) (event : StoreEvent)
    (holds : CarriesEscrow P store) : CarriesEscrow P (store.step event) := by
  have moved := store_step_sameEscrow store event holds.rows
  obtain ⟨row, found, carried⟩ := holds.row
  obtain ⟨row', found', same⟩ := moved.2 P.job.id row found
  exact ⟨moved.1, row', found', same.trans carried⟩

theorem start_carriesEscrow (P : Processing) (clock : Int) (rows : JobId → Option JobRow)
    (claimed : rows P.job.id = some P.job) : CarriesEscrow P (StoreState.start clock rows) :=
  ⟨Table.both_ofRows SameEscrow rows, P.job, by simp [StoreState.start, Table.read, Table.ofRows,
    claimed], rfl⟩

def EscrowCall.ofWorker (call : EscrowCall) : Bool := call.party = .worker

def workerCalls (P : Processing) : WorkerPhase → List EscrowCall
  | .closing (some exit) _ => escrowCallsOf P exit
  | .ended (some exit) _ => escrowCallsOf P exit
  | _ => []

theorem escrowCallsOf_filter (P : Processing) (exit : Exit) :
    (escrowCallsOf P exit).filter EscrowCall.ofWorker = escrowCallsOf P exit ∧
      (escrowCallsOf P exit).filter (fun call => !call.ofWorker) = [] := by
  rw [escrowCallsOf]
  split <;> exact ⟨rfl, rfl⟩

def WorkerBooked (P : Processing) (σ : SystemState) : Prop :=
  σ.escrowCalls.filter EscrowCall.ofWorker = workerCalls P σ.worker

theorem step_workerBooked (P : Processing) (σ : SystemState) (event : SystemEvent)
    (holds : WorkerBooked P σ) : WorkerBooked P (step P σ event) := by
  have moved := system_cases P σ event
  generalize step P σ event = τ at moved ⊢
  unfold WorkerBooked at holds ⊢
  cases moved with
  | execute outcome upload running => rwa [running] at holds
  | handle exit i type message waiting raised => rwa [waiting] at holds
  | giveUp exit i waiting raised => rwa [waiting] at holds
  | written exit handling i result left waiting returned => rwa [waiting] at holds
  | settle exit i waiting asked =>
    rw [waiting] at holds
    rw [List.filter_append, holds, (escrowCallsOf_filter P exit).1]
    rfl
  | close final i heartbeatRaised waiting =>
    rw [waiting] at holds
    cases final <;> exact holds
  | release k request escrowId present ready asked =>
    change (σ.escrowCalls ++ [_]).filter EscrowCall.ofWorker = workerCalls P σ.worker
    rw [List.filter_append, holds]
    exact List.append_nil _
  | _ => exact holds

theorem run_workerBooked (P : Processing) (clock : Int) (rows : JobId → Option JobRow)
    (events : List SystemEvent) : WorkerBooked P (Runs.run (step P) (start clock rows) events) :=
  Runs.run_always (step P) (WorkerBooked P) (step_workerBooked P) events _ rfl

def refunds (σ : SystemState) : Nat := σ.admins.countP AdminRequest.released

def adminRelease (P : Processing) : EscrowCall :=
  ⟨.admin, P.job.escrowId.getD "", .release "admin_refund"⟩

structure AdminBooked (P : Processing) (σ : SystemState) : Prop where
  calls : σ.escrowCalls.filter (fun call => !call.ofWorker) =
    List.replicate (refunds σ) (adminRelease P)
  /-- Up to its release a request has released nothing. -/
  early : ∀ request ∈ σ.admins, request.phase = .reading → request.released = false
  ready : ∀ request ∈ σ.admins, ∀ escrowId, request.phase = .releasing escrowId →
    request.released = false ∧ escrowId = P.job.escrowId.getD ""

theorem countP_set_request (counts : AdminRequest → Bool) (admins : List AdminRequest) (k : Nat)
    (old new : AdminRequest) (present : admins[k]? = some old) :
    (admins.set k new).countP counts + (counts old).toNat = admins.countP counts + (counts new).toNat := by
  obtain ⟨inside, rfl⟩ := List.getElem?_eq_some_iff.mp present
  rw [List.countP_set inside]
  have counted : counts admins[k] = true → 0 < admins.countP counts :=
    fun counted => List.countP_pos_iff.mpr ⟨_, List.getElem_mem inside, counted⟩
  cases was : counts admins[k] <;> cases becomes : counts new <;> simp_all

theorem countP_set_released (admins : List AdminRequest) (k : Nat) (old new : AdminRequest)
    (present : admins[k]? = some old) :
    (admins.set k new).countP AdminRequest.released + old.released.toNat =
      admins.countP AdminRequest.released + new.released.toNat :=
  countP_set_request AdminRequest.released admins k old new present

theorem adminBooked_set (P : Processing) (σ τ : SystemState) (k : Nat) (old new : AdminRequest)
    (holds : AdminBooked P σ) (present : σ.admins[k]? = some old)
    (admins : τ.admins = σ.admins.set k new) (calls : τ.escrowCalls = σ.escrowCalls)
    (same : new.released = old.released) (early : new.phase ≠ .reading)
    (ready : ∀ escrowId, new.phase = .releasing escrowId →
      new.released = false ∧ escrowId = P.job.escrowId.getD "") : AdminBooked P τ := by
  have counted := countP_set_released σ.admins k old new present
  have kept : refunds τ = refunds σ := by
    rw [refunds, admins, refunds]
    rw [same] at counted
    omega
  refine ⟨by rw [calls, kept, holds.calls], ?_, ?_⟩
  · intro request member reading
    rw [admins] at member
    rcases List.mem_or_eq_of_mem_set member with earlier | rfl
    · exact holds.early request earlier reading
    · exact absurd reading early
  · intro request member escrowId releasing
    rw [admins] at member
    rcases List.mem_or_eq_of_mem_set member with earlier | rfl
    · exact holds.ready request earlier escrowId releasing
    · exact ready escrowId releasing

theorem step_adminBooked (P : Processing) (σ : SystemState) (event : SystemEvent)
    (carries : CarriesEscrow P σ.store) (holds : AdminBooked P σ) :
    AdminBooked P (step P σ event) := by
  have moved := system_cases P σ event
  generalize step P σ event = τ at moved ⊢
  cases moved with
  | settle exit i waiting asked =>
    refine ⟨?_, holds.early, holds.ready⟩
    rw [List.filter_append, holds.calls, (escrowCallsOf_filter P exit).2]
    exact List.append_nil _
  | request action =>
    have kept : refunds { σ with admins := σ.admins ++ [⟨action, false, .reading⟩] } = refunds σ := by
      simp [refunds]
    refine ⟨by rw [kept]; exact holds.calls, ?_, ?_⟩
    · intro request member reading
      rcases List.mem_append.mp member with earlier | new
      · exact holds.early request earlier reading
      · obtain rfl := List.mem_singleton.mp new
        rfl
    · intro request member escrowId releasing
      rcases List.mem_append.mp member with earlier | new
      · exact holds.ready request earlier escrowId releasing
      · obtain rfl := List.mem_singleton.mp new
        contradiction
  | turn k request phase present onward reads =>
    refine adminBooked_set P σ _ k request _ holds present rfl rfl rfl onward fun escrowId same => ?_
    obtain ⟨reading, row, found, -, rfl⟩ := reads escrowId same
    obtain ⟨row', found', carried⟩ := carries.row
    obtain rfl := Option.some.inj (found.symm.trans found')
    exact ⟨holds.early request (List.mem_of_getElem? present) reading, by rw [carried]⟩
  | override k request present reading =>
    exact adminBooked_set P σ _ k request _ holds present rfl rfl rfl (by simp) (by simp)
  | release k request escrowId present ready asked =>
    obtain ⟨fresh, rfl⟩ := holds.ready request (List.mem_of_getElem? present) escrowId ready
    have counted := countP_set_released σ.admins k request
      { request with released := true, phase := .updating σ.store.calls.length } present
    simp only [fresh, Bool.toNat_false, Bool.toNat_true, Nat.add_zero] at counted
    refine ⟨?_, ?_, ?_⟩
    · change (σ.escrowCalls ++ [adminRelease P]).filter (fun call => !call.ofWorker) =
        List.replicate ((σ.admins.set k _).countP AdminRequest.released) (adminRelease P)
      rw [counted, List.filter_append, holds.calls, List.replicate_succ']
      rfl
    · intro other member reading
      rcases List.mem_or_eq_of_mem_set member with earlier | rfl
      · exact holds.early other earlier reading
      · contradiction
    · intro other member escrowId' releasing
      rcases List.mem_or_eq_of_mem_set member with earlier | rfl
      · exact holds.ready other earlier escrowId' releasing
      · contradiction
  | _ => exact ⟨holds.calls, holds.early, holds.ready⟩

theorem start_adminBooked (P : Processing) (clock : Int) (rows : JobId → Option JobRow) :
    AdminBooked P (start clock rows) :=
  ⟨rfl, fun _ member => by simp [start] at member, fun _ member => by simp [start] at member⟩

end GenesisAgents
