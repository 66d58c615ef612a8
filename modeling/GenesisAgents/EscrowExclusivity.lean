import GenesisAgents.EscrowBooks

/-! Is the escrow of a job moved once? The worker decides from the result of the agent, an admin
refund from a row it has read; neither looks at what the other has done. -/

namespace GenesisAgents

open RowLocks SystemState

def EscrowMove.isRelease : EscrowMove → Bool
  | .complete => false
  | .release _ => true

/-- Never both settled and released, and released at most once. -/
structure Exclusive (escrowId : String) (calls : List EscrowCall) : Prop where
  oneEnd : ∀ first ∈ calls, ∀ second ∈ calls, first.escrowId = escrowId →
    second.escrowId = escrowId → first.move = .complete → second.move.isRelease = false
  oneRelease : calls.countP (fun call => call.escrowId = escrowId && call.move.isRelease) ≤ 1

def paid (σ : SystemState) : Bool :=
  match σ.worker with
  | .closing (some _) _ => true
  | .ended (some _) _ => true
  | _ => false

def moves (σ : SystemState) : Nat := refunds σ + (paid σ).toNat

def AdminRequest.hasRead (request : AdminRequest) : Bool :=
  request.released ||
    match request.phase with
    | .releasing _ => true
    | _ => false

def readers (σ : SystemState) : Nat := σ.admins.countP AdminRequest.hasRead

def comesToRead (P : Processing) (σ : SystemState) (k : Nat) : Bool :=
  match σ.admins[k]? with
  | none => false
  | some request =>
    match request.phase with
    | .reading => (σ.store.table.read P.job.id).any (releases P request)
    | _ => false

/-- The step with which a party decides to move the escrow. -/
def decides (P : Processing) (σ : SystemState) : SystemEvent → Bool
  | .settle =>
    match σ.worker with
    | .settling _ _ => true
    | _ => false
  | .adminStep k => comesToRead P σ k
  | _ => false

/-- A refund reads the row only where no other refund has read it and the worker has not passed its
escrow step; the worker comes to its escrow step only where no refund has read the row. -/
def readsAlone (P : Processing) (σ : SystemState) (event : SystemEvent) : Bool :=
  !decides P σ event || (readers σ == 0 && !paid σ)

def isRelease (σ : SystemState) : SystemEvent → Bool
  | .adminStep k =>
    match (σ.admins[k]?).map AdminRequest.phase with
    | some (.releasing _) => true
    | _ => false
  | _ => false

def deciders (σ : SystemState) : Nat := readers σ + (paid σ).toNat

theorem readers_setAdmin (σ : SystemState) (k : Nat) (old new : AdminRequest)
    (present : σ.admins[k]? = some old) (same : new.hasRead = old.hasRead) :
    readers (σ.setAdmin k new) = readers σ := by
  have counted := countP_set_request AdminRequest.hasRead σ.admins k old new present
  rw [same] at counted
  exact Nat.add_right_cancel counted

theorem adminStep_readers (P : Processing) (σ : SystemState) (k : Nat) (booked : AdminBooked P σ) :
    readers (adminStep P σ k) = readers σ + (comesToRead P σ k).toNat := by
  unfold adminStep comesToRead
  cases present : σ.admins[k]? with
  | none => rfl
  | some request =>
    dsimp only
    cases phase : request.phase with
    | reading =>
      have fresh := booked.early request (List.mem_of_getElem? present) phase
      have unread : request.hasRead = false := by
        rw [AdminRequest.hasRead, fresh, phase]
        rfl
      cases found : σ.store.table.read P.job.id with
      | none =>
        refine readers_setAdmin σ k request _ present ?_
        rw [unread, AdminRequest.hasRead]
        exact Bool.or_eq_false_iff.mpr ⟨fresh, rfl⟩
      | some row =>
        dsimp only
        rw [Option.any_some]
        cases goes : releases P request row with
        | true =>
          have counted := countP_set_request AdminRequest.hasRead σ.admins k request
            { request with phase := .releasing (row.escrowId.getD "") } present
          have reads : AdminRequest.hasRead { request with phase := .releasing (row.escrowId.getD "") } = true := by
            rw [AdminRequest.hasRead, Bool.or_eq_true]
            exact .inr rfl
          rw [unread, reads] at counted
          exact counted
        | false =>
          refine readers_setAdmin (σ.callUpdate _) k request _ present ?_
          rw [unread, AdminRequest.hasRead]
          exact Bool.or_eq_false_iff.mpr ⟨fresh, rfl⟩
    | releasing escrowId =>
      refine readers_setAdmin _ k request _ present ?_
      rw [AdminRequest.hasRead, AdminRequest.hasRead, phase, Bool.true_or, Bool.or_true]
    | updating i =>
      dsimp only
      split
      · split
        · refine readers_setAdmin σ k request _ present ?_
          rw [AdminRequest.hasRead, AdminRequest.hasRead, phase]
        · rfl
      · rfl
    | done => rfl

theorem adminStep_worker (P : Processing) (σ : SystemState) (k : Nat) :
    (adminStep P σ k).worker = σ.worker := by
  unfold adminStep
  repeat' split
  all_goals rfl

theorem deciders_worker (σ τ : SystemState) (admins : τ.admins = σ.admins) (same : paid τ = paid σ) :
    deciders τ = deciders σ := by
  rw [deciders, readers, admins, same]
  rfl

theorem deciders_step (P : Processing) (σ : SystemState) (event : SystemEvent) (booked : AdminBooked P σ) :
    deciders (step P σ event) = deciders σ + (decides P σ event).toNat := by
  cases event with
  | store inner => rfl
  | execute outcome upload =>
    rw [step]
    split
    · rename_i running
      exact deciders_worker σ _ rfl (by rw [paid, paid, running]; rfl)
    · rfl
  | resume type message =>
    rw [step, resume]
    split
    · rename_i exit handling i waiting
      have before : paid σ = false := by rw [paid, waiting]
      split
      · exact deciders_worker σ _ rfl (by rw [before]; rfl)
      · split
        · exact deciders_worker σ _ rfl (by rw [before]; rfl)
        · exact deciders_worker σ _ rfl (by rw [before]; rfl)
      · rfl
    · rfl
  | settle =>
    rw [step, settle, decides]
    cases waiting : σ.worker with
    | settling exit i =>
      have before : paid σ = false := by rw [paid, waiting]
      rw [deciders, deciders, before]
      rfl
    | _ => rfl
  | close heartbeatRaised =>
    rw [step, close]
    split
    · rename_i final i waiting
      refine deciders_worker σ _ rfl ?_
      rw [paid, paid, waiting]
      cases final <;> rfl
    · rfl
  | request action =>
    have kept : readers (step P σ (.request action)) = readers σ := by
      rw [step, readers, List.countP_append]
      rfl
    rw [deciders, kept]
    rfl
  | adminStep k =>
    have worker : paid (adminStep P σ k) = paid σ := by rw [paid, adminStep_worker, paid]
    rw [step, deciders, adminStep_readers P σ k booked, worker, deciders, decides]
    exact Nat.add_right_comm _ _ _

/-- A step is allowed exactly when one party at most has decided after it. -/
theorem readsAlone_iff (P : Processing) (σ : SystemState) (event : SystemEvent) (booked : AdminBooked P σ)
    (alone : deciders σ ≤ 1) : readsAlone P σ event = true ↔ deciders (step P σ event) ≤ 1 := by
  rw [deciders_step P σ event booked]
  cases decided : decides P σ event with
  | false => exact iff_of_true (by rw [readsAlone, decided]; rfl) alone
  | true =>
    rw [readsAlone, decided, deciders, Bool.not_true, Bool.false_or, Bool.and_eq_true, beq_iff_eq]
    cases paid σ <;> simp

theorem release_step (P : Processing) (σ : SystemState) (event : SystemEvent) (booked : AdminBooked P σ)
    (release : isRelease σ event = true) :
    deciders (step P σ event) = deciders σ ∧ moves (step P σ event) = moves σ + 1 := by
  unfold isRelease at release
  split at release
  · rename_i k
    split at release
    · rename_i escrowId ready
      obtain ⟨request, present, phase⟩ := Option.map_eq_some_iff.mp ready
      have fresh := (booked.ready request (List.mem_of_getElem? present) escrowId phase).1
      have counted := countP_set_released σ.admins k request
        { request with released := true, phase := .updating σ.store.calls.length } present
      simp only [fresh, Bool.toNat_false, Bool.toNat_true, Nat.add_zero] at counted
      have more : refunds (step P σ (.adminStep k)) = refunds σ + 1 := by
        rw [step, adminStep, present]
        simp only [phase]
        exact counted
      have same : paid (step P σ (.adminStep k)) = paid σ := by
        rw [step, paid, adminStep_worker, paid]
      have still : decides P σ (.adminStep k) = false := by
        rw [decides, comesToRead, present]
        simp only [phase]
      constructor
      · rw [deciders_step P σ _ booked, still]
        rfl
      · rw [moves, moves, more, same, Nat.add_right_comm]
    · contradiction
  · contradiction

theorem hasRead_of_released (request : AdminRequest) (released : request.released = true) :
    request.hasRead = true := by
  rw [AdminRequest.hasRead, released, Bool.true_or]

theorem moves_le_deciders (σ : SystemState) : moves σ ≤ deciders σ :=
  Nat.add_le_add_right (List.countP_mono_left fun request _ => hasRead_of_released request) _

theorem release_of_lt (σ : SystemState) (left : moves σ < deciders σ) :
    ∃ k, isRelease σ (.adminStep k) = true := by
  by_contra none
  have same : refunds σ = readers σ := by
    apply List.countP_congr
    intro request member
    constructor
    · exact hasRead_of_released request
    · intro reads
      rw [AdminRequest.hasRead, Bool.or_eq_true] at reads
      cases reads with
      | inl released => exact released
      | inr ready =>
        obtain ⟨k, present⟩ := List.mem_iff_getElem?.mp member
        refine absurd ⟨k, ?_⟩ none
        rw [isRelease, present, Option.map_some]
        cases phase : request.phase with
        | releasing escrowId => rfl
        | _ =>
          rw [phase] at ready
          cases ready
  rw [moves, deciders, same] at left
  exact lt_irrefl _ left

theorem releases_all (P : Processing) (n : Nat) : ∀ σ, CarriesEscrow P σ.store → AdminBooked P σ →
    deciders σ - moves σ = n → ∃ more, Runs.Guarded (step P) isRelease σ more = true ∧
      moves (Runs.run (step P) σ more) = deciders σ := by
  induction n with
  | zero =>
    intro σ _ _ left
    have bound := moves_le_deciders σ
    exact ⟨[], rfl, by rw [Runs.run_nil]; omega⟩
  | succ n later =>
    intro σ carries booked left
    obtain ⟨k, release⟩ := release_of_lt σ (by omega)
    have moved := release_step P σ _ booked release
    obtain ⟨more, guarded, all⟩ := later (step P σ (.adminStep k))
      (step_keeps_store P (CarriesEscrow P) (step_carriesEscrow P) σ _ carries)
      (step_adminBooked P σ _ carries booked) (by omega)
    refine ⟨.adminStep k :: more, ?_, ?_⟩
    · rw [Runs.Guarded, release, guarded]
      rfl
    · rw [Runs.run_cons, all, moved.1]

theorem workerCalls_owned (P : Processing) (σ : SystemState) (owns : P.ownsEscrow = true)
    (permitted : P.escrowPermitted = true) :
    (paid σ = false ∧ workerCalls P σ.worker = []) ∨
      ∃ move, paid σ = true ∧
        workerCalls P σ.worker = [⟨.worker, P.job.escrowId.getD "", move⟩] := by
  have asked (exit : Exit) : escrowCallsOf P exit =
      [⟨.worker, P.job.escrowId.getD "", exit.move⟩] := by
    simp [escrowCallsOf, owns, permitted]
  rcases worker : σ.worker with _ | ⟨exit, handling, i⟩ | ⟨exit, i⟩ | ⟨_ | exit, i⟩ | ⟨_ | exit, i⟩
  · exact .inl ⟨by rw [paid, worker], rfl⟩
  · exact .inl ⟨by rw [paid, worker], rfl⟩
  · exact .inl ⟨by rw [paid, worker], rfl⟩
  · exact .inl ⟨by rw [paid, worker], rfl⟩
  · exact .inr ⟨exit.move, by rw [paid, worker], asked exit⟩
  · exact .inl ⟨by rw [paid, worker], rfl⟩
  · exact .inr ⟨exit.move, by rw [paid, worker], asked exit⟩

/-- The log is what the worker has asked and what the refunds have released. -/
theorem mem_escrowCalls (P : Processing) (σ : SystemState) (worker : WorkerBooked P σ)
    (admin : AdminBooked P σ) (call : EscrowCall) : call ∈ σ.escrowCalls ↔
      call ∈ workerCalls P σ.worker ∨ call ∈ List.replicate (refunds σ) (adminRelease P) := by
  rw [← worker, ← admin.calls, List.mem_filter, List.mem_filter]
  cases call.ofWorker <;> simp

theorem countP_escrowCalls (P : Processing) (σ : SystemState) (worker : WorkerBooked P σ)
    (admin : AdminBooked P σ) (counts : EscrowCall → Bool) :
    σ.escrowCalls.countP counts = (workerCalls P σ.worker).countP counts +
      (List.replicate (refunds σ) (adminRelease P)).countP counts := by
  rw [List.countP_eq_countP_filter_add σ.escrowCalls counts EscrowCall.ofWorker,
    ← worker, ← admin.calls]

theorem exclusive_iff (P : Processing) (σ : SystemState) (owns : P.ownsEscrow = true)
    (permitted : P.escrowPermitted = true) (worker : WorkerBooked P σ) (admin : AdminBooked P σ) :
    Exclusive (P.job.escrowId.getD "") σ.escrowCalls ↔ moves σ ≤ 1 := by
  have members := mem_escrowCalls P σ worker admin
  have released := countP_escrowCalls P σ worker admin
    (fun call => call.escrowId = P.job.escrowId.getD "" && call.move.isRelease)
  have refunded : (List.replicate (refunds σ) (adminRelease P)).countP
      (fun call => call.escrowId = P.job.escrowId.getD "" && call.move.isRelease) = refunds σ := by
    simp [List.countP_replicate, adminRelease, EscrowMove.isRelease]
  rw [refunded] at released
  have notComplete (call : EscrowCall)
      (member : call ∈ List.replicate (refunds σ) (adminRelease P)) : call.move ≠ .complete := by
    rw [List.eq_of_mem_replicate member]
    simp [adminRelease]
  rcases workerCalls_owned P σ owns permitted with ⟨unpaid, none_asked⟩ | ⟨move, isPaid, asked⟩
  · -- only refunds have released
    have total : moves σ = refunds σ := by rw [moves, unpaid]; rfl
    rw [none_asked] at members released
    rw [total]
    constructor
    · intro exclusive
      have bound := exclusive.oneRelease
      rw [released] at bound
      simpa using bound
    · intro bound
      refine ⟨fun first member second _ _ _ completes => ?_, by rw [released]; simpa using bound⟩
      rcases (members first).mp member with impossible | byAdmin
      · contradiction
      · exact absurd completes (notComplete first byAdmin)
  · have total : moves σ ≤ 1 ↔ refunds σ = 0 := by simp [moves, isPaid]
    rw [asked] at members released
    rw [total]
    cases move with
    | complete =>
      constructor
      · intro exclusive
        by_contra some_refund
        have first := (members ⟨.worker, P.job.escrowId.getD "", .complete⟩).mpr (.inl (by simp))
        have second := (members (adminRelease P)).mpr
          (.inr (List.mem_replicate.mpr ⟨some_refund, rfl⟩))
        exact absurd (exclusive.oneEnd _ first _ second rfl rfl rfl)
          (by simp [adminRelease, EscrowMove.isRelease])
      · intro no_refund
        rw [no_refund] at members released
        refine ⟨fun first _ second member _ _ _ => ?_, by rw [released]; simp [EscrowMove.isRelease]⟩
        have alone : second = ⟨.worker, P.job.escrowId.getD "", .complete⟩ := by
          simpa using (members second).mp member
        rw [alone]
        rfl
    | release reason =>
      have one : σ.escrowCalls.countP (fun call => call.escrowId = P.job.escrowId.getD "" &&
          call.move.isRelease) = 1 + refunds σ := by
        rw [released]
        simp [EscrowMove.isRelease]
      constructor
      · intro exclusive
        have bound := exclusive.oneRelease
        rw [one] at bound
        omega
      · intro no_refund
        refine ⟨fun first member second _ _ _ completes => ?_, by rw [one, no_refund]⟩
        rcases (members first).mp member with byWorker | byAdmin
        · rw [List.mem_singleton.mp byWorker] at completes
          contradiction
        · exact absurd completes (notComplete first byAdmin)

/-- The escrow of a job the worker owns is moved by one party and once, also after the releases that the
refunds have still to ask for, exactly in the runs in which nobody decides after somebody else. -/
theorem escrow_exclusive_iff (P : Processing) (clock : Int) (rows : JobId → Option JobRow)
    (events : List SystemEvent) (claimed : rows P.job.id = some P.job)
    (escrow : isSet P.job.escrowId = true) (noWebhook : isSet P.job.webhookUrl = false)
    (permitted : P.escrowPermitted = true) :
    Runs.Guarded (step P) (readsAlone P) (start clock rows) events = true ↔
      ∀ more, Runs.Guarded (step P) isRelease (Runs.run (step P) (start clock rows) events) more = true →
        Exclusive (P.job.escrowId.getD "")
          (Runs.run (step P) (start clock rows) (events ++ more)).escrowCalls := by
  have owns : P.ownsEscrow = true := by
    rw [Processing.ownsEscrow, Processing.isExternalEscrow, escrow, noWebhook]
    rfl
  have keeps (σ : SystemState) (event : SystemEvent)
      (holds : CarriesEscrow P σ.store ∧ AdminBooked P σ) :
      CarriesEscrow P (step P σ event).store ∧ AdminBooked P (step P σ event) :=
    ⟨step_keeps_store P (CarriesEscrow P) (step_carriesEscrow P) σ event holds.1,
      step_adminBooked P σ event holds.1 holds.2⟩
  have begins : CarriesEscrow P (start clock rows).store ∧ AdminBooked P (start clock rows) :=
    ⟨start_carriesEscrow P clock rows claimed, start_adminBooked P clock rows⟩
  have books (events : List SystemEvent) := Runs.run_always (step P) _ keeps events _ begins
  have exclusive (events : List SystemEvent) :=
    exclusive_iff P _ owns permitted (run_workerBooked P clock rows events) (books events).2
  have alone := Runs.guarded_iff (step P) _ (fun σ => deciders σ ≤ 1) (readsAlone P) keeps
    (fun σ event holds once => readsAlone_iff P σ event holds.2 once)
    (fun σ event holds once => (Nat.le_add_right _ _).trans
      ((deciders_step P σ event holds.2).symm.le.trans once))
    events (start clock rows) begins (Nat.zero_le _)
  rw [alone]
  constructor
  · intro once more releases
    rw [exclusive, Runs.run_append]
    have still : deciders (Runs.run (step P) (Runs.run (step P) (start clock rows) events) more) ≤ 1 :=
      (Runs.run_invariant (step P)
        (fun σ => (CarriesEscrow P σ.store ∧ AdminBooked P σ) ∧ deciders σ ≤ 1) isRelease
        (fun σ event holds release => ⟨keeps σ event holds.1,
          (release_step P σ event holds.1.2 release).1.le.trans holds.2⟩) more _
        ⟨books events, once⟩ releases).2
    exact (moves_le_deciders _).trans still
  · intro every
    obtain ⟨more, releases, all⟩ := releases_all P _ _ (books events).1 (books events).2 rfl
    have ends := every more releases
    rw [exclusive, Runs.run_append, all] at ends
    exact ends

/-! A refund of a running job, whose worker is then refused by the store and settles all the same. -/

def escrowedJob : JobRow :=
  { (JobRow.queued "job-1" "genesis-research" 0).claim 0 with escrowId := some "escrow-1" }

def escrowedRows (jobId : JobId) : Option JobRow :=
  if jobId = "job-1" then some escrowedJob else none

def refundedDelivery : List SystemEvent :=
  [.request .adminRefund, .adminStep 0, .adminStep 0, .store (.advance 0), .store (.advance 0),
   .store (.commit 0), .execute (.returned reportResult) .noDirectory, .store (.advance 1),
   .resume "" "", .settle]

theorem refunded_and_settled :
    ¬∀ (P : Processing) (clock : Int) (rows : JobId → Option JobRow) (events : List SystemEvent),
      rows P.job.id = some P.job → isSet P.job.escrowId = true →
      isSet P.job.webhookUrl = false → P.escrowPermitted = true → P.escrowOk = true →
      Exclusive (P.job.escrowId.getD "")
        (Runs.run (step P) (start clock rows) events).escrowCalls := by
  intro exclusive
  have both : (Runs.run (step (.escrowEnabled escrowedJob)) (start 60000000 escrowedRows)
      refundedDelivery).escrowCalls =
        [⟨.admin, "escrow-1", .release "admin_refund"⟩, ⟨.worker, "escrow-1", .complete⟩] := rfl
  have apart := exclusive (.escrowEnabled escrowedJob) 60000000 escrowedRows refundedDelivery rfl
    (by decide) (by decide) rfl rfl
  rw [both] at apart
  exact absurd (apart.oneEnd ⟨.worker, "escrow-1", .complete⟩ (by decide)
    ⟨.admin, "escrow-1", .release "admin_refund"⟩ (by decide) rfl rfl rfl) (by decide)

/-- The same worker with a dispute instead of the refund. -/
theorem disputed_delivery_settled_once :
    Exclusive "escrow-1" (Runs.run (step (.escrowEnabled escrowedJob)) (start 60000000 escrowedRows)
        ([.request .fileDispute, .adminStep 0, .execute (.returned reportResult) .noDirectory,
          .store (.advance 1), .store (.advance 1), .store (.commit 1), .resume "" "", .settle] ++
            [])).escrowCalls :=
  (escrow_exclusive_iff (.escrowEnabled escrowedJob) 60000000 escrowedRows _ rfl (by decide)
    (by decide) rfl).mp (by decide) [] rfl

end GenesisAgents
