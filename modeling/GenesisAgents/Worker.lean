import GenesisAgents.StatusWrites
import GenesisAgents.Gateway
import GenesisAgents.Library.Runs

/-! `process_job` of `worker.py` on one claimed job, next to the human-initiated endpoints of
`main.py` on the same job. Both talk to the job store through `update_job_status` and wait for each
of their calls; every statement of anybody may come in between. -/

namespace GenesisAgents

open Value RowLocks

/-- What `process_job` reads of the dict of `execute_agent`; `none` is a missing key. -/
structure AgentResult where
  ok : Bool
  response : Option Value
  trace : Option Value
  error : Option String
  message : Option Value

def reportResult : AgentResult :=
  { ok := true, response := some (.str "done"), trace := none, error := none, message := none }

/-- `execute_agent` returns, or raises an exception of this type and text. -/
inductive AgentOutcome where
  | returned (result : AgentResult)
  | raised (type message : String)

structure UploadedFile where
  ok : Bool
  uri : String
  signedUrl : Option String

inductive Upload where
  | noDirectory
  | uploaded (ok : Bool) (files : List UploadedFile)
  | raised

def artifactUris : Upload → List String
  | .uploaded true files => (files.filter (·.ok)).map fun file =>
      if isSet file.signedUrl then file.signedUrl.getD "" else file.uri
  | _ => []

inductive EscrowMove where
  /-- `complete_escrow` with status SETTLED -/
  | complete
  | release (reason : String)
  deriving DecidableEq

structure Processing where
  job : JobRow
  unicode : Unicode
  /-- The text of the interpreter's own `AttributeError`. -/
  attributeErrorText : Value → String
  /-- Type and text of what `str` or `json.dumps` raises. -/
  packingError : AgentResult → String × String
  /-- `main._ESCROW_OK` -/
  escrowOk : Bool
  /-- `escrow_permitted()` -/
  escrowPermitted : Bool

/-- One of the three ways `process_job` ends: the status it writes and what follows from it. -/
structure Exit where
  update : StatusUpdate
  output : Option String
  error : Option String
  move : EscrowMove

namespace Processing

def escrowEnabled (job : JobRow) : Processing :=
  { job := job, unicode := ⟨id, fun _ => true⟩, attributeErrorText := fun _ => "no attribute get"
    packingError := fun _ => ("TypeError", "not serializable"), escrowOk := true, escrowPermitted := true }

variable (P : Processing)

def isExternalEscrow : Bool := isSet P.job.webhookUrl

/-- `escrow_id and not is_external_escrow` -/
def ownsEscrow : Bool := isSet P.job.escrowId && !P.isExternalEscrow

def raisedExit (type message : String) : Exit :=
  { update := { StatusUpdate.plain P.job.id .failed with
      errorCode := some type, errorMessage := some (clip 4000 message) }
    output := none
    error := some ("runtime_exception:" ++ type ++ ": " ++ message)
    move := .release ("runtime_exception:" ++ type) }

def failedExit (result : AgentResult) : Exit :=
  { update := { StatusUpdate.plain P.job.id .failed with
      errorCode := some (result.error.getD "unknown")
      errorMessage := some (clip 4000 (text P.unicode (result.message.getD (str "")))) }
    output := none
    error := some (result.error.getD "agent_failure")
    move := .release (result.error.getD "agent_failure") }

def deliveryStatus : Upload → JobStatus
  | .raised => .deliveredWithArtifactWarning
  | _ => .delivered

/-- `str` and `json.dumps` refuse integers of too many digits. -/
def resultPayload (result : AgentResult) : Option String :=
  if (result.response.getD (str "")).writable && (result.trace.getD (dict [])).writable then
    dumps (dict [("response", str (clip 1800 (text P.unicode (result.response.getD (str ""))))),
      ("trace", result.trace.getD (dict []))])
  else none

/-- A trace that is no dict, or a result that cannot be packed, raises before the status is written. -/
def deliveredExit (result : AgentResult) (upload : Upload) : Except (String × String) Exit :=
  let trace := (result.trace.getD null).orElse (dict [])
  if !trace.isDict then .error ("AttributeError", P.attributeErrorText trace)
  else match P.resultPayload result with
    | none => .error (P.packingError result)
    | some payload => .ok
      { update := { StatusUpdate.plain P.job.id (deliveryStatus upload) with
          resultSummary := some (clip 4000 payload)
          outputArtifactUris :=
            if (artifactUris upload).isEmpty then none else some (artifactUris upload) }
        output := some (text P.unicode (result.response.getD (str "")))
        error := none
        move := .complete }

/-- The exit the outcome leads to, and whether it is the one of the exception handler. -/
def exitOf (outcome : AgentOutcome) (upload : Upload) : Exit × Bool :=
  match outcome with
  | .raised type message => (P.raisedExit type message, true)
  | .returned result =>
    if result.ok then
      match P.deliveredExit result upload with
      | .ok exit => (exit, false)
      | .error (type, message) => (P.raisedExit type message, true)
    else (P.failedExit result, false)

end Processing

inductive WorkerPhase where
  | executing
  /-- `update_job_status` is running as this call of the store. -/
  | writing (exit : Exit) (handling : Bool) (call : Nat)
  | settling (exit : Exit) (last : Nat)
  /-- In the `finally` block; no exit is left when the write of the handler raised. -/
  | closing (final : Option Exit) (last : Nat)
  | ended (final : Option Exit) (last : Nat)

/-- The body `fire_callback` posts, and where to. -/
structure Callback where
  url : String
  jobId : JobId
  status : JobStatus
  output : Option String
  error : Option String
  externalEscrowId : Option String

inductive Party where
  | worker | admin
  deriving DecidableEq

structure EscrowCall where
  party : Party
  escrowId : String
  move : EscrowMove
  deriving DecidableEq

inductive AdminAction where
  | fileDispute | adminRefund | adminResolve
  deriving DecidableEq

def AdminAction.status : AdminAction → JobStatus
  | .fileDispute => .disputed
  | .adminRefund => .refunded
  | .adminResolve => .settled

inductive AdminPhase where
  | reading
  | releasing (escrowId : String)
  | updating (call : Nat)
  | done

structure AdminRequest where
  action : AdminAction
  /-- Has `release_escrow` been called? -/
  released : Bool
  phase : AdminPhase

structure SystemState where
  store : StoreState
  worker : WorkerPhase
  admins : List AdminRequest
  escrowCalls : List EscrowCall
  callbacks : List Callback

inductive SystemEvent where
  /-- A statement of anybody at the store, the calls of this system among them. -/
  | store (event : StoreEvent)
  | execute (outcome : AgentOutcome) (upload : Upload)
  /-- `process_job` goes on after its status write; type and text are those of the error if the
  write raised. -/
  | resume (type message : String)
  | settle
  /-- The `finally` block; the heartbeat task may have died of an error, which is raised here. -/
  | close (heartbeatRaised : Bool)
  | request (action : AdminAction)
  | adminStep (k : Nat)

namespace SystemState

variable (P : Processing)

def start (clock : Int) (rows : JobId → Option JobRow) : SystemState :=
  { store := StoreState.start clock rows, worker := .executing, admins := [], escrowCalls := []
    callbacks := [] }

/-- Starts a call of `update_job_status`; its number is the next one. -/
def callUpdate (σ : SystemState) (u : StatusUpdate) : SystemState :=
  { σ with store := σ.store.step (.call (.updateJobStatus u)) }

def write (σ : SystemState) (exit : Exit) (handling : Bool) : SystemState :=
  { σ.callUpdate exit.update with worker := .writing exit handling σ.store.calls.length }

def callPhase (σ : SystemState) (i : Nat) : Option CallPhase := (σ.store.calls[i]?).map Call.phase

/-- The boolean that `update_job_status` returns is not looked at. -/
def resume (σ : SystemState) (type message : String) : SystemState :=
  match σ.worker with
  | .writing exit handling i =>
    match σ.callPhase i with
    | some (.returned _ _) => { σ with worker := .settling exit i }
    | some .raised =>
      if handling then { σ with worker := .closing none i }
      else σ.write (P.raisedExit type message) true
    | _ => σ
  | _ => σ

def escrowCallsOf (exit : Exit) : List EscrowCall :=
  if P.ownsEscrow && P.escrowPermitted then
    [⟨.worker, P.job.escrowId.getD "", exit.move⟩]
  else []

def settle (σ : SystemState) : SystemState :=
  match σ.worker with
  | .settling exit i =>
    { σ with worker := .closing (some exit) i
             escrowCalls := σ.escrowCalls ++ escrowCallsOf P exit }
  | _ => σ

def callbackOf (exit : Exit) : Callback :=
  { url := P.job.webhookUrl.getD "", jobId := P.job.id, status := exit.update.newStatus
    output := exit.output, error := exit.error, externalEscrowId := P.job.escrowId }

def firedCallbacks (heartbeatRaised : Bool) : Option Exit → List Callback
  | none => []
  | some exit => if !heartbeatRaised && isSet P.job.webhookUrl then [callbackOf P exit] else []

def close (σ : SystemState) (heartbeatRaised : Bool) : SystemState :=
  match σ.worker with
  | .closing final i =>
    { σ with worker := .ended final i
             callbacks := σ.callbacks ++ firedCallbacks P heartbeatRaised final }
  | _ => σ

def setAdmin (σ : SystemState) (k : Nat) (request : AdminRequest) : SystemState :=
  { σ with admins := σ.admins.set k request }

/-- The update of the human-initiated moves, which may leave a terminal status. -/
def override (σ : SystemState) (k : Nat) (request : AdminRequest) : SystemState :=
  (σ.callUpdate
    { StatusUpdate.plain P.job.id request.action.status with allowTerminalOverride := true }).setAdmin
    k { request with phase := .updating σ.store.calls.length }

def releases (request : AdminRequest) (row : JobRow) : Bool :=
  request.action = .adminRefund && isSet row.escrowId && P.escrowOk

def adminStep (σ : SystemState) (k : Nat) : SystemState :=
  match σ.admins[k]? with
  | none => σ
  | some request =>
    match request.phase with
    | .reading =>
      match σ.store.table.read P.job.id with
      | none => σ.setAdmin k { request with phase := .done }
      | some row =>
        if releases P request row then
          σ.setAdmin k { request with phase := .releasing (row.escrowId.getD "") }
        else override P σ k request
    | .releasing escrowId =>
      override P
        { σ with escrowCalls := σ.escrowCalls ++ [⟨.admin, escrowId, .release "admin_refund"⟩] }
        k { request with released := true }
    | .updating i =>
      match σ.callPhase i with
      | some phase =>
        if StoreState.isOver phase then σ.setAdmin k { request with phase := .done } else σ
      | none => σ
    | .done => σ

def step (σ : SystemState) : SystemEvent → SystemState
  | .store event => { σ with store := σ.store.step event }
  | .execute outcome upload =>
    match σ.worker with
    | .executing => σ.write (P.exitOf outcome upload).1 (P.exitOf outcome upload).2
    | _ => σ
  | .resume type message => resume P σ type message
  | .settle => settle P σ
  | .close heartbeatRaised => close P σ heartbeatRaised
  | .request action => { σ with admins := σ.admins ++ [⟨action, false, .reading⟩] }
  | .adminStep k => adminStep P σ k

def lastWrite (σ : SystemState) : Option Nat :=
  match σ.worker with
  | .settling _ i => some i
  | .closing _ i => some i
  | .ended _ i => some i
  | _ => none

def hasEnded (σ : SystemState) : Bool :=
  match σ.worker with
  | .ended _ _ => true
  | _ => false

end SystemState

open SystemState

inductive SystemStep (P : Processing) (σ : SystemState) (event : SystemEvent) :
    SystemState → Prop where
  | idle : SystemStep P σ event σ
  | store (inner : StoreEvent) (asked : event = .store inner) :
      SystemStep P σ event { σ with store := σ.store.step inner }
  | execute (outcome : AgentOutcome) (upload : Upload) (running : σ.worker = .executing) :
      SystemStep P σ event (σ.write (P.exitOf outcome upload).1 (P.exitOf outcome upload).2)
  | handle (exit : Exit) (i : Nat) (type message : String)
      (waiting : σ.worker = .writing exit false i) (raised : σ.callPhase i = some .raised) :
      SystemStep P σ event (σ.write (P.raisedExit type message) true)
  | giveUp (exit : Exit) (i : Nat) (waiting : σ.worker = .writing exit true i)
      (raised : σ.callPhase i = some .raised) :
      SystemStep P σ event { σ with worker := .closing none i }
  | written (exit : Exit) (handling : Bool) (i : Nat) (result : CallResult)
      (left : Option JobStatus) (waiting : σ.worker = .writing exit handling i)
      (returned : σ.callPhase i = some (.returned result left)) :
      SystemStep P σ event { σ with worker := .settling exit i }
  | settle (exit : Exit) (i : Nat) (waiting : σ.worker = .settling exit i)
      (asked : event = .settle) :
      SystemStep P σ event
        { σ with worker := .closing (some exit) i
                 escrowCalls := σ.escrowCalls ++ escrowCallsOf P exit }
  | close (final : Option Exit) (i : Nat) (heartbeatRaised : Bool)
      (waiting : σ.worker = .closing final i) :
      SystemStep P σ event
        { σ with worker := .ended final i
                 callbacks := σ.callbacks ++ firedCallbacks P heartbeatRaised final }
  | request (action : AdminAction) :
      SystemStep P σ event { σ with admins := σ.admins ++ [⟨action, false, .reading⟩] }
  | turn (k : Nat) (request : AdminRequest) (phase : AdminPhase)
      (present : σ.admins[k]? = some request) (onward : phase ≠ .reading)
      (reads : ∀ escrowId, phase = .releasing escrowId → request.phase = .reading ∧
        ∃ row, σ.store.table.read P.job.id = some row ∧ releases P request row = true ∧
          escrowId = row.escrowId.getD "")
      (settled : ∀ i, phase ≠ .updating i)
      (ended : ∀ i, request.phase = .updating i → ∃ last, σ.callPhase i = some last ∧
        StoreState.isOver last = true) :
      SystemStep P σ event (σ.setAdmin k { request with phase := phase })
  | override (k : Nat) (request : AdminRequest) (present : σ.admins[k]? = some request)
      (reading : request.phase = .reading) :
      SystemStep P σ event (SystemState.override P σ k request)
  | release (k : Nat) (request : AdminRequest) (escrowId : String)
      (present : σ.admins[k]? = some request) (ready : request.phase = .releasing escrowId)
      (asked : event = .adminStep k) :
      SystemStep P σ event
        (SystemState.override P
          { σ with escrowCalls := σ.escrowCalls ++ [⟨.admin, escrowId, .release "admin_refund"⟩] }
          k { request with released := true })

theorem resume_step (P : Processing) (σ : SystemState) (event : SystemEvent)
    (type message : String) : SystemStep P σ event (resume P σ type message) := by
  unfold resume
  split
  · rename_i exit handling i waiting
    split
    · rename_i result left returned
      exact .written exit handling i result left waiting returned
    · rename_i raised
      split
      · rename_i handles
        exact .giveUp exit i (handles ▸ waiting) raised
      · rename_i first
        rw [Bool.not_eq_true] at first
        exact .handle exit i type message (first ▸ waiting) raised
    · exact .idle
  · exact .idle

theorem adminStep_step (P : Processing) (σ : SystemState) (k : Nat) :
    SystemStep P σ (.adminStep k) (adminStep P σ k) := by
  rw [adminStep]
  split
  · exact .idle
  · rename_i request present
    split
    · rename_i reading
      split
      · exact .turn k request .done present (by simp) (by simp) (by simp) (by simp [reading])
      · rename_i row found
        split
        · rename_i releasing
          refine .turn k request _ present (by simp) (fun escrowId same => ?_) (by simp)
            (by simp [reading])
          exact ⟨reading, row, found, releasing, (AdminPhase.releasing.inj same).symm⟩
        · exact .override k request present reading
    · rename_i escrowId ready
      exact .release k request escrowId present ready rfl
    · rename_i i updating
      split
      · rename_i last called
        split
        · rename_i finished
          refine .turn k request .done present (by simp) (by simp) (by simp) fun j same => ?_
          obtain rfl := AdminPhase.updating.inj (updating.symm.trans same)
          exact ⟨last, called, finished⟩
        · exact .idle
      · exact .idle
    · exact .idle

theorem system_cases (P : Processing) (σ : SystemState) (event : SystemEvent) :
    SystemStep P σ event (step P σ event) := by
  cases event with
  | store inner => exact .store inner rfl
  | execute outcome upload =>
    rw [step]
    split
    · rename_i running
      exact .execute outcome upload running
    · exact .idle
  | resume type message => exact resume_step P σ _ type message
  | settle =>
    rw [step, SystemState.settle]
    split
    · rename_i exit i waiting
      exact .settle exit i waiting rfl
    · exact .idle
  | close heartbeatRaised =>
    rw [step, SystemState.close]
    split
    · rename_i final i waiting
      exact .close final i heartbeatRaised waiting
    · exact .idle
  | request action => exact .request action
  | adminStep k => exact adminStep_step P σ k

/-- A step of the system is at most one step of the store. -/
theorem step_store (P : Processing) (σ : SystemState) (event : SystemEvent) :
    (step P σ event).store = σ.store ∨
      ∃ inner, (step P σ event).store = σ.store.step inner := by
  have moved := system_cases P σ event
  generalize step P σ event = τ at moved ⊢
  cases moved with
  | store inner asked => exact .inr ⟨inner, rfl⟩
  | execute outcome upload running => exact .inr ⟨.call (.updateJobStatus _), rfl⟩
  | handle exit i type message waiting raised => exact .inr ⟨.call (.updateJobStatus _), rfl⟩
  | override k request present reading => exact .inr ⟨.call (.updateJobStatus _), rfl⟩
  | release k request escrowId present ready asked => exact .inr ⟨.call (.updateJobStatus _), rfl⟩
  | _ => exact .inl rfl

/-- What every step of the store keeps, every step of the system keeps. -/
theorem step_keeps_store (P : Processing) (Inv : StoreState → Prop)
    (keeps : ∀ store event, Inv store → Inv (store.step event)) (σ : SystemState)
    (event : SystemEvent) (holds : Inv σ.store) : Inv (step P σ event).store := by
  rcases step_store P σ event with same | ⟨inner, moved⟩
  · rwa [same]
  · rw [moved]
    exact keeps _ _ holds

end GenesisAgents
