import GenesisAgents.Worker

/-! Any number of `run_tick` of `worker.py` on one job store: each expires stale jobs, claims a batch
and processes it one job after another, with a heartbeat for the job whose turn it is only. -/

namespace GenesisAgents

open Value

inductive TickPhase where
  /-- `expire_stale_running_jobs(stale_minutes=5)` is running as this call of the store. -/
  | expiring (call : Nat)
  | claiming (call : Nat)
  /-- Between two jobs of the batch. -/
  | batch (waiting : List JobRow)
  /-- `process_job`, and the jobs whose turn comes after it. -/
  | processing (job : JobRow) (worker : WorkerPhase) (waiting : List JobRow)
  | ended

structure Tick where
  slots : Nat
  /-- The number of its `claim_queued_jobs`, once it has been called. -/
  claim : Option Nat
  phase : TickPhase

/-- A call of `runtime.execute_agent`, with the status of the job's row at that moment. -/
structure JobExecution where
  jobId : JobId
  status : Option JobStatus
  deriving DecidableEq

structure TickState where
  store : StoreState
  ticks : List Tick
  executions : List JobExecution

/-- The next move of a `process_job`. -/
inductive ProcessEvent where
  | execute (outcome : AgentOutcome) (upload : Upload)
  | resume (type message : String)
  | settle
  | close (heartbeatRaised : Bool)

def ProcessEvent.system : ProcessEvent → SystemEvent
  | execute outcome upload => .execute outcome upload
  | resume type message => .resume type message
  | settle => .settle
  | close heartbeatRaised => .close heartbeatRaised

/-- Does the `finally` block end in the error of the heartbeat task? -/
def ProcessEvent.raises : ProcessEvent → Bool
  | close heartbeatRaised => heartbeatRaised
  | _ => false

inductive TickEvent where
  | pass (microseconds : Nat)
  /-- A pass of the stale reaper outside of these ticks. -/
  | reap
  /-- `run_tick(limit=…, expire_stale=…)` -/
  | tick (limit : Option Int) (expireStale : Bool)
  /-- The tick goes on when the call it waits for is over, or to the next job of its batch. -/
  | go (k : Nat)
  | process (k : Nat) (event : ProcessEvent)
  /-- The heartbeat loop of the job that the tick processes. -/
  | beat (k : Nat)
  /-- A statement of a call of the store, its commit or its failure. -/
  | advance (i : Nat)
  | touch (i : Nat) (jobId : JobId)
  | commit (i : Nat)
  | fail (i : Nat)

/-- `stale_minutes` of every caller in `worker.py` -/
def staleMinutes : Int := 5

namespace TickState

def start (clock : Int) (rows : JobId → Option JobRow) : TickState :=
  { store := StoreState.start clock rows, ticks := [], executions := [] }

def atStore (σ : TickState) (event : StoreEvent) : TickState :=
  { σ with store := σ.store.step event }

def setTick (σ : TickState) (k : Nat) (tick : Tick) : TickState :=
  { σ with ticks := σ.ticks.set k tick }

def callPhase (σ : TickState) (i : Nat) : Option CallPhase := (σ.store.calls[i]?).map Call.phase

/-- `slots = max(0, int(limit))`, with the worker concurrency when there is no limit. -/
def slots (concurrency : Int) (limit : Option Int) : Nat := (limit.getD concurrency).toNat

/-- The tick once it has passed the reaper: it claims as many jobs as it has slots. -/
def claiming (σ : TickState) (slots : Nat) : Tick :=
  if slots = 0 then ⟨slots, none, .ended⟩
  else ⟨slots, some σ.store.calls.length, .claiming σ.store.calls.length⟩

/-- The call that `claiming` makes. -/
def callClaim (σ : TickState) (slots : Nat) : TickState :=
  if slots = 0 then σ else σ.atStore (.call (.claimQueuedJobs slots))

def runTick (σ : TickState) (slots : Nat) (expireStale : Bool) : TickState :=
  if expireStale then
    { σ.atStore (.call (.expireStaleRunningJobs staleMinutes)) with
      ticks := σ.ticks ++ [⟨slots, none, .expiring σ.store.calls.length⟩] }
  else { σ.callClaim slots with ticks := σ.ticks ++ [σ.claiming slots] }

/-- `process_job` starts: it calls `execute_agent` before its heartbeat task gets to run. -/
def begin (σ : TickState) (k : Nat) (tick : Tick) (job : JobRow) (waiting : List JobRow) : TickState :=
  { σ.setTick k { tick with phase := .processing job .executing waiting } with
    executions := σ.executions ++ [⟨job.id, σ.store.statusOf job.id⟩] }

def go (σ : TickState) (k : Nat) : TickState :=
  match σ.ticks[k]? with
  | none => σ
  | some tick =>
    match tick.phase with
    | .expiring i =>
      match σ.callPhase i with
      | some (.returned _ _) => (σ.callClaim tick.slots).setTick k (σ.claiming tick.slots)
      | some .raised => σ.setTick k { tick with phase := .ended }
      | _ => σ
    | .claiming i =>
      match σ.callPhase i with
      | some (.returned (.jobs rows) _) => σ.setTick k { tick with phase := .batch rows }
      | some .raised => σ.setTick k { tick with phase := .ended }
      | _ => σ
    | .batch [] => σ.setTick k { tick with phase := .ended }
    | .batch (job :: waiting) => σ.begin k tick job waiting
    | _ => σ

/-- What follows `process_job` once it is over: the next job of the batch, or the end of the tick
when it raised. -/
def nextPhase (event : ProcessEvent) (job : JobRow) (waiting : List JobRow) :
    WorkerPhase → TickPhase
  | .ended final _ => if event.raises || final.isNone then .ended else .batch waiting
  | worker => .processing job worker waiting

/-- One move of `process_job`, as in `SystemState`. -/
def process (base : Processing) (σ : TickState) (k : Nat) (event : ProcessEvent) : TickState :=
  match σ.ticks[k]? with
  | none => σ
  | some tick =>
    match tick.phase with
    | .processing job worker waiting =>
      let moved := SystemState.step { base with job := job } ⟨σ.store, worker, [], [], []⟩ event.system
      { σ with store := moved.store }.setTick k
        { tick with phase := nextPhase event job waiting moved.worker }
    | _ => σ

def beat (σ : TickState) (k : Nat) : TickState :=
  match (σ.ticks[k]?).map Tick.phase with
  | some (.processing job _ _) => σ.atStore (.call (.heartbeat job.id))
  | _ => σ

def step (base : Processing) (concurrency : Int) (σ : TickState) : TickEvent → TickState
  | .pass microseconds => σ.atStore (.tick microseconds)
  | .reap => σ.atStore (.call (.expireStaleRunningJobs staleMinutes))
  | .tick limit expireStale => σ.runTick (slots concurrency limit) expireStale
  | .go k => σ.go k
  | .process k event => σ.process base k event
  | .beat k => σ.beat k
  | .advance i => σ.atStore (.advance i)
  | .touch i jobId => σ.atStore (.touch i jobId)
  | .commit i => σ.atStore (.commit i)
  | .fail i => σ.atStore (.fail i)

def waitingOf (store : StoreState) (tick : Tick) : List JobRow :=
  match tick.phase with
  | .claiming i =>
    match store.calls[i]? with
    | some ⟨_, .returned (.jobs rows) _⟩ => rows
    | _ => []
  | .batch waiting => waiting
  | .processing _ _ waiting => waiting
  | _ => []

/-- When a reaper pass commits, no claimed job that waits for its turn was stale at the start of the
pass. -/
def turnsInTime (σ : TickState) : TickEvent → Bool
  | .commit i =>
    match σ.store.calls[i]? with
    | some ⟨.expireStaleRunningJobs minutes, .holding began _ _⟩ =>
      σ.ticks.all fun tick => (waitingOf σ.store tick).all fun job => !job.isStale minutes began
    | _ => true
  | _ => true

end TickState

end GenesisAgents
