import GenesisAgents.Idempotency
import GenesisAgents.Library.CallTable
import GenesisAgents.Library.UniqueKey

/-! Concurrent calls of `create_job`. A call is a transaction of up to four statements: the look-up of
its key, the insert of the row, the insert of the event, and the commit. The last two are taken
together: nobody else sees the event before the commit. -/

namespace GenesisAgents

open JobLedger

/-- `if idempotency_key:` -/
def JobRequest.lookedUp (request : JobRequest) : Option String :=
  request.idempotencyKey.filter (· != "")

inductive CreatePhase where
  | ready
  /-- Nothing was found; the transaction began then. -/
  | checked (began : Int)
  /-- The row is inserted and not yet committed. -/
  | holding (row : JobRow)
  | returned (reply : JobReply)
  | raised

structure CreateCall where
  request : JobRequest
  id : JobId
  phase : CreatePhase

structure CreateState where
  ledger : JobLedger
  calls : List CreateCall

inductive CreateEvent where
  | tick (microseconds : Nat)
  /-- A call of `create_job`, which draws this id. -/
  | call (request : JobRequest) (id : JobId)
  /-- The next statement of a call. -/
  | advance (i : Nat)

namespace CreateState

def start (ledger : JobLedger) : CreateState := ⟨ledger, []⟩

def setPhase (σ : CreateState) (i : Nat) (call : CreateCall) (phase : CreatePhase) : CreateState :=
  { σ with calls := σ.calls.set i { call with phase := phase } }

def keyHeld (σ : CreateState) (key : Option String) : Bool :=
  σ.calls.any fun call => match call.phase with
    | .holding row => row.idempotencyKey.isSome && row.idempotencyKey == key
    | _ => false

def lookUp (σ : CreateState) (i : Nat) (call : CreateCall) : CreateState :=
  match call.request.lookedUp.bind σ.ledger.keyRow with
  | some existing => σ.setPhase i call (.returned (.hit existing.id existing.status))
  | none => σ.setPhase i call (.checked σ.ledger.clock)

/-- The insert waits for another transaction with its key, and then for what becomes of it. -/
def insertJob (σ : CreateState) (i : Nat) (call : CreateCall) (began : Int) : CreateState :=
  let row := call.request.row call.id began
  if σ.ledger.keyTaken row.idempotencyKey || σ.ledger.ids.contains row.id then
    σ.setPhase i call .raised
  else if σ.keyHeld row.idempotencyKey then σ
  else σ.setPhase i call (.holding row)

def commitJob (σ : CreateState) (i : Nat) (call : CreateCall) (row : JobRow) : CreateState :=
  if fresh : row.id ∉ σ.ledger.ids then
    { σ.setPhase i call (.returned (.inserted row.id row.status row.createdAt)) with
      ledger := σ.ledger.insertRow row fresh }
  else σ.setPhase i call .raised

def advance (σ : CreateState) (i : Nat) : CreateState :=
  match σ.calls[i]? with
  | some call =>
    match call.phase with
    | .ready => σ.lookUp i call
    | .checked began => σ.insertJob i call began
    | .holding row => σ.commitJob i call row
    | _ => σ
  | none => σ

/-- The id is one that no job and no call has; `_gen_id` draws no other. -/
def drawsFresh (σ : CreateState) (id : JobId) : Bool :=
  !σ.ledger.ids.contains id && !(σ.calls.map CreateCall.id).contains id

def step (σ : CreateState) : CreateEvent → CreateState
  | .tick microseconds =>
    { σ with ledger := { σ.ledger with clock := σ.ledger.clock + microseconds } }
  | .call request id =>
    if σ.drawsFresh id then { σ with calls := σ.calls ++ [⟨request, id, .ready⟩] } else σ
  | .advance i => σ.advance i

def run (σ : CreateState) (events : List CreateEvent) : CreateState := Runs.run step σ events

end CreateState

def CreatePhase.isOver : CreatePhase → Bool
  | .returned _ => true
  | .raised => true
  | _ => false

def CreatePhase.inFlight : CreatePhase → Bool
  | .checked _ => true
  | .holding _ => true
  | _ => false

def CreatePhase.isInserted : CreatePhase → Bool
  | .returned (.inserted _ _ _) => true
  | _ => false

def JobLedger.keyRows (l : JobLedger) (key : String) : List JobRow :=
  l.rows.filter fun row => row.idempotencyKey == some key

def JobRequest.uses (request : JobRequest) (key : String) : Bool := request.idempotencyKey == some key

def CreateState.keyed (σ : CreateState) (key : String) : List CreateCall :=
  σ.calls.filter fun call => call.request.uses key

/-- One row has the key and one event created it; every call with the key has returned that row, one
of them because it has inserted it. -/
def Converged (σ : CreateState) (key : String) : Prop :=
  ∃ row, σ.ledger.keyRows key = [row] ∧
    (σ.ledger.events.filter fun event => event.jobId == row.id) = [⟨row.id, none, .queued⟩] ∧
    (∀ call ∈ σ.keyed key, ∃ reply, call.phase = .returned reply ∧ reply.jobId? = some row.id) ∧
    (σ.keyed key).countP (fun call => call.phase.isInserted) = 1

/-- No call looks the key up while another one is between its look-up and its commit. -/
def LookedUpAlone (σ : CreateState) (key : String) (events : List CreateEvent) : Prop :=
  ∀ past i rest, events = past ++ .advance i :: rest →
    ∀ call, (σ.run past).calls[i]? = some call → call.phase = .ready →
      call.request.uses key = true →
        ∀ other ∈ (σ.run past).keyed key, other.phase.inFlight = false

/-! What a step does to the store and to one call. -/

inductive CallKept (l : JobLedger) (request : JobRequest) (id : JobId) : CreatePhase → Prop where
  | ready (fresh : id ∉ l.ids) : CallKept l request id .ready
  | checked (began : Int) (fresh : id ∉ l.ids) : CallKept l request id (.checked began)
  | holding (began : Int) (fresh : id ∉ l.ids) : CallKept l request id (.holding (request.row id began))
  | hit (row : JobRow) (member : row ∈ l.rows) (keyed : row.idempotencyKey = request.idempotencyKey)
      (status : JobStatus) : CallKept l request id (.returned (.hit row.id status))
  | inserted (row : JobRow) (member : row ∈ l.rows) (keyed : row.idempotencyKey = request.idempotencyKey)
      (created : (l.events.filter fun event => event.jobId == row.id) = [⟨row.id, none, .queued⟩])
      (status : JobStatus) (createdAt : Int) :
      CallKept l request id (.returned (.inserted row.id status createdAt))
  | raised : CallKept l request id .raised

structure Tidy (σ : CreateState) : Prop where
  apart : (σ.calls.map CreateCall.id).Nodup
  kept : ∀ call ∈ σ.calls, CallKept σ.ledger call.request call.id call.phase

inductive CreateMoves (σ : CreateState) : CreateEvent → CreateState → Prop where
  | ticks (microseconds : Nat) : CreateMoves σ (.tick microseconds)
      { σ with ledger := { σ.ledger with clock := σ.ledger.clock + microseconds } }
  | calls (request : JobRequest) (id : JobId) (draws : σ.drawsFresh id = true) :
      CreateMoves σ (.call request id) { σ with calls := σ.calls ++ [⟨request, id, .ready⟩] }
  | redraws (request : JobRequest) (id : JobId) (drawn : σ.drawsFresh id = false) :
      CreateMoves σ (.call request id) σ
  | absent (i : Nat) (absent : σ.calls[i]? = none) : CreateMoves σ (.advance i) σ
  | rests (i : Nat) (call : CreateCall) (present : σ.calls[i]? = some call)
      (isOver : call.phase.isOver = true) : CreateMoves σ (.advance i) σ
  | hits (i : Nat) (call : CreateCall) (present : σ.calls[i]? = some call) (phase : call.phase = .ready)
      (existing : JobRow) (found : call.request.lookedUp.bind σ.ledger.keyRow = some existing) :
      CreateMoves σ (.advance i) (σ.setPhase i call (.returned (.hit existing.id existing.status)))
  | checks (i : Nat) (call : CreateCall) (present : σ.calls[i]? = some call)
      (phase : call.phase = .ready) (free : call.request.lookedUp.bind σ.ledger.keyRow = none) :
      CreateMoves σ (.advance i) (σ.setPhase i call (.checked σ.ledger.clock))
  | violates (i : Nat) (call : CreateCall) (began : Int) (present : σ.calls[i]? = some call)
      (phase : call.phase = .checked began)
      (refused : σ.ledger.keyTaken call.request.idempotencyKey = true ∨ call.id ∈ σ.ledger.ids) :
      CreateMoves σ (.advance i) (σ.setPhase i call .raised)
  | waits (i : Nat) (call : CreateCall) (began : Int) (present : σ.calls[i]? = some call)
      (phase : call.phase = .checked began)
      (free : σ.ledger.keyTaken call.request.idempotencyKey = false)
      (held : σ.keyHeld call.request.idempotencyKey = true) : CreateMoves σ (.advance i) σ
  | inserts (i : Nat) (call : CreateCall) (began : Int) (present : σ.calls[i]? = some call)
      (phase : call.phase = .checked began)
      (free : σ.ledger.keyTaken call.request.idempotencyKey = false)
      (unlocked : σ.keyHeld call.request.idempotencyKey = false) :
      CreateMoves σ (.advance i) (σ.setPhase i call (.holding (call.request.row call.id began)))
  | commits (i : Nat) (call : CreateCall) (row : JobRow) (present : σ.calls[i]? = some call)
      (phase : call.phase = .holding row) (fresh : row.id ∉ σ.ledger.ids) :
      CreateMoves σ (.advance i)
        { σ.setPhase i call (.returned (.inserted row.id row.status row.createdAt)) with
          ledger := σ.ledger.insertRow row fresh }
  | collides (i : Nat) (call : CreateCall) (row : JobRow) (present : σ.calls[i]? = some call)
      (phase : call.phase = .holding row) (used : row.id ∈ σ.ledger.ids) :
      CreateMoves σ (.advance i) (σ.setPhase i call .raised)

theorem create_step_moves (σ : CreateState) (event : CreateEvent) :
    CreateMoves σ event (σ.step event) := by
  cases event with
  | tick microseconds => exact .ticks microseconds
  | call request id =>
    rw [CreateState.step]
    split
    · exact .calls request id ‹_›
    · exact .redraws request id (eq_false_of_ne_true ‹_›)
  | advance i =>
    rw [CreateState.step, CreateState.advance]
    split
    · rename_i call present
      split
      · rename_i phase
        rw [CreateState.lookUp]
        split
        · exact .hits i call present phase _ ‹_›
        · exact .checks i call present phase ‹_›
      · rename_i began phase
        rw [CreateState.insertJob]
        split
        · rename_i refused
          exact .violates i call began present phase (by simpa [JobRequest.row] using refused)
        · rename_i accepted
          rw [Bool.or_eq_true, not_or] at accepted
          have free : σ.ledger.keyTaken call.request.idempotencyKey = false :=
            eq_false_of_ne_true accepted.1
          split
          · exact .waits i call began present phase free ‹_›
          · exact .inserts i call began present phase free (eq_false_of_ne_true ‹_›)
      · rename_i row phase
        rw [CreateState.commitJob]
        split
        · exact .commits i call row present phase ‹_›
        · exact .collides i call row present phase (not_not.mp ‹_›)
      · rename_i ready checked holding
        refine .rests i call present ?_
        cases phase : call.phase with
        | ready => exact absurd phase ready
        | checked began => exact absurd phase (checked began)
        | holding row => exact absurd phase (holding row)
        | returned => rfl
        | raised => rfl
    · exact .absent i ‹_›

theorem CallKept.later (l l' : JobLedger) (request : JobRequest) (id : JobId) (phase : CreatePhase)
    (kept : CallKept l request id phase) (grows : ∀ row ∈ l.rows, row ∈ l'.rows)
    (still : id ∉ l.ids → id ∉ l'.ids)
    (events : ∀ row ∈ l.rows, (l'.events.filter fun event => event.jobId == row.id) =
      l.events.filter fun event => event.jobId == row.id) : CallKept l' request id phase := by
  cases kept with
  | ready fresh => exact .ready (still fresh)
  | checked began fresh => exact .checked began (still fresh)
  | holding began fresh => exact .holding began (still fresh)
  | hit row member keyed status => exact .hit row (grows row member) keyed status
  | inserted row member keyed created status createdAt =>
    exact .inserted row (grows row member) keyed ((events row member).trans created) status createdAt
  | raised => exact .raised

theorem id_mem (l : JobLedger) (row : JobRow) (member : row ∈ l.rows) : row.id ∈ l.ids :=
  List.mem_map_of_mem member

theorem ids_insertRow (l : JobLedger) (row : JobRow) (fresh : row.id ∉ l.ids) :
    (l.insertRow row fresh).ids = l.ids ++ [row.id] :=
  List.map_append

theorem events_insertRow (l : JobLedger) (row other : JobRow) (fresh : row.id ∉ l.ids)
    (member : other ∈ l.rows) :
    ((l.insertRow row fresh).events.filter fun event => event.jobId == other.id) =
      l.events.filter fun event => event.jobId == other.id := by
  have different : row.id ≠ other.id := fun same => fresh (same ▸ id_mem l other member)
  rw [insertRow, List.filter_append, List.filter_cons_of_neg (by simpa using different)]
  exact List.append_nil _

theorem created_insertRow (l : JobLedger) (row : JobRow) (fresh : row.id ∉ l.ids) :
    ((l.insertRow row fresh).events.filter fun event => event.jobId == row.id) =
      [⟨row.id, none, row.status⟩] := by
  have nothing : (l.events.filter fun event => event.jobId == row.id) = [] := by
    apply List.filter_eq_nil_iff.mpr
    intro event member same
    exact fresh (eq_of_beq same ▸ l.referenced event member)
  rw [insertRow, List.filter_append, nothing]
  simp

section

variable (σ : CreateState) (i : Nat) (call : CreateCall) (present : σ.calls[i]? = some call)
include present

theorem ids_setPhase (phase : CreatePhase) :
    (σ.setPhase i call phase).calls.map CreateCall.id = σ.calls.map CreateCall.id := by
  exact CallTable.map_set_same CreateCall.id σ.calls i call _ present rfl

theorem setPhase_cases (apart : (σ.calls.map CreateCall.id).Nodup) (phase : CreatePhase)
    (other : CreateCall) (member : other ∈ (σ.setPhase i call phase).calls) :
    other = { call with phase := phase } ∨ other ∈ σ.calls ∧ other.id ≠ call.id := by
  obtain ⟨j, entry⟩ := List.mem_iff_getElem?.mp member
  rcases CallTable.getElem?_set_cases σ.calls i j _ other entry with ⟨-, rfl⟩ | ⟨different, stays⟩
  · exact .inl rfl
  · refine .inr ⟨List.mem_of_getElem? stays, fun same => different ?_⟩
    have first : (σ.calls.map CreateCall.id)[i]? = some call.id := by simp [present]
    have second : (σ.calls.map CreateCall.id)[j]? = some call.id := by simp [stays, same]
    have inside := (List.getElem?_eq_some_iff.mp first).1
    exact (List.getElem?_inj inside apart).mp (first.trans second.symm)

theorem tidy_setPhase (tidy : Tidy σ) (phase : CreatePhase)
    (kept : CallKept σ.ledger call.request call.id phase) : Tidy (σ.setPhase i call phase) := by
  refine ⟨(ids_setPhase σ i call present phase).symm ▸ tidy.apart, ?_⟩
  intro other member
  rcases setPhase_cases σ i call present tidy.apart phase other member with rfl | ⟨old, -⟩
  · exact kept
  · exact tidy.kept other old

end

theorem tidy_step (σ : CreateState) (event : CreateEvent) (tidy : Tidy σ) : Tidy (σ.step event) := by
  have moves := create_step_moves σ event
  generalize σ.step event = σ' at moves
  cases moves with
  | ticks microseconds =>
    refine ⟨tidy.apart, fun call member => ?_⟩
    exact (tidy.kept call member).later _ _ _ _ _ (fun _ here => here) id fun _ _ => rfl
  | calls request id draws =>
    rw [CreateState.drawsFresh, Bool.and_eq_true] at draws
    have fresh : id ∉ σ.ledger.ids := by simpa using draws.1
    have unused : id ∉ σ.calls.map CreateCall.id := by simpa using draws.2
    constructor
    · rw [List.map_append]
      exact List.nodup_append_comm.mpr (List.nodup_cons.mpr ⟨unused, tidy.apart⟩)
    · intro call member
      rcases List.mem_append.mp member with old | new
      · exact tidy.kept call old
      · obtain rfl := List.mem_singleton.mp new
        exact .ready fresh
  | redraws | absent | rests | waits => exact tidy
  | hits i call present phase existing found =>
    obtain ⟨key, looked, row⟩ := Option.bind_eq_some_iff.mp found
    have used : call.request.idempotencyKey = some key := (Option.filter_eq_some_iff.mp looked).1
    have here := keyRow_some σ.ledger key existing row
    exact tidy_setPhase σ i call present tidy _ (.hit existing here.1 (here.2.trans used.symm) _)
  | checks i call present phase free =>
    have kept := tidy.kept call (List.mem_of_getElem? present)
    rw [phase] at kept
    cases kept with
    | ready fresh => exact tidy_setPhase σ i call present tidy _ (.checked _ fresh)
  | violates i call began present | collides i call row present =>
    exact tidy_setPhase σ i call present tidy _ .raised
  | inserts i call began present phase =>
    have kept := tidy.kept call (List.mem_of_getElem? present)
    rw [phase] at kept
    cases kept with
    | checked _ fresh => exact tidy_setPhase σ i call present tidy _ (.holding began fresh)
  | commits i call row present phase fresh =>
    have kept := tidy.kept call (List.mem_of_getElem? present)
    rw [phase] at kept
    cases kept with
    | holding began _ =>
      refine ⟨(ids_setPhase σ i call present _).symm ▸ tidy.apart, fun other member => ?_⟩
      rcases setPhase_cases σ i call present tidy.apart _ other member with rfl | ⟨old, different⟩
      · exact .inserted _ (List.mem_append_right _ (List.mem_singleton_self _)) rfl
          (created_insertRow σ.ledger _ fresh) _ _
      · refine (tidy.kept other old).later _ _ _ _ _ (fun row here => List.mem_append_left _ here) ?_
          fun row here => events_insertRow σ.ledger _ row fresh here
        intro unused member
        rw [ids_insertRow, List.mem_append, List.mem_singleton] at member
        exact member.elim unused different

def CreatePhase.seen : CreatePhase → UniqueKey.Phase
  | .ready => .ready
  | .checked _ => .checked
  | .holding _ => .holding
  | .returned (.hit _ _) => .found
  | .returned (.inserted _ _ _) => .stored
  | _ => .violated

def CreateCall.seen (key : String) (call : CreateCall) : UniqueKey.Phase :=
  if call.request.uses key then call.phase.seen else .bystander

def CreateState.seen (key : String) (σ : CreateState) : UniqueKey.State :=
  ⟨(σ.ledger.keyRow key).isSome, σ.calls.map (CreateCall.seen key)⟩

def CreateState.event (key : String) (σ : CreateState) : CreateEvent → UniqueKey.Event
  | .tick _ => .idle
  | .call request id => if σ.drawsFresh id then .arrive (request.uses key) else .idle
  | .advance i => .advance i

theorem keyRow_insertRow (l : JobLedger) (row : JobRow) (fresh : row.id ∉ l.ids) (key : String) :
    ((l.insertRow row fresh).keyRow key).isSome =
      ((l.keyRow key).isSome || row.idempotencyKey == some key) := by
  rw [keyRow, keyRow, insertRow, List.find?_append, Option.isSome_or, List.find?_singleton]
  congr 1
  split <;> simp_all

theorem keyTaken_eq (l : JobLedger) (key : String) : l.keyTaken (some key) = (l.keyRow key).isSome := by
  rw [keyTaken, keyRow, List.isSome_find?]
  congr 1
  funext row
  rcases row.idempotencyKey <;> simp

section

variable (key : String) (σ : CreateState)

theorem seen_setPhase (i : Nat) (call : CreateCall) (phase : CreatePhase) :
    (σ.setPhase i call phase).seen key =
      (σ.seen key).move i (CreateCall.seen key { call with phase := phase }) := by
  simp [CreateState.seen, CreateState.setPhase, UniqueKey.State.move, List.map_set]

theorem seen_present (i : Nat) (call : CreateCall) (present : σ.calls[i]? = some call) :
    (σ.seen key).calls[i]? = some (call.seen key) := by
  simp [CreateState.seen, present]

theorem seen_other (i : Nat) (call : CreateCall) (phase : CreatePhase)
    (present : σ.calls[i]? = some call) (other : call.request.uses key = false) :
    (σ.setPhase i call phase).seen key = σ.seen key := by
  have same : CreateCall.seen key { call with phase := phase } = call.seen key := by
    simp [CreateCall.seen, other]
  rw [CreateState.seen, CreateState.setPhase,
    CallTable.map_set_same (CreateCall.seen key) σ.calls i call _ present same]
  rfl

theorem seen_keyHeld (tidy : Tidy σ) :
    σ.keyHeld (some key) = (σ.seen key).calls.contains .holding := by
  rw [Bool.eq_iff_iff, CreateState.keyHeld, List.any_eq_true, List.contains_iff_mem, CreateState.seen,
    List.mem_map]
  apply exists_congr
  intro call
  apply and_congr_right
  intro member
  have kept := tidy.kept call member
  rw [CreateCall.seen]
  generalize call.phase = phase at kept
  cases kept with
  | holding began fresh =>
    rcases used : call.request.uses key with _ | _
    · simpa [JobRequest.row, JobRequest.uses] using fun _ => used
    · have same : call.request.idempotencyKey = some key := by simpa [JobRequest.uses] using used
      simp [JobRequest.row, CreatePhase.seen, same]
  | _ => cases call.request.uses key <;> simp [CreatePhase.seen]

section

variable (i : Nat) (call : CreateCall) (present : σ.calls[i]? = some call)
include present

theorem bystander_step (other : call.request.uses key = false) :
    (σ.seen key).step (.advance i) = σ.seen key := by
  have entry := seen_present key σ i call present
  rw [CreateCall.seen, other] at entry
  exact UniqueKey.advance_rests _ i .bystander entry (by simp)

theorem user_present (uses : call.request.uses key = true) :
    (σ.seen key).calls[i]? = some call.phase.seen := by
  rw [seen_present key σ i call present, CreateCall.seen, uses]
  rfl

end

theorem seen_move (i : Nat) (call : CreateCall) (phase : CreatePhase)
    (present : σ.calls[i]? = some call)
    (moves : call.request.uses key = true →
      (σ.seen key).step (.advance i) = (σ.seen key).move i phase.seen) :
    (σ.setPhase i call phase).seen key = (σ.seen key).step (.advance i) := by
  rcases uses : call.request.uses key with _ | _
  · rw [seen_other key σ i call phase present uses, bystander_step key σ i call present uses]
  · rw [moves uses, seen_setPhase, CreateCall.seen, uses]
    rfl

theorem seen_commit (i : Nat) (call : CreateCall) (row : JobRow) (phase : CreatePhase)
    (fresh : row.id ∉ σ.ledger.ids) :
    CreateState.seen key { σ.setPhase i call phase with ledger := σ.ledger.insertRow row fresh } =
      { (σ.setPhase i call phase).seen key with
        taken := (σ.seen key).taken || row.idempotencyKey == some key } := by
  rw [CreateState.seen, keyRow_insertRow]
  rfl

end

theorem lookedUp_of_uses (request : JobRequest) (key : String) (solid : key ≠ "")
    (uses : request.uses key = true) : request.lookedUp = some key := by
  have same : request.idempotencyKey = some key := by simpa [JobRequest.uses] using uses
  simp [JobRequest.lookedUp, same, solid]

theorem phase_seen_of_over (phase : CreatePhase) (isOver : phase.isOver = true) :
    phase.seen ≠ .ready ∧ phase.seen ≠ .checked ∧ phase.seen ≠ .holding := by
  cases phase with
  | returned reply => cases reply <;> simp [CreatePhase.seen]
  | raised => simp [CreatePhase.seen]
  | _ => contradiction

theorem seen_advance (key : String) (solid : key ≠ "") (σ σ' : CreateState) (i : Nat)
    (tidy : Tidy σ) (moves : CreateMoves σ (.advance i) σ') :
    σ'.seen key = (σ.seen key).step (.advance i) := by
  have keyed (call : CreateCall) (uses : call.request.uses key = true) :
      call.request.idempotencyKey = some key := by simpa [JobRequest.uses] using uses
  cases moves with
  | absent _ absent =>
    have nobody : (σ.seen key).calls[i]? = none := by simp [CreateState.seen, absent]
    exact (UniqueKey.advance_absent _ i nobody).symm
  | rests _ call present isOver =>
    rcases uses : call.request.uses key with _ | _
    · exact (bystander_step key σ i call present uses).symm
    · have entry := user_present key σ i call present uses
      exact (UniqueKey.advance_rests _ i _ entry (phase_seen_of_over _ isOver)).symm
  | hits _ call present phase existing found =>
    apply seen_move key σ i call _ present
    intro uses
    have entry := user_present key σ i call present uses
    rw [phase] at entry
    rw [lookedUp_of_uses _ key solid uses, Option.bind_some] at found
    have taken : (σ.seen key).taken = true := by simp [CreateState.seen, found]
    rw [UniqueKey.advance_ready _ i entry, taken]
    rfl
  | checks _ call present phase free =>
    apply seen_move key σ i call _ present
    intro uses
    have entry := user_present key σ i call present uses
    rw [phase] at entry
    rw [lookedUp_of_uses _ key solid uses, Option.bind_some] at free
    have untaken : (σ.seen key).taken = false := by simp [CreateState.seen, free]
    rw [UniqueKey.advance_ready _ i entry, untaken]
    rfl
  | violates _ call began present phase refused =>
    apply seen_move key σ i call _ present
    intro uses
    have entry := user_present key σ i call present uses
    rw [phase] at entry
    have kept := tidy.kept call (List.mem_of_getElem? present)
    rw [phase] at kept
    cases kept with
    | checked _ fresh =>
      have taken : (σ.seen key).taken = true := by
        rw [CreateState.seen, ← keyTaken_eq, ← keyed call uses]
        exact refused.resolve_right fresh
      rw [UniqueKey.advance_checked _ i entry, taken]
      rfl
  | waits _ call began present phase free held =>
    rcases uses : call.request.uses key with _ | _
    · exact (bystander_step key σ i call present uses).symm
    · have entry := user_present key σ i call present uses
      rw [phase] at entry
      rw [keyed call uses] at free held
      have untaken : (σ.seen key).taken = false := (keyTaken_eq σ.ledger key).symm.trans free
      rw [seen_keyHeld key σ tidy] at held
      rw [UniqueKey.advance_checked _ i entry, untaken, held]
      rfl
  | inserts _ call began present phase free unlocked =>
    apply seen_move key σ i call _ present
    intro uses
    have entry := user_present key σ i call present uses
    rw [phase] at entry
    rw [keyed call uses] at free unlocked
    have untaken : (σ.seen key).taken = false := (keyTaken_eq σ.ledger key).symm.trans free
    rw [seen_keyHeld key σ tidy] at unlocked
    rw [UniqueKey.advance_checked _ i entry, untaken, unlocked]
    rfl
  | commits _ call row present phase fresh =>
    have kept := tidy.kept call (List.mem_of_getElem? present)
    rw [phase] at kept
    cases kept with
    | holding began _ =>
      rw [seen_commit]
      rcases uses : call.request.uses key with _ | _
      · have other : (call.request.idempotencyKey == some key) = false := uses
        rw [seen_other key σ i call _ present uses, bystander_step key σ i call present uses,
          JobRequest.row, other, Bool.or_false]
      · have entry := user_present key σ i call present uses
        rw [phase] at entry
        rw [UniqueKey.advance_holding _ i entry, seen_setPhase, CreateCall.seen, uses,
          JobRequest.row, keyed call uses]
        simp [CreatePhase.seen]
  | collides _ call row present phase used =>
    have kept := tidy.kept call (List.mem_of_getElem? present)
    rw [phase] at kept
    cases kept with
    | holding began fresh => exact absurd used fresh

theorem seen_step (key : String) (solid : key ≠ "") (σ : CreateState) (event : CreateEvent)
    (tidy : Tidy σ) : (σ.step event).seen key = (σ.seen key).step (σ.event key event) := by
  have moves := create_step_moves σ event
  cases event with
  | tick microseconds => rfl
  | call request id =>
    generalize σ.step (.call request id) = σ' at moves
    cases moves with
    | calls _ _ draws =>
      rw [CreateState.event, if_pos draws]
      simp [CreateState.seen, UniqueKey.State.step, CreateCall.seen, CreatePhase.seen]
    | redraws _ _ drawn =>
      rw [CreateState.event, if_neg (ne_true_of_eq_false drawn)]
      rfl
  | advance i => exact seen_advance key solid σ _ i tidy moves

structure KeyOrderly (key : String) (σ : CreateState) : Prop where
  tidy : Tidy σ
  books : UniqueKey.State.Books (σ.seen key)
  single : (σ.ledger.keyRows key).length ≤ 1

theorem keyRows_eq_nil (l : JobLedger) (key : String) (free : l.keyRow key = none) :
    l.keyRows key = [] :=
  List.filter_eq_nil_iff.mpr (List.find?_eq_none.mp free)

theorem keyRows_insertRow (l : JobLedger) (row : JobRow) (fresh : row.id ∉ l.ids) (key : String) :
    (l.insertRow row fresh).keyRows key =
      l.keyRows key ++ if row.idempotencyKey == some key then [row] else [] := by
  rw [JobLedger.keyRows, insertRow, List.filter_append, List.filter_singleton, JobLedger.keyRows,
    Bool.cond_eq_ite]

theorem mem_keyRows (l : JobLedger) (key : String) (row : JobRow) :
    row ∈ l.keyRows key ↔ row ∈ l.rows ∧ row.idempotencyKey = some key := by
  rw [JobLedger.keyRows, List.mem_filter, beq_iff_eq]

theorem single_step (key : String) (σ : CreateState) (event : CreateEvent) (orderly : KeyOrderly key σ) :
    ((σ.step event).ledger.keyRows key).length ≤ 1 := by
  have single := orderly.single
  have moves := create_step_moves σ event
  generalize σ.step event = σ' at moves
  cases moves with
  | commits i call row present phase fresh =>
    have kept := orderly.tidy.kept call (List.mem_of_getElem? present)
    rw [phase] at kept
    cases kept with
    | holding began _ =>
      dsimp only
      rw [keyRows_insertRow]
      split
      · rename_i uses
        have entry := user_present key σ i call present uses
        rw [phase] at entry
        have held : 0 < (σ.seen key).tally.holding := UniqueKey.count_pos _ i _ entry
        have once := orderly.books.held
        have free : (σ.seen key).taken = false := by
          rw [← Bool.toNat_eq_zero]
          omega
        rw [keyRows_eq_nil σ.ledger key (Option.isSome_eq_false_iff.mp free |> Option.isNone_iff_eq_none.mp)]
        exact le_rfl
      · rw [List.append_nil]
        exact single
  | _ => exact single

theorem orderly_step (key : String) (solid : key ≠ "") (σ : CreateState) (event : CreateEvent)
    (orderly : KeyOrderly key σ) : KeyOrderly key (σ.step event) := by
  refine ⟨tidy_step σ event orderly.tidy, ?_, single_step key σ event orderly⟩
  rw [seen_step key solid σ event orderly.tidy]
  exact UniqueKey.books_step _ _ orderly.books

theorem orderly_start (key : String) (l : JobLedger) (absent : l.keyRow key = none) :
    KeyOrderly key (.start l) := by
  have nobody : CreateState.seen key (.start l) = ⟨false, []⟩ := by
    simp [CreateState.seen, CreateState.start, absent]
  constructor
  · exact ⟨.nil, List.forall_mem_nil _⟩
  · rw [nobody]
    exact ⟨rfl, Nat.zero_le 1, fun _ => rfl⟩
  · rw [CreateState.start, keyRows_eq_nil l key absent]
    exact Nat.zero_le 1

/-! When the calls with the key are over. -/

section

variable (key : String) (σ : CreateState)

theorem mem_keyed (call : CreateCall) :
    call ∈ σ.keyed key ↔ call ∈ σ.calls ∧ call.request.uses key = true := by
  rw [CreateState.keyed, List.mem_filter]

theorem isOver_iff (phase : CreatePhase) : phase.isOver = true ↔
    phase.seen ≠ .ready ∧ phase.seen ≠ .checked ∧ phase.seen ≠ .holding := by
  constructor
  · exact phase_seen_of_over phase
  · cases phase <;> simp [CreatePhase.seen, CreatePhase.isOver]

theorem seen_ended :
    (σ.seen key).ended = true ↔ ∀ call ∈ σ.keyed key, call.phase.isOver = true := by
  rw [UniqueKey.State.ended, CreateState.seen, List.all_map, List.all_eq_true]
  apply forall_congr'
  intro call
  rw [mem_keyed, and_imp]
  apply imp_congr_right
  intro _
  rw [Function.comp, CreateCall.seen]
  rcases call.request.uses key with _ | _
  · simp
  · simp [isOver_iff, and_assoc]

theorem seen_stored :
    (σ.seen key).tally.stored = (σ.keyed key).countP fun call => call.phase.isInserted := by
  show (σ.calls.map (CreateCall.seen key)).count .stored = _
  rw [List.count, List.countP_map, CreateState.keyed, List.countP_filter]
  apply List.countP_congr
  intro call _
  rw [Function.comp, CreateCall.seen]
  rcases call.request.uses key with _ | _
  · simp
  · simp only [if_true, Bool.and_true]
    cases call.phase with
    | returned reply => cases reply <;> simp [CreatePhase.seen, CreatePhase.isInserted]
    | _ => simp [CreatePhase.seen, CreatePhase.isInserted]

theorem seen_inFlight :
    (σ.seen key).inFlight = 0 ↔ ∀ other ∈ σ.keyed key, other.phase.inFlight = false := by
  show (σ.calls.map (CreateCall.seen key)).count .checked +
    (σ.calls.map (CreateCall.seen key)).count .holding = 0 ↔ _
  rw [Nat.add_eq_zero_iff, List.count_eq_zero, List.count_eq_zero, List.mem_map, List.mem_map]
  push Not
  rw [← forall₂_and]
  apply forall_congr'
  intro other
  rw [mem_keyed, and_imp]
  apply imp_congr_right
  intro _
  rw [CreateCall.seen]
  rcases other.request.uses key with _ | _
  · simp
  · simp only [if_true, forall_const]
    cases other.phase with
    | returned reply => cases reply <;> simp [CreatePhase.seen, CreatePhase.inFlight]
    | _ => simp [CreatePhase.seen, CreatePhase.inFlight]

omit σ in
theorem ready_of_seen (call : CreateCall) (seen : call.seen key = .ready) :
    call.request.uses key = true ∧ call.phase = .ready := by
  rw [CreateCall.seen] at seen
  split at seen
  · rename_i uses
    refine ⟨uses, ?_⟩
    cases phase : call.phase with
    | ready => rfl
    | returned reply => rw [phase] at seen; cases reply <;> contradiction
    | _ => rw [phase] at seen; contradiction
  · contradiction

theorem seen_alone (event : CreateEvent) :
    (σ.seen key).alone (σ.event key event) = true ↔
      ∀ i, event = .advance i → ∀ call, σ.calls[i]? = some call → call.phase = .ready →
        call.request.uses key = true → ∀ other ∈ σ.keyed key, other.phase.inFlight = false := by
  cases event with
  | tick microseconds => exact iff_of_true rfl fun _ absurd => by contradiction
  | call request id =>
    refine iff_of_true ?_ fun _ absurd => by contradiction
    rw [CreateState.event]
    split <;> rfl
  | advance i =>
    rw [CreateState.event, UniqueKey.State.alone, Bool.or_eq_true, beq_iff_eq, seen_inFlight]
    constructor
    · rintro free j same call present phase uses
      obtain rfl := CreateEvent.advance.inj same
      have entry := user_present key σ i call present uses
      rw [entry, phase] at free
      exact free.resolve_left (by simp [CreatePhase.seen])
    · intro free
      rw [or_iff_not_imp_left]
      intro ready
      have entry : (σ.seen key).calls[i]? = some .ready := by simpa using ready
      rw [CreateState.seen, List.getElem?_map, Option.map_eq_some_iff] at entry
      obtain ⟨call, present, seen⟩ := entry
      obtain ⟨uses, phase⟩ := ready_of_seen key call seen
      exact free i rfl call present phase uses

variable (orderly : KeyOrderly key σ) (ended : ∀ call ∈ σ.keyed key, call.phase.isOver = true)
include orderly

theorem keyRows_singleton (row : JobRow) (member : row ∈ σ.ledger.keyRows key) :
    σ.ledger.keyRows key = [row] := by
  obtain ⟨only, same⟩ := List.length_eq_one_iff.mp
    (le_antisymm orderly.single (List.length_pos_of_mem member))
  rw [same] at member ⊢
  rw [List.mem_singleton.mp member]

include ended

theorem sound_of_converged (converged : Converged σ key) : (σ.seen key).Sound := by
  obtain ⟨row, -, -, answered, -⟩ := converged
  apply (UniqueKey.sound_of_ended _ orderly.books ((seen_ended key σ).mpr ended)).mpr
  apply List.count_eq_zero.mpr
  intro violated
  obtain ⟨call, member, seen⟩ := List.mem_map.mp violated
  rw [CreateCall.seen] at seen
  split at seen
  · rename_i uses
    obtain ⟨reply, phase, names⟩ := answered call ((mem_keyed key σ call).mpr ⟨member, uses⟩)
    rw [phase] at seen
    cases reply <;> contradiction
  · contradiction

theorem settled_call (sound : (σ.seen key).Sound) (call : CreateCall) (member : call ∈ σ.keyed key) :
    (call.phase.seen = .found ∨ call.phase.seen = .stored) ∧ (σ.seen key).taken = true := by
  obtain ⟨here, uses⟩ := (mem_keyed key σ call).mp member
  have seen : call.seen key = call.phase.seen := if_pos uses
  have entry : call.phase.seen ∈ (σ.seen key).calls := seen ▸ List.mem_map_of_mem here
  apply UniqueKey.settled _ orderly.books ((seen_ended key σ).mpr ended) sound _ entry
  cases call.phase with
  | returned reply => cases reply <;> simp [CreatePhase.seen]
  | _ => simp [CreatePhase.seen]

theorem converged_of_sound (called : σ.keyed key ≠ []) (sound : (σ.seen key).Sound) :
    Converged σ key := by
  have settled := settled_call key σ orderly ended sound
  obtain ⟨first, member⟩ := List.exists_mem_of_ne_nil _ called
  have once : (σ.keyed key).countP (fun call => call.phase.isInserted) = 1 := by
    rw [← seen_stored, orderly.books.stored, (settled first member).2]
    rfl
  have kept (call : CreateCall) (member : call ∈ σ.keyed key) :
      CallKept σ.ledger call.request call.id call.phase ∧ call.request.idempotencyKey = some key := by
    obtain ⟨here, uses⟩ := (mem_keyed key σ call).mp member
    exact ⟨orderly.tidy.kept call here, by simpa [JobRequest.uses] using uses⟩
  -- the row is that of the call that has inserted it
  obtain ⟨creator, present, inserted⟩ := List.countP_pos_iff.mp (once ▸ Nat.one_pos)
  obtain ⟨stands, keyed⟩ := kept creator present
  generalize creator.phase = phase at stands inserted
  cases stands with
  | inserted row here named created status createdAt =>
    have only := keyRows_singleton key σ orderly row ((mem_keyRows _ _ _).mpr ⟨here, named.trans keyed⟩)
    refine ⟨row, only, created, fun call among => ?_, once⟩
    have same (other : JobRow) (there : other ∈ σ.ledger.rows)
        (named : other.idempotencyKey = call.request.idempotencyKey) : other = row := by
      have among_ := (mem_keyRows σ.ledger key other).mpr ⟨there, named.trans (kept call among).2⟩
      rw [only] at among_
      exact List.mem_singleton.mp among_
    have kind := (settled call among).1
    have stands := (kept call among).1
    generalize call.phase = phase at stands kind
    cases stands with
    | hit other there named status => exact ⟨_, rfl, same other there named ▸ rfl⟩
    | inserted other there named _ _ _ => exact ⟨_, rfl, same other there named ▸ rfl⟩
    | _ => simp [CreatePhase.seen] at kind
  | _ => contradiction

end

theorem lookedUpAlone_iff (key : String) (σ : CreateState) (events : List CreateEvent) :
    LookedUpAlone σ key events ↔ Runs.Guarded CreateState.step
      (fun σ event => (σ.seen key).alone (σ.event key event)) σ events = true := by
  rw [Runs.guarded_iff_forall]
  constructor
  · intro looked past event rest split
    apply (seen_alone key _ event).mpr
    rintro i rfl
    exact looked past i rest split
  · intro alone past i rest split
    exact (seen_alone key _ _).mp (alone past _ rest split) i rfl

/-- The calls with a key can always be completed. -/
theorem creates_finish (key : String) (solid : key ≠ "") (σ : CreateState) (orderly : KeyOrderly key σ) :
    ∃ schedule : List Nat, ∀ call ∈ (σ.run (schedule.map .advance)).keyed key,
      call.phase.isOver = true := by
  have follows (schedule : List Nat) : ∀ σ, KeyOrderly key σ →
      (σ.run (schedule.map .advance)).seen key =
        Runs.run UniqueKey.State.step (σ.seen key) (schedule.map .advance) := by
    induction schedule with
    | nil => exact fun _ _ => rfl
    | cons i rest later =>
      intro σ orderly
      have next := later _ (orderly_step key solid σ (.advance i) orderly)
      rw [seen_step key solid σ _ orderly.tidy] at next
      exact next
  obtain ⟨schedule, ends⟩ := UniqueKey.finishes (σ.seen key)
  refine ⟨schedule, (seen_ended key _).mp ?_⟩
  rw [follows schedule σ orderly]
  exact ends

/-- From a store without the key: the calls with the key can be completed after any interleaving, and
when they are over they have converged exactly if each looked the key up alone. -/
theorem creates_converge_iff (l : JobLedger) (key : String) (solid : key ≠ "")
    (absent : l.keyRow key = none) (events : List CreateEvent)
    (called : ((CreateState.start l).run events).keyed key ≠ []) :
    (∃ schedule : List Nat, ∀ call ∈
        (((CreateState.start l).run events).run (schedule.map .advance)).keyed key,
          call.phase.isOver = true) ∧
      ((∀ call ∈ ((CreateState.start l).run events).keyed key, call.phase.isOver = true) →
        (Converged ((CreateState.start l).run events) key ↔
          LookedUpAlone (.start l) key events)) := by
  have start := orderly_start key l absent
  have orderly : KeyOrderly key ((CreateState.start l).run events) :=
    Runs.run_always CreateState.step (KeyOrderly key) (orderly_step key solid) events _ start
  refine ⟨creates_finish key solid _ orderly, fun ended => ?_⟩
  have sound : (CreateState.seen key (.start l)).Sound := by
    have nobody : CreateState.seen key (.start l) = ⟨false, []⟩ := by
      simp [CreateState.seen, CreateState.start, absent]
    rw [nobody]
    exact ⟨rfl, Nat.zero_le 1⟩
  have guarded := Runs.guarded_iff CreateState.step (KeyOrderly key)
    (fun σ => (σ.seen key).Sound) (fun σ event => (σ.seen key).alone (σ.event key event))
    (orderly_step key solid)
    (fun σ event orderly sound => by
      rw [seen_step key solid σ event orderly.tidy]
      exact UniqueKey.alone_iff _ _ orderly.books sound)
    (fun σ event orderly sound => by
      rw [seen_step key solid σ event orderly.tidy] at sound
      exact UniqueKey.sound_of_step _ _ orderly.books sound) events _ start sound
  rw [lookedUpAlone_iff, guarded]
  exact ⟨sound_of_converged key _ orderly ended, converged_of_sound key _ orderly ended called⟩

def invoiceJob : JobRequest where
  agentSlug := "genesis-research"
  prompt := "list the invoices"
  params := none
  buyerWalletId := none
  buyerClientId := none
  priceTierCents := none
  idempotencyKey := some "invoices-2026-01"
  webhookUrl := none
  webhookSecret := none
  escrowId := none
  tenantId := some "tenant-1"
  ownerPrincipalId := some "user:1"

def bothCalls : List CreateEvent := [.call invoiceJob "job-1", .call invoiceJob "job-2"]

/-- Both look the key up before either has committed: the second insert violates the constraint. -/
theorem racing_creates_diverge :
    ¬∀ (l : JobLedger) (key : String) (events : List CreateEvent), key ≠ "" → l.keyRow key = none →
      ((CreateState.start l).run events).keyed key ≠ [] →
        (∀ call ∈ ((CreateState.start l).run events).keyed key, call.phase.isOver = true) →
          Converged ((CreateState.start l).run events) key := by
  intro converge
  obtain ⟨row, -, -, answered, -⟩ := converge (JobLedger.empty 0) "invoices-2026-01"
    (bothCalls ++ [.advance 0, .advance 1, .advance 0, .advance 0, .advance 1]) (by decide) rfl
    (by decide) (by decide)
  obtain ⟨reply, phase, -⟩ := answered ⟨invoiceJob, "job-2", .raised⟩ (.tail _ (.head _))
  contradiction

theorem creates_in_turn_converge :
    Converged ((CreateState.start (.empty 0)).run
      (bothCalls ++ [.advance 0, .advance 0, .advance 0, .advance 1])) "invoices-2026-01" := by
  have exactly := creates_converge_iff (.empty 0) "invoices-2026-01" (by decide) rfl
    (bothCalls ++ [.advance 0, .advance 0, .advance 0, .advance 1]) (by decide)
  exact (exactly.2 (by decide)).mpr ((lookedUpAlone_iff _ _ _).mpr (by decide))

end GenesisAgents
