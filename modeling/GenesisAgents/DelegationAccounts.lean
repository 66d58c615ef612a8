import GenesisAgents.DelegationRecords

/-! One delegation whose writes all get through: what its two records say in the end, and when they agree. -/

namespace GenesisAgents.DelegationRecords

open Value

/-- What a delegation has gone through, and no record of it. -/
structure Account where
  phase : Phase
  /-- Microseconds since the last sign of life. -/
  silence : Int
  /-- The finishes persisted so far. -/
  written : List Bool
  /-- The reaper found it silent for too long before it had persisted a finish. -/
  reaped : Bool

namespace Account

def opened : Account := ⟨.running, 0, [], false⟩

/-- The status of the row of the child: the reaper and the first finish are final. -/
def job (a : Account) : JobStatus :=
  if a.reaped then .expired
  else
    match a.written with
    | [] => .running
    | first :: _ => finishedJob first

def told (a : Account) : DelegationStatus :=
  match a.written.getLast? with
  | none => .dispatched
  | some last => finishedRelation last

def step (c : JobId) (a : Account) : Event → Account
  | .beat childJobId landed => if childJobId == c && (a.phase.pumps && landed) then { a with silence := 0 } else a
  | .ends childJobId how =>
    if childJobId == c && a.phase.isRunning then { a with phase := .ended how how.finishes } else a
  | .persist childJobId _ _ =>
    if childJobId = c then
      match a.phase with
      | .ended how (childOk :: left) => { a with phase := .ended how left, written := a.written ++ [childOk] }
      | _ => a
    else a
  | .jobs (.tick microseconds) => { a with silence := a.silence + microseconds }
  | .jobs (.expireStaleRunningJobs staleMinutes) =>
    if a.written.isEmpty && decide (JobRow.minutes staleMinutes < a.silence) then { a with reaped := true } else a
  | .restart => { a with phase := a.phase.killed }
  | _ => a

end Account

/-- All writes of the delegation get through, and nobody else writes to the row of the child. -/
def spares (c : JobId) (σ : Records) : Event → Bool
  | .start d _ _ => d.childJobId != c
  | .persist childJobId landed submitted => childJobId != c || (landed && submitted)
  | .write landed _ => landed || σ.queue.head?.all fun next => next.childJobId != c
  | .restart => σ.queue.all fun next => next.childJobId != c
  | .jobs (.updateJobStatus u) => u.jobId != c
  | .jobs (.heartbeat jobId) => jobId != c
  | _ => true

/-! The relationship, as the background thread will leave it. -/

def toldOf (relations : List Relation) (c : JobId) : Option DelegationStatus :=
  (relations.find? fun row => row.childJobId == c).map Relation.delegationStatus

def RelationWrite.tells (c : JobId) (before : Option DelegationStatus) : RelationWrite → Option DelegationStatus
  | create row => if row.childJobId = c then some (before.getD row.delegationStatus) else before
  | update childJobId status => if childJobId = c then before.map fun _ => status else before

theorem toldOf_create (relations : List Relation) (row : Relation) (c : JobId) :
    toldOf (execute relations (.create row)) c = RelationWrite.tells c (toldOf relations c) (.create row) := by
  rw [execute, RelationWrite.tells]
  by_cases same : row.childJobId = c
  · rw [if_pos same, toldOf, same]
    split
    · rename_i taken
      obtain ⟨other, member, here⟩ := List.any_eq_true.mp taken
      have found : (relations.find? fun row => row.childJobId == c).isSome = true :=
        List.find?_isSome.mpr ⟨other, member, here⟩
      obtain ⟨first, first_is⟩ := Option.isSome_iff_exists.mp found
      rw [toldOf, first_is]
      rfl
    · rename_i free
      have none_found : (relations.find? fun row => row.childJobId == c) = none := by
        apply List.find?_eq_none.mpr
        intro other member here
        exact free (List.any_eq_true.mpr ⟨other, member, here⟩)
      rw [toldOf, none_found, List.find?_append, none_found, List.find?_singleton, same]
      simp
  · rw [if_neg same]
    split
    · rfl
    · rw [toldOf, toldOf, List.find?_append, List.find?_singleton]
      simp [same]

theorem toldOf_update (relations : List Relation) (childJobId : JobId) (status : DelegationStatus) (c : JobId) :
    toldOf (execute relations (.update childJobId status)) c =
      RelationWrite.tells c (toldOf relations c) (.update childJobId status) := by
  have kept : ((fun row : Relation => row.childJobId == c) ∘
      fun row => if row.childJobId = childJobId then row.tell status else row) =
        fun row => row.childJobId == c := by
    funext row
    rw [Function.comp]
    split <;> rfl
  rw [execute, RelationWrite.tells, toldOf, toldOf, List.find?_map, kept]
  cases found : relations.find? fun row => row.childJobId == c with
  | none =>
    split <;> rfl
  | some row =>
    have child : row.childJobId = c := by simpa using List.find?_some found
    by_cases meant : childJobId = c
    · rw [if_pos meant, Option.map_some, Option.map_some, if_pos (child.trans meant.symm)]
      rfl
    · have apart : row.childJobId ≠ childJobId := fun same => meant (same.symm.trans child)
      rw [if_neg meant, Option.map_some, if_neg apart]

theorem toldOf_execute (relations : List Relation) (next : RelationWrite) (c : JobId) :
    toldOf (execute relations next) c = RelationWrite.tells c (toldOf relations c) next := by
  cases next with
  | create row => exact toldOf_create relations row c
  | update childJobId status => exact toldOf_update relations childJobId status c

def willTell (σ : Records) (c : JobId) : Option DelegationStatus :=
  σ.queue.foldl (RelationWrite.tells c) (toldOf σ.relations c)

theorem tells_other (c : JobId) (before : Option DelegationStatus) (next : RelationWrite)
    (other : next.childJobId ≠ c) : RelationWrite.tells c before next = before := by
  cases next with
  | create row => exact if_neg other
  | update childJobId status => exact if_neg other

theorem tells_others (c : JobId) (before : Option DelegationStatus) (queue : List RelationWrite)
    (others : ∀ next ∈ queue, next.childJobId ≠ c) : queue.foldl (RelationWrite.tells c) before = before := by
  induction queue with
  | nil => rfl
  | cons next rest later =>
    rw [List.foldl_cons, tells_other c before next (others next List.mem_cons_self)]
    exact later fun other member => others other (List.mem_cons_of_mem _ member)

theorem find_missed (l : JobLedger) (hits : JobRow → Bool) (write : JobRow → JobRow)
    (event : JobRow → Option (Option JobStatus × JobStatus)) (keeps : ∀ row, (write row).id = row.id) (c : JobId)
    (row : JobRow) (found : l.find c = some row) (missed : hits row = false) :
    (l.update hits write event keeps).find c = some row := by
  rw [JobLedger.find_update, found, Option.map_some, missed]
  rfl

theorem createChildJob_find (l : JobLedger) (request : ChildRequest) (c : JobId) (row : JobRow)
    (found : l.find c = some row) : (l.createChildJob request).1.find c = some row := by
  rw [JobLedger.createChildJob]
  split
  · rename_i fresh
    rw [JobLedger.find_insertRow, if_neg, found]
    intro same
    rw [← JobLedger.find_eq_none, same, found] at fresh
    cases fresh
  · exact found

theorem createJob_find (l : JobLedger) (request : JobRequest) (id c : JobId) (row : JobRow)
    (found : l.find c = some row) : (l.createJob request id).1.find c = some row := by
  rw [JobLedger.createJob]
  split
  · split <;> exact found
  · split
    · rename_i fresh
      rw [JobLedger.find_insertRow, if_neg, found]
      intro same
      rw [← JobLedger.find_eq_none, same, found] at fresh
      cases fresh
    · exact found

theorem updateJobStatus_find (l : JobLedger) (u : StatusUpdate) (c : JobId) (row : JobRow)
    (found : l.find c = some row) : (l.updateJobStatus u).1.find c =
      some (if u.jobId = c ∧ u.refuses row.status = false then u.apply l.clock row else row) := by
  have id := (JobLedger.find_some l c row found).1
  rw [JobLedger.updateJobStatus]
  by_cases mine : u.jobId = c
  · rw [mine, found]
    dsimp only
    cases refused : u.refuses row.status with
    | true =>
      rw [if_pos rfl, if_neg fun both => Bool.noConfusion both.2]
      exact found
    | false =>
      have written := JobLedger.find_update l (fun other => other.id == c) (u.apply l.clock)
        (fun _ => some (some row.status, u.newStatus)) (fun _ => rfl) c
      rw [found, Option.map_some, id, beq_self_eq_true, if_pos rfl] at written
      rw [if_neg Bool.false_ne_true, if_pos ⟨rfl, rfl⟩]
      exact written
  · rw [if_neg fun both => mine both.1]
    split
    · exact found
    · split
      · exact found
      · apply find_missed l _ (u.apply l.clock) _ (fun _ => rfl) c row found
        rw [id]
        exact beq_eq_false_iff_ne.mpr (Ne.symm mine)

/-- Another caller writes to a row that is not queued only if it is the reaper. -/
theorem step_find (l : JobLedger) (op : JobOp) (c : JobId) (row : JobRow) (found : l.find c = some row)
    (unqueued : row.status ≠ .queued) (silent : ∀ staleMinutes, op ≠ .expireStaleRunningJobs staleMinutes)
    (updates : ∀ u, op = .updateJobStatus u → u.jobId ≠ c) (beats : op ≠ .heartbeat c) :
    (l.step op).find c = some row := by
  have id := (JobLedger.find_some l c row found).1
  have member := (JobLedger.find_some l c row found).2
  cases op with
  | tick microseconds => exact found
  | createJob request id => exact createJob_find l request id c row found
  | createChildJob request => exact createChildJob_find l request c row found
  | claimQueuedJobs limit =>
    apply find_missed l _ (JobRow.claim l.clock) _ (fun _ => rfl) c row found
    rw [← Bool.not_eq_true, List.contains_iff_mem]
    intro claimed
    exact unqueued (JobLedger.claimable_queued l limit row member claimed)
  | claimJobById jobId =>
    apply find_missed l _ (JobRow.claim l.clock) _ (fun _ => rfl) c row found
    rw [Bool.and_eq_false_iff]
    exact .inr (beq_eq_false_iff_ne.mpr unqueued)
  | updateJobStatus u =>
    have kept := updateJobStatus_find l u c row found
    rw [if_neg fun both => updates u rfl both.1] at kept
    exact kept
  | heartbeat jobId =>
    have kept := heartbeat_find l jobId c
    have other : (row.id == jobId) = false := by
      rw [id]
      apply beq_eq_false_iff_ne.mpr
      intro same
      exact beats (congrArg JobOp.heartbeat same.symm)
    rw [found, Option.map_some, other] at kept
    exact kept
  | expireStaleRunningJobs staleMinutes => exact absurd rfl (silent staleMinutes)

theorem createChildJob_clock (l : JobLedger) (request : ChildRequest) :
    (l.createChildJob request).1.clock = l.clock := by
  rw [JobLedger.createChildJob]
  split <;> rfl

theorem updateJobStatus_clock (l : JobLedger) (u : StatusUpdate) : (l.updateJobStatus u).1.clock = l.clock := by
  rw [JobLedger.updateJobStatus]
  split
  · rfl
  · split <;> rfl

theorem step_clock (l : JobLedger) (op : JobOp) (ticks : ∀ microseconds, op ≠ .tick microseconds) :
    (l.step op).clock = l.clock := by
  cases op with
  | tick microseconds => exact absurd rfl (ticks microseconds)
  | createJob request id =>
    rw [JobLedger.step, JobLedger.perform, JobLedger.createJob]
    split
    · split <;> rfl
    · split <;> rfl
  | createChildJob request => exact createChildJob_clock l request
  | updateJobStatus u => exact updateJobStatus_clock l u
  | claimQueuedJobs | claimJobById | heartbeat | expireStaleRunningJobs => rfl

structure Follows (c : JobId) (σ : Records) (a : Account) : Prop where
  phase : σ.phase c = a.phase
  row : ∃ row, σ.ledger.find c = some row ∧ row.status = a.job ∧
    row.lastHeartbeatAt = some (σ.ledger.clock - a.silence)
  told : willTell σ c = some a.told

theorem willTell_step (σ : Records) (event : Event) (c : JobId) (spared : spares c σ event = true) :
    willTell (step σ event) c = (event.submits σ).foldl (RelationWrite.tells c) (willTell σ c) := by
  cases step_written σ event with
  | queued relations queue => rw [willTell, relations, queue, List.foldl_append, willTell]
  | taken next rest landed now is front queue relations =>
    have silent : event.submits σ = [] := by
      rw [is]
      rfl
    rw [silent, List.foldl_nil, willTell, willTell, relations, queue, front, List.foldl_cons]
    cases landed with
    | true => rw [if_pos rfl, toldOf_execute]
    | false =>
      rw [is, spares, front, Bool.false_or, List.head?_cons, Option.all_some] at spared
      rw [if_neg Bool.false_ne_true, tells_other c _ next (bne_iff_ne.mp spared)]
  | dropped is relations queue =>
    have silent : event.submits σ = [] := by
      rw [is]
      rfl
    have others : ∀ next ∈ σ.queue, next.childJobId ≠ c := by
      rw [is, spares, List.all_eq_true] at spared
      exact fun next member => bne_iff_ne.mp (spared next member)
    rw [silent, List.foldl_nil, willTell, willTell, relations, queue, tells_others c _ σ.queue others]
    rfl

theorem job_unqueued (a : Account) : a.job ≠ .queued := by
  rw [Account.job]
  cases a.reaped with
  | true => simp
  | false =>
    cases a.written with
    | nil => simp
    | cons first rest => cases first <;> simp [finishedJob]

theorem job_running (a : Account) : a.job = .running ↔ a.reaped = false ∧ a.written = [] := by
  rw [Account.job]
  cases a.reaped with
  | true => simp
  | false =>
    cases a.written with
    | nil => simp
    | cons first rest => cases first <;> simp [finishedJob]

theorem refuses_finish (a : Account) (c : JobId) (childOk : Bool) (phase : Phase) :
    (if (StatusUpdate.plain c (finishedJob childOk)).refuses a.job = false then finishedJob childOk else a.job) =
      Account.job { a with phase := phase, written := a.written ++ [childOk] } := by
  cases reaped : a.reaped with
  | true =>
    have expired : a.job = .expired := by rw [Account.job, reaped, if_pos rfl]
    rw [expired, Account.job]
    dsimp only
    rw [if_pos rfl]
    cases childOk <;> rfl
  | false =>
    rw [Account.job, Account.job, reaped]
    dsimp only
    rw [if_neg Bool.false_ne_true]
    cases a.written with
    | nil => cases childOk <;> rfl
    | cons first rest => cases childOk <;> cases first <;> rfl

theorem told_finish (a : Account) (childOk : Bool) (phase : Phase) :
    Account.told { a with phase := phase, written := a.written ++ [childOk] } = finishedRelation childOk := by
  rw [Account.told, List.getLast?_append, List.getLast?_singleton]
  rfl

theorem persisted_row (l : JobLedger) (a : Account) (c : JobId) (childOk : Bool) (phase : Phase) (row : JobRow)
    (found : l.find c = some row) (status : row.status = a.job) :
    ∃ next, (l.updateJobStatus (.plain c (finishedJob childOk))).1.find c = some next ∧
      next.status = Account.job { a with phase := phase, written := a.written ++ [childOk] } ∧
      next.lastHeartbeatAt = row.lastHeartbeatAt := by
  have written := updateJobStatus_find l (.plain c (finishedJob childOk)) c row found
  rw [← refuses_finish a c childOk phase, ← status]
  by_cases taken : (StatusUpdate.plain c (finishedJob childOk)).refuses row.status = false
  · rw [if_pos ⟨rfl, taken⟩] at written
    rw [if_pos taken]
    exact ⟨_, written, rfl, rfl⟩
  · rw [if_neg fun both => taken both.2] at written
    rw [if_neg taken]
    exact ⟨row, written, rfl, rfl⟩

section

variable {c : JobId} {σ : Records} {a : Account}

theorem Follows.still (follows : Follows c σ a) (τ : Records) (phase : τ.phase c = a.phase)
    (told : willTell τ c = willTell σ c) (clock : τ.ledger.clock = σ.ledger.clock)
    (kept : ∀ row, σ.ledger.find c = some row → row.status ≠ .queued → τ.ledger.find c = some row) :
    Follows c τ a where
  phase := phase
  row := by
    obtain ⟨row, found, status, beat⟩ := follows.row
    refine ⟨row, kept row found ?_, status, ?_⟩
    · rw [status]
      exact job_unqueued a
    · rw [clock]
      exact beat
  told := told.trans follows.told

theorem Follows.beat (follows : Follows c σ a) (childJobId : JobId) (landed : Bool) :
    Follows c (step σ (.beat childJobId landed)) (a.step c (.beat childJobId landed)) := by
  rw [step, Account.step]
  by_cases mine : childJobId = c
  · rw [mine, beq_self_eq_true, Bool.true_and, follows.phase]
    split
    · obtain ⟨row, found, status, beat⟩ := follows.row
      have id := (JobLedger.find_some σ.ledger c row found).1
      refine ⟨follows.phase, ⟨row.beat σ.ledger.clock, ?_, status, ?_⟩, follows.told⟩
      · dsimp only
        rw [heartbeat_find, found, Option.map_some, id, beq_self_eq_true, if_pos rfl]
      · exact congrArg some (Int.sub_zero _).symm
    · exact follows
  · rw [beq_eq_false_iff_ne.mpr mine, Bool.false_and, if_neg Bool.false_ne_true]
    split
    · refine follows.still _ follows.phase rfl rfl ?_
      intro row found unqueued
      apply step_find σ.ledger (.heartbeat childJobId) c row found unqueued (fun _ is => by cases is)
        (fun _ is => by cases is)
      intro same
      exact mine (JobOp.heartbeat.inj same)
    · exact follows

theorem Follows.ends (follows : Follows c σ a) (childJobId : JobId) (how : ChildEnd) :
    Follows c (step σ (.ends childJobId how)) (a.step c (.ends childJobId how)) := by
  rw [step, Account.step]
  by_cases mine : childJobId = c
  · rw [mine, beq_self_eq_true, Bool.true_and, follows.phase]
    split
    · exact ⟨Function.update_self _ _ _, follows.row, follows.told⟩
    · exact follows
  · rw [beq_eq_false_iff_ne.mpr mine, Bool.false_and, if_neg Bool.false_ne_true]
    split
    · refine follows.still _ ?_ rfl rfl fun row found _ => found
      rw [← follows.phase]
      exact Function.update_of_ne (Ne.symm mine) _ _
    · exact follows

theorem Follows.start (follows : Follows c σ a) (d : Delegation) (created submitted : Bool)
    (other : d.childJobId ≠ c) :
    Follows c (step σ (.start d created submitted)) a := by
  have told : willTell (step σ (.start d created submitted)) c = willTell σ c := by
    have spared : spares c σ (.start d created submitted) = true := bne_iff_ne.mpr other
    rw [willTell_step σ _ c spared]
    apply tells_others
    intro next member
    rw [Event.submits] at member
    split at member
    · rw [List.mem_singleton.mp member]
      exact other
    · cases member
  apply follows.still _ _ told
  · rw [step]
    dsimp only
    split
    · exact createChildJob_clock σ.ledger d.request
    · rfl
  · intro row found _
    rw [step]
    dsimp only
    split
    · exact createChildJob_find σ.ledger d.request c row found
    · exact found
  · rw [← follows.phase]
    exact Function.update_of_ne (Ne.symm other) _ _

theorem Follows.persist_other (follows : Follows c σ a) (childJobId : JobId) (landed submitted : Bool)
    (other : childJobId ≠ c) : Follows c (step σ (.persist childJobId landed submitted)) a := by
  have spared : spares c σ (.persist childJobId landed submitted) = true := by
    rw [spares, bne_iff_ne.mpr other, Bool.true_or]
  have told : willTell (step σ (.persist childJobId landed submitted)) c = willTell σ c := by
    rw [willTell_step σ _ c spared]
    apply tells_others
    intro next member
    rw [Event.submits] at member
    split at member
    · split at member
      · rw [List.mem_singleton.mp member]
        exact other
      · cases member
    · cases member
  refine follows.still _ ?_ told ?_ ?_
  · rw [step]
    split
    · exact (Function.update_of_ne (Ne.symm other) _ _).trans follows.phase
    · exact follows.phase
  · rw [step]
    split
    · dsimp only
      split
      · exact updateJobStatus_clock σ.ledger _
      · rfl
    · rfl
  · intro row found _
    rw [step]
    split
    · dsimp only
      split
      · rw [updateJobStatus_find σ.ledger _ c row found, if_neg fun both => other both.1]
      · exact found
    · exact found

theorem Follows.persist (follows : Follows c σ a) :
    Follows c (step σ (.persist c true true)) (a.step c (.persist c true true)) := by
  have spared : spares c σ (.persist c true true) = true := by
    rw [spares, Bool.and_self, Bool.or_true]
  have told := willTell_step σ _ c spared
  rw [Event.submits, follows.phase, follows.told] at told
  rw [Account.step, if_pos rfl]
  cases stands : a.phase with
  | absent | running =>
    have still : step σ (.persist c true true) = σ := by
      rw [step, follows.phase, stands]
    rw [still]
    exact follows
  | ended how left =>
    cases left with
    | nil =>
      have still : step σ (.persist c true true) = σ := by
        rw [step, follows.phase, stands]
      rw [still]
      exact follows
    | cons childOk left =>
      obtain ⟨row, found, status, beat⟩ := follows.row
      obtain ⟨next, written, finished, same⟩ :=
        persisted_row σ.ledger a c childOk (.ended how left) row found status
      rw [stands] at told
      have clock := updateJobStatus_clock σ.ledger (.plain c (finishedJob childOk))
      have stepped : step σ (.persist c true true) =
          { σ with
            ledger := (σ.ledger.updateJobStatus (.plain c (finishedJob childOk))).1
            queue := σ.queue ++ [.update c (finishedRelation childOk)]
            phase := Function.update σ.phase c (.ended how left) } := by
        rw [step, follows.phase, stands]
        rfl
      dsimp only
      refine ⟨?_, ⟨next, ?_, finished, ?_⟩, ?_⟩
      · rw [stepped]
        exact Function.update_self _ _ _
      · rw [stepped]
        exact written
      · rw [stepped, same, beat, ← clock]
      · rw [told, told_finish]
        exact if_pos rfl

theorem Follows.tick (follows : Follows c σ a) (microseconds : Nat) :
    Follows c (step σ (.jobs (.tick microseconds))) (a.step c (.jobs (.tick microseconds))) := by
  obtain ⟨row, found, status, beat⟩ := follows.row
  refine ⟨follows.phase, ⟨row, found, status, ?_⟩, follows.told⟩
  rw [beat]
  change some (σ.ledger.clock - a.silence) =
    some (σ.ledger.clock + microseconds - (a.silence + microseconds))
  congr 1
  omega

/-- The reaper ends the row exactly when the child runs and was silent for too long. -/
theorem Follows.reap (follows : Follows c σ a) (staleMinutes : Int) :
    Follows c (step σ (.jobs (.expireStaleRunningJobs staleMinutes)))
      (a.step c (.jobs (.expireStaleRunningJobs staleMinutes))) := by
  obtain ⟨row, found, status, beat⟩ := follows.row
  have next : (σ.ledger.step (.expireStaleRunningJobs staleMinutes)).find c =
      some (if row.isStale staleMinutes σ.ledger.clock then row.expire staleMinutes σ.ledger.clock else row) := by
    have written := JobLedger.find_update σ.ledger (JobRow.isStale staleMinutes σ.ledger.clock)
      (JobRow.expire staleMinutes σ.ledger.clock) (fun _ => some (some .running, .expired)) (fun _ => rfl) c
    rw [found] at written
    exact written
  have stale : row.isStale staleMinutes σ.ledger.clock =
      (decide (a.job = .running) && decide (JobRow.minutes staleMinutes < a.silence)) := by
    rw [JobRow.isStale, status, beat]
    congr 1
    apply decide_eq_decide.mpr
    change σ.ledger.clock - a.silence < σ.ledger.clock - JobRow.minutes staleMinutes ↔ _
    omega
  have told : willTell (step σ (.jobs (.expireStaleRunningJobs staleMinutes))) c = some a.told := follows.told
  rw [Account.step]
  cases quiet : a.written.isEmpty && decide (JobRow.minutes staleMinutes < a.silence) with
  | false =>
    have kept : row.isStale staleMinutes σ.ledger.clock = false := by
      rw [stale]
      by_cases runs : a.job = .running
      · rw [((job_running a).mp runs).2, List.isEmpty_nil, Bool.true_and] at quiet
        rw [quiet, Bool.and_false]
      · rw [decide_eq_false runs, Bool.false_and]
    rw [kept, if_neg Bool.false_ne_true] at next
    rw [if_neg Bool.false_ne_true]
    exact ⟨follows.phase, ⟨row, next, status, beat⟩, told⟩
  | true =>
    rw [Bool.and_eq_true, List.isEmpty_iff] at quiet
    rw [if_pos rfl]
    cases reaped : a.reaped with
    | true =>
      have expired : a.job = .expired := by rw [Account.job, reaped, if_pos rfl]
      have kept : row.isStale staleMinutes σ.ledger.clock = false := by
        rw [stale, expired]
        rfl
      rw [kept, if_neg Bool.false_ne_true] at next
      exact ⟨follows.phase, ⟨row, next, status.trans expired, beat⟩, told⟩
    | false =>
      have reached : row.isStale staleMinutes σ.ledger.clock = true := by
        rw [stale, (job_running a).mpr ⟨reaped, quiet.1⟩, quiet.2]
        rfl
      rw [reached, if_pos rfl] at next
      exact ⟨follows.phase, ⟨_, next, rfl, beat⟩, told⟩

theorem Follows.jobs (follows : Follows c σ a) (op : JobOp) (spared : spares c σ (.jobs op) = true) :
    Follows c (step σ (.jobs op)) (a.step c (.jobs op)) := by
  have still (silent : ∀ staleMinutes, op ≠ .expireStaleRunningJobs staleMinutes)
      (untimed : ∀ microseconds, op ≠ .tick microseconds) (updates : ∀ u, op = .updateJobStatus u → u.jobId ≠ c)
      (beats : op ≠ .heartbeat c) : Follows c (step σ (.jobs op)) a := by
    refine follows.still _ follows.phase rfl (step_clock σ.ledger op untimed) ?_
    intro row found unqueued
    exact step_find σ.ledger op c row found unqueued silent updates beats
  cases op with
  | tick microseconds => exact follows.tick microseconds
  | expireStaleRunningJobs staleMinutes => exact follows.reap staleMinutes
  | updateJobStatus u =>
    apply still nofun nofun _ nofun
    intro other same
    rw [← JobOp.updateJobStatus.inj same]
    exact bne_iff_ne.mp spared
  | heartbeat jobId =>
    apply still nofun nofun nofun
    intro same
    exact bne_iff_ne.mp spared (JobOp.heartbeat.inj same)
  | createJob | createChildJob | claimQueuedJobs | claimJobById => exact still nofun nofun nofun nofun

end

theorem step_follows (c : JobId) (σ : Records) (a : Account) (event : Event) (follows : Follows c σ a)
    (spared : spares c σ event = true) : Follows c (step σ event) (a.step c event) := by
  cases event with
  | start d created submitted => exact follows.start d created submitted (bne_iff_ne.mp spared)
  | beat childJobId landed => exact follows.beat childJobId landed
  | ends childJobId how => exact follows.ends childJobId how
  | persist childJobId landed submitted =>
    by_cases mine : childJobId = c
    · rw [spares, mine, bne_self_eq_false, Bool.false_or, Bool.and_eq_true] at spared
      rw [mine, spared.1, spared.2]
      exact follows.persist
    · have still : a.step c (.persist childJobId landed submitted) = a := if_neg mine
      rw [still]
      exact follows.persist_other childJobId landed submitted mine
  | write landed =>
    refine follows.still _ ?_ (willTell_step σ _ c spared) ?_ ?_
    · rw [step]
      split <;> exact follows.phase
    · rw [step]
      split <;> rfl
    · intro row found _
      rw [step]
      split <;> exact found
  | jobs op => exact follows.jobs op spared
  | restart =>
    have told : willTell (step σ .restart) c = willTell σ c := willTell_step σ .restart c spared
    refine ⟨?_, follows.row, told.trans follows.told⟩
    exact congrArg Phase.killed follows.phase

theorem run_follows (c : JobId) (events : List Event) (σ : Records) (a : Account) (follows : Follows c σ a)
    (spared : Runs.Guarded step (spares c) σ events = true) :
    Follows c (Runs.run step σ events) (Runs.run (Account.step c) a events) := by
  induction events generalizing σ a with
  | nil => exact follows
  | cons event rest later =>
    rw [Runs.Guarded, Bool.and_eq_true] at spared
    exact later _ _ (step_follows c σ a event follows spared.1) spared.2

theorem tells_none (c : JobId) (queue : List RelationWrite)
    (unwritten : ∀ row, RelationWrite.create row ∈ queue → row.childJobId ≠ c) :
    queue.foldl (RelationWrite.tells c) none = none := by
  induction queue with
  | nil => rfl
  | cons next rest later =>
    have first : RelationWrite.tells c none next = none := by
      cases next with
      | create row => exact if_neg (unwritten row List.mem_cons_self)
      | update childJobId status => exact ite_self none
    rw [List.foldl_cons, first]
    exact later fun row member => unwritten row (List.mem_cons_of_mem _ member)

theorem start_follows (σ : Records) (honest : Honest σ) (d : Delegation) (parent : d.parentJobId ≠ "")
    (allowed : ordinary σ (.start d true true) = true) :
    Follows d.childJobId (step σ (.start d true true)) .opened := by
  have fresh := started_fresh σ _ allowed d (List.mem_singleton_self d)
  have absent : (d.request.row (σ.ledger.find d.request.parentJobId) σ.ledger.clock).id ∉ σ.ledger.ids := by
    rw [← JobLedger.find_eq_none]
    exact Option.isNone_iff_eq_none.mp fresh.2.1
  have unknown (other : Delegation) (known : other ∈ σ.delegations) : other.childJobId ≠ d.childJobId := by
    intro same
    have present := honest.known other known
    rw [same, fresh.1] at present
    cases present
  have unlisted : toldOf σ.relations d.childJobId = none := by
    rw [toldOf, Option.map_eq_none_iff, List.find?_eq_none]
    intro row member here
    obtain ⟨other, known, same⟩ := honest.relation row member
    exact unknown other known ((congrArg Relation.childJobId same).trans (beq_iff_eq.mp here))
  have untold : willTell σ d.childJobId = none := by
    rw [willTell, unlisted]
    apply tells_none
    intro row waits
    obtain ⟨other, known, same⟩ := honest.waiting row waits
    rw [← same]
    exact unknown other known
  have stepped : step σ (.start d true true) =
      { ledger := (σ.ledger.createChildJob d.request).1, relations := σ.relations
        createdAt := σ.createdAt, queue := σ.queue ++ [.create d.row], phase := Function.update σ.phase d.childJobId .running
        delegations := σ.delegations ++ [d] } := by
    rw [step, if_pos ⟨parent, rfl⟩, if_pos ⟨parent, rfl⟩]
  have created : (σ.ledger.createChildJob d.request).1 =
      σ.ledger.insertRow (d.request.row (σ.ledger.find d.request.parentJobId) σ.ledger.clock) absent := by
    rw [JobLedger.createChildJob, dif_pos absent]
  rw [stepped]
  refine ⟨Function.update_self _ _ _,
    ⟨d.request.row (σ.ledger.find d.request.parentJobId) σ.ledger.clock, ?_, rfl, ?_⟩, ?_⟩
  · dsimp only
    rw [created, JobLedger.find_insertRow]
    exact if_pos rfl
  · dsimp only
    rw [created]
    exact congrArg some (Int.sub_zero _).symm
  · rw [willTell, List.foldl_append]
    change RelationWrite.tells d.childJobId (willTell σ d.childJobId) (.create d.row) = _
    rw [untold]
    exact if_pos rfl

theorem run_called (d : Delegation) (events : List Event) (σ : Records) (called : d ∈ σ.delegations) :
    d ∈ (Runs.run step σ events).delegations := by
  apply Runs.run_always step (fun τ => d ∈ τ.delegations) _ events σ called
  intro τ event earlier
  rw [step_delegations]
  exact List.mem_append_left _ earlier

def Agree (told : DelegationStatus) (job : JobStatus) : Prop :=
  (told = .completed ↔ job = .delivered) ∧ (told = .failed ↔ job = .failed)

theorem agree_iff (a : Account) : Agree a.told a.job ↔
    a.written = [] ∨ (a.reaped = false ∧ a.written.head? = a.written.getLast?) := by
  rw [Agree, Account.told, Account.job]
  cases written : a.written with
  | nil => cases a.reaped <;> simp
  | cons first rest =>
    rw [List.getLast?_cons]
    cases a.reaped <;> cases first <;> cases rest.getLast?.getD _ <;> simp [finishedRelation, finishedJob]

/-- Once everything of a delegation is written, the trace of its parent shows it with the statuses of its account;
they agree exactly when no finish was persisted, or the reaper has not found the child silent for too long before
the first one and the last one says the same. -/
theorem records_agree_iff (ledger : JobLedger) (before after : List Event) (d : Delegation)
    (parent : d.parentJobId ≠ "")
    (regular : Runs.Guarded step ordinary (idle ledger) (before ++ .start d true true :: after) = true)
    (spared : Runs.Guarded step (spares d.childJobId)
      (step (Runs.run step (idle ledger) before) (.start d true true)) after = true)
    (written : ∀ next ∈ (Runs.run step (idle ledger) (before ++ .start d true true :: after)).queue,
      next.childJobId ≠ d.childJobId) :
    let a := Runs.run (Account.step d.childJobId) .opened after
    ∃ relation row, (relation, some row) ∈ traceChildren
        (Runs.run step (idle ledger) (before ++ .start d true true :: after)) d.parentJobId ∧
      relation.tell .dispatched = d.row ∧ row.id = d.childJobId ∧
      relation.delegationStatus = a.told ∧ row.status = a.job ∧
      (Agree relation.delegationStatus row.status ↔
        a.written = [] ∨ (a.reaped = false ∧ a.written.head? = a.written.getLast?)) := by
  intro a
  have all := run_honest ledger _ regular
  rw [Runs.run_append, Runs.run_cons] at all written ⊢
  rw [Runs.guarded_append, Bool.and_eq_true, Runs.Guarded, Bool.and_eq_true] at regular
  have honest := run_honest ledger before regular.1
  have follows := run_follows d.childJobId after _ _ (start_follows _ honest d parent regular.2.1) spared
  obtain ⟨row, found, status, -⟩ := follows.row
  have told := follows.told
  rw [willTell, tells_others _ _ _ written, toldOf] at told
  obtain ⟨relation, first, shown⟩ := Option.map_eq_some_iff.mp told
  have member := List.mem_of_find?_eq_some first
  have child : relation.childJobId = d.childJobId := by simpa using List.find?_some first
  obtain ⟨other, known, as⟩ := all.relation relation member
  have called := run_called d after (step (Runs.run step (idle ledger) before) (.start d true true))
    (List.mem_append_right _ (List.mem_singleton_self d))
  have itself : other = d :=
    List.inj_on_of_nodup_map all.distinct known called ((congrArg Relation.childJobId as).trans child)
  rw [itself] at as
  refine ⟨relation, row, ?_, as.symm, (JobLedger.find_some _ _ _ found).1, shown, status, ?_⟩
  · apply List.mem_map.mpr
    refine ⟨relation, List.mem_mergeSort.mpr (List.mem_filter.mpr ⟨member, ?_⟩), ?_⟩
    · exact beq_iff_eq.mpr (congrArg Relation.parentJobId as).symm
    · rw [child, found]
  · rw [shown, status]
    exact agree_iff a

theorem records_agree_iff_starved :
    ∃ relation row, (relation, some row) ∈ traceChildren (Runs.run step (idle (.empty 0))
        ([] ++ .start pricingCall true true :: starvedEvents)) "job-1" ∧
      relation.delegationStatus = .completed ∧ row.status = .expired ∧
      ¬Agree relation.delegationStatus row.status := by
  obtain ⟨relation, row, listed, -, -, told, status, agree⟩ := records_agree_iff (.empty 0) [] starvedEvents
    pricingCall (by decide) (by decide) (by decide) (by decide)
  refine ⟨relation, row, listed, told, status, ?_⟩
  rw [agree]
  intro agreed
  cases agreed with
  | inl unwritten => cases unwritten
  | inr kept => cases kept.1

end GenesisAgents.DelegationRecords
