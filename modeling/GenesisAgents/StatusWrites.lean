import GenesisAgents.JobStore
import GenesisAgents.Library.CallTable

/-! What `update_job_status` leaves behind. A call that returns true leaves the status it was asked
for; a call that returns false has seen a status from which its guard refuses to move. -/

namespace GenesisAgents

open RowLocks StoreState

def Landed (table : Table JobId Nat JobRow) (i : Nat) : Call → Prop
  | ⟨.updateJobStatus u, .selected _ _⟩ => (table u.jobId).isSome = true
  | ⟨.updateJobStatus u, .holding _ _ _⟩ =>
    ∃ row, table.Holds i u.jobId row ∧ row.status = u.newStatus
  | ⟨.updateJobStatus u, .returned (.flag true) left⟩ => left = some u.newStatus
  | ⟨.updateJobStatus u, .returned (.flag false) left⟩ =>
    ∀ status, left = some status → u.refuses status = true
  | ⟨.updateJobStatus _, .returned _ _⟩ => False
  | _ => True

def AllLanded (σ : StoreState) : Prop := ∀ i call, σ.calls[i]? = some call → Landed σ.table i call

theorem landed_table (table table' : Table JobId Nat JobRow) (i : Nat) (call : Call)
    (rows : ∀ jobId, (table' jobId).isSome = (table jobId).isSome)
    (locks : ∀ jobId row, table.Holds i jobId row → table'.Holds i jobId row)
    (landed : Landed table i call) : Landed table' i call := by
  rcases call with ⟨request, phase⟩
  cases request with
  | updateJobStatus u =>
    cases phase with
    | selected began fromStatus => exact (rows u.jobId).trans landed
    | holding began fromStatus touched =>
      obtain ⟨row, held, written⟩ := landed
      exact ⟨row, locks _ _ held, written⟩
    | returned result left =>
      cases result with
      | flag ok => cases ok <;> exact landed
      | _ => exact landed
    | _ => trivial
  | _ => trivial

theorem landed_set (σ : StoreState) (table : Table JobId Nat JobRow) (i : Nat) (old new : Call)
    (holds : AllLanded σ) (present : σ.calls[i]? = some old)
    (rows : ∀ jobId, (table jobId).isSome = (σ.table jobId).isSome)
    (locks : ∀ k jobId row, k ≠ i → σ.table.Holds k jobId row → table.Holds k jobId row)
    (fresh : Landed σ.table i old → Landed table i new) :
    ∀ k call, (σ.calls.set i new)[k]? = some call → Landed table k call := by
  intro k call found
  by_cases same : k = i
  · subst same
    have inside := (List.getElem?_eq_some_iff.mp present).1
    rw [List.getElem?_set_self inside] at found
    obtain rfl := Option.some.inj found
    exact fresh (holds k old present)
  · rw [List.getElem?_set_ne (Ne.symm same)] at found
    exact landed_table σ.table table k call rows (fun jobId row => locks k jobId row same)
      (holds k call found)

theorem landed_commit (σ : StoreState) (i : Nat) (call : Call) (result : CallResult)
    (events : List JobEvent) (complete : σ.completion call = some (result, events))
    (landed : Landed σ.table i call) :
    Landed (σ.table.commit i) i ⟨call.request, .returned result ((jobOf call.request).bind
      fun jobId => ((σ.table.commit i).read jobId).map JobRow.status)⟩ := by
  rcases call with ⟨request, phase⟩
  cases request with
  | updateJobStatus u =>
    cases phase with
    | holding began fromStatus touched =>
      obtain ⟨rfl, -⟩ := Prod.mk.inj (Option.some.inj complete)
      obtain ⟨row, held, written⟩ := landed
      have published := σ.table.read_commit_of_holds i u.jobId row held
      simp only [Landed, jobOf, Option.bind_some, published, Option.map_some, written]
    | _ => exact absurd complete (by simp [completion])
  | _ => trivial

theorem step_landed (σ : StoreState) (event : StoreEvent) (holds : AllLanded σ) :
    AllLanded (σ.step event) := by
  have moved := step_cases σ event
  rw [AllLanded]
  generalize (σ.step event).calls = calls at moved ⊢
  generalize (σ.step event).table = table at moved ⊢
  cases moved with
  | same => exact holds
  | start request starts =>
    intro k call found
    rcases Nat.lt_or_ge k σ.calls.length with earlier | later
    · rw [List.getElem?_append_left earlier] at found
      exact holds k call found
    · have member := List.mem_of_getElem? ((List.getElem?_append_right later).symm.trans found)
      obtain rfl := List.mem_singleton.mp member
      cases request <;> trivial
  | read i u row advances present found accepted =>
    refine landed_set σ _ i _ _ holds present (fun _ => rfl) (fun _ _ _ _ held => held) fun _ => ?_
    rw [Table.read] at found
    rcases cell : σ.table u.jobId with _ | c
    · simp [cell] at found
    · exact (congrArg Option.isSome cell).trans rfl
  | refuse i u left advances present found refused =>
    exact landed_set σ _ i _ _ holds present (fun _ => rfl) (fun _ _ _ _ held => held)
      fun _ => refused
  | miss i jobId present =>
    exact landed_set σ _ i _ _ holds present (fun _ => rfl) (fun _ _ _ _ held => held)
      fun _ => trivial
  | empty i request old jobId began fromStatus present running single absent later =>
    refine landed_set σ _ i _ _ holds present (fun _ => rfl) (fun _ _ _ _ held => held)
      fun landed => ?_
    cases request with
    | updateJobStatus u =>
      obtain ⟨began', fromStatus', rfl⟩ := later u rfl
      obtain rfl := Option.some.inj single
      rw [Landed, absent] at landed
      contradiction
    | _ => trivial
  | hold i request old began fromStatus touched jobId f cell present running found unlocked writes =>
    refine landed_set σ _ i _ _ holds present (Table.isSome_write _ _ _ · _)
      (fun k other row distinct held =>
        σ.table.holds_write_other k i jobId other f row cell held distinct found unlocked)
      fun _ => ?_
    cases writes with
    | update u began fromStatus cell advances =>
      exact ⟨_, σ.table.holds_write_self i u.jobId (u.apply began) cell found,
        StatusUpdate.apply_status u began cell.latest⟩
    | _ => trivial
  | commit i call result events present complete =>
    exact landed_set σ _ i _ _ holds present (Table.isSome_commit _ _)
      (fun k jobId row distinct held => σ.table.holds_commit_other k i jobId row held distinct)
      (landed_commit σ i call result events complete)
  | fail i call present running =>
    refine landed_set σ _ i _ _ holds present (Table.isSome_rollback _ _)
      (fun k jobId row distinct held => σ.table.holds_rollback_other k i jobId row held distinct)
      fun _ => ?_
    rcases call with ⟨request, phase⟩
    cases request <;> trivial

theorem start_landed (clock : Int) (rows : JobId → Option JobRow) : AllLanded (start clock rows) :=
  fun _ _ found => by simp [start] at found

/-! A call keeps its request, and a call that is over stays as it is. -/

theorem set_call (calls : List Call) (i k : Nat) (old new call : Call)
    (present : calls[i]? = some old) (found : calls[k]? = some call)
    (same : new.request = old.request) (running : isOver old.phase = false) :
    ∃ phase, (calls.set i new)[k]? = some ⟨call.request, phase⟩ ∧
      (isOver call.phase = true → phase = call.phase) := by
  by_cases here : k = i
  · subst here
    obtain rfl := Option.some.inj (present.symm.trans found)
    have inside := (List.getElem?_eq_some_iff.mp present).1
    refine ⟨new.phase, ?_, fun closed => ?_⟩
    · rw [List.getElem?_set_self inside, ← same]
    · rw [running] at closed
      contradiction
  · exact ⟨call.phase, by rw [List.getElem?_set_ne (Ne.symm here), found], fun _ => rfl⟩

theorem completion_running (σ : StoreState) (call : Call) (outcome : CallResult × List JobEvent)
    (complete : σ.completion call = some outcome) : isOver call.phase = false := by
  rcases call with ⟨request, phase⟩
  cases phase with
  | returned result left => cases request <;> contradiction
  | raised => cases request <;> contradiction
  | _ => rfl

theorem step_call (σ : StoreState) (event : StoreEvent) (k : Nat) (call : Call)
    (found : σ.calls[k]? = some call) :
    ∃ phase, (σ.step event).calls[k]? = some ⟨call.request, phase⟩ ∧
      (isOver call.phase = true → phase = call.phase) := by
  have moved := step_cases σ event
  generalize (σ.step event).calls = calls at moved ⊢
  generalize (σ.step event).table = table at moved
  cases moved with
  | same => exact ⟨call.phase, found, fun _ => rfl⟩
  | start request starts =>
    have inside := (List.getElem?_eq_some_iff.mp found).1
    exact ⟨call.phase, by rw [List.getElem?_append_left inside, found], fun _ => rfl⟩
  | read i u row advances present seen accepted =>
    exact set_call _ _ _ _ _ _ present found rfl rfl
  | refuse i u left advances present seen refused =>
    exact set_call _ _ _ _ _ _ present found rfl rfl
  | miss i jobId present => exact set_call _ _ _ _ _ _ present found rfl rfl
  | empty i request old jobId began fromStatus present running single absent later =>
    exact set_call _ _ _ _ _ _ present found rfl running
  | hold i request old began fromStatus touched jobId f cell present running seen unlocked writes =>
    exact set_call _ _ _ _ _ _ present found rfl running
  | commit i call' result events present complete =>
    exact set_call _ _ _ _ _ _ present found rfl (completion_running σ call' _ complete)
  | fail i call' present running => exact set_call _ _ _ _ _ _ present found rfl running

theorem step_request (store : StoreState) (event : StoreEvent) (i : Nat) (call : Call)
    (found : (store.step event).calls[i]? = some call) :
    (∃ phase, store.calls[i]? = some ⟨call.request, phase⟩) ∨
      (i = store.calls.length ∧ event = .call call.request) := by
  have moved := step_cases store event
  generalize (store.step event).calls = calls at moved found
  generalize (store.step event).table = table at moved
  have kept (k : Nat) (old : Call) (next : CallPhase) (present : store.calls[k]? = some old)
      (after : (store.calls.set k ⟨old.request, next⟩)[i]? = some call) :
      ∃ phase, store.calls[i]? = some ⟨call.request, phase⟩ := by
    rcases CallTable.getElem?_set_cases _ _ _ _ _ after with ⟨rfl, rfl⟩ | ⟨-, there⟩
    · exact ⟨old.phase, present⟩
    · exact ⟨call.phase, there⟩
  cases moved with
  | same => exact .inl ⟨call.phase, found⟩
  | start request starts =>
    rcases CallTable.getElem?_concat_cases _ _ _ _ found with ⟨last, rfl⟩ | there
    · exact .inr ⟨last, starts⟩
    · exact .inl ⟨call.phase, there⟩
  | read k u row advances present seen accepted => exact .inl (kept k _ _ present found)
  | refuse k u left advances present seen refused => exact .inl (kept k _ _ present found)
  | miss k jobId present => exact .inl (kept k _ _ present found)
  | empty k request old jobId began fromStatus present running single absent later =>
    exact .inl (kept k _ _ present found)
  | hold k request old began fromStatus touched jobId f cell present running seen unlocked writes =>
    exact .inl (kept k _ _ present found)
  | commit k old result events present complete => exact .inl (kept k _ _ present found)
  | fail k old present running => exact .inl (kept k _ _ present found)

/-- The one step that makes a call return false. -/
theorem step_refused (σ : StoreState) (event : StoreEvent) (k : Nat) (u : StatusUpdate)
    (phase : CallPhase) (left : Option JobStatus)
    (before : σ.calls[k]? = some ⟨.updateJobStatus u, phase⟩)
    (after : (σ.step event).calls[k]? = some ⟨.updateJobStatus u, .returned (.flag false) left⟩) :
    phase = .returned (.flag false) left ∨
      (event = .advance k ∧ phase = .ready ∧
        ∀ status, σ.statusOf u.jobId = some status → u.refuses status = true) := by
  have moved := step_cases σ event
  generalize (σ.step event).calls = calls at moved after
  generalize (σ.step event).table = table at moved
  have unmoved (i : Nat) (new : Call) (other : i ≠ k) (found : (σ.calls.set i new)[k]? =
      some ⟨.updateJobStatus u, .returned (.flag false) left⟩) :
      phase = .returned (.flag false) left := by
    rw [List.getElem?_set_ne other, before] at found
    exact (Call.mk.inj (Option.some.inj found)).2
  have kept (i : Nat) (new : Call) (differs : i = k → new ≠
      ⟨.updateJobStatus u, .returned (.flag false) left⟩) (found : (σ.calls.set i new)[k]? =
      some ⟨.updateJobStatus u, .returned (.flag false) left⟩) :
      phase = .returned (.flag false) left := by
    by_cases same : i = k
    · have inside := (List.getElem?_eq_some_iff.mp before).1
      rw [same, List.getElem?_set_self inside] at found
      exact absurd (Option.some.inj found) (differs same)
    · exact unmoved i new same found
  cases moved with
  | same =>
    rw [before] at after
    exact .inl (Call.mk.inj (Option.some.inj after)).2
  | start request starts =>
    rw [List.getElem?_append_left (List.getElem?_eq_some_iff.mp before).1, before] at after
    exact .inl (Call.mk.inj (Option.some.inj after)).2
  | read i u' row advances present seen accepted =>
    exact .inl (kept i _ (fun _ => by simp) after)
  | refuse i u' left' advances present seen refused =>
    by_cases same : i = k
    · subst same
      rw [before] at present
      obtain ⟨request, rfl⟩ := Call.mk.inj (Option.some.inj present)
      obtain rfl := StoreCall.updateJobStatus.inj request
      exact .inr ⟨advances, rfl, fun status found => refused status (seen.trans found)⟩
    · exact .inl (unmoved i _ same after)
  | miss i jobId present => exact .inl (kept i _ (fun _ => by simp) after)
  | empty i request old jobId began fromStatus present running single absent later =>
    exact .inl (kept i _ (fun _ => by simp) after)
  | hold i request old began fromStatus touched jobId f cell present running seen unlocked writes =>
    exact .inl (kept i _ (fun _ => by simp) after)
  | commit i call result events present complete =>
    refine .inl (kept i _ (fun same refused => ?_) after)
    rw [same, before] at present
    obtain rfl := Option.some.inj present
    have ended := (CallPhase.returned.inj (Call.mk.inj refused).2).1
    cases phase with
    | holding began fromStatus touched =>
      obtain ⟨rfl, -⟩ := Prod.mk.inj (Option.some.inj complete)
      exact absurd ended (by simp)
    | _ => contradiction
  | fail i call present running => exact .inl (kept i _ (fun _ => by simp) after)

end GenesisAgents
