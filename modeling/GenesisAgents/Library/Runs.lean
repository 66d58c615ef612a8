import Mathlib.Init

/-! Runs of a system under a schedule of events, and what its steps preserve. -/

namespace Runs

variable {S E : Type} (step : S → E → S)

def run (s : S) (events : List E) : S := events.foldl step s

@[simp] theorem run_nil (s : S) : run step s [] = s := rfl

@[simp] theorem run_cons (s : S) (event : E) (rest : List E) :
    run step s (event :: rest) = run step (step s event) rest := rfl

theorem run_append (s : S) (first second : List E) :
    run step s (first ++ second) = run step (run step s first) second := List.foldl_append

/-- Every event of the schedule is allowed in the state it comes in. -/
@[simp] def Guarded (guard : S → E → Bool) : S → List E → Bool
  | _, [] => true
  | s, event :: rest => guard s event && Guarded guard (step s event) rest

theorem guarded_append (guard : S → E → Bool) (first second : List E) :
    ∀ s, Guarded step guard s (first ++ second) =
      (Guarded step guard s first && Guarded step guard (run step s first) second) := by
  induction first with
  | nil => simp
  | cons event rest later =>
    intro s
    simp [later, Bool.and_assoc]

/-- A run is guarded when every event of it is allowed where it comes. -/
theorem guarded_iff_forall (guard : S → E → Bool) (events : List E) :
    ∀ s, Guarded step guard s events = true ↔ ∀ first event rest,
      events = first ++ event :: rest → guard (run step s first) event = true := by
  induction events with
  | nil =>
    intro s
    simp
  | cons head tail later =>
    intro s
    rw [Guarded, Bool.and_eq_true, later]
    constructor
    · rintro ⟨now, onward⟩ first event rest split
      cases first with
      | nil =>
        obtain ⟨rfl, -⟩ := List.cons.inj split
        exact now
      | cons _ first =>
        obtain ⟨rfl, same⟩ := List.cons.inj split
        exact onward first event rest same
    · intro every
      refine ⟨every [] head tail rfl, fun first event rest same => ?_⟩
      exact every (head :: first) event rest (congrArg (head :: ·) same)

theorem guarded_and (guard : S → E → Bool) (other : E → Bool) (events : List E)
    (allowed : ∀ event ∈ events, other event = true) :
    ∀ s, Guarded step guard s events = true →
      Guarded step (fun s event => other event && guard s event) s events = true := by
  induction events with
  | nil => exact fun _ _ => rfl
  | cons event rest later =>
    intro s guarded
    rw [Guarded, Bool.and_eq_true] at guarded
    rw [Guarded, allowed event List.mem_cons_self, guarded.1, Bool.and_self, Bool.true_and]
    exact later (fun e member => allowed e (List.mem_cons_of_mem _ member)) _ guarded.2

theorem guarded_events (allowed : E → Bool) (events : List E) :
    ∀ s, Guarded step (fun _ event => allowed event) s events = true ↔
      ∀ event ∈ events, allowed event = true := by
  induction events with
  | nil => simp
  | cons event rest later =>
    intro s
    rw [Guarded, Bool.and_eq_true, later, List.forall_mem_cons]

variable (Inv : S → Prop)

/-- An invariant that the allowed steps keep holds after every allowed run. -/
theorem run_invariant (guard : S → E → Bool)
    (keeps : ∀ s event, Inv s → guard s event = true → Inv (step s event)) (events : List E) :
    ∀ s, Inv s → Guarded step guard s events = true → Inv (run step s events) := by
  induction events with
  | nil => exact fun _ holds _ => holds
  | cons event rest later =>
    intro s holds guarded
    rw [Guarded, Bool.and_eq_true] at guarded
    exact later _ (keeps s event holds guarded.1) guarded.2

theorem run_of_events (Allowed : E → Prop)
    (keeps : ∀ s event, Allowed event → Inv s → Inv (step s event)) (events : List E) :
    (∀ event ∈ events, Allowed event) → ∀ s, Inv s → Inv (run step s events) := by
  induction events with
  | nil => exact fun _ _ holds => holds
  | cons event rest later =>
    intro allowed s holds
    have next := keeps s event (allowed event List.mem_cons_self) holds
    exact later (fun other member => allowed other (List.mem_cons_of_mem _ member)) _ next

theorem run_always (keeps : ∀ s event, Inv s → Inv (step s event)) (events : List E) :
    ∀ s, Inv s → Inv (run step s events) :=
  run_of_events step Inv (fun _ => True) (fun s event _ => keeps s event) events
    (fun _ _ => trivial)

theorem run_history (Past : List E → S → Prop)
    (keeps : ∀ past s event, Past past s → Past (past ++ [event]) (step s event)) (events : List E) :
    ∀ past s, Past past s → Past (past ++ events) (run step s events) := by
  induction events with
  | nil =>
    intro past s holds
    rwa [List.append_nil]
  | cons event rest later =>
    intro past s holds
    have next := later _ _ (keeps past s event holds)
    rwa [List.append_assoc] at next

/-- A property that, once lost, stays lost, and that a step keeps exactly when it is allowed, holds
after a run exactly when every event of the run was allowed. -/
theorem guarded_iff (Good : S → Prop) (guard : S → E → Bool)
    (keeps : ∀ s event, Inv s → Inv (step s event))
    (exact_step : ∀ s event, Inv s → Good s → (guard s event = true ↔ Good (step s event)))
    (lost : ∀ s event, Inv s → Good (step s event) → Good s) (events : List E) :
    ∀ s, Inv s → Good s → (Guarded step guard s events = true ↔ Good (run step s events)) := by
  have back : ∀ (rest : List E) (s : S), Inv s → Good (run step s rest) → Good s := by
    intro rest
    induction rest with
    | nil => exact fun _ _ good => good
    | cons event rest later =>
      exact fun s holds good => lost s event holds (later _ (keeps s event holds) good)
  induction events with
  | nil => exact fun _ _ good => iff_of_true rfl good
  | cons event rest later =>
    intro s holds good
    rw [Guarded, Bool.and_eq_true, run_cons]
    constructor
    · rintro ⟨allowed, guarded⟩
      have next := (exact_step s event holds good).mp allowed
      exact (later _ (keeps s event holds) next).mp guarded
    · intro ends
      have next := back rest _ (keeps s event holds) ends
      exact ⟨(exact_step s event holds good).mpr next, (later _ (keeps s event holds) next).mpr ends⟩

/-- Where a step keeps a property exactly when it is allowed, the property holds in every state of a
run exactly when every event of the run is allowed. -/
theorem guarded_iff_always (Good : S → Prop) (guard : S → E → Bool)
    (keeps : ∀ s event, Inv s → Inv (step s event))
    (exact_step : ∀ s event, Inv s → Good s → (guard s event = true ↔ Good (step s event)))
    (events : List E) : ∀ s, Inv s → Good s → (Guarded step guard s events = true ↔
      ∀ first rest, events = first ++ rest → Good (run step s first)) := by
  induction events with
  | nil =>
    intro s _ good
    refine iff_of_true rfl fun first rest split => ?_
    rwa [(List.append_eq_nil_iff.mp split.symm).1]
  | cons event later onward =>
    intro s holds good
    rw [Guarded, Bool.and_eq_true, exact_step s event holds good]
    constructor
    · rintro ⟨next, guarded⟩ first rest split
      cases first with
      | nil => exact good
      | cons head tail =>
        obtain ⟨rfl, same⟩ := List.cons.inj split
        exact (onward _ (keeps s event holds) next).mp guarded tail rest same
    · intro every
      have next : Good (step s event) := every [event] later rfl
      refine ⟨next, (onward _ (keeps s event holds) next).mpr fun first rest same => ?_⟩
      exact every (event :: first) rest (congrArg (event :: ·) same)

/-- A preorder that the allowed steps climb relates the ends of every allowed run. -/
theorem run_related (R : S → S → Prop) (refl : ∀ s, R s s)
    (trans : ∀ s t u, R s t → R t u → R s u) (guard : S → E → Bool)
    (keeps : ∀ s event, Inv s → guard s event = true → Inv (step s event))
    (climbs : ∀ s event, Inv s → guard s event = true → R s (step s event)) (events : List E) :
    ∀ s, Inv s → Guarded step guard s events = true → R s (run step s events) := by
  induction events with
  | nil => exact fun s _ _ => refl s
  | cons event rest later =>
    intro s holds guarded
    rw [Guarded, Bool.and_eq_true] at guarded
    exact trans _ _ _ (climbs s event holds guarded.1)
      (later _ (keeps s event holds guarded.1) guarded.2)

/-! Systems that keep a table of calls: one call changes its phase. -/

theorem filterMap_set {α β : Type} (f : α → Option β) (l : List α) (i : Nat) (old new : α)
    (present : l[i]? = some old) (silent : f old = none) :
    ((l.set i new).filterMap f).Perm ((l.filterMap f) ++ (f new).toList) := by
  induction l generalizing i with
  | nil => simp at present
  | cons head tail later =>
    rcases i with _ | i
    · obtain rfl : head = old := by simpa using present
      rw [List.set_cons_zero, List.filterMap_cons, List.filterMap_cons, silent]
      rcases f new with _ | out
      · simp
      · simpa using (List.perm_append_singleton out (tail.filterMap f)).symm
    · have rest := later i (by simpa using present)
      rw [List.set_cons_succ, List.filterMap_cons, List.filterMap_cons]
      rcases f head with _ | out
      · exact rest
      · exact rest.cons out

end Runs
