import GenesisAgents.Library.Runs
import Mathlib.Data.List.Count

/-! Calls that look a unique key up and insert it when it is not there, under READ COMMITTED. The look-up
sees committed rows only; an insert waits while another transaction has the key in a row that is not
committed yet, and violates the constraint once the key is committed. -/

namespace UniqueKey

inductive Phase where
  /-- A call that does not use the key. -/
  | bystander
  | ready
  /-- The look-up has found nothing. -/
  | checked
  /-- The row is inserted and not yet committed. -/
  | holding
  /-- The look-up has found the key. -/
  | found
  | stored
  | violated
  deriving DecidableEq

structure State where
  /-- The key is in a committed row. -/
  taken : Bool
  calls : List Phase

inductive Event where
  | idle
  | arrive (uses : Bool)
  | advance (i : Nat)

namespace State

def move (s : State) (i : Nat) (phase : Phase) : State := { s with calls := s.calls.set i phase }

def advance (s : State) (i : Nat) : State :=
  match s.calls[i]? with
  | some .ready => s.move i (if s.taken then .found else .checked)
  | some .checked =>
    if s.taken then s.move i .violated
    else if s.calls.contains .holding then s
    else s.move i .holding
  | some .holding => { s.move i .stored with taken := true }
  | _ => s

def step (s : State) : Event → State
  | .idle => s
  | .arrive uses => { s with calls := s.calls ++ [if uses then .ready else .bystander] }
  | .advance i => s.advance i

structure Tally where
  checked : Nat
  holding : Nat
  found : Nat
  stored : Nat
  violated : Nat

def tally (s : State) : Tally :=
  ⟨s.calls.count .checked, s.calls.count .holding, s.calls.count .found, s.calls.count .stored,
    s.calls.count .violated⟩

def inFlight (s : State) : Nat := s.tally.checked + s.tally.holding

/-- A call looks the key up only while no other call is between its look-up and its commit. -/
def alone (s : State) : Event → Bool
  | .advance i => s.calls[i]? != some .ready || s.inFlight == 0
  | _ => true

def ended (s : State) : Bool :=
  s.calls.all fun phase => phase != .ready && phase != .checked && phase != .holding

/-- Nothing has been violated, and nothing is bound to be. -/
def Sound (s : State) : Prop := s.tally.violated = 0 ∧ s.inFlight + s.taken.toNat ≤ 1

structure Books (s : State) : Prop where
  stored : s.tally.stored = s.taken.toNat
  held : s.tally.holding + s.taken.toNat ≤ 1
  found : s.taken = false → s.tally.found = 0

end State

open State

theorem count_move (calls : List Phase) (i : Nat) (old new p : Phase)
    (present : calls[i]? = some old) :
    (calls.set i new).count p + (if old = p then 1 else 0) =
      calls.count p + if new = p then 1 else 0 := by
  obtain ⟨inside, rfl⟩ := List.getElem?_eq_some_iff.mp present
  have counted := List.countP_set (p := (· == p)) (a := new) inside
  have member : calls[i] = p → 0 < calls.count p := by
    rintro rfl
    exact List.count_pos_iff.mpr (List.getElem_mem inside)
  simp only [List.count, beq_iff_eq] at counted member ⊢
  split_ifs at counted ⊢ <;> grind

theorem count_pos (calls : List Phase) (i : Nat) (p : Phase) (present : calls[i]? = some p) :
    0 < calls.count p :=
  List.count_pos_iff.mpr (List.mem_of_getElem? present)

/-! The next statement of a call, by its phase. -/

section

variable (s : State) (i : Nat)

theorem advance_ready (present : s.calls[i]? = some .ready) :
    s.step (.advance i) = s.move i (if s.taken then .found else .checked) := by
  simp only [State.step, State.advance, present]

theorem advance_checked (present : s.calls[i]? = some .checked) :
    s.step (.advance i) =
      if s.taken then s.move i .violated
      else if s.calls.contains .holding then s else s.move i .holding := by
  simp only [State.step, State.advance, present]

theorem advance_holding (present : s.calls[i]? = some .holding) :
    s.step (.advance i) = { s.move i .stored with taken := true } := by
  simp only [State.step, State.advance, present]

theorem advance_rests (phase : Phase) (present : s.calls[i]? = some phase)
    (rests : phase ≠ .ready ∧ phase ≠ .checked ∧ phase ≠ .holding) : s.step (.advance i) = s := by
  rw [State.step, State.advance, present]
  cases phase with
  | ready => exact absurd rfl rests.1
  | checked => exact absurd rfl rests.2.1
  | holding => exact absurd rfl rests.2.2
  | _ => rfl

theorem advance_absent (absent : s.calls[i]? = none) : s.step (.advance i) = s := by
  simp only [State.step, State.advance, absent]

end

inductive Moves (s : State) : Event → State → Prop where
  | stays (event : Event) (quiet : ∀ i, event = .advance i → s.calls[i]? ≠ some .ready) :
      Moves s event s
  | arrives (uses : Bool) : Moves s (.arrive uses)
      { s with calls := s.calls ++ [if uses then .ready else .bystander] }
  | finds (i : Nat) (present : s.calls[i]? = some .ready) (taken : s.taken = true) :
      Moves s (.advance i) (s.move i .found)
  | checks (i : Nat) (present : s.calls[i]? = some .ready) (free : s.taken = false) :
      Moves s (.advance i) (s.move i .checked)
  | violates (i : Nat) (present : s.calls[i]? = some .checked) (taken : s.taken = true) :
      Moves s (.advance i) (s.move i .violated)
  | inserts (i : Nat) (present : s.calls[i]? = some .checked) (free : s.taken = false)
      (unlocked : s.tally.holding = 0) : Moves s (.advance i) (s.move i .holding)
  | commits (i : Nat) (present : s.calls[i]? = some .holding) :
      Moves s (.advance i) { s.move i .stored with taken := true }

theorem step_moves (s : State) (event : Event) : Moves s event (s.step event) := by
  cases event with
  | idle => exact .stays _ (by simp)
  | arrive uses => exact .arrives uses
  | advance i =>
    have quiet (phase : Phase) (present : s.calls[i]? = some phase) (other : phase ≠ .ready) :
        ∀ j, Event.advance i = .advance j → s.calls[j]? ≠ some .ready := by
      rintro j same
      obtain rfl := Event.advance.inj same
      rw [present]
      simpa using other
    rw [State.step, State.advance]
    split
    · rename_i present
      rcases taken : s.taken with _ | _
      · exact .checks i present taken
      · exact .finds i present taken
    · rename_i present
      split
      · rename_i taken
        exact .violates i present taken
      · rename_i free
        split
        · exact .stays _ (quiet _ present (by simp))
        · rename_i unlocked
          have nobody : s.tally.holding = 0 := by simpa [tally, List.count_eq_zero] using unlocked
          exact .inserts i present (by simpa using free) nobody
    · rename_i present
      exact .commits i present
    · rename_i notReady _ _
      refine .stays _ ?_
      rintro j same
      obtain rfl := Event.advance.inj same
      exact notReady

theorem tally_arrives (s : State) (uses : Bool) :
    State.tally { s with calls := s.calls ++ [if uses then .ready else .bystander] } = s.tally := by
  cases uses <;> simp [State.tally, List.count_append]

theorem tally_finds (s : State) (i : Nat) (present : s.calls[i]? = some .ready) :
    (s.move i .found).tally = { s.tally with found := s.tally.found + 1 } := by
  have counts (p : Phase) := count_move s.calls i .ready .found p present
  simp only [State.tally, State.move, State.Tally.mk.injEq]
  exact ⟨counts .checked, counts .holding, counts .found, counts .stored, counts .violated⟩

theorem tally_checks (s : State) (i : Nat) (present : s.calls[i]? = some .ready) :
    (s.move i .checked).tally = { s.tally with checked := s.tally.checked + 1 } := by
  have counts (p : Phase) := count_move s.calls i .ready .checked p present
  simp only [State.tally, State.move, State.Tally.mk.injEq]
  exact ⟨counts .checked, counts .holding, counts .found, counts .stored, counts .violated⟩

theorem tally_violates (s : State) (i : Nat) (present : s.calls[i]? = some .checked) :
    (s.move i .violated).tally =
      { s.tally with checked := s.tally.checked - 1, violated := s.tally.violated + 1 } := by
  have counts (p : Phase) := count_move s.calls i .checked .violated p present
  simp only [State.tally, State.move, State.Tally.mk.injEq]
  exact ⟨Nat.eq_sub_of_add_eq (counts .checked), counts .holding, counts .found, counts .stored,
    counts .violated⟩

theorem tally_inserts (s : State) (i : Nat) (present : s.calls[i]? = some .checked) :
    (s.move i .holding).tally =
      { s.tally with checked := s.tally.checked - 1, holding := s.tally.holding + 1 } := by
  have counts (p : Phase) := count_move s.calls i .checked .holding p present
  simp only [State.tally, State.move, State.Tally.mk.injEq]
  exact ⟨Nat.eq_sub_of_add_eq (counts .checked), counts .holding, counts .found, counts .stored,
    counts .violated⟩

theorem tally_commits (s : State) (i : Nat) (present : s.calls[i]? = some .holding) :
    (s.move i .stored).tally =
      { s.tally with holding := s.tally.holding - 1, stored := s.tally.stored + 1 } := by
  have counts (p : Phase) := count_move s.calls i .holding .stored p present
  simp only [State.tally, State.move, State.Tally.mk.injEq]
  exact ⟨counts .checked, Nat.eq_sub_of_add_eq (counts .holding), counts .found, counts .stored,
    counts .violated⟩

@[simp] theorem move_taken (s : State) (i : Nat) (phase : Phase) : (s.move i phase).taken = s.taken :=
  rfl

theorem books_step (s : State) (event : Event) (books : Books s) : Books (s.step event) := by
  obtain ⟨stored, held, found⟩ := books
  have moves := step_moves s event
  generalize s.step event = s' at moves
  cases moves with
  | stays => exact ⟨stored, held, found⟩
  | arrives uses => exact ⟨by rw [tally_arrives, stored], by rw [tally_arrives]; exact held,
      fun free => by rw [tally_arrives]; exact found free⟩
  | finds i present taken =>
    refine ⟨by rw [tally_finds s i present]; exact stored, by rw [tally_finds s i present]; exact held, ?_⟩
    intro free
    rw [move_taken, taken] at free
    contradiction
  | checks i present free =>
    have tally := tally_checks s i present
    exact ⟨by rw [tally]; exact stored, by rw [tally]; exact held, by rw [tally]; exact found⟩
  | violates i present taken =>
    have tally := tally_violates s i present
    exact ⟨by rw [tally]; exact stored, by rw [tally]; exact held, by rw [tally]; exact found⟩
  | inserts i present free unlocked =>
    have tally := tally_inserts s i present
    refine ⟨by rw [tally]; exact stored, ?_, by rw [tally]; exact found⟩
    rw [tally, move_taken, free]
    simp [unlocked]
  | commits i present =>
    have tally := tally_commits s i present
    have held_one : 0 < s.tally.holding := count_pos s.calls i .holding present
    have free : s.taken.toNat = 0 := by omega
    refine ⟨?_, ?_, fun absurd => by contradiction⟩
    · change (s.move i .stored).tally.stored = 1
      rw [tally, stored, free]
    · change (s.move i .stored).tally.holding + 1 ≤ 1
      rw [tally]
      show s.tally.holding - 1 + 1 ≤ 1
      omega

theorem inFlight_arrives (s : State) (uses : Bool) :
    inFlight { s with calls := s.calls ++ [if uses then .ready else .bystander] } = s.inFlight := by
  rw [inFlight, tally_arrives, inFlight]

theorem inFlight_finds (s : State) (i : Nat) (present : s.calls[i]? = some .ready) :
    (s.move i .found).inFlight = s.inFlight := by
  rw [inFlight, tally_finds s i present, inFlight]

theorem inFlight_checks (s : State) (i : Nat) (present : s.calls[i]? = some .ready) :
    (s.move i .checked).inFlight = s.inFlight + 1 := by
  rw [inFlight, tally_checks s i present, inFlight]
  exact Nat.succ_add _ _

theorem inFlight_inserts (s : State) (i : Nat) (present : s.calls[i]? = some .checked) :
    (s.move i .holding).inFlight = s.inFlight := by
  have checked : 0 < s.tally.checked := count_pos s.calls i .checked present
  rw [inFlight, tally_inserts s i present, inFlight]
  show s.tally.checked - 1 + (s.tally.holding + 1) = _
  omega

theorem inFlight_commits (s : State) (i : Nat) (present : s.calls[i]? = some .holding) :
    (s.move i .stored).inFlight + 1 = s.inFlight := by
  have held : 0 < s.tally.holding := count_pos s.calls i .holding present
  rw [inFlight, tally_commits s i present, inFlight]
  show s.tally.checked + (s.tally.holding - 1) + 1 = _
  omega

theorem alone_of_not_ready (s : State) (i : Nat) (other : s.calls[i]? ≠ some .ready) :
    s.alone (.advance i) = true := by
  simp [alone, other]

theorem sound_commits (s : State) (i : Nat) (books : Books s) (present : s.calls[i]? = some .holding) :
    Sound { s.move i .stored with taken := true } ↔ Sound s := by
  have held : 0 < s.tally.holding := count_pos s.calls i .holding present
  have free : s.taken.toNat = 0 := by
    have once := books.held
    omega
  have flight := inFlight_commits s i present
  have violated : (s.move i .stored).tally.violated = s.tally.violated := by
    rw [tally_commits s i present]
  change (s.move i .stored).tally.violated = 0 ∧ (s.move i .stored).inFlight + 1 ≤ 1 ↔
    s.tally.violated = 0 ∧ s.inFlight + s.taken.toNat ≤ 1
  rw [violated, flight, free, Nat.add_zero]

/-- A sound state stays sound exactly when the call that looks the key up is alone. -/
theorem alone_iff (s : State) (event : Event) (books : Books s) (sound : Sound s) :
    s.alone event = true ↔ Sound (s.step event) := by
  have moves := step_moves s event
  generalize s.step event = s' at moves
  cases moves with
  | stays _ quiet =>
    refine iff_of_true ?_ sound
    cases event with
    | advance i => exact alone_of_not_ready s i (quiet i rfl)
    | _ => rfl
  | arrives uses =>
    refine iff_of_true rfl ?_
    rw [Sound, tally_arrives, inFlight_arrives]
    exact sound
  | finds i present taken =>
    have nobody : s.inFlight = 0 := by
      have bound := sound.2
      rw [taken] at bound
      exact Nat.le_zero.mp (Nat.le_of_succ_le_succ bound)
    refine iff_of_true (by simp [alone, nobody]) ?_
    rw [Sound, inFlight_finds s i present, tally_finds s i present]
    exact sound
  | checks i present free =>
    rw [Sound, inFlight_checks s i present, tally_checks s i present, move_taken, free]
    simp only [alone, present, bne_self_eq_false, Bool.false_or, beq_iff_eq, sound.1, true_and,
      Bool.toNat_false]
    omega
  | violates i present taken =>
    have checked : 0 < s.tally.checked := count_pos s.calls i .checked present
    have bound := sound.2
    rw [inFlight, taken, Bool.toNat_true] at bound
    omega
  | inserts i present free unlocked =>
    refine iff_of_true (alone_of_not_ready s i (by simp [present])) ?_
    rw [Sound, inFlight_inserts s i present, tally_inserts s i present]
    exact sound
  | commits i present =>
    refine iff_of_true (alone_of_not_ready s i (by simp [present])) ?_
    exact (sound_commits s i books present).mpr sound

theorem sound_of_step (s : State) (event : Event) (books : Books s)
    (sound : Sound (s.step event)) : Sound s := by
  have moves := step_moves s event
  generalize s.step event = s' at moves sound
  cases moves with
  | stays => exact sound
  | arrives uses =>
    rw [Sound, tally_arrives, inFlight_arrives] at sound
    exact sound
  | finds i present taken =>
    rw [Sound, inFlight_finds s i present, tally_finds s i present] at sound
    exact sound
  | checks i present free =>
    rw [Sound, inFlight_checks s i present, tally_checks s i present, move_taken] at sound
    exact ⟨sound.1, by omega⟩
  | violates i present taken =>
    rw [Sound, tally_violates s i present] at sound
    exact absurd sound.1 (Nat.succ_ne_zero _)
  | inserts i present free unlocked =>
    rw [Sound, inFlight_inserts s i present, tally_inserts s i present] at sound
    exact sound
  | commits i present => exact (sound_commits s i books present).mp sound

theorem finished (s : State) (ended : s.ended = true) (phase : Phase) (member : phase ∈ s.calls) :
    phase ≠ .ready ∧ phase ≠ .checked ∧ phase ≠ .holding := by
  have each := List.all_eq_true.mp ended phase member
  simpa [and_assoc] using each

theorem sound_of_ended (s : State) (books : Books s) (ended : s.ended = true) :
    Sound s ↔ s.tally.violated = 0 := by
  have checked : s.tally.checked = 0 :=
    List.count_eq_zero.mpr fun member => (finished s ended _ member).2.1 rfl
  have holding : s.tally.holding = 0 :=
    List.count_eq_zero.mpr fun member => (finished s ended _ member).2.2 rfl
  have once := books.held
  rw [Sound, inFlight, checked, holding]
  exact and_iff_left (by omega)

theorem settled (s : State) (books : Books s) (ended : s.ended = true) (sound : Sound s) (phase : Phase)
    (member : phase ∈ s.calls) (uses : phase ≠ .bystander) :
    (phase = .found ∨ phase = .stored) ∧ s.taken = true := by
  have open_ := finished s ended phase member
  have sure : phase ≠ .violated := by
    rintro rfl
    exact List.count_eq_zero.mp sound.1 member
  have kind : phase = .found ∨ phase = .stored := by
    cases phase <;> simp_all
  refine ⟨kind, ?_⟩
  rcases taken : s.taken with _ | _
  · rcases kind with rfl | rfl
    · exact absurd member (List.count_eq_zero.mp (books.found taken))
    · have none_stored := books.stored
      rw [taken] at none_stored
      exact absurd member (List.count_eq_zero.mp none_stored)
  · rfl

def State.rank (s : State) : Nat :=
  3 * s.calls.count .ready + 2 * s.calls.count .checked + s.calls.count .holding

theorem rank_move (s : State) (i : Nat) (old new : Phase) (present : s.calls[i]? = some old)
    (lower : (if new = .ready then 3 else 0) + (if new = .checked then 2 else 0) +
        (if new = .holding then 1 else 0) <
      (if old = .ready then 3 else 0) + (if old = .checked then 2 else 0) +
        if old = .holding then 1 else 0) : (s.move i new).rank < s.rank := by
  have ready := count_move s.calls i old new .ready present
  have checked := count_move s.calls i old new .checked present
  have holding := count_move s.calls i old new .holding present
  simp only [State.rank, State.move]
  split_ifs at * <;> omega

theorem exists_progress (s : State) (unfinished : s.ended = false) :
    ∃ i, (s.step (.advance i)).rank < s.rank := by
  by_cases held : Phase.holding ∈ s.calls
  · obtain ⟨i, present⟩ := List.mem_iff_getElem?.mp held
    refine ⟨i, ?_⟩
    rw [advance_holding s i present]
    exact rank_move s i .holding .stored present (by decide)
  · have unlocked : s.calls.contains .holding = false := by simpa using held
    obtain ⟨phase, member, stands⟩ := List.all_eq_false.mp unfinished
    obtain ⟨i, present⟩ := List.mem_iff_getElem?.mp member
    refine ⟨i, ?_⟩
    cases phase with
    | ready =>
      rw [advance_ready s i present]
      rcases s.taken with _ | _
      · exact rank_move s i .ready .checked present (by decide)
      · exact rank_move s i .ready .found present (by decide)
    | checked =>
      rw [advance_checked s i present, unlocked]
      rcases s.taken with _ | _
      · exact rank_move s i .checked .holding present (by decide)
      · exact rank_move s i .checked .violated present (by decide)
    | holding => exact absurd member held
    | _ => simp at stands

/-- Every state has a schedule after which all calls are over. -/
theorem finishes (s : State) :
    ∃ schedule : List Nat, (Runs.run State.step s (schedule.map .advance)).ended = true := by
  induction left : s.rank using Nat.strongRecOn generalizing s with
  | ind n later =>
    rcases ended : s.ended with _ | _
    · obtain ⟨i, lower⟩ := exists_progress s ended
      obtain ⟨schedule, ends⟩ := later _ (left ▸ lower) _ rfl
      exact ⟨i :: schedule, ends⟩
    · exact ⟨[], ended⟩

end UniqueKey
