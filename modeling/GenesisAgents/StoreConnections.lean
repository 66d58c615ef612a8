import GenesisAgents.Library.Permits
import GenesisAgents.Library.Runs

/-! `runtime/pg_store.py`: the cap on connections and `transaction`, with any number of callers at once.
No slot is lost or given back twice, and a transaction commits exactly when it returns. -/

namespace GenesisAgents.StoreConnections

open Permits

/-- `GENESIS_DB_MAX_CONNECTIONS` as `int` reads it -/
inductive CapSetting where
  | unset
  | invalid
  | value (n : Int)

/-- `max_connections` -/
def maxConnections : CapSetting → Nat
  | .unset => 10
  | .invalid => 10
  | .value n => (max 1 n).toNat

/-- How a statement ends; `except Exception` catches an exception and no interrupt. -/
inductive Ending where
  | returned
  | exception
  | interrupt
  deriving DecidableEq

/-- What is done with a connection; `body` is the whole of `with conn.cursor() as cur: yield cur`. -/
inductive Op where
  | connect
  | body
  | commit
  | rollback
  | close
  deriving DecidableEq

inductive TxPhase where
  | called
  | waiting (slots : Nat)
  | connecting (slots : Nat)
  | inBody (slots : Nat)
  | committing (slots : Nat)
  | rollingBack (slots : Nat)
  | closing (slots : Nat) (ending : Ending)
  | finished (ending : Ending)
  /-- `conn.close()` was interrupted, and `slots.release()` behind it is not reached. -/
  | lost (slots : Nat)
  deriving DecidableEq

/-- One use of `transaction`, and what it has done with its connection. -/
structure Tx where
  autocommit : Bool
  phase : TxPhase
  ops : List (Op × Ending)
  deriving DecidableEq

def Tx.held (tx : Tx) : Option Nat :=
  match tx.phase with
  | .connecting k => some k
  | .inBody k => some k
  | .committing k => some k
  | .rollingBack k => some k
  | .closing k _ => some k
  | .lost k => some k
  | _ => none

/-- The process: the semaphores that `_slots` has made, the last of them, and the calls. -/
structure Process where
  setting : CapSetting
  connectionSlots : Option Nat
  connectionSlotsSize : Nat
  semaphores : List Semaphore
  txs : List Tx
  /-- A `release` of more than was acquired has raised. -/
  overReleased : Bool

def start (setting : CapSetting) : Process := ⟨setting, none, 0, [], [], false⟩

namespace Process

def put (σ : Process) (i : Nat) (tx : Tx) : Process := { σ with txs := σ.txs.set i tx }

/-- `_slots`: the semaphore is rebuilt when the cap has changed. -/
def slots (σ : Process) : Nat × Process :=
  let size := maxConnections σ.setting
  match σ.connectionSlots with
  | some k => if σ.connectionSlotsSize = size then (k, σ) else (σ.semaphores.length, rebuild size)
  | none => (σ.semaphores.length, rebuild size)
where
  rebuild (size : Nat) : Process :=
    { σ with
      connectionSlots := some σ.semaphores.length
      connectionSlotsSize := size
      semaphores := σ.semaphores ++ [.fresh size] }

/-- `slots.release()` -/
def giveBack (σ : Process) (k : Nat) : Process :=
  match σ.semaphores[k]?.bind Semaphore.release with
  | some given => { σ with semaphores := σ.semaphores.set k given }
  | none => { σ with overReleased := true }

/-- The next statement of a call. One that waits for a slot gives up only while there is none. -/
def advance (σ : Process) (i : Nat) (ending : Ending) : Process :=
  match σ.txs[i]? with
  | none => σ
  | some tx =>
    let did (op : Op) (phase : TxPhase) : Tx := { tx with phase := phase, ops := tx.ops ++ [(op, ending)] }
    match tx.phase with
    | .called =>
      match ending with
      | .returned => σ.slots.2.put i { tx with phase := .waiting σ.slots.1 }
      | bad => σ.slots.2.put i { tx with phase := .finished bad }
    | .waiting k =>
      match σ.semaphores[k]?.bind Semaphore.acquire with
      | some taken =>
        { σ with semaphores := σ.semaphores.set k taken }.put i { tx with phase := .connecting k }
      | none =>
        match ending with
        | .returned => σ
        | bad => σ.put i { tx with phase := .finished bad }
    | .connecting k =>
      match ending with
      | .returned => σ.put i (did .connect (.inBody k))
      | bad => (σ.giveBack k).put i (did .connect (.finished bad))
    | .inBody k =>
      match ending with
      | .returned => σ.put i (did .body (if tx.autocommit then .closing k .returned else .committing k))
      | .exception => σ.put i (did .body (if tx.autocommit then .closing k .exception else .rollingBack k))
      | .interrupt => σ.put i (did .body (.closing k .interrupt))
    | .committing k =>
      match ending with
      | .returned => σ.put i (did .commit (.closing k .returned))
      | .exception => σ.put i (did .commit (.rollingBack k))
      | .interrupt => σ.put i (did .commit (.closing k .interrupt))
    | .rollingBack k =>
      match ending with
      | .interrupt => σ.put i (did .rollback (.closing k .interrupt))
      | _ => σ.put i (did .rollback (.closing k .exception))
    | .closing k raised =>
      match ending with
      | .interrupt => σ.put i (did .close (.lost k))
      | _ => (σ.giveBack k).put i (did .close (.finished raised))
    | .finished _ => σ
    | .lost _ => σ

end Process

inductive Event where
  | configure (setting : CapSetting)
  /-- `reset_connection_cap_for_tests` -/
  | reset
  | call (autocommit : Bool)
  | advance (i : Nat) (ending : Ending)

def step (σ : Process) : Event → Process
  | .configure setting => { σ with setting := setting }
  | .reset => { σ with connectionSlots := none, connectionSlotsSize := 0 }
  | .call autocommit => { σ with txs := σ.txs ++ [⟨autocommit, .called, []⟩] }
  | .advance i ending => σ.advance i ending

/-! What a call has done by the time it stands somewhere. -/

def Served (autocommit : Bool) (ops : List (Op × Ending)) : Ending → Prop
  | .returned =>
    ops = [(.connect, .returned), (.body, .returned)] ++
      if autocommit then [] else [(.commit, .returned)]
  | .exception =>
    (autocommit = true ∧ ops = [(.connect, .returned), (.body, .exception)]) ∨
      autocommit = false ∧ ∃ undone, undone ≠ .interrupt ∧
        (ops = [(.connect, .returned), (.body, .exception), (.rollback, undone)] ∨
          ops = [(.connect, .returned), (.body, .returned), (.commit, .exception), (.rollback, undone)])
  | .interrupt =>
    ops = [(.connect, .returned), (.body, .interrupt)] ∨
      autocommit = false ∧
        (ops = [(.connect, .returned), (.body, .returned), (.commit, .interrupt)] ∨
          ops = [(.connect, .returned), (.body, .exception), (.rollback, .interrupt)] ∨
          ops = [(.connect, .returned), (.body, .returned), (.commit, .exception),
            (.rollback, .interrupt)])

def Tx.Follows (tx : Tx) : Prop :=
  match tx.phase with
  | .called => tx.ops = []
  | .waiting _ => tx.ops = []
  | .connecting _ => tx.ops = []
  | .inBody _ => tx.ops = [(.connect, .returned)]
  | .committing _ => tx.autocommit = false ∧ tx.ops = [(.connect, .returned), (.body, .returned)]
  | .rollingBack _ =>
    tx.autocommit = false ∧ (tx.ops = [(.connect, .returned), (.body, .exception)] ∨
      tx.ops = [(.connect, .returned), (.body, .returned), (.commit, .exception)])
  | .closing _ ending => Served tx.autocommit tx.ops ending
  | .finished ending =>
    (ending ≠ .returned ∧ (tx.ops = [] ∨ tx.ops = [(.connect, ending)])) ∨
      ∃ served closed, closed ≠ .interrupt ∧ tx.ops = served ++ [(.close, closed)] ∧
        Served tx.autocommit served ending
  | .lost _ =>
    ∃ served ending, tx.ops = served ++ [(.close, .interrupt)] ∧ Served tx.autocommit served ending

def Tx.waitsFor (tx : Tx) : Option Nat :=
  match tx.phase with
  | .waiting k => some k
  | _ => none

namespace Process

variable (σ : Process) (i : Nat) (ending : Ending)

inductive Advanced (tx : Tx) : Process → Prop where
  | still : Advanced tx σ
  | enters (new : Tx) (unheld : tx.held = none) (silent : new.held = none)
      (waits : ∀ k, new.waitsFor = some k → k = σ.slots.1) (follows : tx.Follows → new.Follows) :
      Advanced tx (σ.slots.2.put i new)
  | moves (new : Tx) (same : new.held = tx.held) (idle : new.waitsFor = none)
      (follows : tx.Follows → new.Follows) : Advanced tx (σ.put i new)
  | takes (new : Tx) (k : Nat) (s taken : Semaphore) (there : σ.semaphores[k]? = some s)
      (done : s.acquire = some taken) (unheld : tx.held = none) (held : new.held = some k)
      (idle : new.waitsFor = none) (follows : tx.Follows → new.Follows) :
      Advanced tx ({ σ with semaphores := σ.semaphores.set k taken }.put i new)
  | gives (new : Tx) (k : Nat) (held : tx.held = some k) (silent : new.held = none)
      (idle : new.waitsFor = none) (follows : tx.Follows → new.Follows) :
      Advanced tx ((σ.giveBack k).put i new)

theorem advance_absent (absent : σ.txs[i]? = none) : σ.advance i ending = σ := by
  rw [advance, absent]

theorem advance_cases (tx : Tx) (present : σ.txs[i]? = some tx) :
    Advanced σ i tx (σ.advance i ending) := by
  obtain ⟨autocommit, phase, ops⟩ := tx
  rw [advance, present]
  cases phase with
  | called =>
    cases ending with
    | returned => exact .enters _ rfl rfl (fun k same => (Option.some.inj same).symm) id
    | exception | interrupt =>
      refine .enters _ rfl rfl (fun k same => by contradiction) fun empty => ?_
      exact .inl ⟨by decide, .inl empty⟩
  | waiting k =>
    dsimp only
    split
    · next taken done =>
      obtain ⟨s, there, done⟩ := Option.bind_eq_some_iff.mp done
      exact .takes _ k s taken there done rfl rfl rfl id
    · cases ending with
      | returned => exact .still
      | exception | interrupt =>
        refine .moves _ rfl rfl fun empty => ?_
        exact .inl ⟨by decide, .inl empty⟩
  | connecting k =>
    cases ending with
    | returned =>
      refine .moves _ rfl rfl fun empty => ?_
      exact congrArg (· ++ [_]) empty
    | exception | interrupt =>
      refine .gives _ k rfl rfl rfl fun empty => ?_
      exact .inl ⟨by decide, .inr (congrArg (· ++ [_]) empty)⟩
  | inBody k =>
    cases ending with
    | returned =>
      cases autocommit with
      | true => exact .moves _ rfl rfl fun before => congrArg (· ++ [_]) before
      | false => exact .moves _ rfl rfl fun before => ⟨rfl, congrArg (· ++ [_]) before⟩
    | exception =>
      cases autocommit with
      | true => exact .moves _ rfl rfl fun before => .inl ⟨rfl, congrArg (· ++ [_]) before⟩
      | false => exact .moves _ rfl rfl fun before => ⟨rfl, .inl (congrArg (· ++ [_]) before)⟩
    | interrupt => exact .moves _ rfl rfl fun before => .inl (congrArg (· ++ [_]) before)
  | committing k =>
    cases ending with
    | returned =>
      refine .moves _ rfl rfl ?_
      rintro ⟨rfl, before⟩
      exact congrArg (· ++ [_]) before
    | exception =>
      refine .moves _ rfl rfl ?_
      rintro ⟨rfl, before⟩
      exact ⟨rfl, .inr (congrArg (· ++ [_]) before)⟩
    | interrupt =>
      refine .moves _ rfl rfl ?_
      rintro ⟨rfl, before⟩
      exact .inr ⟨rfl, .inl (congrArg (· ++ [_]) before)⟩
  | rollingBack k =>
    cases ending with
    | interrupt =>
      refine .moves _ rfl rfl ?_
      rintro ⟨rfl, before | before⟩
      · exact .inr ⟨rfl, .inr (.inl (congrArg (· ++ [_]) before))⟩
      · exact .inr ⟨rfl, .inr (.inr (congrArg (· ++ [_]) before))⟩
    | returned | exception =>
      refine .moves _ rfl rfl ?_
      rintro ⟨rfl, before | before⟩
      · exact .inr ⟨rfl, _, by decide, .inl (congrArg (· ++ [_]) before)⟩
      · exact .inr ⟨rfl, _, by decide, .inr (congrArg (· ++ [_]) before)⟩
  | closing k raised =>
    cases ending with
    | interrupt => exact .moves _ rfl rfl fun served => ⟨ops, raised, rfl, served⟩
    | returned | exception =>
      refine .gives _ k rfl rfl rfl fun served => ?_
      exact .inr ⟨ops, _, by decide, rfl, served⟩
  | finished _ => exact .still
  | lost _ => exact .still

end Process

structure Sound (σ : Process) : Prop where
  balanced : Balanced Tx.held σ.semaphores σ.txs
  latest : ∀ k, σ.connectionSlots = some k →
    ∃ s, σ.semaphores[k]? = some s ∧ s.size = σ.connectionSlotsSize
  waits : ∀ tx ∈ σ.txs, ∀ k, tx.waitsFor = some k → k < σ.semaphores.length
  follows : ∀ tx ∈ σ.txs, tx.Follows
  unbroken : σ.overReleased = false

theorem start_sound (setting : CapSetting) : Sound (start setting) where
  balanced := balanced_nil Tx.held
  latest _ none_yet := by contradiction
  waits _ member := absurd member List.not_mem_nil
  follows _ member := absurd member List.not_mem_nil
  unbroken := rfl

namespace Sound

variable {σ : Process} (sound : Sound σ)

include sound

theorem slots_sound : Sound σ.slots.2 ∧ σ.slots.2.txs = σ.txs ∧
    ∃ s, σ.slots.2.semaphores[σ.slots.1]? = some s ∧ s.size = maxConnections σ.setting := by
  have rebuilt : Sound (Process.slots.rebuild σ (maxConnections σ.setting)) ∧
      (Process.slots.rebuild σ (maxConnections σ.setting)).semaphores[σ.semaphores.length]? =
        some (Semaphore.fresh (maxConnections σ.setting)) := by
    have there : (σ.semaphores ++ [Semaphore.fresh (maxConnections σ.setting)])[σ.semaphores.length]? =
        some (Semaphore.fresh (maxConnections σ.setting)) := List.getElem?_concat_length
    refine ⟨⟨balanced_fresh sound.balanced _, fun k same => ?_, fun tx member k waiting => ?_,
      sound.follows, sound.unbroken⟩, there⟩
    · rw [← Option.some.inj same]
      exact ⟨_, there, rfl⟩
    · have inside := sound.waits tx member k waiting
      exact inside.trans_le (List.prefix_append _ _).length_le
  rw [Process.slots]
  split
  · next k same =>
    split
    · next current =>
      obtain ⟨s, there, size⟩ := sound.latest k same
      exact ⟨sound, rfl, s, there, size.trans current⟩
    · exact ⟨rebuilt.1, rfl, _, rebuilt.2, rfl⟩
  · exact ⟨rebuilt.1, rfl, _, rebuilt.2, rfl⟩

variable {i : Nat} {tx : Tx} (present : σ.txs[i]? = some tx)

include present

theorem put_sound (new : Tx) (same : new.held = tx.held)
    (waits : ∀ k, new.waitsFor = some k → k < σ.semaphores.length)
    (follows : tx.Follows → new.Follows) : Sound (σ.put i new) where
  balanced := balanced_set sound.balanced present new same
  latest := sound.latest
  waits other member k waiting := by
    rcases List.mem_or_eq_of_mem_set member with member | rfl
    · exact sound.waits other member k waiting
    · exact waits k waiting
  follows other member := by
    rcases List.mem_or_eq_of_mem_set member with member | rfl
    · exact sound.follows other member
    · exact follows (sound.follows tx (List.mem_of_getElem? present))
  unbroken := sound.unbroken

theorem exchange_sound (new : Tx) (k : Nat) (s changed : Semaphore)
    (there : σ.semaphores[k]? = some s) (size : changed.size = s.size)
    (balanced : Balanced Tx.held (σ.semaphores.set k changed) (σ.txs.set i new))
    (idle : new.waitsFor = none) (follows : tx.Follows → new.Follows) :
    Sound ({ σ with semaphores := σ.semaphores.set k changed }.put i new) where
  balanced := balanced
  latest j same := by
    obtain ⟨t, found, total⟩ := sound.latest j same
    dsimp only [Process.put]
    rw [List.getElem?_set]
    split
    · next here =>
      subst here
      rw [there] at found
      rw [if_pos (List.getElem?_eq_some_iff.mp there).1]
      exact ⟨changed, rfl, by rw [size, Option.some.inj found, total]⟩
    · exact ⟨t, found, total⟩
  waits other member j waiting := by
    dsimp only [Process.put]
    rw [List.length_set]
    rcases List.mem_or_eq_of_mem_set member with member | rfl
    · exact sound.waits other member j waiting
    · rw [idle] at waiting
      contradiction
  follows other member := by
    rcases List.mem_or_eq_of_mem_set member with member | rfl
    · exact sound.follows other member
    · exact follows (sound.follows tx (List.mem_of_getElem? present))
  unbroken := sound.unbroken

theorem advance_sound (ending : Ending) : Sound (σ.advance i ending) := by
  have reached := σ.advance_cases i ending tx present
  generalize σ.advance i ending = next at reached ⊢
  cases reached with
  | still => exact sound
  | enters new unheld silent waits follows =>
    obtain ⟨entered, same, s, there, -⟩ := sound.slots_sound
    refine entered.put_sound (by rwa [same]) new (silent.trans unheld.symm) (fun k waiting => ?_) follows
    rw [waits k waiting]
    exact (List.getElem?_eq_some_iff.mp there).1
  | moves new same idle follows =>
    refine sound.put_sound present new same (fun k waiting => ?_) follows
    rw [idle] at waiting
    contradiction
  | takes new k s taken there done unheld held idle follows =>
    have balanced := balanced_acquire sound.balanced present new k s taken unheld there done held
    exact sound.exchange_sound present new k s taken there (s.acquire_eq_some taken done).1 balanced
      idle follows
  | gives new k held silent idle follows =>
    obtain ⟨s, given, there, done, size, balanced⟩ :=
      balanced_release sound.balanced present new k held silent
    rw [Process.giveBack, there, Option.bind_some, done]
    exact sound.exchange_sound present new k s given there size balanced idle follows

end Sound

theorem step_sound (σ : Process) (event : Event) (sound : Sound σ) : Sound (step σ event) := by
  cases event with
  | configure setting =>
    exact ⟨sound.balanced, sound.latest, sound.waits, sound.follows, sound.unbroken⟩
  | reset =>
    refine ⟨sound.balanced, fun _ none_left => ?_, sound.waits, sound.follows, sound.unbroken⟩
    contradiction
  | call autocommit =>
    refine ⟨balanced_concat sound.balanced _ rfl, sound.latest, fun tx member => ?_, fun tx member => ?_,
      sound.unbroken⟩
    all_goals rcases List.mem_append.mp member with member | single
    · exact sound.waits tx member
    · rw [List.mem_singleton.mp single]
      exact fun _ waiting => by contradiction
    · exact sound.follows tx member
    · rw [List.mem_singleton.mp single]
      rfl
  | advance i ending =>
    rcases present : σ.txs[i]? with _ | tx
    · rw [step, σ.advance_absent i ending present]
      exact sound
    · exact sound.advance_sound present ending

theorem run_sound (setting : CapSetting) (events : List Event) :
    Sound (Runs.run step (start setting) events) :=
  Runs.run_always step Sound step_sound events _ (start_sound setting)

def Event.steady (cap : Nat) : Event → Bool
  | .configure setting => maxConnections setting == cap
  | .reset => false
  | _ => true

structure Capped (cap : Nat) (σ : Process) : Prop where
  sound : Sound σ
  asked : maxConnections σ.setting = cap
  only : (σ.semaphores = [] ∧ σ.connectionSlots = none) ∨
    σ.semaphores.map Semaphore.size = [cap] ∧ σ.connectionSlots = some 0

namespace Capped

variable {cap : Nat} {σ : Process} (capped : Capped cap σ)

include capped

theorem slots_asked : maxConnections σ.slots.2.setting = cap := by
  rw [Process.slots]
  split
  · split <;> exact capped.asked
  · exact capped.asked

theorem slots_only : σ.slots.2.semaphores.map Semaphore.size = [cap] ∧
    σ.slots.2.connectionSlots = some 0 := by
  rcases capped.only with ⟨empty, unmade⟩ | ⟨single, made⟩
  · rw [Process.slots, unmade]
    dsimp only [Process.slots.rebuild]
    rw [empty, capped.asked]
    exact ⟨rfl, rfl⟩
  · have current : σ.connectionSlotsSize = maxConnections σ.setting := by
      obtain ⟨s, there, size⟩ := capped.sound.latest 0 made
      have member := List.mem_map_of_mem (f := Semaphore.size) (List.mem_of_getElem? there)
      rw [single, List.mem_singleton] at member
      rw [← size, member, capped.asked]
    rw [Process.slots, made]
    dsimp only
    rw [if_pos current]
    exact ⟨single, made⟩

theorem changed_only (k : Nat) (s changed : Semaphore) (there : σ.semaphores[k]? = some s)
    (size : changed.size = s.size) :
    (σ.semaphores.set k changed).map Semaphore.size = [cap] ∧ σ.connectionSlots = some 0 := by
  have same : (σ.semaphores.set k changed).map Semaphore.size = σ.semaphores.map Semaphore.size := by
    obtain ⟨inside, here⟩ := List.getElem?_eq_some_iff.mp there
    have room : k < (σ.semaphores.map Semaphore.size).length := by rwa [List.length_map]
    have mapped : (σ.semaphores.map Semaphore.size)[k] = s.size := by
      rw [List.getElem_map, here]
    rw [List.map_set, size, ← mapped, List.set_getElem_self]
  rcases capped.only with ⟨empty, -⟩ | single
  · rw [empty, List.getElem?_nil] at there
    contradiction
  · rwa [same]

theorem advance_capped (i : Nat) (ending : Ending) : Capped cap (σ.advance i ending) := by
  have sound : Sound (σ.advance i ending) := step_sound σ (.advance i ending) capped.sound
  rcases present : σ.txs[i]? with _ | tx
  · rw [σ.advance_absent i ending present]
    exact capped
  have reached := σ.advance_cases i ending tx present
  generalize σ.advance i ending = next at reached sound ⊢
  cases reached with
  | still => exact capped
  | enters _ _ _ _ _ => exact ⟨sound, capped.slots_asked, .inr capped.slots_only⟩
  | moves _ _ _ _ => exact ⟨sound, capped.asked, capped.only⟩
  | takes new k s taken there done _ _ _ _ =>
    have only := capped.changed_only k s taken there (s.acquire_eq_some taken done).1
    exact ⟨sound, capped.asked, .inr only⟩
  | gives new k held silent _ _ =>
    obtain ⟨s, given, there, done, size, -⟩ :=
      balanced_release capped.sound.balanced present new k held silent
    rw [Process.giveBack, there, Option.bind_some, done]
    exact ⟨by rwa [Process.giveBack, there, Option.bind_some, done] at sound, capped.asked,
      .inr (capped.changed_only k s given there size)⟩

end Capped

theorem step_capped (cap : Nat) (σ : Process) (event : Event) (steady : event.steady cap = true)
    (capped : Capped cap σ) : Capped cap (step σ event) := by
  have sound := step_sound σ event capped.sound
  cases event with
  | configure setting => exact ⟨sound, of_decide_eq_true steady, capped.only⟩
  | reset => contradiction
  | call autocommit => exact ⟨sound, capped.asked, capped.only⟩
  | advance i ending => exact capped.advance_capped i ending

/-- No more connections are open, or being opened, than the cap. -/
theorem connections_capped (setting : CapSetting) (events : List Event)
    (steady : ∀ event ∈ events, event.steady (maxConnections setting) = true) :
    (Runs.run step (start setting) events).txs.countP (fun tx => tx.held.isSome) ≤
      maxConnections setting := by
  have capped := Runs.run_of_events step (Capped (maxConnections setting))
    (fun event => event.steady (maxConnections setting) = true) (step_capped _) events steady
    (start setting) ⟨start_sound setting, rfl, .inl ⟨rfl, rfl⟩⟩
  have counted := taken_le capped.sound.balanced
  rcases capped.only with ⟨empty, -⟩ | ⟨single, -⟩
  · rw [empty] at counted
    exact counted.trans (Nat.zero_le _)
  · rwa [single, List.sum_singleton] at counted

/-- Two calls under a cap of one: the second waits. -/
theorem connections_capped_at_one :
    let events : List Event := [.call true, .call true, .advance 0 .returned, .advance 0 .returned,
      .advance 1 .returned, .advance 1 .returned, .advance 0 .returned]
    (Runs.run step (start (.value 0)) events).txs.countP (fun tx => tx.held.isSome) ≤ 1 ∧
      (Runs.run step (start (.value 0)) events).txs =
        [⟨true, .inBody 0, [(.connect, .returned)]⟩, ⟨true, .waiting 0, []⟩] :=
  ⟨connections_capped (.value 0) _ (by decide), by decide⟩

theorem sound_free (σ : Process) (sound : Sound σ) (ended : ∀ tx ∈ σ.txs, tx.held = none) :
    ∀ s ∈ σ.semaphores, s.free = s.size := by
  intro s member
  obtain ⟨k, there⟩ := List.mem_iff_getElem?.mp member
  have unheld : holders Tx.held σ.txs k = 0 := by
    refine List.countP_eq_zero.mpr fun tx present held => ?_
    rw [ended tx present] at held
    contradiction
  rw [← sound.balanced.whole k s there, unheld, Nat.add_zero]

theorem cap_pos (setting : CapSetting) : 0 < maxConnections setting := by
  cases setting with
  | unset | invalid => exact Nat.succ_pos 9
  | value n =>
    rw [maxConnections]
    omega

theorem enter_eq (σ : Process) (i : Nat) (autocommit : Bool)
    (present : σ.txs[i]? = some ⟨autocommit, .called, []⟩) :
    σ.advance i .returned = σ.slots.2.put i ⟨autocommit, .waiting σ.slots.1, []⟩ := by
  rw [Process.advance, present]

theorem take_eq (σ : Process) (i k : Nat) (autocommit : Bool) (s taken : Semaphore)
    (present : σ.txs[i]? = some ⟨autocommit, .waiting k, []⟩) (there : σ.semaphores[k]? = some s)
    (done : s.acquire = some taken) : σ.advance i .returned =
      { σ with semaphores := σ.semaphores.set k taken }.put i ⟨autocommit, .connecting k, []⟩ := by
  rw [Process.advance, present]
  dsimp only
  rw [there, Option.bind_some, done]

theorem admitted (σ : Process) (sound : Sound σ) (ended : ∀ tx ∈ σ.txs, tx.held = none)
    (autocommit : Bool) : ∃ k, (Runs.run step σ [.call autocommit, .advance σ.txs.length .returned,
      .advance σ.txs.length .returned]).txs = σ.txs ++ [⟨autocommit, .connecting k, []⟩] := by
  have called := step_sound σ (.call autocommit) sound
  have last : (step σ (.call autocommit)).txs[σ.txs.length]? = some ⟨autocommit, .called, []⟩ :=
    List.getElem?_concat_length
  obtain ⟨entered, same, s, there, size⟩ := called.slots_sound
  have over_called : ∀ tx ∈ (step σ (.call autocommit)).slots.2.txs, tx.held = none := by
    intro tx member
    rw [same] at member
    rcases List.mem_append.mp member with member | single
    · exact ended tx member
    · rw [List.mem_singleton.mp single]
      rfl
  have free := sound_free _ entered over_called s (List.mem_of_getElem? there)
  have positive := cap_pos (step σ (.call autocommit)).setting
  have taken : ∃ taken, s.acquire = some taken := by
    rw [Semaphore.acquire, if_pos (by omega)]
    exact ⟨_, rfl⟩
  obtain ⟨taken, done⟩ := taken
  refine ⟨(step σ (.call autocommit)).slots.1, ?_⟩
  rw [Runs.run_cons, Runs.run_cons, Runs.run_cons, Runs.run_nil]
  have waiting := enter_eq _ _ autocommit last
  have inside : σ.txs.length < (step σ (.call autocommit)).slots.2.txs.length := by
    rw [same]
    exact (List.getElem?_eq_some_iff.mp last).1
  have connecting := take_eq ((step σ (.call autocommit)).slots.2.put _ _) _ _ autocommit s taken
    (List.getElem?_set_self inside) there done
  change (((step σ (.call autocommit)).advance _ .returned).advance _ .returned).txs = _
  rw [waiting, connecting]
  dsimp only [Process.put]
  rw [same, List.set_set]
  dsimp only [step]
  rw [List.set_append_right _ _ (Nat.le_refl _), Nat.sub_self]
  rfl

/-- No slot is released twice; once no call holds one every slot is there to be taken, and the next call
gets one. -/
theorem slots_come_back (setting : CapSetting) (events : List Event) :
    let σ := Runs.run step (start setting) events
    σ.overReleased = false ∧ ((∀ tx ∈ σ.txs, tx.held = none) →
      (∀ s ∈ σ.semaphores, s.free = s.size) ∧ ∀ autocommit,
        ∃ k, (Runs.run step σ [.call autocommit, .advance σ.txs.length .returned,
          .advance σ.txs.length .returned]).txs = σ.txs ++ [⟨autocommit, .connecting k, []⟩]) := by
  have sound := run_sound setting events
  intro σ
  constructor
  · exact sound.unbroken
  · intro ended
    exact ⟨sound_free _ sound ended, fun autocommit => admitted _ sound ended autocommit⟩

/-- The slots that two calls have given back, one of which could not open its connection. -/
theorem slots_come_back_twice :
    let σ := Runs.run step (start .unset) [.call false, .call false, .advance 0 .returned,
      .advance 1 .returned, .advance 0 .returned, .advance 1 .returned, .advance 0 .exception,
      .advance 1 .returned, .advance 1 .exception, .advance 1 .exception, .advance 1 .exception]
    σ.txs = [⟨false, .finished .exception, [(.connect, .exception)]⟩,
        ⟨false, .finished .exception, [(.connect, .returned), (.body, .exception),
          (.rollback, .exception), (.close, .exception)]⟩] ∧
      ∃ k, (Runs.run step σ [.call true, .advance σ.txs.length .returned,
        .advance σ.txs.length .returned]).txs = σ.txs ++ [⟨true, .connecting k, []⟩] :=
  ⟨by decide, ((slots_come_back .unset _).2 (by decide)).2 true⟩

/-! What a transaction has done when it is over. -/

structure Outcome (tx : Tx) (ending : Ending) : Prop where
  commits : (.commit, .returned) ∈ tx.ops ↔ tx.autocommit = false ∧ ending = .returned
  closes : (.connect, .returned) ∈ tx.ops → ∃ served closed,
    tx.ops = served ++ [(.close, closed)] ∧ ∀ op ∈ served, op.1 ≠ .close
  rollsBack : (.connect, .returned) ∈ tx.ops → tx.autocommit = false → ending = .exception →
    ∃ undone, (.rollback, undone) ∈ tx.ops
  undoes : ∀ undone, (.rollback, undone) ∈ tx.ops → (.commit, .returned) ∉ tx.ops

theorem served_commits (autocommit : Bool) (ops : List (Op × Ending)) (ending : Ending)
    (served : Served autocommit ops ending) :
    (.commit, .returned) ∈ ops ↔ autocommit = false ∧ ending = .returned := by
  cases ending with
  | returned => cases autocommit <;> simp [Served] at served <;> simp [served]
  | exception =>
    rcases served with ⟨rfl, rfl⟩ | ⟨rfl, undone, -, rfl | rfl⟩ <;> simp
  | interrupt =>
    rcases served with rfl | ⟨rfl, rfl | rfl | rfl⟩ <;> simp

theorem served_open (autocommit : Bool) (ops : List (Op × Ending)) (ending : Ending)
    (served : Served autocommit ops ending) : ∀ op ∈ ops, op.1 ≠ .close := by
  cases ending with
  | returned => cases autocommit <;> simp [Served] at served <;> simp [served]
  | exception =>
    rcases served with ⟨rfl, rfl⟩ | ⟨rfl, undone, -, rfl | rfl⟩ <;> simp
  | interrupt =>
    rcases served with rfl | ⟨rfl, rfl | rfl | rfl⟩ <;> simp

theorem served_rolls_back (ops : List (Op × Ending)) (served : Served false ops .exception) :
    ∃ undone, (.rollback, undone) ∈ ops := by
  rcases served with ⟨_, _⟩ | ⟨-, undone, -, rfl | rfl⟩
  · contradiction
  all_goals exact ⟨undone, by simp⟩

theorem served_undoes (autocommit : Bool) (ops : List (Op × Ending)) (ending undone : Ending)
    (served : Served autocommit ops ending) (tried : (.rollback, undone) ∈ ops) :
    ending ≠ .returned := by
  rintro rfl
  cases autocommit <;> simp [Served] at served <;> simp [served] at tried

/-- A transaction commits exactly when it returns, and closes once what it has opened. -/
theorem transaction_outcome (setting : CapSetting) (events : List Event) (tx : Tx) (ending : Ending)
    (member : tx ∈ (Runs.run step (start setting) events).txs)
    (ended : tx.phase = .finished ending) : Outcome tx ending := by
  have follows := (run_sound setting events).follows tx member
  rw [Tx.Follows, ended] at follows
  rcases follows with ⟨failed, none_done | only⟩ | ⟨served, closed, -, split, path⟩
  · constructor <;> simp [none_done, failed]
  · have unopened : (.connect, .returned) ∉ tx.ops := by simp [only, failed.symm]
    refine ⟨by simp [only, failed], fun opened => absurd opened unopened,
      fun opened => absurd opened unopened, by simp [only]⟩
  · have commits := served_commits _ _ _ path
    constructor
    · simpa [split] using commits
    · exact fun _ => ⟨served, closed, split, served_open _ _ _ path⟩
    · intro _ manual raised
      rw [manual, raised] at path
      obtain ⟨undone, tried⟩ := served_rolls_back served path
      exact ⟨undone, by simp [split, tried]⟩
    · intro undone tried
      have tried : (Op.rollback, undone) ∈ served := by simpa [split] using tried
      have raised := served_undoes _ _ _ _ path tried
      simpa [split, raised] using commits

/-- A commit that fails is rolled back, and the failure of the rollback is not what is raised. -/
theorem transaction_outcome_failed_commit :
    let tx : Tx := ⟨false, .finished .exception, [(.connect, .returned), (.body, .returned),
      (.commit, .exception), (.rollback, .exception), (.close, .returned)]⟩
    Outcome tx .exception :=
  transaction_outcome .invalid [.call false, .advance 0 .returned, .advance 0 .returned,
    .advance 0 .returned, .advance 0 .returned, .advance 0 .exception, .advance 0 .exception,
    .advance 0 .returned] _ _ (by decide) rfl

end GenesisAgents.StoreConnections
