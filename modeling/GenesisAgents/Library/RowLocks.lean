import Mathlib.Logic.Function.Basic

/-! Rows under READ COMMITTED: a row has its committed version and, while a transaction holds its
lock, the version that transaction has written. Readers see the committed version; a writer waits
for the lock and then works on the latest version. -/

namespace RowLocks

structure Cell (Tx V : Type) where
  committed : V
  pending : Option (Tx × V)

namespace Cell

variable {Tx V : Type}

def latest (c : Cell Tx V) : V :=
  match c.pending with
  | none => c.committed
  | some (_, v) => v

def write (c : Cell Tx V) (tx : Tx) (f : V → V) : Cell Tx V :=
  { c with pending := some (tx, f c.latest) }

@[simp] theorem committed_write (c : Cell Tx V) (tx : Tx) (f : V → V) :
    (c.write tx f).committed = c.committed := rfl

def Both (P : V → V → Prop) (c : Cell Tx V) : Prop :=
  ∀ tx v, c.pending = some (tx, v) → P c.committed v

/-- A write keeps `Both` when it takes the latest version to a good one. -/
theorem both_write (P : V → V → Prop) (trans : ∀ a b d, P a b → P b d → P a d)
    (c : Cell Tx V) (tx : Tx) (f : V → V) (holds : c.Both P)
    (good : P c.latest (f c.latest)) : (c.write tx f).Both P := by
  rintro owner v written
  obtain ⟨-, rfl⟩ := Prod.mk.inj (Option.some.inj written)
  rcases pending : c.pending with _ | ⟨holder, w⟩
  · simpa [latest, pending] using good
  · have both := holds holder w pending
    have last : c.latest = w := by simp [latest, pending]
    rw [last] at good ⊢
    exact trans _ _ _ both good

variable [DecidableEq Tx]

def free (c : Cell Tx V) (tx : Tx) : Bool :=
  match c.pending with
  | none => true
  | some (owner, _) => owner = tx

def commit (c : Cell Tx V) (tx : Tx) : Cell Tx V :=
  match c.pending with
  | none => c
  | some (owner, v) => if owner = tx then ⟨v, none⟩ else c

def rollback (c : Cell Tx V) (tx : Tx) : Cell Tx V :=
  match c.pending with
  | none => c
  | some (owner, _) => if owner = tx then ⟨c.committed, none⟩ else c

@[simp] theorem committed_rollback (c : Cell Tx V) (tx : Tx) :
    (c.rollback tx).committed = c.committed := by
  rw [rollback]
  split
  · rfl
  · split <;> rfl

theorem both_commit (P : V → V → Prop) (c : Cell Tx V) (tx : Tx) (holds : c.Both P) :
    (c.commit tx).Both P := by
  rw [commit]
  split
  · exact holds
  · split
    · rintro _ _ written
      contradiction
    · exact holds

theorem both_rollback (P : V → V → Prop) (c : Cell Tx V) (tx : Tx) (holds : c.Both P) :
    (c.rollback tx).Both P := by
  rw [rollback]
  split
  · exact holds
  · split
    · rintro _ _ written
      contradiction
    · exact holds

theorem free_of_held (c : Cell Tx V) (owner tx : Tx) (v : V) (held : c.pending = some (owner, v))
    (unlocked : c.free tx = true) : owner = tx := by
  simpa [free, held] using unlocked

theorem commit_other (c : Cell Tx V) (owner tx : Tx) (v : V) (held : c.pending = some (owner, v))
    (other : owner ≠ tx) : c.commit tx = c := by
  simp [commit, held, other]

theorem rollback_other (c : Cell Tx V) (owner tx : Tx) (v : V)
    (held : c.pending = some (owner, v)) (other : owner ≠ tx) : c.rollback tx = c := by
  simp [rollback, held, other]

theorem committed_commit (P : V → V → Prop) (refl : ∀ v, P v v) (c : Cell Tx V) (tx : Tx)
    (holds : c.Both P) : P c.committed (c.commit tx).committed := by
  rw [commit]
  split
  · exact refl _
  · rename_i owner v pending
    split
    · exact holds owner v pending
    · exact refl _

end Cell

abbrev Table (Id Tx V : Type) := Id → Option (Cell Tx V)

namespace Table

variable {Id Tx V : Type}

/-- A plain `SELECT` of one row. -/
def read (t : Table Id Tx V) (id : Id) : Option V := (t id).map Cell.committed

def ofRows (rows : Id → Option V) : Table Id Tx V := fun id => (rows id).map fun v => ⟨v, none⟩

def Both (P : V → V → Prop) (t : Table Id Tx V) : Prop := ∀ id c, t id = some c → c.Both P

theorem both_ofRows (P : V → V → Prop) (rows : Id → Option V) :
    (ofRows rows : Table Id Tx V).Both P := by
  intro id c present
  rw [ofRows] at present
  rcases found : rows id with _ | v
  · simp [found] at present
  · obtain rfl : (⟨v, none⟩ : Cell Tx V) = c := by simpa [found] using present
    rintro _ _ written
    contradiction

/-- Every committed row of the first table is, up to `P`, a committed row of the second. -/
def Climbs (P : V → V → Prop) (t t' : Table Id Tx V) : Prop :=
  ∀ id v, t.read id = some v → ∃ v', t'.read id = some v' ∧ P v v'

theorem climbs_refl (P : V → V → Prop) (refl : ∀ v, P v v) (t : Table Id Tx V) : t.Climbs P t :=
  fun _ v present => ⟨v, present, refl v⟩

theorem climbs_trans (P : V → V → Prop) (trans : ∀ a b d, P a b → P b d → P a d)
    (t t' t'' : Table Id Tx V) (first : t.Climbs P t') (second : t'.Climbs P t'') :
    t.Climbs P t'' := by
  intro id v present
  obtain ⟨v', present', step⟩ := first id v present
  obtain ⟨v'', present'', step'⟩ := second id v' present'
  exact ⟨v'', present'', trans _ _ _ step step'⟩

theorem climbs_of_read_eq (P : V → V → Prop) (refl : ∀ v, P v v) (t t' : Table Id Tx V)
    (same : t'.read = t.read) : t.Climbs P t' :=
  fun _ v present => ⟨v, by rw [same, present], refl v⟩

def Holds (t : Table Id Tx V) (tx : Tx) (id : Id) (v : V) : Prop :=
  ∃ c, t id = some c ∧ c.pending = some (tx, v)

section Ends

variable [DecidableEq Tx]

def commit (t : Table Id Tx V) (tx : Tx) : Table Id Tx V := fun id => (t id).map (·.commit tx)

def rollback (t : Table Id Tx V) (tx : Tx) : Table Id Tx V := fun id => (t id).map (·.rollback tx)

@[simp] theorem read_rollback (t : Table Id Tx V) (tx : Tx) : (t.rollback tx).read = t.read := by
  funext id
  unfold read rollback
  rcases t id with _ | c <;> simp

theorem both_commit (P : V → V → Prop) (t : Table Id Tx V) (tx : Tx) (holds : t.Both P) :
    (t.commit tx).Both P := by
  intro id c present
  rw [commit] at present
  rcases found : t id with _ | old
  · simp [found] at present
  · obtain rfl : old.commit tx = c := by simpa [found] using present
    exact old.both_commit P tx (holds id old found)

theorem both_rollback (P : V → V → Prop) (t : Table Id Tx V) (tx : Tx) (holds : t.Both P) :
    (t.rollback tx).Both P := by
  intro id c present
  rw [rollback] at present
  rcases found : t id with _ | old
  · simp [found] at present
  · obtain rfl : old.rollback tx = c := by simpa [found] using present
    exact old.both_rollback P tx (holds id old found)

theorem climbs_commit (P : V → V → Prop) (refl : ∀ v, P v v) (t : Table Id Tx V) (tx : Tx)
    (holds : t.Both P) : t.Climbs P (t.commit tx) := by
  intro id v present
  rw [read] at present
  rcases found : t id with _ | c
  · simp [found] at present
  · obtain rfl : c.committed = v := by simpa [found] using present
    refine ⟨(c.commit tx).committed, ?_, c.committed_commit P refl tx (holds id c found)⟩
    simp [read, commit, found]

@[simp] theorem isSome_commit (t : Table Id Tx V) (tx : Tx) (id : Id) :
    (t.commit tx id).isSome = (t id).isSome := Option.isSome_map

@[simp] theorem isSome_rollback (t : Table Id Tx V) (tx : Tx) (id : Id) :
    (t.rollback tx id).isSome = (t id).isSome := Option.isSome_map

/-- A row that one transaction holds is left alone when another one ends. -/
theorem commit_held (t : Table Id Tx V) (owner tx : Tx) (id : Id) (c : Cell Tx V) (v : V)
    (present : t id = some c) (pending : c.pending = some (owner, v)) (other : owner ≠ tx) :
    t.commit tx id = some c := by
  rw [commit, present, Option.map_some, c.commit_other owner tx v pending other]

theorem rollback_held (t : Table Id Tx V) (owner tx : Tx) (id : Id) (c : Cell Tx V) (v : V)
    (present : t id = some c) (pending : c.pending = some (owner, v)) (other : owner ≠ tx) :
    t.rollback tx id = some c := by
  rw [rollback, present, Option.map_some, c.rollback_other owner tx v pending other]

theorem holds_commit_other (t : Table Id Tx V) (owner tx : Tx) (id : Id) (v : V)
    (held : t.Holds owner id v) (other : owner ≠ tx) : (t.commit tx).Holds owner id v := by
  obtain ⟨c, present, pending⟩ := held
  exact ⟨c, t.commit_held owner tx id c v present pending other, pending⟩

theorem holds_rollback_other (t : Table Id Tx V) (owner tx : Tx) (id : Id) (v : V)
    (held : t.Holds owner id v) (other : owner ≠ tx) : (t.rollback tx).Holds owner id v := by
  obtain ⟨c, present, pending⟩ := held
  exact ⟨c, t.rollback_held owner tx id c v present pending other, pending⟩

theorem pending_commit (t : Table Id Tx V) (tx owner : Tx) (id : Id) (c : Cell Tx V) (v : V)
    (present : t.commit tx id = some c) (pending : c.pending = some (owner, v)) :
    owner ≠ tx ∧ t id = some c := by
  rw [commit, Option.map_eq_some_iff] at present
  obtain ⟨old, found, rfl⟩ := present
  rw [Cell.commit] at pending ⊢
  rcases held : old.pending with _ | ⟨holder, w⟩
  · simp [held] at pending
  · by_cases own : holder = tx
    · simp [held, own] at pending
    · simp only [held, own, if_false, Option.some.injEq, Prod.mk.injEq] at pending ⊢
      exact ⟨pending.1 ▸ own, found⟩

theorem pending_rollback (t : Table Id Tx V) (tx owner : Tx) (id : Id) (c : Cell Tx V) (v : V)
    (present : t.rollback tx id = some c) (pending : c.pending = some (owner, v)) :
    owner ≠ tx ∧ t id = some c := by
  rw [rollback, Option.map_eq_some_iff] at present
  obtain ⟨old, found, rfl⟩ := present
  rw [Cell.rollback] at pending ⊢
  rcases held : old.pending with _ | ⟨holder, w⟩
  · simp [held] at pending
  · by_cases own : holder = tx
    · simp [held, own] at pending
    · simp only [held, own, if_false, Option.some.injEq, Prod.mk.injEq] at pending ⊢
      exact ⟨pending.1 ▸ own, found⟩

/-- A commit publishes what its transaction holds. -/
theorem read_commit_of_holds (t : Table Id Tx V) (tx : Tx) (id : Id) (v : V)
    (held : t.Holds tx id v) : (t.commit tx).read id = some v := by
  obtain ⟨c, found, pending⟩ := held
  simp [read, commit, found, Cell.commit, pending]

end Ends

section Writes

variable [DecidableEq Id]

def write (t : Table Id Tx V) (tx : Tx) (id : Id) (f : V → V) : Table Id Tx V :=
  Function.update t id ((t id).map fun c => c.write tx f)

@[simp] theorem read_write (t : Table Id Tx V) (tx : Tx) (id : Id) (f : V → V) :
    (t.write tx id f).read = t.read := by
  funext other
  unfold read write
  by_cases same : other = id
  · subst same
    rcases t other with _ | c <;> simp
  · rw [Function.update_of_ne same]

theorem both_write (P : V → V → Prop) (trans : ∀ a b d, P a b → P b d → P a d)
    (t : Table Id Tx V) (tx : Tx) (id : Id) (f : V → V) (holds : t.Both P)
    (good : ∀ c, t id = some c → P c.latest (f c.latest)) : (t.write tx id f).Both P := by
  intro other c present
  rw [write] at present
  by_cases same : other = id
  · subst same
    rw [Function.update_self] at present
    rcases found : t other with _ | old
    · simp [found] at present
    · obtain rfl : old.write tx f = c := by simpa [found] using present
      exact old.both_write P trans tx f (holds other old found) (good old found)
  · rw [Function.update_of_ne same] at present
    exact holds other c present

@[simp] theorem isSome_write (t : Table Id Tx V) (tx : Tx) (id other : Id) (f : V → V) :
    (t.write tx id f other).isSome = (t other).isSome := by
  rw [write]
  by_cases same : other = id
  · subst same
    rw [Function.update_self, Option.isSome_map]
  · rw [Function.update_of_ne same]

theorem holds_write_self (t : Table Id Tx V) (tx : Tx) (id : Id) (f : V → V) (c : Cell Tx V)
    (found : t id = some c) : (t.write tx id f).Holds tx id (f c.latest) :=
  ⟨c.write tx f, by rw [write, Function.update_self, found, Option.map_some], rfl⟩

/-- A writer that found its row free leaves the rows that the others hold as they were. -/
theorem write_held [DecidableEq Tx] (t : Table Id Tx V) (owner tx : Tx) (id other : Id)
    (f : V → V) (c d : Cell Tx V) (v : V) (present : t other = some d)
    (pending : d.pending = some (owner, v)) (distinct : owner ≠ tx) (found : t id = some c)
    (unlocked : c.free tx = true) : t.write tx id f other = some d := by
  by_cases same : other = id
  · subst same
    obtain rfl := Option.some.inj (found.symm.trans present)
    exact absurd (c.free_of_held owner tx v pending unlocked) distinct
  · rw [write, Function.update_of_ne same, present]

theorem holds_write_other [DecidableEq Tx] (t : Table Id Tx V) (owner tx : Tx) (id other : Id)
    (f : V → V) (v : V) (c : Cell Tx V) (held : t.Holds owner other v) (distinct : owner ≠ tx)
    (found : t id = some c) (unlocked : c.free tx = true) :
    (t.write tx id f).Holds owner other v := by
  obtain ⟨d, present, pending⟩ := held
  exact ⟨d, t.write_held owner tx id other f c d v present pending distinct found unlocked, pending⟩

end Writes

end Table

end RowLocks
