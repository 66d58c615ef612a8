import GenesisAgents.Migrations
import GenesisAgents.Library.CallTable
import GenesisAgents.Library.Runs

/-! What the migration ledger guarantees. The primary key and the one transaction for each file need
nothing of the lock; the order of the files does, once two runs see different directories. -/

namespace GenesisAgents

open SortedPrefix MigrateState

inductive MigrateMove (sha256 : List UInt8 → String) (σ : MigrateState) (event : MigrateEvent)
    (k : Nat) : MigratePhase → MigratePhase → Prop where
  | acquire (unheld : σ.lock = none) : MigrateMove sha256 σ event k .waiting .locked
  | list (directory : Directory) :
      MigrateMove sha256 σ event k .locked (.listed (discover sha256 directory))
  | pass (view : RunView) (pending : List Migration) (own : event = .reconcile k)
      (passed : reconcile view.migrations view.applied = .ok pending) :
      MigrateMove sha256 σ event k (.loaded view) (.ready view pending)
  | refuse (view : RunView) (failure : MigrationFailure)
      (refused : reconcile view.migrations view.applied = .error failure) :
      MigrateMove sha256 σ event k (.loaded view) (.raised failure)
  | finish (view : RunView) : MigrateMove sha256 σ event k (.ready view []) (.ended view)
  | alive (view : RunView) (file : Migration) (rest : List Migration) (held : σ.lock = some k) :
      MigrateMove sha256 σ event k (.ready view (file :: rest)) (.asserted view file rest)
  | lost (view : RunView) (file : Migration) (rest : List Migration) :
      MigrateMove sha256 σ event k (.ready view (file :: rest)) (.raised .lostLock)
  | duplicate (view : RunView) (file : Migration) (rest : List Migration) :
      MigrateMove sha256 σ event k (.asserted view file rest) (.raised .uniqueViolation)
  | insert (view : RunView) (file : Migration) (rest : List Migration)
      (absent : file.filename ∉ σ.db.names)
      (alone : ∀ other ∈ σ.runs, insertedName other ≠ some file.filename) :
      MigrateMove sha256 σ event k (.asserted view file rest) (.inserted view file rest)
  | fail (old : MigratePhase) (running : isDone old = false) :
      MigrateMove sha256 σ event k old (.raised .broken)

/-- The holder of the lock after a move of run `k`. -/
def MigrateState.lockAfter (σ : MigrateState) (k : Nat) : MigratePhase → Option Nat
  | .locked => some k
  | phase => if isDone phase ∧ σ.lock = some k then none else σ.lock

inductive MigrateStep (sha256 : List UInt8 → String) (σ : MigrateState) (event : MigrateEvent) :
    MigrateState → Prop where
  | same : MigrateStep sha256 σ event σ
  | start : MigrateStep sha256 σ event { σ with runs := σ.runs ++ [.waiting] }
  | unlock (lost : event = .loseLock) : MigrateStep sha256 σ event { σ with lock := none }
  | move (k : Nat) (old new : MigratePhase) (own : event.run? = some k)
      (present : σ.runs[k]? = some old) (moves : MigrateMove sha256 σ event k old new) :
      MigrateStep sha256 σ event ⟨σ.db, σ.lockAfter k new, σ.runs.set k new⟩
  | load (k : Nat) (migrations : List Migration) (own : event.run? = some k)
      (present : σ.runs[k]? = some (.listed migrations)) :
      MigrateStep sha256 σ event
        ⟨⟨some σ.db.rows, σ.db.schema⟩, σ.lock, σ.runs.set k (.loaded ⟨migrations, σ.db.rows⟩)⟩
  | commit (k : Nat) (view : RunView) (file : Migration) (rest : List Migration)
      (own : event = .commit k) (present : σ.runs[k]? = some (.inserted view file rest)) :
      MigrateStep sha256 σ event
        ⟨⟨some (σ.db.rows ++ [⟨file.filename, file.checksum⟩]), σ.db.schema ++ [file]⟩, σ.lock,
          σ.runs.set k (.ready view rest)⟩

theorem close_step (sha256 : List UInt8 → String) (σ : MigrateState) (event : MigrateEvent) (k : Nat)
    (old new : MigratePhase) (own : event.run? = some k) (present : σ.runs[k]? = some old)
    (done : isDone new = true) (moves : MigrateMove sha256 σ event k old new) :
    MigrateStep sha256 σ event (σ.close k new) := by
  have lock : σ.lockAfter k new = if σ.lock = some k then none else σ.lock := by
    cases new <;> first | contradiction | simp [lockAfter, isDone]
  have moved := MigrateStep.move k old new own present moves
  rwa [lock] at moved

theorem setRun_step (sha256 : List UInt8 → String) (σ : MigrateState) (event : MigrateEvent)
    (k : Nat) (old new : MigratePhase) (own : event.run? = some k) (present : σ.runs[k]? = some old)
    (goes_on : σ.lockAfter k new = σ.lock) (moves : MigrateMove sha256 σ event k old new) :
    MigrateStep sha256 σ event (σ.setRun k new) := by
  have moved := MigrateStep.move k old new own present moves
  rwa [goes_on] at moved

theorem goOn_step (sha256 : List UInt8 → String) (σ : MigrateState) (event : MigrateEvent) (k : Nat)
    (phase : MigratePhase) (own : event.run? = some k) (present : σ.runs[k]? = some phase) :
    MigrateStep sha256 σ event (σ.goOn k phase) := by
  rcases phase with _ | _ | _ | _ | ⟨view, _ | ⟨file, rest⟩⟩ | _ | _ | _ | _
  case ready.nil =>
    exact close_step sha256 σ event k _ _ own present rfl (.finish view)
  case ready.cons =>
    rw [goOn]
    split
    · rename_i held
      exact setRun_step sha256 σ event k _ _ own present rfl (.alive view file rest held)
    · exact close_step sha256 σ event k _ _ own present rfl (.lost view file rest)
  all_goals exact .same

theorem insertFile_step (sha256 : List UInt8 → String) (σ : MigrateState) (event : MigrateEvent)
    (k : Nat) (phase : MigratePhase) (own : event.run? = some k)
    (present : σ.runs[k]? = some phase) :
    MigrateStep sha256 σ event (σ.insertFile k phase) := by
  rcases phase with _ | _ | _ | _ | _ | ⟨view, file, rest⟩ | _ | _ | _
  case asserted =>
    rw [insertFile]
    split
    · exact close_step sha256 σ event k _ _ own present rfl (.duplicate view file rest)
    · rename_i absent
      split
      · exact .same
      · rename_i unique
        refine setRun_step sha256 σ event k _ _ own present rfl (.insert view file rest absent ?_)
        intro other member holds
        exact unique (List.any_eq_true.mpr ⟨other, member, by rw [holds, beq_self_eq_true]⟩)
  all_goals exact .same

theorem stepRun_step (sha256 : List UInt8 → String) (σ : MigrateState) (event : MigrateEvent)
    (k : Nat) (phase : MigratePhase) (own : event.run? = some k)
    (present : σ.runs[k]? = some phase) :
    MigrateStep sha256 σ event (σ.stepRun sha256 k phase event) := by
  cases event with
  | migrate => contradiction
  | loseLock => contradiction
  | acquire j =>
    rcases phase with _ | _ | _ | _ | _ | _ | _ | _ | _
    case waiting =>
      rw [stepRun]
      split
      · rename_i unheld
        exact .move k _ _ own present (.acquire (Option.isNone_iff_eq_none.mp unheld))
      · exact .same
    all_goals exact .same
  | list j directory =>
    rcases phase with _ | _ | _ | _ | _ | _ | _ | _ | _
    case locked => exact setRun_step sha256 σ _ k _ _ own present rfl (.list directory)
    all_goals exact .same
  | load j =>
    rcases phase with _ | _ | migrations | _ | _ | _ | _ | _ | _
    case listed => exact .load k migrations own present
    all_goals exact .same
  | reconcile j =>
    obtain rfl : j = k := Option.some.inj own
    rcases phase with _ | _ | _ | view | _ | _ | _ | _ | _
    case loaded =>
      simp only [stepRun]
      split
      · rename_i pending passed
        exact setRun_step sha256 σ _ j _ _ own present rfl (.pass view pending rfl passed)
      · rename_i failure refused
        exact close_step sha256 σ _ j _ _ own present rfl (.refuse view failure refused)
    all_goals exact .same
  | next j => exact goOn_step sha256 σ _ k phase own present
  | insert j => exact insertFile_step sha256 σ _ k phase own present
  | commit j =>
    obtain rfl : j = k := Option.some.inj own
    rcases phase with _ | _ | _ | _ | _ | _ | ⟨view, file, rest⟩ | _ | _
    case inserted => exact .commit j view file rest rfl present
    all_goals exact .same
  | fail j =>
    rw [stepRun]
    split
    · exact .same
    · rename_i running
      exact close_step sha256 σ _ k _ _ own present rfl (.fail phase (by simpa using running))

theorem migrate_cases (sha256 : List UInt8 → String) (σ : MigrateState) (event : MigrateEvent) :
    MigrateStep sha256 σ event (σ.step sha256 event) := by
  unfold MigrateState.step
  split
  · exact .start
  · exact .unlock rfl
  · rcases own : event.run? with _ | k
    · exact .same
    · rcases present : σ.runs[k]? with _ | phase
      · simpa [present] using MigrateStep.same
      · simpa [present] using stepRun_step sha256 σ event k phase own present

/-! What `discover` lists and what `reconcile` lets pass. -/

def Listing (migrations : List Migration) : Prop :=
  (migrations.map Migration.filename).Pairwise (· < ·)

theorem discover_listing (sha256 : List UInt8 → String) (directory : Directory) :
    Listing (discover sha256 directory) := by
  let files := directory.files.filter fun file => isSql file.1
  have names : (discover sha256 directory).map Migration.filename =
      sortedNames (files.map Prod.fst) := by
    have sorted := List.map_insertionSort (fun file other => file.1 ≤ other.1) (· ≤ ·) Prod.fst files
      fun _ _ _ _ => Iff.rfl
    rw [discover, List.map_map, sortedNames, ← sorted]
    rfl
  have ordered : (sortedNames (files.map Prod.fst)).Pairwise (· ≤ ·) :=
    List.pairwise_insertionSort _ _
  have once : (sortedNames (files.map Prod.fst)).Nodup := by
    rw [sortedNames, (List.perm_insertionSort _ _).nodup_iff]
    exact directory.named.sublist (List.filter_sublist.map Prod.fst)
  rw [Listing, names]
  exact (ordered.and once).imp fun both => lt_of_le_of_ne both.1 both.2

theorem reconcile_pending (migrations : List Migration) (applied : List LedgerRow)
    (pending : List Migration) (passed : reconcile migrations applied = .ok pending) :
    pending = migrations.filter fun m => decide (m.filename ∉ applied.map LedgerRow.filename) := by
  simp only [reconcile] at passed
  split at passed
  · contradiction
  split at passed
  · contradiction
  split at passed
  · exact (Except.ok.inj passed).symm
  · split at passed
    · exact (Except.ok.inj passed).symm
    · contradiction

theorem reconcile_present (migrations : List Migration) (applied : List LedgerRow)
    (pending : List Migration) (passed : reconcile migrations applied = .ok pending) :
    ∀ name ∈ applied.map LedgerRow.filename, name ∈ migrations.map Migration.filename := by
  simp only [reconcile] at passed
  split at passed
  · contradiction
  split at passed
  · contradiction
  rename_i none_vanished
  intro name recorded
  by_contra vanished
  apply none_vanished
  rw [Bool.not_eq_true', List.isEmpty_eq_false_iff_exists_mem]
  exact ⟨name, List.mem_filter.mpr ⟨recorded, by simpa using vanished⟩⟩

theorem reconcile_late (migrations : List Migration) (applied : List LedgerRow)
    (pending : List Migration) (passed : reconcile migrations applied = .ok pending) :
    ∀ m ∈ pending, ∀ name ∈ applied.map LedgerRow.filename, name < m.filename := by
  intro m member name recorded
  have beyond := reconcile_pending migrations applied pending passed
  have absent : m.filename ∉ applied.map LedgerRow.filename := by
    rw [beyond] at member
    exact of_decide_eq_true (List.mem_filter.mp member).2
  have different : name ≠ m.filename := fun same => absent (same ▸ recorded)
  apply lt_of_le_of_ne _ different
  simp only [reconcile] at passed
  split at passed
  · contradiction
  split at passed
  · contradiction
  split at passed
  · rename_i nothing
    rw [List.max?_eq_none_iff.mp nothing] at recorded
    contradiction
  · rename_i highestApplied highest
    split at passed
    · rename_i none_late
      rw [← beyond, List.isEmpty_iff, List.map_eq_nil_iff, List.filter_eq_nil_iff] at none_late
      have above : highestApplied ≤ m.filename :=
        le_of_not_gt fun below => none_late m member (decide_eq_true below)
      exact ((List.max?_eq_some_iff.mp highest).2 name recorded).trans above
    · contradiction

/-- What a run has read is the first part of its listing, and what it goes on to apply is the rest. -/
theorem reconcile_leads (migrations : List Migration) (applied : List LedgerRow)
    (pending : List Migration) (listing : Listing migrations)
    (once : (applied.map LedgerRow.filename).Nodup)
    (passed : reconcile migrations applied = .ok pending) :
    PrefixOf (applied.map LedgerRow.filename) (migrations.map Migration.filename) ∧
      pending.map Migration.filename =
        (migrations.map Migration.filename).drop applied.length := by
  have beyond := reconcile_pending migrations applied pending passed
  have leads : PrefixOf (applied.map LedgerRow.filename) (migrations.map Migration.filename) := by
    apply prefixOf_of_below _ listing _ once (reconcile_present _ _ _ passed)
    intro name listed absent
    obtain ⟨m, member, rfl⟩ := List.mem_map.mp listed
    apply reconcile_late migrations applied pending passed m
    rw [beyond]
    exact List.mem_filter.mpr ⟨member, decide_eq_true absent⟩
  refine ⟨leads, ?_⟩
  have distinct : (migrations.map Migration.filename).Nodup := listing.imp ne_of_lt
  have rest := filter_prefix _ _ distinct leads
  rw [List.length_map] at rest
  rw [beyond, ← rest, List.filter_map]
  rfl

/-! The invariants of every run of the system. -/

def Remaining (db : Database) (view : RunView) (pending : List Migration) : Prop :=
  ∃ m ≤ db.rows.length, pending.map Migration.filename = view.names.drop m

def Follows (db : Database) : MigratePhase → Prop
  | .listed migrations => Listing migrations
  | .loaded view => Listing view.migrations ∧ view.applied <+: db.rows
  | .ready view pending => Remaining db view pending
  | .asserted view file rest => Remaining db view (file :: rest)
  | .inserted view file rest => Remaining db view (file :: rest)
  | _ => True

structure LedgerInv (σ : MigrateState) : Prop where
  once : σ.db.names.Nodup
  recorded : σ.db.rows = σ.db.schema.map fun file => ⟨file.filename, file.checksum⟩
  /-- No row is in the ledger before it is committed. -/
  absent : ∀ phase ∈ σ.runs, ∀ name, insertedName phase = some name → name ∉ σ.db.names
  apart : CallTable.Apart insertedName σ.runs
  follows : ∀ phase ∈ σ.runs, Follows σ.db phase

theorem empty_ledgerInv : LedgerInv empty where
  once := List.nodup_nil
  recorded := rfl
  absent := by simp [empty]
  apart := CallTable.apart_nil insertedName
  follows := by simp [empty]

theorem remaining_grown (db db' : Database) (view : RunView) (pending : List Migration)
    (grown : db.rows <+: db'.rows) (remaining : Remaining db view pending) :
    Remaining db' view pending := by
  obtain ⟨m, short, rest⟩ := remaining
  exact ⟨m, short.trans grown.length_le, rest⟩

theorem follows_grown (db db' : Database) (phase : MigratePhase) (grown : db.rows <+: db'.rows)
    (follows : Follows db phase) : Follows db' phase := by
  cases phase with
  | loaded view => exact ⟨follows.1, follows.2.trans grown⟩
  | ready view pending => exact remaining_grown db db' view pending grown follows
  | asserted view file rest => exact remaining_grown db db' view _ grown follows
  | inserted view file rest => exact remaining_grown db db' view _ grown follows
  | _ => exact follows

theorem move_follows (sha256 : List UInt8 → String) (σ : MigrateState) (event : MigrateEvent)
    (k : Nat) (old new : MigratePhase) (inv : LedgerInv σ) (follows : Follows σ.db old)
    (moves : MigrateMove sha256 σ event k old new) : Follows σ.db new := by
  cases moves with
  | list directory => exact discover_listing sha256 directory
  | pass view pending own passed =>
    obtain ⟨listing, grown⟩ := follows
    have once : (view.applied.map LedgerRow.filename).Nodup :=
      inv.once.sublist (grown.sublist.map LedgerRow.filename)
    exact ⟨view.applied.length, grown.length_le,
      (reconcile_leads view.migrations view.applied pending listing once passed).2⟩
  | alive view file rest held => exact follows
  | insert view file rest absent alone => exact follows
  | _ => trivial

theorem move_inserted (sha256 : List UInt8 → String) (σ : MigrateState) (event : MigrateEvent)
    (k : Nat) (old new : MigratePhase) (moves : MigrateMove sha256 σ event k old new) (name : String)
    (inserted : insertedName new = some name) :
    name ∉ σ.db.names ∧ ∀ other ∈ σ.runs, insertedName other ≠ some name := by
  cases moves with
  | insert view file rest absent alone =>
    obtain rfl := Option.some.inj inserted
    exact ⟨absent, alone⟩
  | _ => contradiction

theorem set_forall (runs : List MigratePhase) (k : Nat) (new : MigratePhase)
    (P Q : MigratePhase → Prop) (before : ∀ phase ∈ runs, P phase) (own : Q new)
    (others : ∀ phase, P phase → Q phase) : ∀ phase ∈ runs.set k new, Q phase := by
  intro phase member
  rcases List.mem_or_eq_of_mem_set member with there | rfl
  · exact others phase (before phase there)
  · exact own

theorem step_ledgerInv (sha256 : List UInt8 → String) (σ : MigrateState) (event : MigrateEvent)
    (inv : LedgerInv σ) : LedgerInv (σ.step sha256 event) := by
  have stepped := migrate_cases sha256 σ event
  generalize σ.step sha256 event = σ' at stepped
  cases stepped with
  | same => exact inv
  | unlock lost => exact ⟨inv.once, inv.recorded, inv.absent, inv.apart, inv.follows⟩
  | start =>
    refine ⟨inv.once, inv.recorded, ?_, CallTable.apart_concat _ _ _ inv.apart rfl, ?_⟩
    · exact List.forall_mem_append.mpr ⟨inv.absent, by simp [insertedName]⟩
    · exact List.forall_mem_append.mpr ⟨inv.follows, by simp [Follows]⟩
  | move k old new own present moves =>
    have fresh := move_inserted sha256 σ event k old new moves
    have member := List.mem_of_getElem? present
    refine ⟨inv.once, inv.recorded, ?_, ?_, ?_⟩
    · exact set_forall _ _ _ _ _ inv.absent (fun name held => (fresh name held).1) fun _ holds => holds
    · exact CallTable.apart_set _ _ _ _ _ inv.apart present fun name held => .inr (fresh name held).2
    · have next := move_follows sha256 σ event k old new inv (inv.follows old member) moves
      exact set_forall _ _ _ _ _ inv.follows next fun _ holds => holds
  | load k migrations own present =>
    have listing : Listing migrations := inv.follows _ (List.mem_of_getElem? present)
    refine ⟨inv.once, inv.recorded, ?_, ?_, ?_⟩
    · exact set_forall _ _ _ _ _ inv.absent (by simp [insertedName]) fun _ holds => holds
    · exact CallTable.apart_set _ _ _ _ _ inv.apart present fun _ => by simp [insertedName]
    · exact set_forall _ _ _ _ _ inv.follows ⟨listing, List.prefix_refl _⟩ fun _ holds => holds
  | commit k view file rest own present =>
    have member := List.mem_of_getElem? present
    have fresh : file.filename ∉ σ.db.names := inv.absent _ member _ rfl
    have names : (⟨some (σ.db.rows ++ [⟨file.filename, file.checksum⟩]),
        σ.db.schema ++ [file]⟩ : Database).names = σ.db.names ++ [file.filename] := List.map_append
    refine ⟨?_, ?_, ?_, ?_, ?_⟩
    · rw [names, List.nodup_append_comm]
      exact List.nodup_cons.mpr ⟨fresh, inv.once⟩
    · calc σ.db.rows ++ [⟨file.filename, file.checksum⟩]
        _ = σ.db.schema.map (fun file => ⟨file.filename, file.checksum⟩) ++
              [⟨file.filename, file.checksum⟩] := by rw [← inv.recorded]
        _ = (σ.db.schema ++ [file]).map (fun file => ⟨file.filename, file.checksum⟩) := by
          rw [List.map_append]
          rfl
    · intro phase moved name held
      obtain ⟨i, there⟩ := List.mem_iff_getElem?.mp moved
      rcases CallTable.getElem?_set_cases _ _ _ _ _ there with ⟨-, rfl⟩ | ⟨other, there⟩
      · contradiction
      · have different := inv.apart k i _ _ other present there file.filename rfl
        rw [names, List.mem_append, List.mem_singleton]
        rintro (early | rfl)
        · exact inv.absent phase (List.mem_of_getElem? there) name held early
        · exact different held
    · exact CallTable.apart_set _ _ _ _ _ inv.apart present fun _ => by simp [insertedName]
    · obtain ⟨m, short, left⟩ := inv.follows _ member
      refine set_forall _ _ _ _ _ inv.follows ?_ ?_
      · refine ⟨m + 1, ?_, ?_⟩
        · have longer (row : LedgerRow) : (σ.db.rows ++ [row]).length = σ.db.rows.length + 1 :=
            List.length_append
          exact (Nat.succ_le_succ short).trans_eq (longer ⟨file.filename, file.checksum⟩).symm
        · rw [← List.drop_drop, ← left]
          rfl
      · exact fun phase => follows_grown _ _ phase (List.prefix_append _ _)

/-- What a run goes by once `reconcile` has let it pass, to its last file. -/
def pastReconcile : MigratePhase → Option RunView
  | .ready view _ => some view
  | .asserted view _ _ => some view
  | .inserted view _ _ => some view
  | _ => none

/-- The ledger is a prefix of the listing of every run past `reconcile`. -/
def Ordered (σ : MigrateState) : Prop :=
  ∀ (k : Nat) (phase : MigratePhase) (view : RunView), σ.runs[k]? = some phase →
    pastReconcile phase = some view → PrefixOf σ.db.names view.names

def passes (view : RunView) : Bool :=
  match reconcile view.migrations view.applied with
  | .ok _ => true
  | .error _ => false

/-- The file is the next one of a run past `reconcile`. -/
def expectsFile (db : Database) (filename : String) (phase : MigratePhase) : Bool :=
  match pastReconcile phase with
  | some view => view.names[db.names.length]? == some filename
  | none => true

/-- The other runs past `reconcile` have the file as their next one. -/
def commitInOrder (σ : MigrateState) (k : Nat) : MigratePhase → Bool
  | .inserted _ file _ => (σ.runs.eraseIdx k).all (expectsFile σ.db file.filename)
  | _ => true

instance (taken list : List String) : Decidable (PrefixOf taken list) :=
  inferInstanceAs (Decidable (List.Perm _ _))

/-- What has been committed since the run read the ledger is next in its listing. -/
def passInOrder (db : Database) : MigratePhase → Bool
  | .loaded view => !passes view ||
      decide (PrefixOf (db.names.drop view.applied.length) (view.names.drop view.applied.length))
  | _ => true

def inOrder (σ : MigrateState) : MigrateEvent → Bool
  | .commit k => (σ.runs[k]?.map (commitInOrder σ k)).getD true
  | .reconcile k => (σ.runs[k]?.map (passInOrder σ.db)).getD true
  | _ => true

theorem ordered_set (σ : MigrateState) (k : Nat) (new : MigratePhase) (lock : Option Nat)
    (db : Database) (ordered : Ordered σ) (names : db.names = σ.db.names)
    (own : ∀ view, pastReconcile new = some view → PrefixOf σ.db.names view.names) :
    Ordered ⟨db, lock, σ.runs.set k new⟩ := by
  intro i phase view there past
  rw [names]
  rcases CallTable.getElem?_set_cases _ _ _ _ _ there with ⟨-, rfl⟩ | ⟨-, there⟩
  · exact own view past
  · exact ordered i phase view there past

theorem ordered_other (sha256 : List UInt8 → String) (σ : MigrateState) (event : MigrateEvent)
    (ordered : Ordered σ) (no_commit : ∀ k, event ≠ .commit k) (no_pass : ∀ k, event ≠ .reconcile k) :
    Ordered (σ.step sha256 event) := by
  have stepped := migrate_cases sha256 σ event
  generalize σ.step sha256 event = σ' at stepped
  cases stepped with
  | same => exact ordered
  | unlock lost => exact ordered
  | start =>
    intro i phase view there past
    rcases CallTable.getElem?_concat_cases _ _ _ _ there with ⟨-, rfl⟩ | there
    · contradiction
    · exact ordered i phase view there past
  | move k old new own present moves =>
    refine ordered_set σ k new _ σ.db ordered rfl fun view past => ?_
    cases moves with
    | pass view pending own passed => exact absurd own (no_pass k)
    | alive view' file rest held => exact ordered k _ view present past
    | insert view' file rest absent alone => exact ordered k _ view present past
    | _ => contradiction
  | load k migrations own present =>
    exact ordered_set σ k _ _ _ ordered rfl fun view past => by contradiction
  | commit k view file rest own present => exact absurd own (no_commit k)

/-- The file a run commits is the next one of its own listing. -/
theorem inserted_next (σ : MigrateState) (k : Nat) (view : RunView) (file : Migration)
    (rest : List Migration) (inv : LedgerInv σ) (ordered : Ordered σ)
    (present : σ.runs[k]? = some (.inserted view file rest)) :
    view.names[σ.db.names.length]? = some file.filename := by
  have member := List.mem_of_getElem? present
  obtain ⟨m, short, left⟩ := inv.follows _ member
  have here : view.names[m]? = some file.filename := by
    calc view.names[m]?
      _ = (view.names.drop m)[0]? := by rw [List.getElem?_drop, Nat.add_zero]
      _ = some file.filename := by rw [← left]; rfl
  have early : m ≤ σ.db.names.length := short.trans_eq (List.length_map _).symm
  have absent : file.filename ∉ σ.db.names := inv.absent _ member _ rfl
  have last := next_of_absent σ.db.names view.names m _ (ordered k _ view present rfl) early here absent
  rwa [← last]

theorem commit_ordered (σ : MigrateState) (k : Nat) (phase : MigratePhase) (inv : LedgerInv σ)
    (ordered : Ordered σ) (present : σ.runs[k]? = some phase) :
    commitInOrder σ k phase = true ↔ Ordered (σ.commitFile k phase) := by
  cases phase with
  | inserted view file rest =>
    have names : (σ.commitFile k (.inserted view file rest)).db.names =
        σ.db.names ++ [file.filename] := List.map_append
    have grows (j : Nat) (other : MigratePhase) (seen : RunView) (there : σ.runs[j]? = some other)
        (past : pastReconcile other = some seen) :
        PrefixOf (σ.db.names ++ [file.filename]) seen.names ↔
          seen.names[σ.db.names.length]? = some file.filename :=
      prefixOf_concat _ _ _ (ordered j other seen there past)
    rw [commitInOrder, List.all_eq_true]
    constructor
    · intro expected i other seen there past
      rw [names]
      rcases CallTable.getElem?_set_cases _ _ _ _ _ there with ⟨rfl, rfl⟩ | ⟨off, there⟩
      · obtain rfl := Option.some.inj past
        apply (grows k _ view present rfl).mpr
        exact inserted_next σ k view file rest inv ordered present
      · apply (grows i other seen there past).mpr
        have next := expected other (List.mem_eraseIdx_iff_getElem?.mpr ⟨i, off.symm, there⟩)
        rw [expectsFile, past] at next
        exact eq_of_beq next
    · intro after other member
      obtain ⟨i, off, there⟩ := List.mem_eraseIdx_iff_getElem?.mp member
      rw [expectsFile]
      split
      · rename_i seen past
        have still : (σ.runs.set k (.ready view rest))[i]? = some other := by
          rw [List.getElem?_set_ne off.symm, there]
        have leads := after i other seen still past
        rw [names] at leads
        exact beq_iff_eq.mpr ((grows i other seen there past).mp leads)
      · rfl
  | _ => exact iff_of_true rfl ordered

theorem pass_ordered (sha256 : List UInt8 → String) (σ : MigrateState) (k : Nat)
    (phase : MigratePhase) (inv : LedgerInv σ) (ordered : Ordered σ)
    (present : σ.runs[k]? = some phase) :
    passInOrder σ.db phase = true ↔ Ordered (σ.stepRun sha256 k phase (.reconcile k)) := by
  cases phase with
  | loaded view =>
    rcases passed : reconcile view.migrations view.applied with failure | pending
    · have stays : Ordered (σ.close k (.raised failure)) :=
        ordered_set σ k _ _ σ.db ordered rfl fun seen past => by contradiction
      simpa [passInOrder, passes, stepRun, passed] using stays
    · obtain ⟨listing, grown⟩ := inv.follows _ (List.mem_of_getElem? present)
      have once : (view.applied.map LedgerRow.filename).Nodup :=
        inv.once.sublist (grown.sublist.map LedgerRow.filename)
      have leads := (reconcile_leads _ _ pending listing once passed).1
      have since : σ.db.names = view.applied.map LedgerRow.filename ++
          σ.db.names.drop view.applied.length := by
        obtain ⟨later, rows⟩ := grown
        rw [Database.names, ← rows, List.map_append, ← List.length_map LedgerRow.filename,
          List.drop_left]
      have whole := prefixOf_append _ (σ.db.names.drop view.applied.length) _ leads
      rw [← since, List.length_map] at whole
      have here : (σ.runs.set k (.ready view pending))[k]? = some (.ready view pending) :=
        List.getElem?_set_self (List.getElem?_eq_some_iff.mp present).1
      have moved : Ordered (σ.setRun k (.ready view pending)) ↔ PrefixOf σ.db.names view.names := by
        constructor
        · exact fun after => after k _ view here rfl
        · intro next
          refine ordered_set σ k _ _ σ.db ordered rfl fun seen past => ?_
          obtain rfl := Option.some.inj past
          exact next
      simp only [passInOrder, passes, stepRun, passed, Bool.not_true, Bool.false_or,
        decide_eq_true_iff]
      exact (moved.trans whole).symm
  | _ => exact iff_of_true rfl ordered

/-- A step keeps the order exactly when it is in order itself. -/
theorem ordered_step (sha256 : List UInt8 → String) (σ : MigrateState) (event : MigrateEvent)
    (inv : LedgerInv σ) (ordered : Ordered σ) :
    inOrder σ event = true ↔ Ordered (σ.step sha256 event) := by
  cases event with
  | commit k =>
    rcases present : σ.runs[k]? with _ | phase
    · simp [inOrder, MigrateState.step, MigrateEvent.run?, present, ordered]
    · simpa [inOrder, MigrateState.step, MigrateEvent.run?, present, stepRun] using
        commit_ordered σ k phase inv ordered present
  | reconcile k =>
    rcases present : σ.runs[k]? with _ | phase
    · simp [inOrder, MigrateState.step, MigrateEvent.run?, present, ordered]
    · simpa [inOrder, MigrateState.step, MigrateEvent.run?, present] using
        pass_ordered sha256 σ k phase inv ordered present
  | _ => exact iff_of_true rfl (ordered_other sha256 σ _ ordered (by simp) (by simp))

/-- The run has been past `reconcile`. -/
def letPass : MigratePhase → Bool
  | .ready _ _ => true
  | .asserted _ _ _ => true
  | .inserted _ _ _ => true
  | .ended _ => true
  | .raised failure => !failure.isRefusal
  | _ => false

theorem move_letPass (sha256 : List UInt8 → String) (σ : MigrateState) (event : MigrateEvent)
    (k : Nat) (old new : MigratePhase) (moves : MigrateMove sha256 σ event k old new)
    (past : letPass old = true) : letPass new = true := by
  cases moves with
  | acquire unheld => contradiction
  | list directory => contradiction
  | refuse view failure refused => contradiction
  | _ => rfl

/-- A run that `reconcile` has let pass is never refused. -/
theorem step_letPass (sha256 : List UInt8 → String) (k : Nat) (σ : MigrateState)
    (event : MigrateEvent) (past : (σ.runs[k]?.map letPass) = some true) :
    ((σ.step sha256 event).runs[k]?.map letPass) = some true := by
  obtain ⟨phase, present, passed⟩ := Option.map_eq_some_iff.mp past
  have set_past (j : Nat) (old new : MigratePhase) (there : σ.runs[j]? = some old)
      (keeps : letPass old = true → letPass new = true) :
      (σ.runs.set j new)[k]?.map letPass = some true := by
    by_cases own : j = k
    · subst own
      obtain rfl := Option.some.inj (there.symm.trans present)
      rw [List.getElem?_set_self (List.getElem?_eq_some_iff.mp there).1, Option.map_some,
        keeps passed]
    · rw [List.getElem?_set_ne own, past]
  have stepped := migrate_cases sha256 σ event
  generalize σ.step sha256 event = σ' at stepped
  cases stepped with
  | same => exact past
  | unlock lost => exact past
  | start =>
    rw [List.getElem?_append_left (List.getElem?_eq_some_iff.mp present).1, past]
  | move j old new own there moves =>
    exact set_past j old new there (move_letPass sha256 σ event j old new moves)
  | load j migrations own there => exact set_past j _ _ there fun none_passed => by contradiction
  | commit j view file rest own there => exact set_past j _ _ there fun _ => rfl

/-- The steps of a run that ends refused leave the schema and the rows of the ledger alone. -/
theorem refused_writes_nothing (sha256 : List UInt8 → String) (σ : MigrateState)
    (event : MigrateEvent) (later : List MigrateEvent) (k : Nat) (failure : MigrationFailure)
    (own : event.run? = some k) (refusal : failure.isRefusal = true)
    (ends : (Runs.run (step sha256) σ (event :: later)).runs[k]? = some (.raised failure)) :
    (σ.step sha256 event).db.rows = σ.db.rows ∧ (σ.step sha256 event).db.schema = σ.db.schema := by
  have onward : ((σ.step sha256 event).runs[k]?.map letPass) = some true → False := by
    intro past
    have still := Runs.run_always (step sha256) (fun τ => (τ.runs[k]?.map letPass) = some true)
      (step_letPass sha256 k) later _ past
    rw [Runs.run_cons] at ends
    rw [ends, Option.map_some, letPass, refusal] at still
    contradiction
  have stepped := migrate_cases sha256 σ event
  generalize σ.step sha256 event = σ' at stepped onward
  cases stepped with
  | commit j view file rest commits present =>
    subst commits
    obtain rfl : j = k := Option.some.inj own
    refine (onward ?_).elim
    rw [List.getElem?_set_self (List.getElem?_eq_some_iff.mp present).1]
    rfl
  | _ => exact ⟨rfl, rfl⟩

theorem ordered_iff (sha256 : List UInt8 → String) (events : List MigrateEvent) :
    Runs.Guarded (step sha256) inOrder empty events = true ↔
      ∀ first later, events = first ++ later → Ordered (Runs.run (step sha256) empty first) := by
  apply Runs.guarded_iff_always (step sha256) LedgerInv Ordered inOrder (step_ledgerInv sha256)
    (ordered_step sha256) events empty empty_ledgerInv
  intro k phase view present
  simp [empty] at present

/-- The bodies that have taken effect are those with a ledger row, each once; a refused run writes
nothing; and the order is kept in every state of a run exactly when every commit, and every end of
`reconcile`, is in order. -/
theorem migration_ledger (sha256 : List UInt8 → String) (events : List MigrateEvent) :
    let σ := Runs.run (step sha256) empty events
    (σ.db.schema.map Migration.filename).Nodup ∧
      σ.db.rows = σ.db.schema.map (fun file => ⟨file.filename, file.checksum⟩) ∧
      (∀ (k : Nat) (failure : MigrationFailure), σ.runs[k]? = some (.raised failure) →
        failure.isRefusal = true → ∀ first event later, events = first ++ event :: later →
          event.run? = some k →
          ((Runs.run (step sha256) empty (first ++ [event])).db.rows,
              (Runs.run (step sha256) empty (first ++ [event])).db.schema) =
            ((Runs.run (step sha256) empty first).db.rows,
              (Runs.run (step sha256) empty first).db.schema)) ∧
      (Runs.Guarded (step sha256) inOrder empty events = true ↔
        ∀ first later, events = first ++ later → Ordered (Runs.run (step sha256) empty first)) := by
  intro σ
  have inv : LedgerInv σ := Runs.run_always (step sha256) LedgerInv (step_ledgerInv sha256) events
    empty empty_ledgerInv
  refine ⟨?_, inv.recorded, ?_, ?_⟩
  · have names : σ.db.names = σ.db.schema.map Migration.filename := by
      rw [Database.names, inv.recorded, List.map_map]
      rfl
    exact names ▸ inv.once
  · intro k failure ends refusal first event later split own
    have whole : σ = Runs.run (step sha256) (Runs.run (step sha256) empty first) (event :: later) := by
      rw [← Runs.run_append, ← split]
    rw [whole] at ends
    have kept := refused_writes_nothing sha256 _ event later k failure own refusal ends
    rw [Runs.run_append, Runs.run_cons, Runs.run_nil, kept.1, kept.2]
  · exact ordered_iff sha256 events

/-! Every file of the two directories is "SELECT 1;". -/

def selectOne : List UInt8 := [83, 69, 76, 69, 67, 84, 32, 49, 59]

def selectOneSum : List UInt8 → String :=
  fun _ => "17db4fd369edb9244b9f91d9aeed145c3d04ad8ba6e95d06247f07a63527d11a"

def earlierDirectory : Directory where
  files := [("001_init.sql", selectOne), ("003_index.sql", selectOne)]
  named := by decide

def laterDirectory : Directory where
  files := [("003_index.sql", selectOne), ("001_init.sql", selectOne), ("002_users.sql", selectOne)]
  named := by decide

def begins (k : Nat) (directory : Directory) : List MigrateEvent :=
  [.migrate, .acquire k, .list k directory, .load k, .reconcile k]

def applies (k : Nat) : List MigrateEvent := [.next k, .insert k, .commit k]

/-- The first run loses its lock while it is about to apply 003, and the second begins. -/
def overtaken : List MigrateEvent :=
  begins 0 earlierDirectory ++ applies 0 ++ [.next 0, .loseLock] ++ begins 1 laterDirectory ++
    [.insert 0, .commit 0] ++ applies 1

theorem overtaken_out_of_order :
    (Runs.run (step selectOneSum) empty overtaken).db.names =
        ["001_init.sql", "003_index.sql", "002_users.sql"] ∧
      ∃ first later, overtaken = first ++ later ∧
        ¬ Ordered (Runs.run (step selectOneSum) empty first) := by
  refine ⟨by decide, overtaken.take 17, overtaken.drop 17, by rfl, fun ordered => ?_⟩
  have listed : ((Runs.run (step selectOneSum) empty (overtaken.take 17)).runs[1]?.bind
      pastReconcile).map RunView.names =
        some ["001_init.sql", "002_users.sql", "003_index.sql"] := by
    decide
  obtain ⟨view, past, names⟩ := Option.map_eq_some_iff.mp listed
  obtain ⟨phase, present, past⟩ := Option.bind_eq_some_iff.mp past
  have leads := ordered 1 phase view present past
  rw [names] at leads
  revert leads
  decide

def vanishing : List MigrateEvent :=
  begins 0 laterDirectory ++ applies 0 ++ applies 0 ++ [.fail 0] ++ begins 1 earlierDirectory

theorem vanishing_refused :
    let σ := Runs.run (step selectOneSum) empty
    (σ vanishing).runs[1]? = some (.raised (.missingMigrationFile ["002_users.sql"])) ∧
      ((σ (vanishing.take 16)).db.rows, (σ (vanishing.take 16)).db.schema) =
        ((σ (vanishing.take 15)).db.rows, (σ (vanishing.take 15)).db.schema) ∧
      Ordered (σ vanishing) := by
  have settled := migration_ledger selectOneSum vanishing
  have ends : (Runs.run (step selectOneSum) empty vanishing).runs[1]? =
      some (.raised (.missingMigrationFile ["002_users.sql"])) := by rfl
  refine ⟨ends, ?_, ?_⟩
  · exact settled.2.2.1 1 _ ends rfl (vanishing.take 15) (.load 1) [.reconcile 1] rfl rfl
  · exact settled.2.2.2.mp (by decide) vanishing [] (List.append_nil _).symm

def isWaiting : MigratePhase → Bool
  | .waiting => true
  | _ => false

/-- The run in flight holds the lock, and the ledger is as it read it. -/
structure SingleApplier (σ : MigrateState) : Prop where
  holds : ∀ (k : Nat) (phase : MigratePhase), σ.runs[k]? = some phase → isWaiting phase = false →
    isDone phase = false → σ.lock = some k
  unread : ∀ (k : Nat) (view : RunView), σ.runs[k]? = some (.loaded view) → view.applied = σ.db.rows

theorem move_holds (sha256 : List UInt8 → String) (σ : MigrateState) (event : MigrateEvent) (k : Nat)
    (old new : MigratePhase) (single : SingleApplier σ) (present : σ.runs[k]? = some old)
    (moves : MigrateMove sha256 σ event k old new) (i : Nat) (phase : MigratePhase)
    (there : (σ.runs.set k new)[i]? = some phase) (begun : isWaiting phase = false)
    (running : isDone phase = false) : σ.lockAfter k new = some i := by
  rcases CallTable.getElem?_set_cases _ _ _ _ _ there with ⟨rfl, rfl⟩ | ⟨off, there⟩
  · cases moves with
    | acquire unheld => rfl
    | list directory => exact single.holds k _ present rfl rfl
    | pass view pending own passed => exact single.holds k _ present rfl rfl
    | alive view file rest held => exact held
    | insert view file rest absent alone => exact single.holds k _ present rfl rfl
    | _ => contradiction
  · have held := single.holds i phase there begun running
    have other : σ.lock ≠ some k := by
      rw [held]
      exact fun same => off (Option.some.inj same).symm
    cases moves with
    | acquire unheld =>
      rw [unheld] at held
      contradiction
    | _ => simpa [lockAfter, other] using held

theorem step_single (sha256 : List UInt8 → String) (σ : MigrateState) (event : MigrateEvent)
    (kept : event ≠ .loseLock) (single : SingleApplier σ) :
    SingleApplier (σ.step sha256 event) := by
  have stepped := migrate_cases sha256 σ event
  generalize σ.step sha256 event = σ' at stepped
  cases stepped with
  | same => exact single
  | unlock lost => exact absurd lost kept
  | start =>
    refine ⟨fun i phase there begun running => ?_, fun i view there => ?_⟩
    · rcases CallTable.getElem?_concat_cases _ _ _ _ there with ⟨-, rfl⟩ | there
      · contradiction
      · exact single.holds i phase there begun running
    · rcases CallTable.getElem?_concat_cases _ _ _ _ there with ⟨-, starts⟩ | there
      · contradiction
      · exact single.unread i view there
  | move k old new own present moves =>
    refine ⟨move_holds sha256 σ event k old new single present moves, fun i view there => ?_⟩
    rcases CallTable.getElem?_set_cases _ _ _ _ _ there with ⟨-, rfl⟩ | ⟨-, there⟩
    · cases moves
    · exact single.unread i view there
  | load k migrations own present =>
    refine ⟨fun i phase there begun running => ?_, fun i view there => ?_⟩
    · rcases CallTable.getElem?_set_cases _ _ _ _ _ there with ⟨rfl, -⟩ | ⟨-, there⟩
      · exact single.holds k _ present rfl rfl
      · exact single.holds i phase there begun running
    · rcases CallTable.getElem?_set_cases _ _ _ _ _ there with ⟨-, loads⟩ | ⟨-, there⟩
      · obtain rfl := MigratePhase.loaded.inj loads
        rfl
      · exact single.unread i view there
  | commit k view file rest own present =>
    have own_lock := single.holds k _ present rfl rfl
    refine ⟨fun i phase there begun running => ?_, fun i seen there => ?_⟩
    · rcases CallTable.getElem?_set_cases _ _ _ _ _ there with ⟨rfl, -⟩ | ⟨-, there⟩
      · exact own_lock
      · exact single.holds i phase there begun running
    · rcases CallTable.getElem?_set_cases _ _ _ _ _ there with ⟨-, loads⟩ | ⟨off, there⟩
      · contradiction
      · have other_lock := single.holds i _ there rfl rfl
        exact absurd (Option.some.inj (own_lock.symm.trans other_lock)) off

theorem single_inOrder (σ : MigrateState) (event : MigrateEvent) (single : SingleApplier σ) :
    inOrder σ event = true := by
  cases event with
  | commit k =>
    rcases present : σ.runs[k]? with _ | phase
    · simp [inOrder, present]
    cases phase with
    | inserted view file rest =>
      have own_lock := single.holds k _ present rfl rfl
      simp only [inOrder, present, Option.map_some, Option.getD_some, commitInOrder, List.all_eq_true]
      intro other member
      obtain ⟨i, off, there⟩ := List.mem_eraseIdx_iff_getElem?.mp member
      by_contra unexpected
      have begun : isWaiting other = false ∧ isDone other = false := by
        cases other <;> first | exact ⟨rfl, rfl⟩ | exact absurd rfl unexpected
      have other_lock := single.holds i other there begun.1 begun.2
      exact off (Option.some.inj (other_lock.symm.trans own_lock))
    | _ => simp [inOrder, present, commitInOrder]
  | reconcile k =>
    rcases present : σ.runs[k]? with _ | phase
    · simp [inOrder, present]
    cases phase with
    | loaded view =>
      have nothing : σ.db.names.drop view.applied.length = [] := by
        rw [single.unread k view present, Database.names, List.drop_eq_nil_iff, List.length_map]
      simp [inOrder, present, passInOrder, nothing, PrefixOf]
    | _ => simp [inOrder, present, passInOrder]
  | _ => rfl

/-- The lock is enough for the order. -/
theorem ordered_while_locked (sha256 : List UInt8 → String) (events : List MigrateEvent)
    (kept : ∀ event ∈ events, event ≠ .loseLock) : Ordered (Runs.run (step sha256) empty events) := by
  have start : SingleApplier empty := ⟨by simp [empty], by simp [empty]⟩
  have guarded : Runs.Guarded (step sha256) inOrder empty events = true := by
    rw [Runs.guarded_iff_forall]
    intro first event later split
    have before : ∀ earlier ∈ first, earlier ≠ .loseLock := fun earlier member =>
      kept earlier (split ▸ List.mem_append_left _ member)
    have single := Runs.run_of_events (step sha256) SingleApplier (· ≠ .loseLock)
      (fun σ event spared => step_single sha256 σ event spared) first before empty start
    exact single_inOrder _ event single
  exact (ordered_iff sha256 events).mp guarded events [] (List.append_nil _).symm

end GenesisAgents
