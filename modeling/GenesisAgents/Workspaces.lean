import GenesisAgents.Library.Runs
import Mathlib.Data.List.Infix

/-! The job workspaces: the registry of `runtime/workspace_manager.py` and the directories on disk, under
the calls of the workspace manager and of `runtime/sandbox_manager.py`. -/

namespace GenesisAgents.Workspaces

inductive Status where
  | created | active | finalizing | uploaded | cleaned | failed
  deriving DecidableEq, Repr

namespace Status

def name : Status → String
  | created => "CREATED"
  | active => "ACTIVE"
  | finalizing => "FINALIZING"
  | uploaded => "UPLOADED"
  | cleaned => "CLEANED"
  | failed => "FAILED"

/-- `VALID_STATES` -/
def validStates : List Status := [created, active, finalizing, uploaded, cleaned, failed]

def ofName? (status : String) : Option Status := validStates.find? fun valid => valid.name == status

end Status

/-- The parts of an absolute path; `..` may be among them. -/
abbrev Path := List String

def jobParts (jobId : String) : Path :=
  ((jobId.toList.splitOn '/').map String.ofList).filter fun part => decide (part ≠ "" ∧ part ≠ ".")

/-- `Path(WORKSPACE_ROOT) / job_id` -/
def jobPath (root : Path) (jobId : String) : Path :=
  if jobId.toList.head? = some '/' then jobParts jobId else root ++ jobParts jobId

def resolve (path : Path) : Path :=
  path.foldl (fun here part => if part = ".." then here.dropLast else here ++ [part]) []

/-- The directories that `mkdir(parents=True)` makes, where they are missing, from the root down. -/
def onTheWay (path : Path) : List Path := path.inits.map resolve

/-- How `mkdir(parents=True, exist_ok=True)` ends: it may raise once some directories are made. -/
inductive Mkdir where
  | made
  | raised (count : Nat)
  deriving DecidableEq, Repr

def Mkdir.dirs (mkdir : Mkdir) (path : Path) : List Path :=
  match mkdir with
  | made => onTheWay path
  | raised count => (onTheWay path).take count

/-- How `exists` and `rmtree(ignore_errors=True)` end: `exists` may raise, and directories may be left. -/
inductive Removal where
  | raised
  | removed (left : List Path)
  deriving DecidableEq, Repr

structure Workspace where
  jobId : String
  sessionId : String
  path : Path
  status : Status
  deriving DecidableEq, Repr

structure State where
  registry : List Workspace
  disk : List Path

structure Config where
  workspaceRoot : Path
  cleanupEnabled : Bool

namespace State

variable (σ : State)

/-- `get_workspace` -/
def get (jobId : String) : Option Workspace := σ.registry.find? fun ws => ws.jobId == jobId

def setStatus (jobId : String) (status : Status) : State :=
  { σ with registry := σ.registry.map fun ws => if ws.jobId = jobId then { ws with status := status } else ws }

def mkdir (path : Path) (how : Mkdir) : State := { σ with disk := σ.disk ++ how.dirs path }

/-- `rmtree`; nothing is removed where there is no directory. -/
def rmtree (path : Path) (left : List Path) : State :=
  if resolve path ∈ σ.disk then
    { σ with disk := σ.disk.filter fun dir => !(resolve path).isPrefixOf dir || left.contains dir }
  else σ

end State

inductive CleanupReply where
  | workspaceNotFound | skipped | cleaned | failed
  deriving DecidableEq, Repr

inductive DestroyReply where
  | sandboxNotFound
  | purged (reply : CleanupReply)
  | uploaded
  deriving DecidableEq, Repr

section

variable (C : Config)

/-- `create_workspace`; `uuid` is what `uuid4` gives. `none` where `mkdir` raises. -/
def createWorkspace (σ : State) (jobId : String) (sessionId : Option String) (uuid : String) (how : Mkdir) :
    State × Option Workspace :=
  match σ.get jobId with
  | some ws => (σ, some ws)
  | none =>
    let path := jobPath C.workspaceRoot jobId
    match how with
    | .raised count => (σ.mkdir path (.raised count), none)
    | .made =>
      let ws : Workspace :=
        { jobId := jobId, sessionId := sessionId.getD uuid, path := path, status := .created }
      ({ registry := σ.registry ++ [ws], disk := (σ.mkdir path .made).disk }, some ws)

/-- `set_workspace_status`; `false` is the `ValueError` for an unknown state. -/
def setWorkspaceStatus (σ : State) (jobId status : String) : State × Bool :=
  match Status.ofName? status with
  | none => (σ, false)
  | some status => (σ.setStatus jobId status, true)

/-- `cleanup_workspace` -/
def cleanupWorkspace (σ : State) (jobId : String) (how : Removal) : State × CleanupReply :=
  match σ.get jobId with
  | none => (σ, .workspaceNotFound)
  | some ws =>
    if !C.cleanupEnabled then (σ, .skipped)
    else
      match how with
      | .raised => (σ.setStatus jobId .failed, .failed)
      | .removed left => ((σ.rmtree ws.path left).setStatus jobId .cleaned, .cleaned)

/-- The two directories of a sandbox, in the workspace; the path of the workspace where neither raises. -/
def openSandbox (σ : State) (workspace : Path) (inner tmp : Mkdir) : State × Option Path :=
  let opened := σ.mkdir (workspace ++ ["workspace"]) inner
  match inner with
  | .raised _ => (opened, none)
  | .made =>
    let ended := opened.mkdir (workspace ++ [".tmp"]) tmp
    match tmp with
    | .raised _ => (ended, none)
    | .made => (ended, some workspace)

/-- `create_sandbox`: what it does to the workspace, and the root that it returns. -/
def createSandbox (σ : State) (jobId : String) (sessionId : Option String) (uuid : String)
    (how fallback inner tmp : Mkdir) : State × Option Path :=
  let made := createWorkspace C σ jobId sessionId uuid how
  match made.2 with
  | some ws => openSandbox (made.1.setStatus jobId .active) ws.path inner tmp
  | none =>
    let path := jobPath C.workspaceRoot jobId
    let again := made.1.mkdir path fallback
    match fallback with
    | .raised _ => (again, none)
    | .made => openSandbox again path inner tmp

/-- `destroy_sandbox` -/
def destroySandbox (σ : State) (jobId cleanupPolicy : String) (how : Removal) : State × DestroyReply :=
  match σ.get jobId with
  | none => (σ, .sandboxNotFound)
  | some _ =>
    if cleanupPolicy = "purge" then
      let cleaned := cleanupWorkspace C σ jobId how
      (cleaned.1, .purged cleaned.2)
    else ((setWorkspaceStatus σ jobId "UPLOADED").1, .uploaded)

inductive Call where
  | createWorkspace (jobId : String) (sessionId : Option String) (uuid : String) (how : Mkdir)
  | createSandbox (jobId : String) (sessionId : Option String) (uuid : String) (how fallback inner tmp : Mkdir)
  | setWorkspaceStatus (jobId status : String)
  | destroySandbox (jobId cleanupPolicy : String) (how : Removal)
  | cleanupWorkspace (jobId : String) (how : Removal)

def step (σ : State) : Call → State
  | .createWorkspace jobId sessionId uuid how => (createWorkspace C σ jobId sessionId uuid how).1
  | .createSandbox jobId sessionId uuid how fallback inner tmp =>
    (createSandbox C σ jobId sessionId uuid how fallback inner tmp).1
  | .setWorkspaceStatus jobId status => (setWorkspaceStatus σ jobId status).1
  | .destroySandbox jobId cleanupPolicy how => (destroySandbox C σ jobId cleanupPolicy how).1
  | .cleanupWorkspace jobId how => (cleanupWorkspace C σ jobId how).1

/-- The workspace that a call of `create_workspace` or `create_sandbox` returns: the job and the path. -/
def returned (σ : State) : Call → Option (String × Path)
  | .createWorkspace jobId sessionId uuid how =>
    (createWorkspace C σ jobId sessionId uuid how).2.map fun ws => (jobId, ws.path)
  | .createSandbox jobId sessionId uuid how fallback inner tmp =>
    (createSandbox C σ jobId sessionId uuid how fallback inner tmp).2.map fun path => (jobId, path)
  | _ => none

end

/-- A workspace that is returned is on disk and not cleaned. -/
def Live (σ : State) (job : String × Path) : Prop :=
  resolve job.2 ∈ σ.disk ∧ ∀ ws, σ.get job.1 = some ws → ws.status ≠ .cleaned

def CleanedGone (σ : State) : Prop := ∀ ws ∈ σ.registry, ws.status = .cleaned → resolve ws.path ∉ σ.disk

section

variable (C : Config)

/-- No workspace that is cleaned comes back with the directories. -/
def State.keepsGone (σ : State) (except : String) (dirs : List Path) : Bool :=
  σ.registry.all fun ws => ws.jobId == except || ws.status != .cleaned || !dirs.contains (resolve ws.path)

def State.removesOne (σ : State) (jobId : String) (how : Removal) : Bool :=
  match σ.get jobId with
  | none => true
  | some ws =>
    !C.cleanupEnabled ||
      match how with
      | .raised => ws.status != .cleaned
      | .removed left => !left.contains (resolve ws.path) &&
        σ.registry.all fun other => other.jobId == jobId || other.status == .cleaned ||
          !(resolve ws.path).isPrefixOf (resolve other.path) || left.contains (resolve other.path)

def State.sameSide (σ : State) (jobId : String) (status : Status) : Bool :=
  match σ.get jobId with
  | none => true
  | some ws => (ws.status == .cleaned) == (status == .cleaned)

def careful (σ : State) : Call → Bool
  | .createWorkspace jobId _ _ _ =>
    match σ.get jobId with
    | some ws => ws.status != .cleaned
    | none => σ.keepsGone jobId (onTheWay (jobPath C.workspaceRoot jobId))
  | .createSandbox jobId _ _ _ _ inner _ =>
    σ.keepsGone jobId (onTheWay (jobPath C.workspaceRoot jobId ++ ["workspace"]) ++
        onTheWay (jobPath C.workspaceRoot jobId ++ [".tmp"])) &&
      match σ.get jobId with
      | some ws => ws.status != .cleaned || inner == .made
      | none => true
  | .setWorkspaceStatus jobId status =>
    match Status.ofName? status with
    | none => true
    | some status => σ.sameSide jobId status
  | .destroySandbox jobId cleanupPolicy how =>
    if cleanupPolicy = "purge" then σ.removesOne C jobId how else σ.sameSide jobId .uploaded
  | .cleanupWorkspace jobId how => σ.removesOne C jobId how

end

/-! What the steps do to the registry and the disk. -/

theorem resolve_mem_onTheWay (path rest : Path) : resolve path ∈ onTheWay (path ++ rest) :=
  List.mem_map_of_mem ((List.mem_inits _ _).mpr (List.prefix_append path rest))

theorem dirs_subset (how : Mkdir) (path : Path) : how.dirs path ⊆ onTheWay path := by
  cases how with
  | made => exact List.Subset.refl _
  | raised count => exact List.take_subset _ _

theorem onTheWay_subset (path rest : Path) : onTheWay path ⊆ onTheWay (path ++ rest) := by
  intro dir member
  rcases List.mem_map.mp member with ⟨front, before, rfl⟩
  exact List.mem_map_of_mem ((List.mem_inits _ _).mpr
    (((List.mem_inits _ _).mp before).trans (List.prefix_append path rest)))

namespace State

variable (σ : State)

theorem get_some (jobId : String) (ws : Workspace) (found : σ.get jobId = some ws) :
    ws ∈ σ.registry ∧ ws.jobId = jobId :=
  ⟨List.mem_of_find?_eq_some found, by simpa using List.find?_some found⟩

theorem get_none (jobId : String) (absent : σ.get jobId = none) : ∀ ws ∈ σ.registry, ws.jobId ≠ jobId := by
  simpa [get] using absent

theorem mem_setStatus (jobId : String) (status : Status) (ws : Workspace)
    (member : ws ∈ (σ.setStatus jobId status).registry) : ∃ old ∈ σ.registry, ws.jobId = old.jobId ∧
      ws.path = old.path ∧ (old.jobId = jobId ∧ ws.status = status ∨ old.jobId ≠ jobId ∧ ws.status = old.status) := by
  rcases List.mem_map.mp member with ⟨old, before, rfl⟩
  refine ⟨old, before, ?_⟩
  by_cases own : old.jobId = jobId
  · rw [if_pos own]
    exact ⟨rfl, rfl, .inl ⟨own, rfl⟩⟩
  · rw [if_neg own]
    exact ⟨rfl, rfl, .inr ⟨own, rfl⟩⟩

theorem mem_rmtree (path : Path) (left : List Path) (dir : Path) : dir ∈ (σ.rmtree path left).disk ↔
    dir ∈ σ.disk ∧ (resolve path ∈ σ.disk → ¬resolve path <+: dir ∨ dir ∈ left) := by
  rw [rmtree]
  split
  · rename_i there
    simp [there, ← List.isPrefixOf_iff_prefix]
  · rename_i gone
    simp [gone]

@[simp] theorem rmtree_registry (path : Path) (left : List Path) : (σ.rmtree path left).registry = σ.registry := by
  rw [rmtree]
  split <;> rfl

end State

/-! The invariant: every workspace is at its path, and cleaned exactly when its directory is gone. -/

section

variable (C : Config)

def Inv (σ : State) : Prop :=
  ∀ ws ∈ σ.registry, ws.path = jobPath C.workspaceRoot ws.jobId ∧ (ws.status = .cleaned ↔ resolve ws.path ∉ σ.disk)

theorem Inv.gone {σ : State} (inv : Inv C σ) : CleanedGone σ :=
  fun ws member => (inv ws member).2.mp

theorem Inv.update {σ τ : State} (inv : Inv C σ) (jobId : String) (status : Status)
    (registry : τ.registry = (σ.setStatus jobId status).registry)
    (own : ∀ ws ∈ σ.registry, ws.jobId = jobId → (status = .cleaned ↔ resolve ws.path ∉ τ.disk))
    (others : ∀ ws ∈ σ.registry, ws.jobId ≠ jobId → (resolve ws.path ∈ τ.disk ↔ resolve ws.path ∈ σ.disk)) :
    Inv C τ := by
  intro ws member
  rw [registry] at member
  rcases σ.mem_setStatus jobId status ws member with ⟨old, before, job, path, own' | other⟩
  · rw [job, path, own'.2]
    exact ⟨(inv old before).1, own old before own'.1⟩
  · rw [job, path, other.2, others old before other.1]
    exact inv old before

theorem Inv.disk {σ τ : State} (inv : Inv C σ) (registry : τ.registry = σ.registry)
    (same : ∀ ws ∈ σ.registry, (resolve ws.path ∈ τ.disk ↔ resolve ws.path ∈ σ.disk)) : Inv C τ := by
  intro ws member
  rw [registry] at member
  rw [same ws member]
  exact inv ws member

theorem Inv.added {σ : State} (inv : Inv C σ) (except : String) (dirs more : List Path)
    (gone : σ.keepsGone except dirs = true) (within : more ⊆ dirs) :
    ∀ ws ∈ σ.registry, ws.jobId ≠ except → (resolve ws.path ∈ σ.disk ++ more ↔ resolve ws.path ∈ σ.disk) := by
  intro ws member other
  rw [List.mem_append, or_iff_left_of_imp]
  intro made
  have kept := List.all_eq_true.mp gone ws member
  by_contra missing
  have cleaned := (inv ws member).2.mpr missing
  simp [other, cleaned, within made] at kept

theorem Inv.path_eq {σ : State} (inv : Inv C σ) (jobId : String) (found : Workspace)
    (registered : σ.get jobId = some found) (ws : Workspace) (member : ws ∈ σ.registry) (own : ws.jobId = jobId) :
    ws.path = found.path := by
  rcases σ.get_some jobId found registered with ⟨there, job⟩
  rw [(inv ws member).1, (inv found there).1, own, job]

theorem Inv.setStatus {σ : State} (inv : Inv C σ) (jobId : String) (status : Status)
    (same : σ.sameSide jobId status = true) : Inv C (σ.setStatus jobId status) := by
  refine inv.update C jobId status rfl (fun ws member own => ?_) fun _ _ _ => Iff.rfl
  rcases registered : σ.get jobId with _ | found
  · exact absurd own (σ.get_none jobId registered ws member)
  · rw [State.sameSide, registered] at same
    rw [inv.path_eq C jobId found registered ws member own]
    have side := (inv found (σ.get_some jobId found registered).1).2
    have equal : found.status = .cleaned ↔ status = .cleaned := by simpa [← Bool.beq_eq_decide_eq] using same
    exact equal.symm.trans side

theorem Inv.cleanupWorkspace {σ : State} (inv : Inv C σ) (jobId : String) (how : Removal)
    (one : σ.removesOne C jobId how = true) : Inv C (cleanupWorkspace C σ jobId how).1 := by
  rw [Workspaces.cleanupWorkspace]
  rcases registered : σ.get jobId with _ | found
  · exact inv
  rw [State.removesOne, registered] at one
  by_cases enabled : C.cleanupEnabled = true
  · simp only [enabled, Bool.not_true, Bool.false_or] at one
    cases how with
    | raised =>
      have side : σ.sameSide jobId .failed = true := by
        rw [State.sameSide, registered]
        simpa using one
      simpa [enabled] using inv.setStatus C jobId .failed side
    | removed left =>
      rw [Bool.and_eq_true] at one
      have clean : Inv C ((σ.rmtree found.path left).setStatus jobId .cleaned) := by
        refine inv.update C jobId .cleaned ?_ (fun ws member own => ?_) fun ws member other => ?_
        · rw [State.setStatus, State.rmtree_registry]
          rfl
        · rw [inv.path_eq C jobId found registered ws member own]
          refine iff_of_true rfl fun remains => ?_
          rcases (σ.mem_rmtree _ _ _).mp remains with ⟨there, spared⟩
          rcases spared there with apart | left_over
          · exact apart (List.prefix_refl _)
          · simp [left_over] at one
        · refine (σ.mem_rmtree _ _ _).trans (and_iff_left_of_imp fun there _ => ?_)
          have kept := List.all_eq_true.mp one.2 ws member
          have present : ws.status ≠ .cleaned := fun cleaned => (inv ws member).2.mp cleaned there
          simpa [other, present, ← List.isPrefixOf_iff_prefix] using kept
      simpa [enabled] using clean
  · simpa [enabled] using inv

theorem keepsGone_of_subset (σ : State) (except : String) (dirs fewer : List Path) (within : fewer ⊆ dirs)
    (gone : σ.keepsGone except dirs = true) : σ.keepsGone except fewer = true := by
  refine List.all_eq_true.mpr fun ws member => ?_
  have kept := List.all_eq_true.mp gone ws member
  by_cases there : resolve ws.path ∈ fewer
  · simpa [there, within there] using kept
  · simp [there]

theorem Inv.grow {σ τ : State} (inv : Inv C σ) (jobId : String) (absent : σ.get jobId = none)
    (registry : τ.registry = σ.registry) (dirs more : List Path) (disk : τ.disk = σ.disk ++ more)
    (within : more ⊆ dirs) (gone : σ.keepsGone jobId dirs = true) : Inv C τ := by
  refine inv.disk C registry fun ws member => ?_
  rw [disk]
  exact inv.added C jobId dirs more gone within ws member (σ.get_none jobId absent ws member)

theorem Inv.createWorkspace {σ : State} (inv : Inv C σ) (jobId : String) (sessionId : Option String) (uuid : String)
    (how : Mkdir) (gone : σ.keepsGone jobId (onTheWay (jobPath C.workspaceRoot jobId)) = true) :
    Inv C (createWorkspace C σ jobId sessionId uuid how).1 := by
  rw [Workspaces.createWorkspace]
  rcases registered : σ.get jobId with _ | found
  · have others := σ.get_none jobId registered
    cases how with
    | raised count => exact inv.grow C jobId registered rfl _ _ rfl (dirs_subset (.raised count) _) gone
    | made =>
      intro ws member
      rcases List.mem_append.mp member with before | new
      · have kept := inv.added C jobId _ _ gone (dirs_subset .made _) ws before (others ws before)
        exact ⟨(inv ws before).1, (inv ws before).2.trans kept.not.symm⟩
      · obtain rfl := List.mem_singleton.mp new
        refine ⟨rfl, iff_of_false (by simp) (not_not.mpr ?_)⟩
        exact List.mem_append_right _ (by simpa [Mkdir.dirs] using resolve_mem_onTheWay _ [])
  · exact inv

theorem openSandbox_spec (σ : State) (workspace : Path) (inner tmp : Mkdir) :
    (openSandbox σ workspace inner tmp).1.registry = σ.registry ∧
      ∃ more, (openSandbox σ workspace inner tmp).1.disk = σ.disk ++ more ∧
        more ⊆ onTheWay (workspace ++ ["workspace"]) ++ onTheWay (workspace ++ [".tmp"]) ∧
        (inner = .made → resolve workspace ∈ more) ∧
        ∀ path, (openSandbox σ workspace inner tmp).2 = some path → path = workspace ∧ inner = .made := by
  have inside : resolve workspace ∈ Mkdir.made.dirs (workspace ++ ["workspace"]) := resolve_mem_onTheWay _ _
  cases inner with
  | raised count =>
    refine ⟨rfl, _, rfl, ?_, by simp, by simp [openSandbox]⟩
    exact List.Subset.trans (dirs_subset (.raised count) _) (List.subset_append_left _ _)
  | made =>
    refine ⟨by cases tmp <;> rfl, Mkdir.made.dirs (workspace ++ ["workspace"]) ++ tmp.dirs (workspace ++ [".tmp"]),
      ?_, ?_, fun _ => List.mem_append_left _ inside, ?_⟩
    · cases tmp <;> exact List.append_assoc _ _ _
    · refine List.append_subset.mpr ⟨List.subset_append_left _ _, ?_⟩
      exact List.Subset.trans (dirs_subset tmp _) (List.subset_append_right _ _)
    · cases tmp with
      | raised count => simp [openSandbox]
      | made =>
        intro path returned
        exact ⟨(Option.some.inj returned).symm, rfl⟩

theorem Inv.activate {σ : State} (inv : Inv C σ) (jobId : String) (found : Workspace)
    (registered : σ.get jobId = some found) (inner tmp : Mkdir)
    (gone : σ.keepsGone jobId (onTheWay (jobPath C.workspaceRoot jobId ++ ["workspace"]) ++
      onTheWay (jobPath C.workspaceRoot jobId ++ [".tmp"])) = true)
    (back : found.status ≠ .cleaned ∨ inner = .made) :
    Inv C (openSandbox (σ.setStatus jobId .active) found.path inner tmp).1 := by
  rcases openSandbox_spec (σ.setStatus jobId .active) found.path inner tmp with ⟨registry, more, disk, within, opened, -⟩
  have place : found.path = jobPath C.workspaceRoot jobId := by
    rw [(inv found (σ.get_some jobId found registered).1).1, (σ.get_some jobId found registered).2]
  refine inv.update C jobId .active registry (fun ws member own => ?_) fun ws member other => ?_
  · rw [inv.path_eq C jobId found registered ws member own, disk]
    refine iff_of_false (by simp) (not_not.mpr ?_)
    rcases back with present | made
    · refine List.mem_append_left _ (not_not.mp fun missing => present ?_)
      exact (inv found (σ.get_some jobId found registered).1).2.mpr missing
    · exact List.mem_append_right _ (opened made)
  · rw [disk]
    exact inv.added C jobId _ _ gone (place ▸ within) ws member other

theorem Inv.createSandbox {σ : State} (inv : Inv C σ) (jobId : String) (sessionId : Option String) (uuid : String)
    (how fallback inner tmp : Mkdir)
    (gone : σ.keepsGone jobId (onTheWay (jobPath C.workspaceRoot jobId ++ ["workspace"]) ++
      onTheWay (jobPath C.workspaceRoot jobId ++ [".tmp"])) = true)
    (back : ∀ ws, σ.get jobId = some ws → ws.status ≠ .cleaned ∨ inner = .made) :
    Inv C (createSandbox C σ jobId sessionId uuid how fallback inner tmp).1 := by
  have way : onTheWay (jobPath C.workspaceRoot jobId) ⊆ onTheWay (jobPath C.workspaceRoot jobId ++ ["workspace"]) ++
      onTheWay (jobPath C.workspaceRoot jobId ++ [".tmp"]) :=
    List.Subset.trans (onTheWay_subset _ _) (List.subset_append_left _ _)
  rcases registered : σ.get jobId with _ | found
  · have opened := inv.createWorkspace C jobId sessionId uuid how (keepsGone_of_subset σ jobId _ _ way gone)
    cases how with
    | made =>
      rw [Workspaces.createWorkspace, registered] at opened
      rw [Workspaces.createSandbox, Workspaces.createWorkspace, registered]
      refine opened.activate C jobId _ ?_ inner tmp ?_ (.inl (by simp))
      · rw [State.get, List.find?_append, show σ.registry.find? _ = none from registered, Option.none_or]
        simp
      · rw [State.keepsGone, List.all_append, Bool.and_eq_true]
        exact ⟨gone, by simp⟩
    | raised count =>
      rw [Workspaces.createSandbox, Workspaces.createWorkspace, registered]
      cases fallback with
      | raised again =>
        refine inv.grow C jobId registered rfl _ _ (List.append_assoc _ _ _) ?_ gone
        exact List.Subset.trans (List.append_subset.mpr ⟨dirs_subset _ _, dirs_subset _ _⟩) way
      | made =>
        rcases openSandbox_spec ((σ.mkdir (jobPath C.workspaceRoot jobId) (.raised count)).mkdir
          (jobPath C.workspaceRoot jobId) .made) (jobPath C.workspaceRoot jobId) inner tmp with
          ⟨registry, more, disk, within, -, -⟩
        have total (front back : List Path) : ((σ.disk ++ front) ++ back) ++ more = σ.disk ++ (front ++ (back ++ more)) := by
          rw [List.append_assoc, List.append_assoc]
        refine inv.grow C jobId registered registry _ _ (disk.trans (total _ _)) ?_ gone
        refine List.append_subset.mpr ⟨List.Subset.trans (dirs_subset _ _) way,
          List.append_subset.mpr ⟨?_, within⟩⟩
        exact List.Subset.trans (dirs_subset _ _) way
  · rw [Workspaces.createSandbox, Workspaces.createWorkspace, registered]
    exact inv.activate C jobId found registered inner tmp gone (back found registered)

/-- A careful call keeps the invariant. -/
theorem Inv.step {σ : State} (inv : Inv C σ) (call : Call) (allowed : careful C σ call = true) :
    Inv C (step C σ call) := by
  cases call with
  | createWorkspace jobId sessionId uuid how =>
    rw [Workspaces.step]
    rw [careful] at allowed
    rcases registered : σ.get jobId with _ | found
    · rw [registered] at allowed
      exact inv.createWorkspace C jobId sessionId uuid how allowed
    · rw [Workspaces.createWorkspace, registered]
      exact inv
  | createSandbox jobId sessionId uuid how fallback inner tmp =>
    rw [careful, Bool.and_eq_true] at allowed
    refine inv.createSandbox C jobId sessionId uuid how fallback inner tmp allowed.1 fun ws registered => ?_
    simpa [registered] using allowed.2
  | setWorkspaceStatus jobId status =>
    rw [Workspaces.step, Workspaces.setWorkspaceStatus]
    rw [careful] at allowed
    rcases valid : Status.ofName? status with _ | status
    · exact inv
    · rw [valid] at allowed
      exact inv.setStatus C jobId status allowed
  | destroySandbox jobId cleanupPolicy how =>
    rw [Workspaces.step, Workspaces.destroySandbox]
    rw [careful] at allowed
    rcases registered : σ.get jobId with _ | found
    · exact inv
    · by_cases purge : cleanupPolicy = "purge"
      · rw [if_pos purge] at allowed ⊢
        exact inv.cleanupWorkspace C jobId how allowed
      · rw [if_neg purge] at allowed ⊢
        exact inv.setStatus C jobId .uploaded allowed
  | cleanupWorkspace jobId how =>
    rw [careful] at allowed
    exact inv.cleanupWorkspace C jobId how allowed

theorem live_of_registry (τ : State) (jobId : String) (path : Path) (there : resolve path ∈ τ.disk)
    (present : ∀ ws ∈ τ.registry, ws.jobId = jobId → ws.status ≠ .cleaned) : Live τ (jobId, path) :=
  ⟨there, fun ws found => present ws (τ.get_some jobId ws found).1 (τ.get_some jobId ws found).2⟩

theorem openSandbox_live (σ : State) (jobId : String) (workspace path : Path) (inner tmp : Mkdir)
    (present : ∀ ws ∈ σ.registry, ws.jobId = jobId → ws.status ≠ .cleaned)
    (returns : (openSandbox σ workspace inner tmp).2 = some path) :
    Live (openSandbox σ workspace inner tmp).1 (jobId, path) := by
  rcases openSandbox_spec σ workspace inner tmp with ⟨registry, more, disk, -, opened, result⟩
  rcases result path returns with ⟨rfl, made⟩
  refine live_of_registry _ jobId path ?_ (registry ▸ present)
  rw [disk]
  exact List.mem_append_right _ (opened made)

theorem setStatus_active (σ : State) (jobId : String) (ws : Workspace)
    (member : ws ∈ (σ.setStatus jobId .active).registry) (own : ws.jobId = jobId) : ws.status ≠ .cleaned := by
  rcases σ.mem_setStatus jobId .active ws member with ⟨old, -, job, -, ⟨-, active⟩ | ⟨other, -⟩⟩
  · rw [active]
    simp
  · exact absurd (job.symm.trans own) other

/-- What `create_sandbox` returns is live, whatever was there before. -/
theorem createSandbox_live (σ : State) (jobId : String) (sessionId : Option String) (uuid : String)
    (how fallback inner tmp : Mkdir) (path : Path)
    (returns : (createSandbox C σ jobId sessionId uuid how fallback inner tmp).2 = some path) :
    Live (createSandbox C σ jobId sessionId uuid how fallback inner tmp).1 (jobId, path) := by
  rw [createSandbox] at returns ⊢
  rcases registered : σ.get jobId with _ | found
  · have others := σ.get_none jobId registered
    rw [createWorkspace, registered] at returns ⊢
    cases how with
    | made => exact openSandbox_live _ jobId _ path inner tmp (setStatus_active _ jobId) returns
    | raised count =>
      cases fallback with
      | raised again => contradiction
      | made =>
        refine openSandbox_live _ jobId _ path inner tmp (fun ws member own => ?_) returns
        exact absurd own (others ws member)
  · rw [createWorkspace, registered] at returns ⊢
    exact openSandbox_live _ jobId _ path inner tmp (setStatus_active _ jobId) returns

theorem Inv.createWorkspace_live {σ : State} (inv : Inv C σ) (jobId : String) (sessionId : Option String)
    (uuid : String) (how : Mkdir) (present : ∀ ws, σ.get jobId = some ws → ws.status ≠ .cleaned) (ws : Workspace)
    (returns : (Workspaces.createWorkspace C σ jobId sessionId uuid how).2 = some ws) :
    Live (Workspaces.createWorkspace C σ jobId sessionId uuid how).1 (jobId, ws.path) := by
  rw [Workspaces.createWorkspace] at returns ⊢
  rcases registered : σ.get jobId with _ | found
  · rw [registered] at returns
    cases how with
    | raised count => contradiction
    | made =>
      obtain rfl := Option.some.inj returns
      refine live_of_registry _ jobId _ ?_ fun ws member own => ?_
      · exact List.mem_append_right _ (by simpa [Mkdir.dirs] using resolve_mem_onTheWay _ [])
      · rcases List.mem_append.mp member with before | new
        · exact absurd own (σ.get_none jobId registered ws before)
        · rw [List.mem_singleton.mp new]
          simp
  · rw [registered] at returns
    obtain rfl := Option.some.inj returns
    have side := (inv found (σ.get_some jobId found registered).1).2
    exact ⟨not_not.mp fun missing => present found registered (side.mpr missing), present⟩

theorem Inv.returned_live {σ : State} (inv : Inv C σ) (call : Call) (allowed : careful C σ call = true)
    (job : String × Path) (returns : returned C σ call = some job) : Live (Workspaces.step C σ call) job := by
  cases call with
  | createWorkspace jobId sessionId uuid how =>
    rcases Option.map_eq_some_iff.mp returns with ⟨ws, made, rfl⟩
    refine inv.createWorkspace_live C jobId sessionId uuid how (fun found registered => ?_) ws made
    rw [careful, registered] at allowed
    simpa using allowed
  | createSandbox jobId sessionId uuid how fallback inner tmp =>
    rcases Option.map_eq_some_iff.mp returns with ⟨path, made, rfl⟩
    exact createSandbox_live C σ jobId sessionId uuid how fallback inner tmp path made
  | setWorkspaceStatus jobId status => contradiction
  | destroySandbox jobId cleanupPolicy how => contradiction
  | cleanupWorkspace jobId how => contradiction

end

/-! Runs from a process that has registered nothing. -/

def started (disk : List Path) : State := { registry := [], disk := disk }

/-- In a run of careful calls, every workspace that is returned is live, and no cleaned workspace has a
directory. -/
theorem workspaces_live (C : Config) (disk : List Path) (calls : List Call)
    (allowed : Runs.Guarded (step C) (careful C) (started disk) calls = true) :
    (∀ before rest, calls = before ++ rest → CleanedGone (Runs.run (step C) (started disk) before)) ∧
      ∀ before call rest, calls = before ++ call :: rest → ∀ job,
        returned C (Runs.run (step C) (started disk) before) call = some job →
        Live (step C (Runs.run (step C) (started disk) before) call) job := by
  have start : Inv C (started disk) := fun ws member => absurd member List.not_mem_nil
  have keeps (σ : State) (call : Call) (inv : Inv C σ) (safe : careful C σ call = true) :
      Inv C (step C σ call) := inv.step C call safe
  constructor
  · rintro before rest rfl
    rw [Runs.guarded_append, Bool.and_eq_true] at allowed
    exact (Runs.run_invariant (step C) (Inv C) (careful C) keeps before _ start allowed.1).gone
  · rintro before call rest rfl job returns
    rw [Runs.guarded_append, Bool.and_eq_true, Runs.Guarded, Bool.and_eq_true] at allowed
    have inv := Runs.run_invariant (step C) (Inv C) (careful C) keeps before _ start allowed.1
    exact inv.returned_live C call allowed.2.1 job returns

def jobsConfig : Config := { workspaceRoot := ["tmp", "jobs"], cleanupEnabled := true }

def purgedAndBack : List Call :=
  [.createSandbox "job-1" none "s-1" .made .made .made .made,
    .destroySandbox "job-1" "purge" (.removed []),
    .createSandbox "job-1" none "s-2" .made .made .made .made]

theorem purgedAndBack_live :
    (∀ before rest, purgedAndBack = before ++ rest →
      CleanedGone (Runs.run (step jobsConfig) (started []) before)) ∧
    ∀ before call rest, purgedAndBack = before ++ call :: rest → ∀ job,
      returned jobsConfig (Runs.run (step jobsConfig) (started []) before) call = some job →
      Live (step jobsConfig (Runs.run (step jobsConfig) (started []) before) call) job :=
  workspaces_live jobsConfig [] purgedAndBack (by decide)

/-- A workspace that is created, cleaned and created again is returned as cleaned, without a directory. -/
theorem cleaned_workspace_returned :
    ¬∀ calls before call rest, calls = before ++ call :: rest → ∀ job,
      returned jobsConfig (Runs.run (step jobsConfig) (started []) before) call = some job →
      Live (step jobsConfig (Runs.run (step jobsConfig) (started []) before) call) job := by
  intro every
  have live := every _ [.createWorkspace "job-1" none "s-1" .made, .cleanupWorkspace "job-1" (.removed [])]
    (.createWorkspace "job-1" none "s-2" .made) [] rfl ("job-1", ["tmp", "jobs", "job-1"]) (by decide)
  exact absurd live.1 (by decide)

end GenesisAgents.Workspaces
