import GenesisAgents.Value
import GenesisAgents.Library.SeparatedPaths

/-! The path checks of the job tools: `file_write` of `tools/file_write_tool.py`,
`assert_inside_workspace` of `runtime/workspace_manager.py`, and the `cwd` of `run_in_sandbox` in
`runtime/sandbox_manager.py`. -/

namespace GenesisAgents.JobFiles

open Value SeparatedPaths

structure FileName where
  text : List Char
  plain : text ≠ [] ∧ text ≠ ['.'] ∧ text ≠ ['.', '.'] ∧ '/' ∉ text
  deriving DecidableEq

def FileName.of? (text : List Char) : Option FileName :=
  if plain : text ≠ [] ∧ text ≠ ['.'] ∧ text ≠ ['.', '.'] ∧ '/' ∉ text then some ⟨text, plain⟩ else none

/-- An absolute path without links, as the names from the root. -/
abbrev Location := List FileName

def Location.parts (here : Location) : List (List Char) := here.map FileName.text

/-- `str(path)` -/
def Location.str (here : Location) : List Char :=
  if here = [] then ['/'] else render '/' here.parts

def LinkFree (entry : Location → FileName → Option Location) (here : Location) : Prop :=
  ∀ front name, front ++ [name] <+: here → entry front name = some (front ++ [name])

/-- The disk, as `realpath` sees it. -/
structure FileSystem where
  /-- Where an entry of a directory leads once its links are resolved; the entry itself when it is no
  link or does not exist. `none` is an error: a loop of links, or a name no path can hold. -/
  entry : Location → FileName → Option Location
  lands : ∀ here name landing, LinkFree entry here → entry here name = some landing →
    LinkFree entry landing
  cwd : Location
  cwdLinkFree : LinkFree entry cwd

namespace FileSystem

variable (F : FileSystem)

/-- The parts of a path, one after the other; `..` goes up from where the links have led. -/
def walk : Location → List (List Char) → Option Location
  | here, [] => some here
  | here, part :: rest =>
    if part = [] ∨ part = ['.'] then walk here rest
    else if part = ['.', '.'] then walk here.dropLast rest
    else (FileName.of? part).bind fun name =>
      (F.entry here name).bind fun landing => walk landing rest

/-- `Path(path).resolve()` -/
def resolve (path : List Char) : Option Location :=
  F.walk (if path.head? = some '/' then [] else F.cwd) (path.splitOn '/')

end FileSystem

/-- `base / path`, for an absolute base: an absolute path replaces it. -/
def joinPath (base : Location) (path : List Char) : List Char :=
  if path.head? = some '/' then path else base.str ++ '/' :: path

/-- How `file_write` ends before the disk is touched. -/
inductive FileWrite where
  | raised
  | refused (error : String)
  | writes (target : Location) (content : String)
  deriving DecidableEq

/-- What `file_write` returns, unless it raises. -/
def FileWrite.result : FileWrite → Option Value
  | raised => none
  | refused error => some (dict [("ok", bool false), ("error", str error)])
  | writes target content => some (dict [("ok", bool true), ("path", str (String.ofList target.str)),
      ("size", int content.length)])

inductive WorkspaceError where
  | valueError | permissionError

section

variable (F : FileSystem)

/-- `file_write` -/
def fileWrite (jobDir : Option Location) (path : List Char) (content : String) : FileWrite :=
  match jobDir with
  | none => .refused "no_job_dir"
  | some jobDir =>
    match F.resolve (joinPath jobDir path), F.resolve jobDir.str with
    | some safePath, some root =>
      if root.str.isPrefixOf safePath.str then .writes safePath content
      else .refused "path_escape_attempt"
    | _, _ => .raised

/-- `assert_inside_workspace`; the workspace is `none` when the job has none. -/
def assertInsideWorkspace (workspace : Option Location) (path : List Char) :
    Except WorkspaceError Location :=
  match workspace with
  | none => .error .valueError
  | some workspace =>
    match F.resolve path, F.resolve workspace.str with
    | some resolved, some root =>
      if resolved.str ≠ root.str ∧ ¬(root.str ++ ['/']).isPrefixOf resolved.str then
        .error .permissionError
      else .ok resolved
    | _, _ => .error .valueError

/-- `run_cwd` of `run_in_sandbox`, when `relative_to` finds it in the workspace. -/
def runCwd (workspace : Location) (cwd : List Char) : Option Location := do
  let root ← F.resolve workspace.str
  let target ← F.resolve (if cwd = [] then workspace.str else joinPath workspace cwd)
  if root <+: target then some target else none

end

/-! Resolution lands on link-free paths, and leaves those alone. -/

theorem LinkFree.front {entry : Location → FileName → Option Location} {front here : Location}
    (free : LinkFree entry here) (before : front <+: here) : LinkFree entry front :=
  fun start name inside => free start name (inside.trans before)

theorem FileName.of?_text (name : FileName) : FileName.of? name.text = some name := by
  rw [FileName.of?, dif_pos name.plain]

section

variable (F : FileSystem)

theorem walk_linkFree (parts : List (List Char)) : ∀ (here landing : Location), LinkFree F.entry here →
    F.walk here parts = some landing → LinkFree F.entry landing := by
  induction parts with
  | nil =>
    intro here landing free walked
    rwa [← Option.some.inj walked]
  | cons part rest later =>
    intro here landing free walked
    rw [FileSystem.walk] at walked
    split at walked
    · exact later here landing free walked
    split at walked
    · exact later here.dropLast landing (free.front (List.dropLast_prefix here)) walked
    · rcases Option.bind_eq_some_iff.mp walked with ⟨name, -, entered⟩
      rcases Option.bind_eq_some_iff.mp entered with ⟨next, led, onward⟩
      exact later next landing (F.lands here name next free led) onward

theorem resolve_linkFree (path : List Char) (landing : Location)
    (resolved : F.resolve path = some landing) : LinkFree F.entry landing := by
  refine walk_linkFree F _ _ landing ?_ resolved
  split
  · intro front name inside
    exact absurd (List.prefix_nil.mp inside) (by simp)
  · exact F.cwdLinkFree

theorem walk_names (names : Location) : ∀ here, LinkFree F.entry (here ++ names) →
    F.walk here (Location.parts names) = some (here ++ names) := by
  induction names with
  | nil =>
    intro here _
    rw [List.append_nil]
    rfl
  | cons name rest later =>
    intro here free
    have plain := name.plain
    have entered : F.entry here name = some (here ++ [name]) :=
      free here name ⟨rest, by rw [List.append_assoc]; rfl⟩
    rw [List.append_cons] at free ⊢
    change F.walk here (name.text :: Location.parts rest) = _
    rw [FileSystem.walk, if_neg (by simp [plain.1, plain.2.1]), if_neg plain.2.2.1,
      FileName.of?_text, Option.bind_some, entered, Option.bind_some]
    exact later (here ++ [name]) free

theorem parts_free (here : Location) : ∀ part ∈ here.parts, '/' ∉ part := by
  intro part member
  rcases List.mem_map.mp member with ⟨name, -, rfl⟩
  exact name.plain.2.2.2

theorem resolve_str (here : Location) (free : LinkFree F.entry here) :
    F.resolve here.str = some here := by
  cases here with
  | nil =>
    rw [FileSystem.resolve]
    rfl
  | cons name rest =>
    have shape : Location.str (name :: rest) = render '/' (Location.parts (name :: rest)) := rfl
    rw [FileSystem.resolve, shape, splitOn_render _ _ (parts_free (name :: rest))]
    have first : (render '/' (Location.parts (name :: rest))).head? = some '/' := rfl
    rw [if_pos first, FileSystem.walk, if_pos (.inl rfl)]
    exact walk_names F (name :: rest) [] free

end

/-- The target lies in a directory beside `root`, or is one, whose name extends that of `root`. -/
def Sibling (root target : Location) : Prop := EndsInside root.parts target.parts

theorem FileName.text_injective : Function.Injective FileName.text := by
  intro a b same
  cases a
  cases b
  simpa using same

theorem parts_prefix (root target : Location) : root.parts <+: target.parts ↔ root <+: target :=
  List.prefix_map_iff_of_injective FileName.text_injective

theorem parts_ne_nil (here : Location) (filled : here ≠ []) : here.parts ≠ [] := by
  rw [Location.parts]
  simpa using filled

theorem not_sibling_of_inside (root target : Location) (inside : root <+: target) :
    ¬Sibling root target := by
  rintro ⟨front, last, other, rest, mine, theirs, -, apart⟩
  rw [← parts_prefix, mine, theirs, List.prefix_append_right_inj] at inside
  exact apart (List.cons_prefix_cons.mp inside).1

theorem str_of_filled (here : Location) (filled : here ≠ []) : here.str = render '/' here.parts :=
  if_neg filled

theorem str_length (here : Location) (filled : here ≠ []) : 1 < here.str.length := by
  rw [str_of_filled here filled]
  cases here with
  | nil => exact absurd rfl filled
  | cons name rest =>
    have named : 0 < name.text.length := List.length_pos_iff.mpr name.plain.1
    simp only [Location.parts, List.map_cons, render_cons, List.length_cons, List.length_append]
    omega

/-- The text of a directory is a prefix of the texts below it, and of its siblings' with longer names. -/
theorem str_prefix_iff (root target : Location) (filled : root ≠ []) :
    root.str <+: target.str ↔ root <+: target ∨ Sibling root target := by
  by_cases top : target = []
  · subst top
    refine iff_of_false (fun inside => ?_) ?_
    · exact absurd inside.length_le (not_le.mpr (str_length root filled))
    · rintro (inside | ends)
      · exact filled (List.prefix_nil.mp inside)
      · exact not_endsInside_nil _ ends
  · rw [str_of_filled root filled, str_of_filled target top, prefix_iff '/' _ _
      (parts_ne_nil root filled) (parts_free root) (parts_free target), parts_prefix, Sibling]

theorem str_slash_prefix_iff (root target : Location) (filled : root ≠ []) :
    root.str ++ ['/'] <+: target.str ↔ root <+: target ∧ root ≠ target := by
  by_cases top : target = []
  · subst top
    refine iff_of_false (fun inside => ?_) fun both => filled (List.prefix_nil.mp both.1)
    have longer := str_length root filled
    have shorter := inside.length_le
    rw [List.length_append] at shorter
    change root.str.length + 1 ≤ 1 at shorter
    omega
  · rw [str_of_filled root filled, str_of_filled target top, closed_prefix_iff '/' _ _
      (parts_free root) (parts_free target), parts_prefix]
    exact and_congr_right fun _ => not_congr (List.map_injective_iff.mpr FileName.text_injective).eq_iff

theorem str_injective (root target : Location) (same : root.str = target.str) : root = target := by
  by_cases filled : root = []
  · by_contra apart
    have longer := str_length target fun top => apart (filled.trans top.symm)
    rw [← same, filled] at longer
    exact absurd longer (lt_irrefl 1)
  by_cases top : target = []
  · have longer := str_length root filled
    rw [same, top] at longer
    exact absurd longer (lt_irrefl 1)
  · rw [str_of_filled root filled, str_of_filled target top] at same
    exact List.map_injective_iff.mpr FileName.text_injective
      (render_injective '/' _ _ (parts_free root) (parts_free target) same)

section

variable (F : FileSystem) (root : Location) (free : LinkFree F.entry root)

include free

theorem fileWrite_resolved (path : List Char) (content : String) (target : Location)
    (resolved : F.resolve (joinPath root path) = some target) :
    fileWrite F (some root) path content =
      if root.str.isPrefixOf target.str then .writes target content
      else .refused "path_escape_attempt" := by
  rw [fileWrite, resolved, resolve_str F root free]

theorem assertInsideWorkspace_resolved (target : Location) (direct : LinkFree F.entry target) :
    assertInsideWorkspace F (some root) target.str =
      if target.str ≠ root.str ∧ ¬(root.str ++ ['/']).isPrefixOf target.str then
        .error .permissionError
      else .ok target := by
  rw [assertInsideWorkspace, resolve_str F target direct, resolve_str F root free]

theorem fileWrite_writes_iff (path : List Char) (content : String) (target : Location) (text : String) :
    fileWrite F (some root) path content = .writes target text ↔
      F.resolve (joinPath root path) = some target ∧ text = content ∧ root.str <+: target.str := by
  rw [← List.isPrefixOf_iff_prefix]
  rcases resolved : F.resolve (joinPath root path) with _ | found
  · rw [fileWrite, resolved]
    exact iff_of_false nofun nofun
  · rw [fileWrite_resolved F root free path content found resolved]
    by_cases inside : root.str.isPrefixOf found.str = true
    · rw [if_pos inside]
      constructor
      · intro same
        have parts := FileWrite.writes.inj same
        exact ⟨congrArg some parts.1, parts.2.symm, parts.1 ▸ inside⟩
      · rintro ⟨same, rfl, -⟩
        rw [Option.some.inj same]
    · rw [if_neg inside]
      refine iff_of_false nofun ?_
      rintro ⟨same, -, starts⟩
      exact inside (Option.some.inj same ▸ starts)

/-- Below any directory but the root of the disk, the assertion is containment. -/
theorem assertInsideWorkspace_iff (target : Location) (direct : LinkFree F.entry target)
    (filled : root ≠ []) :
    assertInsideWorkspace F (some root) target.str =
      if root <+: target then .ok target else .error .permissionError := by
  rw [assertInsideWorkspace_resolved F root free target direct]
  have below := str_slash_prefix_iff root target filled
  rw [← List.isPrefixOf_iff_prefix] at below
  by_cases same : root = target
  · subst same
    rw [if_neg (fun both => both.1 rfl), if_pos List.prefix_rfl]
  · have apart : target.str ≠ root.str := fun equal => same (str_injective _ _ equal.symm)
    rw [and_iff_left same] at below
    by_cases inside : root <+: target
    · rw [if_pos inside, if_neg fun both => both.2 (below.mpr inside)]
    · rw [if_neg inside, if_pos ⟨apart, fun starts => inside (below.mp starts)⟩]

/-- The `cwd` of a shell command stays in the workspace, name by name. -/
theorem runCwd_iff (cwd : List Char) (target : Location) :
    runCwd F root cwd = some target ↔
      F.resolve (if cwd = [] then root.str else joinPath root cwd) = some target ∧ root <+: target := by
  rw [runCwd, resolve_str F root free]
  change ((F.resolve _).bind fun target => _) = _ ↔ _
  rw [Option.bind_eq_some_iff]
  constructor
  · rintro ⟨found, resolved, kept⟩
    split at kept
    · rename_i inside
      rw [← Option.some.inj kept]
      exact ⟨resolved, inside⟩
    · contradiction
  · rintro ⟨resolved, inside⟩
    exact ⟨target, resolved, if_pos inside⟩

end

structure WriteConfined (F : FileSystem) (root : Location) (path : List Char) (content : String) :
    Prop where
  within : ∀ target text, fileWrite F (some root) path content = .writes target text → root <+: target
  agrees : ∀ target, F.resolve (joinPath root path) = some target →
    ((∃ text, fileWrite F (some root) path content = .writes target text) ↔
      assertInsideWorkspace F (some root) target.str = .ok target)
  siblings : ∀ target, F.resolve (joinPath root path) = some target → Sibling root target →
    fileWrite F (some root) path content = .refused "path_escape_attempt" ∧
      assertInsideWorkspace F (some root) target.str = .error .permissionError

theorem top_str_prefix (target : Location) : Location.str [] <+: target.str := by
  cases target with
  | nil => exact List.prefix_rfl
  | cons name rest => exact ⟨_, rfl⟩

/-- Below the root of the disk the assertion takes the root alone: the separator is already there. -/
theorem assertInsideWorkspace_top (F : FileSystem) (target : Location) (direct : LinkFree F.entry target)
    (accepted : assertInsideWorkspace F (some []) target.str = .ok target) : target = [] := by
  have top : LinkFree F.entry [] := fun front name inside =>
    absurd (List.prefix_nil.mp inside) (by simp)
  rw [assertInsideWorkspace_resolved F [] top target direct] at accepted
  split at accepted
  · contradiction
  rename_i kept
  by_contra filled
  refine kept ⟨fun same => filled (str_injective _ _ same), fun slashed => ?_⟩
  rw [List.isPrefixOf_iff_prefix] at slashed
  cases target with
  | nil => exact filled rfl
  | cons name rest =>
    rcases shape : name.text with _ | ⟨c, text⟩
    · exact name.plain.1 shape
    · have start : Location.str (name :: rest) = '/' :: c :: (text ++ render '/' (Location.parts rest)) := by
        rw [str_of_filled _ filled, Location.parts, List.map_cons, render_cons, shape]
        rfl
      rw [start] at slashed
      have second := (List.cons_prefix_cons.mp (List.cons_prefix_cons.mp slashed).2).1
      refine name.plain.2.2.2 ?_
      rw [shape, ← second]
      exact List.mem_cons_self

/-- The checks of one path agree with containment exactly when the path does not resolve into a sibling
whose name extends that of the job directory, and, in the root of the disk, to nothing but the root. -/
theorem write_confined_iff (F : FileSystem) (root : Location) (free : LinkFree F.entry root)
    (path : List Char) (content : String) :
    WriteConfined F root path content ↔ ∀ target, F.resolve (joinPath root path) = some target →
      (root = [] → target = []) ∧ ¬Sibling root target := by
  have writes := fileWrite_writes_iff F root free path content
  constructor
  · intro confined target resolved
    refine ⟨fun top => ?_, fun sibling => ?_⟩
    · subst top
      have accepted := (confined.agrees target resolved).mp
        ⟨content, (writes target content).mpr ⟨resolved, rfl, top_str_prefix target⟩⟩
      exact assertInsideWorkspace_top F target (resolve_linkFree F _ target resolved) accepted
    · have filled : root ≠ [] := by
        rintro rfl
        rcases sibling with ⟨front, last, other, rest, nothing, -⟩
        exact absurd nothing.symm (by simp [Location.parts])
      have wrote := (writes target content).mpr
        ⟨resolved, rfl, (str_prefix_iff root target filled).mpr (.inr sibling)⟩
      rw [(confined.siblings target resolved sibling).1] at wrote
      contradiction
  · intro apart
    refine ⟨fun target text wrote => ?_, fun target resolved => ?_, fun target resolved sibling =>
      absurd sibling (apart target resolved).2⟩
    · rcases (writes target text).mp wrote with ⟨resolved, -, starts⟩
      by_cases top : root = []
      · rw [top]
        exact List.nil_prefix
      · exact ((str_prefix_iff root target top).mp starts).resolve_right (apart target resolved).2
    · have direct := resolve_linkFree F _ target resolved
      have accepts : (∃ text, fileWrite F (some root) path content = .writes target text) ↔
          root.str <+: target.str :=
        ⟨fun ⟨text, wrote⟩ => ((writes target text).mp wrote).2.2,
          fun starts => ⟨content, (writes target content).mpr ⟨resolved, rfl, starts⟩⟩⟩
      rw [accepts]
      by_cases top : root = []
      · have same := (apart target resolved).1 top
        subst top
        subst same
        refine iff_of_true List.prefix_rfl ?_
        rw [assertInsideWorkspace_resolved F [] free [] direct]
        exact if_neg fun both => both.1 rfl
      · rw [str_prefix_iff root target top, or_iff_left (apart target resolved).2,
          assertInsideWorkspace_iff F root free target direct top]
        by_cases inside : root <+: target
        · simp [inside]
        · simp [inside]

/-! A job directory whose name begins the name of another one. -/

def plainName (text : List Char)
    (plain : text ≠ [] ∧ text ≠ ['.'] ∧ text ≠ ['.', '.'] ∧ '/' ∉ text := by decide) : FileName :=
  ⟨text, plain⟩

def linkless : FileSystem :=
  { entry := fun here name => some (here ++ [name])
    lands := fun _ _ _ _ _ _ _ _ => rfl
    cwd := []
    cwdLinkFree := fun _ _ _ => rfl }

def jobDirectory : Location :=
  [plainName "tmp".toList, plainName "jobs".toList, plainName "job-1".toList]

theorem report_confined : LinkFree linkless.entry jobDirectory ∧
    WriteConfined linkless jobDirectory "report.md".toList "done" := by
  have free : LinkFree linkless.entry jobDirectory := fun _ _ _ => rfl
  refine ⟨free, (write_confined_iff linkless jobDirectory free _ _).mpr ?_⟩
  intro target resolved
  have found : linkless.resolve (joinPath jobDirectory "report.md".toList) =
      some (jobDirectory ++ [plainName "report.md".toList]) := by
    decide
  have same := Option.some.inj (resolved.symm.trans found)
  refine ⟨nofun, fun sibling => not_sibling_of_inside jobDirectory target ?_ sibling⟩
  rw [same]
  exact List.prefix_append _ _

theorem sibling_written : ¬∀ (F : FileSystem) (root : Location), LinkFree F.entry root →
    ∀ path content, WriteConfined F root path content := by
  intro confined
  have all := confined linkless jobDirectory (fun _ _ _ => rfl) "../job-12/report.md".toList "done"
  have wrote : fileWrite linkless (some jobDirectory) "../job-12/report.md".toList "done" =
      .writes [plainName "tmp".toList, plainName "jobs".toList, plainName "job-12".toList,
        plainName "report.md".toList] "done" := by
    decide
  have inside := all.within _ _ wrote
  exact absurd inside (by decide)

end GenesisAgents.JobFiles
