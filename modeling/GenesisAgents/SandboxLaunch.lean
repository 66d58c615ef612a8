import GenesisAgents.PathConfinement
import GenesisAgents.TraceRedaction
import GenesisAgents.Library.Assignments
import GenesisAgents.Library.KeyedGroups
import GenesisAgents.Library.OptionArgs

/-! `run_in_sandbox` of `runtime/sandbox_manager.py`: the shell commands of the agents, and what the
`bwrap` that it starts makes of its arguments. -/

namespace GenesisAgents.SandboxLaunch

open Value JobFiles TraceRedaction Regexes Regexes.Regex Assignments OptionArgs

structure Gateway where
  disk : FileSystem
  classes : Classes
  lower : String → String
  repr : String → String
  /-- `os.environ.get` -/
  environ : String → Option String
  /-- `_ALLOW_NETWORK` -/
  allowNetwork : Bool
  /-- `_MAX_TIMEOUT_S` -/
  maxTimeout : Int
  /-- `_bwrap_path()` -/
  bwrapPath : Option String
  /-- `_bwrap_works()` -/
  bwrapWorks : Bool
  /-- The directories that `mkdir` finds or makes. -/
  mkdir : Location → Bool

structure ShellCall where
  command : String
  /-- `int(timeout_s)`; `none` when it raises. -/
  timeout : Option Int
  env : List (String × String)
  /-- Empty without one. -/
  cwd : String

variable (G : Gateway)

def blockedPrefixes : List String :=
  ["rm -rf /", "rm -rf ~", "dd ", "mkfs", "fdisk", "shutdown", "reboot", "halt", "kill -9 1", "pkill",
    "killall", ":()\x7b :|:& \x7d;:", "> /dev/sda", "chmod 777 /", "chown root", "mount ", "umount ",
    "insmod", "modprobe"]

def oneOf : List Regex → Regex
  | [] => run (fun _ => false) 1 none
  | [r] => r
  | r :: rest => alt r (oneOf rest)

def word (text : String) : Regex := literal TraceRedaction.ignoringCase text.toList

/-- `_PIPE_TO_SHELL_RE` -/
def pipeToShell : Regex :=
  sequence [word "|", run isSpace 0 none, oneOf [word "bash", word "sh", word "zsh",
    seq (word "python") (run (TraceRedaction.ignoringCase '3') 0 (some 1)), word "perl", word "ruby", word "node"],
    boundary]

/-- `_SENSITIVE_TOKENS`; at the end of a stripped text `\.env$` is `\.env\b`. -/
def sensitiveTokens : Regex :=
  oneOf [word "/etc/passwd", word "/etc/shadow", word "/etc/", word "/root/", word "/home/",
    word "/proc/", word "/sys/", word "/var/data", word "../", word "..\\", word "~/",
    seq (word ".env") boundary, word "id_rsa", word ".aws", word ".ssh", word "/dev/sd"]

/-- `_SECRET_VALUE_RE` -/
def secretValue : Regex :=
  oneOf [word "sk_live", word "sk_test",
    seq (word "akia") (run (fun c => (fold c).isAlphanum) 16 (some 16)), word "ghp_", word "glpat-",
    word "xoxp-", word "xoxb-"]

/-- `_REDACT_PATTERNS` -/
def redactPatterns : Regex :=
  oneOf (["token", "secret", "key", "password", "api_key", "apikey", "bearer", "auth", "private",
    "credential", "pwd"].map word)

def finds (r : Regex) (text : String) : Bool := search (isWord G.classes) r none text.toList

/-- `guard_command` -/
def guardCommand (command : String) : Option String :=
  let s := strip command
  if s = "" then some "empty_command"
  else
    let low := G.lower s
    match blockedPrefixes.find? fun p => isSubstring (G.lower p) low with
    | some p => some ("blocked_command:" ++ strip p)
    | none =>
      if finds G pipeToShell low then some "pipe_to_shell_blocked"
      else if finds G sensitiveTokens s then some "sensitive_path_blocked"
      else none

/-- `_SAFE_ENV_PASSTHROUGH` -/
def safeEnvPassthrough : List String := ["PATH", "LANG", "LC_ALL", "LC_CTYPE", "TERM"]

def passed (k : String) : Option (String × String) :=
  (G.environ k).bind fun v => if v = "" then none else some (k, v)

/-- `_safe_env` -/
def safeEnv (workspace : Location) : List (String × String) :=
  let env := safeEnvPassthrough.filterMap (passed G)
  let env := if (env.lookup "PATH").isSome then env
    else store env "PATH" "/usr/local/bin:/usr/bin:/bin"
  let env := store env "HOME" (String.ofList workspace.str)
  store env "TMPDIR" (String.ofList (joinPath workspace ".tmp".toList))

def looksSecret (entry : String × String) : Bool :=
  finds G redactPatterns entry.1 || finds G secretValue entry.2

/-- `_merge_extra_env` -/
def mergeExtraEnv (env extra : List (String × String)) : List (String × String) :=
  update env (extra.filter fun entry => !looksSecret G entry)

/-- `as_posix` of a path below another one. -/
def asPosix (rel : Location) : List Char :=
  if rel = [] then ['.'] else ['/'].intercalate rel.parts

def chdir (rel : List Char) : String :=
  if rel = ['.'] ∨ rel = [] then "/workspace" else String.ofList ("/workspace/".toList ++ rel)

/-- `_build_bwrap_argv` -/
def buildBwrapArgv (workspace runCwd : Location) (env : List (String × String)) (command : String) :
    Option (List String) := do
  let wsResolved ← G.disk.resolve workspace.str
  let cwd ← G.disk.resolve runCwd.str
  let rel := if wsResolved <+: cwd then asPosix (cwd.drop wsResolved.length) else ['.']
  let argv := [
    match G.bwrapPath with
    | some path => if path = "" then "bwrap" else path
    | none => "bwrap",
    "--unshare-user", "--unshare-pid", "--unshare-ipc", "--unshare-uts", "--unshare-cgroup",
    "--die-with-parent",
    "--ro-bind", "/usr", "/usr",
    "--ro-bind-try", "/bin", "/bin",
    "--ro-bind-try", "/sbin", "/sbin",
    "--ro-bind-try", "/lib", "/lib",
    "--ro-bind-try", "/lib64", "/lib64",
    "--ro-bind-try", "/etc/ssl", "/etc/ssl",
    "--ro-bind-try", "/etc/resolv.conf", "/etc/resolv.conf",
    "--proc", "/proc",
    "--dev", "/dev",
    "--tmpfs", "/tmp",
    "--bind", String.ofList wsResolved.str, "/workspace",
    "--chdir", chdir rel,
    "--clearenv"]
  let argv := if G.allowNetwork then argv else argv.insertIdx 1 "--unshare-net"
  let sbEnv := store (store env "HOME" "/workspace") "TMPDIR" "/tmp"
  some (argv ++ (sbEnv.flatMap fun entry => ["--setenv", entry.1, entry.2]) ++ ["/bin/sh", "-c", command])

inductive Launch where
  | raised
  | refused (result : Value)
  /-- A process with these arguments and no environment, which gets so many seconds. -/
  | launched (argv : List String) (cwd : Location) (seconds : Int)

def isolationMode : Value := str (if G.bwrapWorks then "bwrap" else "unavailable")

def workspaceName : FileName := plainName "workspace".toList

def tmpName : FileName := plainName ".tmp".toList

/-- `workspace / cwd` -/
def requested (base : Location) (q : ShellCall) : List Char :=
  let workspace := base ++ [workspaceName]
  if q.cwd = "" then workspace.str else joinPath workspace q.cwd.toList

/-- `run_in_sandbox`, up to its `Popen`; `base` is the directory of the job. -/
def runInSandbox (base : Location) (q : ShellCall) : Launch :=
  if strip q.command = "" then .refused (dict [("ok", bool false), ("error", str "empty_command")])
  else
    match guardCommand G q.command with
    | some reason =>
      .refused (dict [("ok", bool false), ("error", str "command_blocked"), ("reason", str reason),
        ("isolation", isolationMode G)])
    | none =>
      let workspace := base ++ [workspaceName]
      if G.mkdir workspace && G.mkdir (base ++ [tmpName]) then
        match G.disk.resolve (requested base q), G.disk.resolve workspace.str with
        | some runCwd, some root =>
          if root <+: runCwd then
            match G.mkdir runCwd, q.timeout with
            | true, some timeout =>
              if G.bwrapWorks then
                match buildBwrapArgv G workspace runCwd (mergeExtraEnv G (safeEnv G workspace) q.env)
                  q.command with
                | some argv => .launched argv runCwd (min (max 1 timeout) G.maxTimeout)
                | none => .raised
              else
                .refused (dict [("ok", bool false), ("error", str "secure_sandbox_unavailable"),
                  ("isolation", str "unavailable"),
                  ("message", str "shell execution requires a functional bwrap boundary")])
            | _, _ => .raised
          else
            .refused (dict [("ok", bool false), ("error", str "path_escape_blocked"),
              ("message", str ("cwd " ++ G.repr q.cwd ++ " escapes the workspace"))])
        | _, _ => .raised
      else .raised

/-! What the manual of `bwrap` says of its options. -/

def pathParts (text : String) : List (List Char) := (text.toList.splitOn '/').filter (· ≠ [])

/-- The variables other than `PWD`, which `bwrap` keeps and sets itself. -/
abbrev Variable : Type := { k : String // k ≠ "PWD" }

inductive Shown where
  | host (source : List (List Char)) (writable : Bool)
  /-- A file system of the sandbox itself. -/
  | own

def shownAt (path : List (List Char)) : List (List Char) × Shown → Option (List (List Char) × Bool)
  | (place, .host source writable) => some (source ++ path.drop place.length, writable)
  | (_, .own) => none

structure View where
  /-- The host path that a path leads to, and whether it can be written. -/
  sees : List (List Char) → Option (List (List Char) × Bool)
  directory : List (List Char)
  environ : Variable → Option String
  unshared : String → Bool
  diesWithParent : Bool

def View.mount (v : View) (m : List (List Char) × Shown) : View :=
  { v with sees := fun path => if m.1.isPrefixOf path then shownAt path m else v.sees path }

inductive Effect where
  | unshare (kind : String)
  | dieWithParent
  | bind (writable : Bool)
  | own
  | chdir
  | clearenv
  | setenv

def Effect.apply (v : View) : Effect → List String → View
  | unshare kind, [] => { v with unshared := fun other => v.unshared other || other == kind }
  | dieWithParent, [] => { v with diesWithParent := true }
  | bind writable, [source, place] => v.mount (pathParts place, .host (pathParts source) writable)
  | own, [place] => v.mount (pathParts place, .own)
  | chdir, [directory] => { v with directory := pathParts directory }
  | clearenv, [] => { v with environ := fun _ => none }
  | setenv, [name, text] => { v with environ := fun k => if k.1 = name then some text else v.environ k }
  | _, _ => v

/-- The options, the number of their arguments and what they do; a source that does not exist shows nothing,
whether the mount is tried or made. -/
def documented : List (String × Nat × Effect) :=
  [("--unshare-net", 0, .unshare "net"), ("--unshare-user", 0, .unshare "user"),
    ("--unshare-pid", 0, .unshare "pid"), ("--unshare-ipc", 0, .unshare "ipc"),
    ("--unshare-uts", 0, .unshare "uts"), ("--unshare-cgroup", 0, .unshare "cgroup"),
    ("--die-with-parent", 0, .dieWithParent), ("--ro-bind", 2, .bind false),
    ("--ro-bind-try", 2, .bind false), ("--bind", 2, .bind true), ("--proc", 1, .own), ("--dev", 1, .own),
    ("--tmpfs", 1, .own), ("--chdir", 1, .chdir), ("--clearenv", 0, .clearenv), ("--setenv", 2, .setenv)]

def applied (v : View) (option : String × List String) : View :=
  match documented.lookup option.1 with
  | some (_, e) => e.apply v option.2
  | none => v

/-- A `bwrap` that does with these options what its manual says, where it makes a sandbox at all. -/
structure Bwrap where
  arity : String → Option Nat
  takes : ∀ o n e, documented.lookup o = some (n, e) → arity o = some n
  /-- The shell is no option. -/
  shell : arity "/bin/sh" = none
  Sandbox : Type
  /-- The sandbox before its options. -/
  bare : Sandbox
  setUp : Sandbox → String × List String → Option Sandbox
  view : Sandbox → View
  bare_sees : (view bare).sees = fun _ => none
  bare_net : (view bare).unshared "net" = false
  setUp_view : ∀ s option s' e, documented.lookup option.1 = some (option.2.length, e) →
    setUp s option = some s' → view s' = e.apply (view s) option.2

def Bwrap.sandbox (B : Bwrap) (args : List String) : Option (B.Sandbox × List String) :=
  (read B.arity args).bind fun (options, command) =>
    (options.foldlM B.setUp B.bare).map fun s => (s, command)

/-! The options that the gateway passes. -/

def systemPaths : List String :=
  ["/usr", "/bin", "/sbin", "/lib", "/lib64", "/etc/ssl", "/etc/resolv.conf"]

def unshared : List String :=
  (if G.allowNetwork then [] else ["net"]) ++ ["user", "pid", "ipc", "uts", "cgroup"]

def fixedOptions (root : List Char) (directory : String) : List (String × List String) :=
  [("--die-with-parent", []), ("--ro-bind", ["/usr", "/usr"]), ("--ro-bind-try", ["/bin", "/bin"]),
    ("--ro-bind-try", ["/sbin", "/sbin"]), ("--ro-bind-try", ["/lib", "/lib"]),
    ("--ro-bind-try", ["/lib64", "/lib64"]), ("--ro-bind-try", ["/etc/ssl", "/etc/ssl"]),
    ("--ro-bind-try", ["/etc/resolv.conf", "/etc/resolv.conf"]), ("--proc", ["/proc"]),
    ("--dev", ["/dev"]), ("--tmpfs", ["/tmp"]), ("--bind", [String.ofList root, "/workspace"]),
    ("--chdir", [directory]), ("--clearenv", [])]

def envOptions (env : List (String × String)) : List (String × List String) :=
  env.map fun entry => ("--setenv", [entry.1, entry.2])

def options (root : List Char) (directory : String) (env : List (String × String)) :
    List (String × List String) :=
  (unshared G).map (fun kind => ("--unshare-" ++ kind, [])) ++ fixedOptions root directory ++ envOptions env

def sandboxEnv (env : List (String × String)) : List (String × String) :=
  store (store env "HOME" "/workspace") "TMPDIR" "/tmp"

theorem written_env (env : List (String × String)) :
    OptionArgs.written (envOptions env) = env.flatMap fun entry => ["--setenv", entry.1, entry.2] := by
  induction env with
  | nil => rfl
  | cons entry rest later =>
    rw [envOptions, List.map_cons, OptionArgs.written_cons, ← envOptions, later]
    rfl

theorem buildBwrapArgv_written (workspace runCwd root : Location) (env : List (String × String))
    (command : String) (resolved : G.disk.resolve workspace.str = some root)
    (direct : G.disk.resolve runCwd.str = some runCwd) (inside : root <+: runCwd) :
    ∃ bwrap, buildBwrapArgv G workspace runCwd env command =
      some (bwrap :: (OptionArgs.written (options G root.str (chdir (asPosix (runCwd.drop root.length)))
        (sandboxEnv env)) ++ ["/bin/sh", "-c", command])) := by
  rw [buildBwrapArgv, resolved, direct, options, OptionArgs.written_append, OptionArgs.written_append, written_env]
  change ∃ bwrap, some _ = _
  rw [if_pos inside, unshared, sandboxEnv]
  cases G.allowNetwork with
  | false => exact ⟨_, rfl⟩
  | true => exact ⟨_, rfl⟩

theorem unshared_documented : ∀ kind ∈ unshared G,
    documented.lookup ("--unshare-" ++ kind) = some (0, .unshare kind) := by
  rw [unshared]
  cases G.allowNetwork with
  | false => simp [documented, List.lookup_cons]
  | true => simp [documented, List.lookup_cons]

theorem fixedOptions_documented (root : List Char) (directory : String) :
    ∀ option ∈ fixedOptions root directory,
      ∃ e, documented.lookup option.1 = some (option.2.length, e) := by
  simp [fixedOptions, documented, List.lookup_cons]

theorem options_take (B : Bwrap) (root : List Char) (directory : String) (env : List (String × String)) :
    ∀ option ∈ options G root directory env, B.arity option.1 = some option.2.length := by
  intro option member
  rw [options, List.mem_append, List.mem_append, List.mem_map, envOptions, List.mem_map] at member
  rcases member with (⟨kind, member, rfl⟩ | member) | ⟨entry, -, rfl⟩
  · exact B.takes _ 0 _ (unshared_documented G kind member)
  · obtain ⟨e, known⟩ := fixedOptions_documented root directory option member
    exact B.takes _ _ e known
  · exact B.takes _ 2 .setenv rfl

theorem options_documented (root : List Char) (directory : String) (env : List (String × String)) :
    ∀ option ∈ options G root directory env, ∃ e, documented.lookup option.1 = some (option.2.length, e) := by
  intro option member
  rw [options, List.mem_append, List.mem_append, List.mem_map, envOptions, List.mem_map] at member
  rcases member with (⟨kind, member, rfl⟩ | member) | ⟨entry, -, rfl⟩
  · exact ⟨_, unshared_documented G kind member⟩
  · exact fixedOptions_documented root directory option member
  · exact ⟨.setenv, rfl⟩

theorem setUp_applied (B : Bwrap) (options : List (String × List String))
    (known : ∀ option ∈ options, ∃ e, documented.lookup option.1 = some (option.2.length, e)) :
    ∀ s s', options.foldlM B.setUp s = some s' → B.view s' = options.foldl applied (B.view s) := by
  induction options with
  | nil =>
    intro s s' made
    rw [← Option.some.inj made]
    rfl
  | cons option rest later =>
    intro s s' made
    rw [List.foldlM_cons] at made
    obtain ⟨next, first, made⟩ := Option.bind_eq_some_iff.mp made
    obtain ⟨e, here⟩ := known option List.mem_cons_self
    have one : applied (B.view s) option = B.view next := by
      rw [applied, here, B.setUp_view s option next e here first]
    rw [List.foldl_cons, one]
    exact later (fun other member => known other (List.mem_cons_of_mem _ member)) next s' made

theorem applied_unshared (kinds : List String) (listed : ∀ kind ∈ kinds,
    documented.lookup ("--unshare-" ++ kind) = some (0, .unshare kind)) (v : View) :
    (kinds.map fun kind => ("--unshare-" ++ kind, ([] : List String))).foldl applied v =
      { v with unshared := fun other => v.unshared other || kinds.contains other } := by
  induction kinds generalizing v with
  | nil => simp
  | cons kind rest later =>
    have first : applied v ("--unshare-" ++ kind, []) =
        { v with unshared := fun other => v.unshared other || other == kind } := by
      rw [applied, listed kind List.mem_cons_self]
      rfl
    rw [List.map_cons, List.foldl_cons, first,
      later fun other member => listed other (List.mem_cons_of_mem _ member)]
    simp only [List.contains_cons, Bool.or_assoc]

theorem applied_env (entries : List (String × String)) (v : View) :
    (envOptions entries).foldl applied v =
      { v with environ := fun k => (entries.reverse.lookup k.1).or (v.environ k) } := by
  induction entries generalizing v with
  | nil => rfl
  | cons entry rest later =>
    rw [envOptions, List.map_cons, ← envOptions, List.foldl_cons]
    change List.foldl applied
      { v with environ := fun k => if k.1 = entry.1 then some entry.2 else v.environ k } _ = _
    rw [later]
    congr 1
    funext k
    rw [List.reverse_cons, List.lookup_append, Option.or_assoc, List.lookup_cons, List.lookup_nil]
    by_cases same : k.1 = entry.1
    · simp [same]
    · simp [same, beq_false_of_ne same]

def mounts (root : List Char) : List (List (List Char) × Shown) :=
  (systemPaths.map fun path => (pathParts path, Shown.host (pathParts path) false)) ++
    [(pathParts "/proc", .own), (pathParts "/dev", .own), (pathParts "/tmp", .own),
      (pathParts "/workspace", .host (pathParts (String.ofList root)) true)]

theorem applied_fixed (root : List Char) (directory : String) (v : View) :
    (fixedOptions root directory).foldl applied v =
      { (mounts root).foldl View.mount v with
        diesWithParent := true
        directory := pathParts directory
        environ := fun _ => none } := by
  simp [fixedOptions, mounts, applied, documented, Effect.apply, systemPaths, List.lookup_cons, View.mount]

theorem mount_sees (ms : List (List (List Char) × Shown)) (v : View) (path : List (List Char)) :
    (ms.foldl View.mount v).sees path =
      match ms.reverse.find? fun m => m.1.isPrefixOf path with
      | some m => shownAt path m
      | none => v.sees path := by
  induction ms generalizing v with
  | nil => rfl
  | cons m rest later =>
    rw [List.foldl_cons, later, List.reverse_cons, List.find?_append]
    cases rest.reverse.find? fun m => m.1.isPrefixOf path with
    | some _ => rfl
    | none =>
      rw [Option.none_or, List.find?_cons, View.mount]
      cases inside : m.1.isPrefixOf path with
      | true => simp [inside]
      | false => simp [inside]

theorem mount_unshared (ms : List (List (List Char) × Shown)) (v : View) :
    (ms.foldl View.mount v).unshared = v.unshared := by
  induction ms generalizing v with
  | nil => rfl
  | cons m rest later => exact later _

/-- What the options of the gateway make, with an environment of distinct variables. -/
theorem options_view (B : Bwrap) (root : List Char) (directory : String) (env : List (String × String))
    (distinct : (env.map Prod.fst).Nodup) (s : B.Sandbox)
    (made : (options G root directory env).foldlM B.setUp B.bare = some s) :
    (∀ path, (B.view s).sees path =
        ((mounts root).reverse.find? fun m => m.1.isPrefixOf path).bind (shownAt path)) ∧
      (B.view s).directory = pathParts directory ∧
      ((B.view s).environ = fun k => env.lookup k.1) ∧
      (∀ kind, (B.view s).unshared kind = ((B.view B.bare).unshared kind || (unshared G).contains kind)) ∧
      (B.view s).diesWithParent = true := by
  have whole := setUp_applied B _ (options_documented G root directory env) B.bare s made
  rw [options, List.foldl_append, List.foldl_append, applied_unshared _ (unshared_documented G), applied_fixed,
    applied_env] at whole
  rw [whole]
  refine ⟨?_, rfl, ?_, ?_, rfl⟩
  · intro path
    dsimp only
    rw [mount_sees]
    dsimp only
    rw [B.bare_sees]
    cases (mounts root).reverse.find? fun m => m.1.isPrefixOf path with
    | none => rfl
    | some m => rfl
  · funext k
    dsimp only
    rw [Option.or_none, lookup_reverse env k.1 distinct]
  · intro kind
    dsimp only
    rw [mount_unshared]

theorem parts_filled (here : Location) : here.parts.filter (· ≠ []) = here.parts := by
  rw [List.filter_eq_self]
  intro part member
  obtain ⟨name, -, rfl⟩ := List.mem_map.mp member
  exact decide_eq_true name.plain.1

theorem pathParts_render (parts : List (List Char)) (free : ∀ part ∈ parts, '/' ∉ part)
    (filled : parts.filter (· ≠ []) = parts) :
    pathParts (String.ofList (SeparatedPaths.render '/' parts)) = parts := by
  rw [pathParts, String.toList_ofList, SeparatedPaths.splitOn_render '/' parts free,
    List.filter_cons_of_neg (by simp), filled]

theorem pathParts_str (here : Location) : pathParts (String.ofList here.str) = here.parts := by
  by_cases top : here = []
  · rw [top]
    rfl
  · rw [str_of_filled here top]
    exact pathParts_render here.parts (parts_free here) (parts_filled here)

def systemMounts : List (List (List Char) × Shown) :=
  systemPaths.map fun path => (pathParts path, Shown.host (pathParts path) false)

theorem system_sees (path host : List (List Char)) (writable : Bool) :
    (systemMounts.reverse.find? fun mount => mount.1.isPrefixOf path).bind (shownAt path) = some (host, writable) ↔
      (∃ p ∈ systemPaths, pathParts p <+: path) ∧ host = path ∧ writable = false := by
  cases found : systemMounts.reverse.find? fun mount => mount.1.isPrefixOf path with
  | none =>
    rw [List.find?_eq_none] at found
    apply iff_of_false
    · intro seen
      cases seen
    · intro ⟨⟨p, member, inside⟩, _⟩
      have listed : (pathParts p, Shown.host (pathParts p) false) ∈ systemMounts.reverse :=
        List.mem_reverse.mpr (List.mem_map_of_mem member)
      exact found _ listed (List.isPrefixOf_iff_prefix.mpr inside)
  | some mount =>
    have inside : mount.1 <+: path := by simpa using List.find?_some found
    obtain ⟨p, member, rfl⟩ := List.mem_map.mp (List.mem_reverse.mp (List.mem_of_find?_eq_some found))
    have whole : pathParts p ++ path.drop (pathParts p).length = path := by
      obtain ⟨rest, rfl⟩ := inside
      rw [List.drop_left]
    rw [Option.bind_some, shownAt, whole, Option.some.injEq, Prod.mk.injEq]
    constructor
    · intro ⟨here, plain⟩
      exact ⟨⟨p, member, inside⟩, here.symm, plain.symm⟩
    · intro ⟨_, here, plain⟩
      exact ⟨here.symm, plain.symm⟩

def ownPaths : List String := ["/proc", "/dev", "/tmp"]

theorem own_apart (path : List (List Char)) (own p : String) (isOwn : own ∈ ownPaths)
    (isSystem : p ∈ systemPaths) (within : pathParts own <+: path) : ¬pathParts p <+: path := by
  intro inside
  have apart : (ownPaths.all fun own => systemPaths.all fun p =>
      !(pathParts own).isPrefixOf (pathParts p) && !(pathParts p).isPrefixOf (pathParts own)) = true := by
    decide
  have both := List.all_eq_true.mp (List.all_eq_true.mp apart own isOwn) p isSystem
  rw [Bool.and_eq_true, Bool.not_eq_true', Bool.not_eq_true', ← Bool.not_eq_true, ← Bool.not_eq_true,
    List.isPrefixOf_iff_prefix, List.isPrefixOf_iff_prefix] at both
  cases List.prefix_or_prefix_of_prefix within inside with
  | inl before => exact both.1 before
  | inr before => exact both.2 before

theorem workspace_apart (p : String) (isSystem : p ∈ systemPaths) (rest : List (List Char)) :
    ¬pathParts p <+: "workspace".toList :: rest := by
  intro inside
  have apart : (systemPaths.all fun p => (pathParts p).head?.any (· != "workspace".toList)) = true := by
    decide
  have first := List.all_eq_true.mp apart p isSystem
  cases parts : pathParts p with
  | nil => simp [parts] at first
  | cons head tail =>
    rw [parts] at inside first
    simp [(List.cons_prefix_cons.mp inside).1] at first

/-- The workspace at its place, and the system paths at theirs; nothing else of the host. -/
theorem mounts_see (root : Location) (path host : List (List Char)) (writable : Bool) :
    ((mounts root.str).reverse.find? fun mount => mount.1.isPrefixOf path).bind (shownAt path) =
        some (host, writable) ↔
      (∃ rest, path = "workspace".toList :: rest ∧ host = root.parts ++ rest ∧ writable = true) ∨
        (∃ p ∈ systemPaths, pathParts p <+: path) ∧ host = path ∧ writable = false := by
  have order : (mounts root.str).reverse = (pathParts "/workspace", .host root.parts true) ::
      (ownPaths.reverse.map fun own => (pathParts own, Shown.own)) ++ systemMounts.reverse := by
    rw [mounts, pathParts_str, List.reverse_append]
    rfl
  have place : pathParts "/workspace" = ["workspace".toList] := by decide
  rw [order, List.cons_append, List.find?_cons, place]
  by_cases below : ["workspace".toList] <+: path
  · obtain ⟨rest, rfl⟩ := below
    have nothing : ¬∃ p ∈ systemPaths, pathParts p <+: ["workspace".toList] ++ rest := by
      intro ⟨p, member, inside⟩
      exact workspace_apart p member rest inside
    have here : ["workspace".toList].isPrefixOf (["workspace".toList] ++ rest) = true :=
      List.isPrefixOf_iff_prefix.mpr (List.prefix_append _ _)
    simp only [here, Option.bind_some, shownAt, nothing, false_and, or_false, Option.some.injEq, Prod.mk.injEq]
    constructor
    · intro ⟨source, free⟩
      exact ⟨rest, rfl, source.symm, free.symm⟩
    · intro ⟨rest', same, source, free⟩
      have tail : rest = rest' := (List.cons.inj same).2
      rw [source, free, tail]
      exact ⟨rfl, rfl⟩
  · have elsewhere : ["workspace".toList].isPrefixOf path = false := by
      rw [← Bool.not_eq_true, List.isPrefixOf_iff_prefix]
      exact below
    have apart : ¬∃ rest, path = "workspace".toList :: rest ∧ host = root.parts ++ rest ∧ writable = true := by
      intro ⟨rest, same, _⟩
      exact below ⟨rest, same.symm⟩
    simp only [elsewhere, apart, false_or]
    rw [List.find?_append]
    cases found : (ownPaths.reverse.map fun own => (pathParts own, Shown.own)).find?
      fun mount => mount.1.isPrefixOf path with
    | none => exact system_sees path host writable
    | some mount =>
      have within : mount.1 <+: path := by simpa using List.find?_some found
      obtain ⟨own, isOwn, rfl⟩ := List.mem_map.mp (List.mem_of_find?_eq_some found)
      apply iff_of_false
      · intro seen
        cases seen
      · intro ⟨⟨p, isSystem, inside⟩, _⟩
        exact own_apart path own p (List.mem_reverse.mp isOwn) isSystem within inside

theorem asPosix_filled (rel : Location) (filled : rel ≠ []) :
    '/' :: asPosix rel = SeparatedPaths.render '/' rel.parts := by
  rw [asPosix, if_neg filled, SeparatedPaths.render_eq_cons '/' rel.parts (parts_ne_nil rel filled)]

theorem asPosix_named (rel : Location) (filled : rel ≠ []) : asPosix rel ≠ ['.'] ∧ asPosix rel ≠ [] := by
  have parts : ('/' :: asPosix rel).splitOn '/' = [] :: rel.parts := by
    rw [asPosix_filled rel filled, SeparatedPaths.splitOn_render '/' rel.parts (parts_free rel)]
  have named : ∀ part ∈ rel.parts, part ≠ [] ∧ part ≠ ['.'] := by
    intro part member
    obtain ⟨name, -, rfl⟩ := List.mem_map.mp member
    exact ⟨name.plain.1, name.plain.2.1⟩
  constructor
  · intro dot
    rw [dot] at parts
    have only : rel.parts = [['.']] := (List.cons.inj parts).2.symm
    exact (named ['.'] (only ▸ List.mem_singleton_self _)).2 rfl
  · intro nothing
    rw [nothing] at parts
    have only : rel.parts = [[]] := (List.cons.inj parts).2.symm
    exact (named [] (only ▸ List.mem_singleton_self _)).1 rfl

theorem pathParts_chdir (rel : Location) :
    pathParts (chdir (asPosix rel)) = "workspace".toList :: rel.parts := by
  by_cases top : rel = []
  · rw [top]
    decide
  · have named := asPosix_named rel top
    have text : "/workspace/".toList ++ asPosix rel =
        SeparatedPaths.render '/' ("workspace".toList :: rel.parts) := by
      rw [SeparatedPaths.render_cons, ← asPosix_filled rel top]
      rfl
    rw [chdir, if_neg (not_or.mpr named), text]
    apply pathParts_render
    · intro part member
      cases List.mem_cons.mp member with
      | inl first =>
        rw [first]
        decide
      | inr further => exact parts_free rel part further
    · rw [List.filter_cons_of_pos (by decide), parts_filled]

def filled (k : String) : Option String := (G.environ k).bind fun v => if v = "" then none else some v

def gatewayVariable (k : String) : Option String :=
  (if k ∈ safeEnvPassthrough then filled G k else none).or
    (if k = "PATH" then some "/usr/local/bin:/usr/bin:/bin" else none)

theorem passed_filled (k : String) : passed G k = (filled G k).map fun v => (k, v) := by
  rw [passed, filled]
  cases G.environ k with
  | none => rfl
  | some v =>
    rw [Option.bind_some, Option.bind_some]
    split <;> rfl

theorem passed_lookup (names : List String) (k : String) :
    (names.filterMap (passed G)).lookup k = if k ∈ names then filled G k else none := by
  induction names with
  | nil => rfl
  | cons name rest later =>
    rw [List.filterMap_cons, passed_filled]
    cases set : filled G name with
    | none =>
      change List.lookup k (rest.filterMap (passed G)) = _
      rw [later]
      by_cases same : k = name
      · simp [same, set]
      · simp [same]
    | some v =>
      change List.lookup k ((name, v) :: rest.filterMap (passed G)) = _
      rw [List.lookup_cons, later]
      by_cases same : k = name
      · simp [same, set]
      · simp [same, beq_false_of_ne same]

theorem passed_keys (names : List String) : ((names.filterMap (passed G)).map Prod.fst).Sublist names := by
  induction names with
  | nil => exact List.Sublist.slnil
  | cons name rest later =>
    rw [List.filterMap_cons, passed_filled]
    cases filled G name with
    | none => exact later.cons name
    | some v => exact later.cons_cons name

theorem safeEnv_nodup (workspace : Location) : ((safeEnv G workspace).map Prod.fst).Nodup := by
  have first : ((safeEnvPassthrough.filterMap (passed G)).map Prod.fst).Nodup :=
    (passed_keys G safeEnvPassthrough).nodup (by decide)
  rw [safeEnv]
  apply store_nodup
  apply store_nodup
  split
  · exact first
  · exact store_nodup _ _ _ first

theorem safeEnv_lookup (workspace : Location) (k : String) (home : k ≠ "HOME") (tmpdir : k ≠ "TMPDIR") :
    (safeEnv G workspace).lookup k = gatewayVariable G k := by
  rw [safeEnv, lookup_store, if_neg tmpdir, lookup_store, if_neg home, gatewayVariable, ← passed_lookup]
  split
  · rename_i present
    by_cases path : k = "PATH"
    · rw [path]
      obtain ⟨v, found⟩ := Option.isSome_iff_exists.mp present
      rw [found, Option.or]
    · rw [if_neg path, Option.or_none]
  · rename_i absent
    rw [lookup_store]
    by_cases path : k = "PATH"
    · rw [Option.not_isSome_iff_eq_none] at absent
      rw [if_pos path, if_pos path, path, absent, Option.none_or]
    · rw [if_neg path, if_neg path, Option.or_none]

theorem launchEnv_nodup (workspace : Location) (extra : List (String × String)) :
    ((sandboxEnv (mergeExtraEnv G (safeEnv G workspace) extra)).map Prod.fst).Nodup := by
  rw [sandboxEnv, mergeExtraEnv]
  apply store_nodup
  apply store_nodup
  apply update_nodup
  exact safeEnv_nodup G workspace

/-- The variables that the caller adds, the last one of a name first. -/
def added (extra : List (String × String)) : List (String × String) :=
  (extra.filter fun entry => !looksSecret G entry).reverse

structure Scrubbed (extra : List (String × String)) (environ : Variable → Option String) : Prop where
  home : environ ⟨"HOME", by decide⟩ = some "/workspace"
  tmpdir : environ ⟨"TMPDIR", by decide⟩ = some "/tmp"
  others : ∀ k : Variable, k.1 ≠ "HOME" → k.1 ≠ "TMPDIR" →
    environ k = ((added G extra).lookup k.1).or (gatewayVariable G k.1)
  secretless : ∀ (k : Variable) (v : String), k.1 ≠ "HOME" → k.1 ≠ "TMPDIR" → environ k = some v →
    looksSecret G (k.1, v) = true → gatewayVariable G k.1 = some v

theorem launchEnv_lookup (workspace : Location) (extra : List (String × String)) (k : String) (home : k ≠ "HOME")
    (tmpdir : k ≠ "TMPDIR") : (sandboxEnv (mergeExtraEnv G (safeEnv G workspace) extra)).lookup k =
      ((added G extra).lookup k).or (gatewayVariable G k) := by
  rw [sandboxEnv, lookup_store, if_neg tmpdir, lookup_store, if_neg home, mergeExtraEnv, lookup_update,
    safeEnv_lookup G workspace k home tmpdir, added]

theorem launchEnv_scrubbed (workspace : Location) (extra : List (String × String)) :
    Scrubbed G extra fun k => (sandboxEnv (mergeExtraEnv G (safeEnv G workspace) extra)).lookup k.1 := by
  constructor
  · rw [sandboxEnv, lookup_store, if_neg (by decide), lookup_store, if_pos rfl]
  · rw [sandboxEnv, lookup_store, if_pos rfl]
  · intro k home tmpdir
    exact launchEnv_lookup G workspace extra k.1 home tmpdir
  · intro k v home tmpdir found secret
    rw [launchEnv_lookup G workspace extra k.1 home tmpdir] at found
    cases given : (added G extra).lookup k.1 with
    | none => rwa [given, Option.none_or] at found
    | some w =>
      rw [given, Option.some_or, Option.some.injEq] at found
      have member : (k.1, w) ∈ added G extra := KeyedGroups.lookup_mem _ k.1 w given
      have kept := (List.mem_filter.mp (List.mem_reverse.mp member)).2
      rw [found, secret] at kept
      cases kept

structure Launched (base : Location) (q : ShellCall) (argv : List String) (cwd : Location) (seconds : Int)
    (root : Location) : Prop where
  allowed : guardCommand G q.command = none
  works : G.bwrapWorks = true
  resolved : G.disk.resolve (base ++ [workspaceName]).str = some root
  asked : G.disk.resolve (requested base q) = some cwd
  direct : G.disk.resolve cwd.str = some cwd
  inside : root <+: cwd
  arguments : buildBwrapArgv G (base ++ [workspaceName]) cwd
    (mergeExtraEnv G (safeEnv G (base ++ [workspaceName])) q.env) q.command = some argv
  bounded : seconds ≤ G.maxTimeout

theorem runInSandbox_launched (base : Location) (q : ShellCall) (argv : List String) (cwd : Location)
    (seconds : Int) (done : runInSandbox G base q = .launched argv cwd seconds) :
    ∃ root, Launched G base q argv cwd seconds root := by
  rw [runInSandbox] at done
  split at done
  · cases done
  cases allowed : guardCommand G q.command with
  | some reason =>
    rw [allowed] at done
    cases done
  | none =>
    rw [allowed] at done
    dsimp only at done
    split at done
    · split at done
      · rename_i runCwd root landed resolved
        split at done
        · rename_i inside
          split at done
          · split at done
            · rename_i works
              split at done
              · rename_i made
                injection done with sameArgv sameCwd sameSeconds
                subst sameArgv sameCwd sameSeconds
                exact ⟨root, allowed, works, resolved, landed,
                  resolve_str G.disk runCwd (resolve_linkFree G.disk _ _ landed), inside, made,
                  min_le_right _ _⟩
              · cases done
            · cases done
          · cases done
        · cases done
      · cases done
    · cases done

def launchOptions (base root cwd : Location) (q : ShellCall) : List (String × List String) :=
  options G root.str (chdir (asPosix (cwd.drop root.length)))
    (sandboxEnv (mergeExtraEnv G (safeEnv G (base ++ [workspaceName])) q.env))

/-- Whatever a command, its directory and its variables are, `bwrap` reads the arguments as the options that
were meant for it and the command. -/
theorem launched_read (B : Bwrap) (base : Location) (q : ShellCall) (argv : List String)
    (cwd : Location) (seconds : Int) (root : Location) (launched : Launched G base q argv cwd seconds root) :
    read B.arity argv.tail = some (launchOptions G base root cwd q, ["/bin/sh", "-c", q.command]) := by
  obtain ⟨bwrap, same⟩ := buildBwrapArgv_written G (base ++ [workspaceName]) cwd root
    (mergeExtraEnv G (safeEnv G (base ++ [workspaceName])) q.env) q.command launched.resolved
    launched.direct launched.inside
  have ends : ∀ a ∈ ["/bin/sh", "-c", q.command].head?, B.arity a = none := by
    intro a first
    rw [← Option.some.inj first]
    exact B.shell
  rw [← Option.some.inj (same.symm.trans launched.arguments), List.tail_cons]
  exact read_written B.arity _ _ (options_take G B _ _ _) ends

theorem launched_made (B : Bwrap) (base : Location) (q : ShellCall) (argv : List String)
    (cwd : Location) (seconds : Int) (root : Location) (launched : Launched G base q argv cwd seconds root)
    (s : B.Sandbox) (command : List String) (made : B.sandbox argv.tail = some (s, command)) :
    command = ["/bin/sh", "-c", q.command] ∧
      (launchOptions G base root cwd q).foldlM B.setUp B.bare = some s := by
  rw [Bwrap.sandbox, launched_read G B base q argv cwd seconds root launched, Option.bind_some,
    Option.map_eq_some_iff] at made
  obtain ⟨s', built, same⟩ := made
  rw [Prod.mk.injEq] at same
  exact ⟨same.2.symm, same.1 ▸ built⟩

structure Confined (root cwd : Location) (v : View) : Prop where
  /-- It can write below the workspace only, and read the system paths besides. -/
  sees : ∀ path host writable, v.sees path = some (host, writable) ↔
    (∃ rest, path = "workspace".toList :: rest ∧ host = root.parts ++ rest ∧ writable = true) ∨
      (∃ p ∈ systemPaths, pathParts p <+: path) ∧ host = path ∧ writable = false
  start : v.sees v.directory = some (cwd.parts, true)
  separate : ∀ kind ∈ ["user", "pid", "ipc", "uts", "cgroup"], v.unshared kind = true
  offline : v.unshared "net" = true ↔ G.allowNetwork = false
  dies : v.diesWithParent = true

theorem launched_confined (B : Bwrap) (base : Location) (q : ShellCall) (argv : List String)
    (cwd : Location) (seconds : Int) (done : runInSandbox G base q = .launched argv cwd seconds) :
    G.bwrapWorks = true ∧ seconds ≤ G.maxTimeout ∧
      ∃ root, G.disk.resolve (base ++ [workspaceName]).str = some root ∧
        G.disk.resolve (requested base q) = some cwd ∧ root <+: cwd ∧
        read B.arity argv.tail = some (launchOptions G base root cwd q, ["/bin/sh", "-c", q.command]) ∧
        ∀ s command, B.sandbox argv.tail = some (s, command) →
          command = ["/bin/sh", "-c", q.command] ∧ Confined G root cwd (B.view s) := by
  obtain ⟨root, launched⟩ := runInSandbox_launched G base q argv cwd seconds done
  refine ⟨launched.works, launched.bounded, root, launched.resolved, launched.asked, launched.inside,
    launched_read G B base q argv cwd seconds root launched, ?_⟩
  intro s command made
  obtain ⟨runs, built⟩ := launched_made G B base q argv cwd seconds root launched s command made
  obtain ⟨sees, directory, -, unshared, dies⟩ := options_view G B _ _ _ (launchEnv_nodup G _ _) s built
  refine ⟨runs, ?_, ?_, ?_, ?_, dies⟩
  · intro path host writable
    rw [sees]
    exact mounts_see root path host writable
  · have whole : cwd.parts = root.parts ++ Location.parts (cwd.drop root.length) := by
      obtain ⟨rest, rfl⟩ := launched.inside
      rw [List.drop_left]
      exact List.map_append
    rw [sees, directory, pathParts_chdir, mounts_see]
    exact .inl ⟨_, rfl, whole, rfl⟩
  · intro kind member
    have listed : kind ∈ SandboxLaunch.unshared G := List.mem_append_right _ member
    rw [unshared, List.contains_iff_mem.mpr listed, Bool.or_true]
  · rw [unshared, B.bare_net, SandboxLaunch.unshared]
    cases G.allowNetwork with
    | false => simp
    | true => simp

theorem launched_scrubbed (B : Bwrap) (base : Location) (q : ShellCall) (argv command : List String)
    (cwd : Location) (seconds : Int) (s : B.Sandbox)
    (done : runInSandbox G base q = .launched argv cwd seconds)
    (made : B.sandbox argv.tail = some (s, command)) : Scrubbed G q.env (B.view s).environ := by
  obtain ⟨root, launched⟩ := runInSandbox_launched G base q argv cwd seconds done
  have built := (launched_made G B base q argv cwd seconds root launched s command made).2
  have environ := (options_view G B _ _ _ (launchEnv_nodup G _ _) s built).2.2.1
  rw [environ]
  exact launchEnv_scrubbed G _ _

/-! A command with options in all that the caller gives. -/

def plainGateway : Gateway where
  disk := linkless
  classes := ⟨fun _ => false, fun _ => false⟩
  lower := id
  repr := id
  environ k := if k = "LANG" then some "C" else if k = "LLM_API_KEY" then some "sk-1" else none
  allowNetwork := false
  maxTimeout := 120
  bwrapPath := some "/usr/bin/bwrap"
  bwrapWorks := true
  mkdir _ := true

def optionCall : ShellCall where
  command := "--bind / /"
  timeout := some 60
  env := [("--bind", "--dev"), ("MY_TOKEN", "1")]
  cwd := "--dev"

def documentedBwrap : Bwrap where
  arity o := (documented.lookup o).map Prod.fst
  takes o n e known := by rw [known, Option.map_some]
  shell := by simp [documented, List.lookup_cons]
  Sandbox := View
  bare := ⟨fun _ => none, [], fun _ => none, fun _ => false, false⟩
  setUp v option := some (applied v option)
  view v := v
  bare_sees := rfl
  bare_net := rfl
  setUp_view v option v' e known made := by rw [← Option.some.inj made, applied, known]

def optionCwd : Location := jobDirectory ++ [workspaceName, plainName "--dev".toList]

theorem optionCall_launched : ∃ argv, runInSandbox plainGateway jobDirectory optionCall =
    .launched argv optionCwd 60 := by
  exact ⟨_, rfl⟩

theorem documentedBwrap_makes (args : List String) (options : List (String × List String)) (command : List String)
    (isRead : read documentedBwrap.arity args = some (options, command)) :
    ∃ s, documentedBwrap.sandbox args = some (s, command) := by
  have built : options.foldlM documentedBwrap.setUp documentedBwrap.bare =
      some (options.foldl applied documentedBwrap.bare) := List.foldlM_pure
  rw [Bwrap.sandbox, isRead, Option.bind_some]
  dsimp only
  rw [built]
  exact ⟨_, rfl⟩

theorem launched_confined_options : ∃ argv s root command,
    documentedBwrap.sandbox argv = some (s, command) ∧ Confined plainGateway root optionCwd s := by
  obtain ⟨argv, done⟩ := optionCall_launched
  have confined := launched_confined plainGateway documentedBwrap jobDirectory optionCall argv optionCwd 60 done
  obtain ⟨-, -, root, -, -, -, isRead, boundary⟩ := confined
  obtain ⟨s, made⟩ := documentedBwrap_makes _ _ _ isRead
  exact ⟨argv.tail, s, root, _, made, (boundary s _ made).2⟩

theorem launched_scrubbed_options : ∃ environ, Scrubbed plainGateway optionCall.env environ := by
  obtain ⟨argv, done⟩ := optionCall_launched
  obtain ⟨root, launched⟩ := runInSandbox_launched plainGateway jobDirectory optionCall argv optionCwd 60 done
  have isRead := launched_read plainGateway documentedBwrap jobDirectory optionCall argv optionCwd 60 root launched
  obtain ⟨s, made⟩ := documentedBwrap_makes _ _ _ isRead
  exact ⟨_, launched_scrubbed plainGateway documentedBwrap jobDirectory optionCall argv _ optionCwd 60 s done made⟩

end GenesisAgents.SandboxLaunch
