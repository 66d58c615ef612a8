import GenesisAgents.AuditSecrets
import GenesisAgents.JsonLoads
import GenesisAgents.Library.Utf8
import GenesisAgents.PathConfinement

/-! The links of local artifacts: `upload_file` and `get_signed_url` of `artifact_store.py` write them, a client
follows them, and `serve_artifact` of `main.py` answers. -/

namespace GenesisAgents.ArtifactLinks

open JobFiles SeparatedPaths Utf8 Value
open AuditRedaction (Redactor urlsplit safeUrlChar cut)

/-! A link, and what becomes of it on the way. -/

/-- `entry.relative_to(local_dir).as_posix()` -/
def posix (name : Location) : List Char := ['/'].intercalate name.parts

/-- `/artifacts/` -/
def artifacts : List Char := ['/', 'a', 'r', 't', 'i', 'f', 'a', 'c', 't', 's', '/']

/-- `f"/artifacts/{job_id}/{name}"`, which quotes nothing. -/
def signedUrl (jobId name : List Char) : List Char := artifacts ++ (jobId ++ '/' :: name)

/-- The path of the bytes that a client sends, with its escapes taken back: the client escapes what no URL holds, and
what looks like an escape it leaves alone. -/
def pathBytes : List Char → List Nat
  | [] => []
  | '%' :: a :: b :: rest =>
    match hexDigit? a, hexDigit? b with
    | some high, some low => (high * 16 + low) :: pathBytes rest
    | _, _ => encode '%' ++ pathBytes (a :: b :: rest)
  | c :: rest => encode c ++ pathBytes rest

/-- `{name:path}` stands for `.*`, which ends before a line break, and `$` allows one behind it. -/
def routeName (name : List Char) : Option (List Char) :=
  let line := name.takeWhile (· != '\n')
  if name = line ∨ name = line ++ ['\n'] then some line else none

/-- `/artifacts/{job_id}/{name:path}` -/
def route (path : List Char) : Option (List Char × List Char) :=
  if artifacts.isPrefixOf path then
    let rest := path.drop artifacts.length
    let jobId := rest.takeWhile (· != '/')
    match jobId, rest.drop jobId.length with
    | _ :: _, '/' :: name => (routeName name).map fun name => (jobId, name)
    | _, _ => none
  else none

inductive Served where
  | refused (status : Nat)
  | file (place : Location)
  deriving DecidableEq

section

variable (F : FileSystem) (isFile : Location → Bool) (localDir : Location)

/-- `local_dir / job_id / name`; an absolute name replaces it. -/
def artifactPath (jobId name : List Char) : List Char :=
  if name.head? = some '/' then name else joinPath localDir (jobId ++ '/' :: name)

/-- `serve_artifact` -/
def serveArtifact (jobId name : List Char) : Served :=
  match F.resolve (artifactPath localDir jobId name), F.resolve localDir.str with
  | some place, some root =>
    if root <+: place then (if isFile place then .file place else .refused 404) else .refused 400
  | _, _ => .refused 500

def follow (R : Redactor) (link : List Char) : Served :=
  match (urlsplit R link).bind fun url => route (decode (pathBytes url.path)) with
  | none => .refused 404
  | some (jobId, name) => serveArtifact F isFile localDir jobId name

end

def isHex (c : Char) : Bool := (hexDigit? c).isSome

def escapeFree : List Char → Bool
  | '%' :: a :: b :: rest => !(isHex a && isHex b) && escapeFree (a :: b :: rest)
  | _ :: rest => escapeFree rest
  | [] => true

def keepsChar (c : Char) : Bool := safeUrlChar c && c != '#' && c != '?'

def Kept (name : List Char) : Prop := name.all keepsChar = true ∧ escapeFree name = true

instance (name : List Char) : Decidable (Kept name) := inferInstanceAs (Decidable (_ ∧ _))

def plainChar (c : Char) : Bool := keepsChar c && c != '%' && c != '/'

/-- What is left of a text once it is taken for a part of a URL. -/
def kept (s : List Char) : List Char := (cut '?' (cut '#' (s.filter safeUrlChar)).1).1

theorem kept_cons (c : Char) (keeps : keepsChar c = true) (s : List Char) : kept (c :: s) = c :: kept s := by
  rw [keepsChar, Bool.and_eq_true, Bool.and_eq_true] at keeps
  rw [kept, List.filter_cons, if_pos keeps.1.1, cut, cut, kept, cut, cut, List.takeWhile_cons, if_pos keeps.1.2,
    List.takeWhile_cons, if_pos keeps.2]

theorem kept_append (front s : List Char) (keeps : front.all keepsChar = true) :
    kept (front ++ s) = front ++ kept s := by
  induction front with
  | nil => rfl
  | cons c front later =>
    rw [List.all_cons, Bool.and_eq_true] at keeps
    rw [List.cons_append, kept_cons c keeps.1, later keeps.2, List.cons_append]

theorem kept_all (s : List Char) (keeps : s.all keepsChar = true) : kept s = s := by
  have whole := kept_append s [] keeps
  rw [List.append_nil] at whole
  rw [whole]
  exact List.append_nil s

theorem kept_length (s : List Char) : (kept s).length ≤ s.length :=
  calc (kept s).length ≤ (cut '#' (s.filter safeUrlChar)).1.length := (List.takeWhile_sublist _).length_le
    _ ≤ (s.filter safeUrlChar).length := (List.takeWhile_sublist _).length_le
    _ ≤ s.length := List.length_filter_le _ _

theorem kept_shorter (s : List Char) (lost : s.all keepsChar = false) : (kept s).length < s.length := by
  induction s with
  | nil => cases lost
  | cons c s later =>
    cases keeps : keepsChar c with
    | true =>
      rw [List.all_cons, keeps, Bool.true_and] at lost
      rw [kept_cons c keeps, List.length_cons, List.length_cons]
      exact Nat.succ_lt_succ (later lost)
    | false =>
      cases safe : safeUrlChar c with
      | false =>
        have dropped : kept (c :: s) = kept s := by
          rw [kept, List.filter_cons, safe]
          rfl
        rw [dropped, List.length_cons]
        exact Nat.lt_succ_of_le (kept_length s)
      | true =>
        rw [keepsChar, safe, Bool.true_and, Bool.and_eq_false_iff] at keeps
        have ended : kept (c :: s) = [] := by
          rw [kept, List.filter_cons, if_pos safe, cut, cut]
          cases keeps with
          | inl fragment => rw [List.takeWhile_cons, fragment]; rfl
          | inr query =>
            rw [List.takeWhile_cons]
            split
            · rw [List.takeWhile_cons, query]
              rfl
            · rfl
        rw [ended]
        exact Nat.succ_pos _

theorem pathBytes_cons (c : Char) (plain : c ≠ '%') (rest : List Char) :
    pathBytes (c :: rest) = encode c ++ pathBytes rest := by
  cases rest with
  | nil => simp [pathBytes]
  | cons a rest =>
    cases rest with
    | nil => simp [pathBytes]
    | cons b rest => simp [pathBytes, plain]

theorem pathBytes_escape (a b : Char) (high low : Nat) (first : hexDigit? a = some high)
    (second : hexDigit? b = some low) (rest : List Char) :
    pathBytes ('%' :: a :: b :: rest) = (high * 16 + low) :: pathBytes rest := by
  rw [pathBytes, first, second]

theorem pathBytes_percent (rest : List Char)
    (none : ∀ a b more, rest = a :: b :: more → (isHex a && isHex b) = false) :
    pathBytes ('%' :: rest) = encode '%' ++ pathBytes rest := by
  cases rest with
  | nil => simp [pathBytes]
  | cons a rest =>
    cases rest with
    | nil => simp [pathBytes]
    | cons b rest =>
      have unread := none a b rest rfl
      rw [isHex, isHex, Bool.and_eq_false_iff] at unread
      rw [pathBytes]
      split
      · rename_i high low first second
        rw [first, second] at unread
        cases unread with
        | inl no => cases no
        | inr no => cases no
      · rfl

def Unescaped (c : Char) (rest : List Char) : Prop :=
  c = '%' → ∀ a b more, rest = a :: b :: more → (isHex a && isHex b) = false

theorem escapeFree_cons (c : Char) (rest : List Char) :
    escapeFree (c :: rest) = true ↔ Unescaped c rest ∧ escapeFree rest = true := by
  cases rest with
  | nil => simp [escapeFree, Unescaped]
  | cons a rest =>
    cases rest with
    | nil => simp [escapeFree, Unescaped]
    | cons b rest =>
      by_cases percent : c = '%'
      · rw [percent, escapeFree, Bool.and_eq_true, Bool.not_eq_true', Unescaped]
        constructor
        · intro free
          refine ⟨?_, free.2⟩
          intro _ first second more same
          cases same
          exact free.1
        · intro free
          exact ⟨free.1 rfl a b rest rfl, free.2⟩
      · have skipped : escapeFree (c :: a :: b :: rest) = escapeFree (a :: b :: rest) := by
          simp [escapeFree, percent]
        rw [skipped, iff_and_self]
        exact fun _ is => absurd is percent

theorem pathBytes_unescaped (c : Char) (rest : List Char) (alone : Unescaped c rest) :
    pathBytes (c :: rest) = encode c ++ pathBytes rest := by
  by_cases percent : c = '%'
  · rw [percent]
    exact pathBytes_percent rest (alone percent)
  · exact pathBytes_cons c percent rest

theorem decode_pathBytes (s : List Char) (free : escapeFree s = true) : decode (pathBytes s) = s := by
  induction s with
  | nil => rfl
  | cons c rest later =>
    have alone := (escapeFree_cons c rest).mp free
    rw [pathBytes_unescaped c rest alone.1, decode_encode, later alone.2]

theorem decode_pathBytes_append (front rest : List Char) (plain : '%' ∉ front) :
    decode (pathBytes (front ++ rest)) = front ++ decode (pathBytes rest) := by
  induction front with
  | nil => rfl
  | cons c front later =>
    rw [List.mem_cons, not_or] at plain
    rw [List.cons_append, pathBytes_cons c (Ne.symm plain.1), decode_encode, later plain.2]
    rfl

theorem decode_pathBytes_length (n : Nat) : ∀ s : List Char, s.length ≤ n →
    (decode (pathBytes s)).length ≤ s.length ∧
      (escapeFree s = false → (decode (pathBytes s)).length < s.length) := by
  induction n with
  | zero =>
    intro s short
    rw [List.length_eq_zero_iff.mp (Nat.le_zero.mp short)]
    exact ⟨Nat.le_refl 0, nofun⟩
  | succ n later =>
    intro s short
    cases s with
    | nil => exact ⟨Nat.le_refl 0, nofun⟩
    | cons c rest =>
      rw [List.length_cons] at short
      have onward := later rest (Nat.le_of_succ_le_succ short)
      by_cases alone : Unescaped c rest
      · rw [pathBytes_unescaped c rest alone, decode_encode, List.length_cons, List.length_cons]
        refine ⟨Nat.succ_le_succ onward.1, ?_⟩
        intro escaped
        apply Nat.succ_lt_succ
        apply onward.2
        rw [← Bool.not_eq_true] at escaped ⊢
        exact fun free => escaped ((escapeFree_cons c rest).mpr ⟨alone, free⟩)
      · obtain ⟨percent, a, b, more, split, digits⟩ : c = '%' ∧ ∃ a b more, rest = a :: b :: more ∧
            (isHex a && isHex b) = true := by
          simpa [Unescaped] using alone
        rw [Bool.and_eq_true, isHex, isHex] at digits
        obtain ⟨high, first⟩ := Option.isSome_iff_exists.mp digits.1
        obtain ⟨low, second⟩ := Option.isSome_iff_exists.mp digits.2
        rw [percent, split, pathBytes_escape a b high low first second]
        rw [split, List.length_cons, List.length_cons] at short
        have beyond := (later more (by omega)).1
        have one := decode_length (high * 16 + low) (pathBytes more)
        simp only [List.length_cons]
        exact ⟨by omega, fun _ => by omega⟩

theorem splitScheme_slash (s : List Char) : AuditRedaction.splitScheme ('/' :: s) = ([], '/' :: s) := by
  have headed : ('/' :: s).takeWhile (· != ':') = '/' :: s.takeWhile (· != ':') := rfl
  have symbol : (('/' :: s.takeWhile (· != ':')).head?.any Char.isAlpha &&
      ('/' :: s.takeWhile (· != ':')).all UrlGuards.schemeChar) = false := rfl
  rw [AuditRedaction.splitScheme, headed]
  split
  · rw [symbol, if_neg Bool.false_ne_true]
  · rfl

theorem urlsplit_link (R : Redactor) (valid : R.netlocValid [] = true) (rest : List Char) :
    (urlsplit R ('/' :: 'a' :: rest)).map AuditRedaction.SplitUrl.path = some (kept ('/' :: 'a' :: rest)) := by
  have begun : ('/' :: 'a' :: rest).dropWhile UrlGuards.controlOrSpace = '/' :: 'a' :: rest := rfl
  have filtered : ('/' :: 'a' :: rest).filter safeUrlChar = '/' :: 'a' :: rest.filter safeUrlChar := rfl
  have hostless : AuditRedaction.splitNetloc ('/' :: 'a' :: rest.filter safeUrlChar) =
      ([], '/' :: 'a' :: rest.filter safeUrlChar) := rfl
  have named : (([] : List Char).contains '[' != ([] : List Char).contains ']' || !R.netlocValid []) = false := by
    rw [valid]
    rfl
  rw [urlsplit, begun, filtered]
  dsimp only
  rw [splitScheme_slash]
  dsimp only
  rw [hostless]
  dsimp only
  rw [named, if_neg Bool.false_ne_true, kept, filtered]
  rfl

theorem takeWhile_plain (jobId name : List Char) (plain : '/' ∉ jobId) :
    (jobId ++ '/' :: name).takeWhile (· != '/') = jobId := by
  rw [List.takeWhile_append_of_pos, List.takeWhile_cons]
  · simp
  · intro c member
    apply bne_iff_ne.mpr
    intro same
    rw [same] at member
    exact plain member

theorem route_path (jobId name : List Char) (filled : jobId ≠ []) (plain : '/' ∉ jobId) :
    route (artifacts ++ (jobId ++ '/' :: name)) = (routeName name).map fun name => (jobId, name) := by
  have starts : artifacts.isPrefixOf (artifacts ++ (jobId ++ '/' :: name)) = true :=
    List.isPrefixOf_iff_prefix.mpr (List.prefix_append _ _)
  rw [route, if_pos starts, List.drop_left]
  dsimp only
  rw [takeWhile_plain jobId name plain, List.drop_left]
  cases jobId with
  | nil => contradiction
  | cons c jobId => rfl

def Plain (jobId : List Char) : Prop := jobId ≠ [] ∧ jobId.all plainChar = true

theorem plain_keeps (jobId : List Char) (plain : jobId.all plainChar = true) :
    jobId.all keepsChar = true ∧ '%' ∉ jobId ∧ '/' ∉ jobId := by
  rw [List.all_eq_true] at plain
  refine ⟨List.all_eq_true.mpr ?_, ?_, ?_⟩
  · intro c member
    have kept := plain c member
    rw [plainChar, Bool.and_eq_true, Bool.and_eq_true] at kept
    exact kept.1.1
  · intro member
    exact absurd (plain _ member) (by decide)
  · intro member
    exact absurd (plain _ member) (by decide)

/-- A link leads to the route, with what is left of the name. -/
theorem follow_link (F : FileSystem) (isFile : Location → Bool) (localDir : Location) (R : Redactor)
    (valid : R.netlocValid [] = true) (jobId : List Char) (plain : Plain jobId) (name : List Char) :
    follow F isFile localDir R (signedUrl jobId name) =
      match routeName (decode (pathBytes (kept name))) with
      | none => .refused 404
      | some name => serveArtifact F isFile localDir jobId name := by
  obtain ⟨keeps, unescaped, one⟩ := plain_keeps jobId plain.2
  have front : artifacts.all keepsChar = true := by decide
  have path : kept (signedUrl jobId name) = artifacts ++ (jobId ++ '/' :: kept name) := by
    rw [signedUrl, kept_append _ _ front, kept_append _ _ keeps, kept_cons '/' (by decide)]
  have arrives : decode (pathBytes (artifacts ++ (jobId ++ '/' :: kept name))) =
      artifacts ++ (jobId ++ '/' :: decode (pathBytes (kept name))) := by
    rw [decode_pathBytes_append _ _ (by decide), decode_pathBytes_append _ _ unescaped]
    have slash := decode_pathBytes_append ['/'] (kept name) (by decide)
    exact congrArg (fun s => artifacts ++ (jobId ++ s)) slash
  have asked := urlsplit_link R valid (artifacts.drop 2 ++ (jobId ++ '/' :: name))
  have link : '/' :: 'a' :: (artifacts.drop 2 ++ (jobId ++ '/' :: name)) = signedUrl jobId name := rfl
  rw [link, path] at asked
  obtain ⟨url, split, same⟩ := Option.map_eq_some_iff.mp asked
  rw [follow, split, Option.bind_some, same, arrives, route_path _ _ plain.1 one]
  cases routeName (decode (pathBytes (kept name))) with
  | none => rfl
  | some name => rfl

theorem routeName_line (name : List Char) (line : '\n' ∉ name) : routeName name = some name := by
  have whole : name.takeWhile (· != '\n') = name := by
    rw [List.takeWhile_eq_self_iff]
    intro c member
    apply bne_iff_ne.mpr
    intro same
    rw [same] at member
    exact line member
  rw [routeName, whole, if_pos (.inl rfl)]

theorem routeName_length (name arrives : List Char) (routed : routeName name = some arrives) :
    arrives.length ≤ name.length := by
  rw [routeName] at routed
  split at routed
  · rw [← Option.some.inj routed]
    exact (List.takeWhile_sublist _).length_le
  · cases routed

theorem name_head (name : FileName) (rest : List Char) : (name.text ++ rest).head? ≠ some '/' := by
  have plain := name.plain
  cases letters : name.text with
  | nil => exact absurd letters plain.1
  | cons c more =>
    intro same
    rw [letters] at plain
    rw [List.cons_append, List.head?_cons] at same
    apply plain.2.2.2
    rw [Option.some.inj same]
    exact List.mem_cons_self

theorem render_append (front rest : List (List Char)) :
    render '/' (front ++ rest) = render '/' front ++ render '/' rest := List.flatMap_append

theorem render_posix (name : Location) (filled : name ≠ []) : render '/' name.parts = '/' :: posix name :=
  render_eq_cons '/' name.parts (parts_ne_nil name filled)

theorem posix_head (name : Location) (filled : name ≠ []) : (posix name).head? ≠ some '/' := by
  cases name with
  | nil => contradiction
  | cons first rest =>
    have shape := render_posix (first :: rest) (List.cons_ne_nil _ _)
    rw [Location.parts, List.map_cons, render_cons] at shape
    rw [← (List.cons.inj shape).2]
    exact name_head first _

/-- `LOCAL_DIR / job_id / name`, where the upload puts the file. -/
theorem artifactPath_posix (localDir name : Location) (job : FileName) (below : localDir ≠ [])
    (filled : name ≠ []) : artifactPath localDir job.text (posix name) = Location.str (localDir ++ job :: name) := by
  have longer : localDir ++ job :: name ≠ [] := List.append_ne_nil_of_left_ne_nil below _
  rw [artifactPath, if_neg (posix_head name filled), joinPath, if_neg (name_head job _), str_of_filled _ longer,
    str_of_filled localDir below, ← render_posix name filled, Location.parts, Location.parts, Location.parts,
    List.map_append, render_append, List.map_cons, render_cons]

section

variable (F : FileSystem)

def Linkless : Prop := ∀ here name landing, F.entry here name = some landing → landing = here ++ [name]

def weight (here : Location) : Nat := (render '/' here.parts).length

theorem weight_append (front rest : Location) : weight (front ++ rest) = weight front + weight rest := by
  rw [weight, Location.parts, List.map_append, render_append, List.length_append]
  rfl

theorem weight_dropLast (here : Location) : weight here.dropLast ≤ weight here := by
  cases ends : here.getLast? with
  | none =>
    rw [List.getLast?_eq_none_iff.mp ends]
    exact Nat.le_refl _
  | some last =>
    have parts := List.dropLast_append_getLast? last ends
    have added := weight_append here.dropLast [last]
    rw [parts] at added
    rw [added]
    exact Nat.le_add_right _ _

theorem walk_weight (linkless : Linkless F) (parts : List (List Char)) : ∀ here landing,
    F.walk here parts = some landing → weight landing ≤ weight here + (render '/' parts).length := by
  induction parts with
  | nil =>
    intro here landing walked
    rw [← Option.some.inj walked]
    exact Nat.le_add_right _ _
  | cons part rest later =>
    intro here landing walked
    rw [FileSystem.walk] at walked
    rw [render_cons, List.length_cons, List.length_append]
    split at walked
    · have bound := later here landing walked
      omega
    split at walked
    · have bound := later here.dropLast landing walked
      have shorter := weight_dropLast here
      omega
    · obtain ⟨name, named, entered⟩ := Option.bind_eq_some_iff.mp walked
      obtain ⟨next, led, onward⟩ := Option.bind_eq_some_iff.mp entered
      have bound := later next landing onward
      have text : name.text = part := by
        rw [FileName.of?] at named
        split at named
        · rw [← Option.some.inj named]
        · cases named
      have added := weight_append here [name]
      have single : weight [name] = part.length + 1 := by
        rw [weight, Location.parts, List.map_singleton, render_cons, render_nil, List.append_nil, List.length_cons,
          text]
      rw [linkless here name next led] at bound
      omega

theorem resolve_weight (linkless : Linkless F) (path : List Char) (landing : Location)
    (absolute : path.head? = some '/') (resolved : F.resolve path = some landing) : weight landing ≤ path.length := by
  cases path with
  | nil => cases absolute
  | cons c rest =>
    have slash : c = '/' := Option.some.inj absolute
    rw [slash] at resolved
    have parts : ('/' :: rest).splitOn '/' = [] :: rest.splitOn '/' := by
      rw [List.splitOn_cons_eq_if_modifyHead, if_pos (beq_self_eq_true '/')]
    have text : render '/' (rest.splitOn '/') = '/' :: rest := by
      rw [render_eq_cons '/' _ (List.splitOn_ne_nil _ _), List.intercalate_splitOn]
    rw [FileSystem.resolve, if_pos List.head?_cons, parts, FileSystem.walk, if_pos (.inl rfl)] at resolved
    have bound := walk_weight F linkless (rest.splitOn '/') [] landing resolved
    rw [text, List.length_cons] at bound
    have none : weight [] = 0 := rfl
    rw [none, Nat.zero_add] at bound
    rw [List.length_cons]
    exact bound

theorem artifactPath_absolute (localDir : Location) (below : localDir ≠ []) (job : FileName) (name : List Char) :
    (artifactPath localDir job.text name).head? = some '/' ∧ (artifactPath localDir job.text name).length ≤
      weight localDir + 1 + job.text.length + 1 + name.length := by
  rw [artifactPath]
  split
  · rename_i absolute
    exact ⟨absolute, Nat.le_add_left _ _⟩
  · rw [joinPath, if_neg (name_head job _), str_of_filled localDir below]
    constructor
    · cases localDir with
      | nil => contradiction
      | cons first rest => rfl
    · rw [weight, List.length_append, List.length_cons, List.length_append, List.length_cons]
      omega

theorem weight_artifact (localDir name : Location) (job : FileName) (filled : name ≠ []) :
    weight (localDir ++ job :: name) = weight localDir + 1 + job.text.length + 1 + (posix name).length := by
  have tail : weight name = (posix name).length + 1 := congrArg List.length (render_posix name filled)
  have front : weight [job] = job.text.length + 1 := by
    rw [weight, Location.parts, List.map_singleton, render_cons, render_nil, List.append_nil, List.length_cons]
  have parts : localDir ++ job :: name = localDir ++ ([job] ++ name) := rfl
  rw [parts, weight_append, weight_append, tail, front]
  omega

theorem serveArtifact_place (isFile : Location → Bool) (localDir : Location) (jobId name : List Char)
    (place : Location) (served : serveArtifact F isFile localDir jobId name = .file place) :
    F.resolve (artifactPath localDir jobId name) = some place := by
  rw [serveArtifact] at served
  cases found : F.resolve (artifactPath localDir jobId name) with
  | none =>
    rw [found] at served
    cases served
  | some there =>
    cases root : F.resolve localDir.str with
    | none =>
      rw [found, root] at served
      cases served
    | some root' =>
      rw [found, root] at served
      dsimp only at served
      split at served
      · split at served
        · rw [Served.file.inj served]
        · cases served
      · cases served

end

/-- A name that a URL does not keep arrives shorter. -/
theorem arrives_shorter (name : List Char) (lost : ¬Kept name) :
    (decode (pathBytes (kept name))).length < name.length := by
  have arrives := decode_pathBytes_length (kept name).length (kept name) (Nat.le_refl _)
  cases keeps : name.all keepsChar with
  | false => exact Nat.lt_of_le_of_lt arrives.1 (kept_shorter name keeps)
  | true =>
    rw [kept_all name keeps] at arrives ⊢
    apply arrives.2
    cases free : escapeFree name with
    | false => rfl
    | true => exact absurd ⟨keeps, free⟩ lost

/-- The link of a stored artifact serves it exactly when a URL keeps its name. -/
theorem link_serves_iff (F : FileSystem) (isFile : Location → Bool) (localDir : Location) (R : Redactor)
    (valid : R.netlocValid [] = true) (linkless : Linkless F) (job : FileName) (plain : Plain job.text)
    (name : Location) (below : localDir ≠ []) (filled : name ≠ [])
    (stored : LinkFree F.entry (localDir ++ job :: name) ∧ isFile (localDir ++ job :: name) = true) :
    follow F isFile localDir R (signedUrl job.text (posix name)) = .file (localDir ++ job :: name) ↔
      Kept (posix name) := by
  have root : F.resolve localDir.str = some localDir :=
    resolve_str F localDir (stored.1.front (List.prefix_append _ _))
  rw [follow_link F isFile localDir R valid job.text plain (posix name)]
  constructor
  · intro served
    by_contra lost
    cases routed : routeName (decode (pathBytes (kept (posix name)))) with
    | none =>
      rw [routed] at served
      cases served
    | some arrives =>
      rw [routed] at served
      have shorter : arrives.length < (posix name).length := calc
        arrives.length ≤ (decode (pathBytes (kept (posix name)))).length := routeName_length _ _ routed
        _ < (posix name).length := arrives_shorter (posix name) lost
      -- the disk adds nothing to a path, so a shorter name leads elsewhere
      have place := serveArtifact_place F isFile localDir job.text arrives _ served
      have path := artifactPath_absolute localDir below job arrives
      have bound := resolve_weight F linkless _ _ path.1 place
      have whole := weight_artifact localDir name job filled
      omega
  · intro names
    have line : '\n' ∉ posix name := by
      intro member
      exact absurd (List.all_eq_true.mp names.1 _ member) (by decide)
    rw [kept_all _ names.1, decode_pathBytes _ names.2, routeName_line _ line]
    dsimp only
    rw [serveArtifact, artifactPath_posix localDir name job below filled, resolve_str F _ stored.1, root]
    dsimp only
    rw [if_pos (List.prefix_append _ _), if_pos stored.2]

def shelf : Location := [plainName ['s', 'h', 'e', 'l', 'f']]

def shelfJob : FileName := plainName ['j', '7']

def percentName : Location := [plainName ['5', '0', '%', ' ', 'o', 'f', 'f']]

def queryName : Location := [plainName ['w', 'h', 'y', '?']]

theorem link_serves_percent : follow linkless (fun _ => true) shelf AuditRedaction.asciiRedactor
      (signedUrl shelfJob.text (posix percentName)) = .file (shelf ++ shelfJob :: percentName) ∧
    follow linkless (fun _ => true) shelf AuditRedaction.asciiRedactor (signedUrl shelfJob.text (posix queryName)) ≠
      .file (shelf ++ shelfJob :: queryName) := by
  have bare : Linkless linkless := fun _ _ _ led => (Option.some.inj led).symm
  have plain : Plain shelfJob.text := ⟨by decide, by decide⟩
  have serves (name : Location) (filled : name ≠ []) :=
    link_serves_iff linkless (fun _ => true) shelf AuditRedaction.asciiRedactor rfl bare shelfJob plain name
      (List.cons_ne_nil _ _) filled ⟨fun _ _ _ => rfl, rfl⟩
  constructor
  · exact (serves percentName (List.cons_ne_nil _ _)).mpr (by decide)
  · intro served
    exact absurd ((serves queryName (List.cons_ne_nil _ _)).mp served) (by decide)

end GenesisAgents.ArtifactLinks
