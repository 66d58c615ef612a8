import GenesisAgents.XeroTool
import GenesisAgents.Library.Runs

/-! Does a scoped Xero operation post once? The tool looks for its record before the POST and makes it
after a good answer: what is posted and not recorded, or recorded and overwritten, can be posted
again. -/

namespace GenesisAgents

open Value

def executed (posts : List XeroPost) : List XeroTriple :=
  (posts.filter fun post => post.reply.mayHaveExecuted).map XeroPost.triple

def PostedOnce (σ : XeroState) : Prop := (executed σ.posts).Nodup

def reaches (X : XeroTool) (σ : XeroState) (call : XeroCall) : Option XeroTriple :=
  match admission X (checkIdempotency X σ.file) call with
  | .error _ => none
  | .ok triple => if allowedBridgeUrl X = some true then some triple else none

def BridgeReply.isGood : BridgeReply → Bool
  | .answered status (some _) => status < 400
  | _ => false

def recordable (X : XeroTool) (file : IdempotencyFile) (key : String) : Bool :=
  match file with
  | .absent => X.jobDir.isSome && X.encodes (file.withKey key)
  | .holds _ => X.jobDir.isSome && X.encodes (file.withKey key)
  | _ => false

def overwrites (X : XeroTool) (file : IdempotencyFile) (path : String) : Bool :=
  match X.jobDir, file with
  | none, _ => false
  | some _, .directory => false
  | some dir, _ => !path.toList.contains (Char.ofNat 0) &&
      opensWith (pathText dir) (pathText (resolvePath dir path)) &&
      resolvePath dir path == dir ++ [idempotencyFile]

/-- The content is a JSON object with a key for the triple, or stops every call at its check. -/
def spares (X : XeroTool) (content : Option String) (triple : XeroTriple) : Bool :=
  content.any fun text =>
    match X.loads text with
    | .value data => data.isDict && (data.get? triple.key).isSome
    | .decodeError => false
    | .otherError => true

/-- A call whose POST may be executed makes it once, has a good answer and can be recorded; and a write to the
idempotency file spares all triples that may have been executed. -/
def keepsRecords (X : XeroTool) (σ : XeroState) : XeroEvent → Bool
  | .invoke call exchange => (reaches X σ call).all fun triple =>
      exchange.executions == 0 ||
        exchange.executions == 1 && exchange.outcome.isGood && recordable X σ.file triple.key
  | .fileWrite path content =>
    !overwrites X σ.file path || (executed σ.posts).all (spares X content)

theorem admission_ok (X : XeroTool) (seen : String → Option Bool) (call : XeroCall) (triple : XeroTriple)
    (admitted : admission X seen call = .ok triple) : seen triple.key = some false ∧
      ∀ other, other triple.key = some false → admission X other call = .ok triple := by
  rw [admission] at admitted
  obtain ⟨⟨slug, verifyId⟩, identified, admitted⟩ := except_bind_ok _ _ _ admitted
  dsimp only at admitted
  split at admitted
  · contradiction
  · contradiction
  · rename_i unseen
    obtain ⟨⟨⟩, gated, admitted⟩ := except_bind_ok _ _ _ admitted
    obtain rfl := Except.ok.inj admitted
    refine ⟨unseen, fun other free => ?_⟩
    simp only [admission, identified, bind, Except.bind, free, gated]
    rfl

theorem reaches_some (X : XeroTool) (σ : XeroState) (call : XeroCall) (triple : XeroTriple)
    (reached : reaches X σ call = some triple) :
    checkIdempotency X σ.file triple.key = some false ∧ allowedBridgeUrl X = some true ∧
      ∀ τ : XeroState, checkIdempotency X τ.file triple.key = some false →
        reaches X τ call = some triple := by
  rw [reaches] at reached
  split at reached
  · contradiction
  · rename_i admitted
    split at reached
    · rename_i usable
      obtain rfl := Option.some.inj reached
      obtain ⟨unseen, again⟩ := admission_ok X _ call _ admitted
      refine ⟨unseen, usable, fun τ free => ?_⟩
      rw [reaches, again _ free]
      exact if_pos usable
    · contradiction

theorem record_spec (X : XeroTool) (file : IdempotencyFile) (key : String)
    (can : recordable X file key = true) :
    checkIdempotency X (recordIdempotency X file key).1 key = some true ∧
      ∀ other, checkIdempotency X file other ≠ some false →
        checkIdempotency X (recordIdempotency X file key).1 other ≠ some false := by
  rcases dir : X.jobDir with _ | parts
  · cases file <;> simp [recordable, dir] at can
  cases file with
  | absent =>
    have encoded : X.encodes (IdempotencyFile.absent.withKey key) = true := by
      simpa [recordable, dir] using can
    have written : recordIdempotency X .absent key = (.holds (dict [(key, Value.bool true)]), false) := by
      simp only [recordIdempotency, dir, if_pos encoded]
      rfl
    simp [written, checkIdempotency, dir, isDict]
  | holds data =>
    have encoded : X.encodes ((IdempotencyFile.holds data).withKey key) = true := by
      simpa [recordable, dir] using can
    have shape : (if data.isDict then data else dict []).isDict = true := by
      split
      · assumption
      · rfl
    have own := get?_insert_self _ key (Value.bool true) shape
    have written : recordIdempotency X (.holds data) key =
        (.holds ((if data.isDict then data else dict []).insert key (Value.bool true)), false) := by
      simp only [recordIdempotency, dir, if_pos encoded]
      rfl
    simp only [written, checkIdempotency, dir, isDict_insert, shape, Bool.true_and, own, Option.isSome_some,
      true_and]
    intro other found
    rw [Ne, Option.some_inj, Bool.not_eq_false, Bool.and_eq_true] at found
    rw [if_pos found.1]
    by_cases same : other = key
    · rw [same] at found ⊢
      rw [get?_insert_self data key _ found.1]
      simp
    · rw [get?_insert_other data key other _ same, found.2]
      simp
  | _ => simp [recordable] at can

theorem record_fails (X : XeroTool) (file : IdempotencyFile) (key : String)
    (cannot : recordable X file key = false) : (recordIdempotency X file key).1 = file := by
  rcases dir : X.jobDir with _ | parts
  · simp [recordIdempotency, dir]
  · cases file with
    | absent =>
      have raises : X.encodes (IdempotencyFile.absent.withKey key) = false := by
        simpa [recordable, dir] using cannot
      simp [recordIdempotency, dir, raises]
    | holds data =>
      have raises : X.encodes ((IdempotencyFile.holds data).withKey key) = false := by
        simpa [recordable, dir] using cannot
      simp [recordIdempotency, dir, raises]
    | _ => simp [recordIdempotency, dir]

theorem redirect_mayHaveExecuted (redirect : BridgeRedirect) :
    (BridgeReply.answered redirect.status none).mayHaveExecuted = true := by
  cases redirect <;> rfl

theorem executions_zero (exchange : BridgeExchange) (none_ : exchange.executions = 0) :
    exchange.outcome.isGood = false := by
  have silent : ∀ reply ∈ exchange.replies, reply.mayHaveExecuted = false := by
    intro reply member
    have nothing := List.eq_nil_of_length_eq_zero none_
    exact Bool.eq_false_iff.mpr (List.filter_eq_nil_iff.mp nothing reply member)
  rw [BridgeExchange.replies] at silent
  rcases way : exchange.redirects.take (BridgeExchange.maxRedirects - 1) with _ | ⟨redirect, rest⟩
  · rw [way] at silent
    cases outcome : exchange.outcome with
    | answered status data =>
      rw [outcome] at silent
      have refused := silent (.answered status data) (List.mem_singleton_self _)
      cases data with
      | none => rfl
      | some data =>
        rw [BridgeReply.mayHaveExecuted, Bool.not_eq_false', decide_eq_true_eq] at refused
        rw [BridgeReply.isGood, decide_eq_false_iff_not]
        omega
    | _ => rfl
  · rw [way] at silent
    have first := silent (.answered redirect.status none) List.mem_cons_self
    rw [redirect_mayHaveExecuted] at first
    contradiction

theorem executed_append (posts : List XeroPost) (X : XeroTool) (call : XeroCall) (triple : XeroTriple)
    (replies : List BridgeReply) :
    executed (posts ++ replies.map (postOf X call triple)) =
      executed posts ++ List.replicate (replies.filter BridgeReply.mayHaveExecuted).length triple := by
  rw [executed, executed, List.filter_append, List.map_append]
  congr 1
  induction replies with
  | nil => rfl
  | cons reply rest later =>
    rw [List.map_cons, List.filter_cons, List.filter_cons]
    change (if reply.mayHaveExecuted = true then _ else _ : List XeroPost).map XeroPost.triple = _
    by_cases may : reply.mayHaveExecuted = true
    · rw [if_pos may, if_pos may, List.map_cons, later, List.length_cons, List.replicate_succ]
      rfl
    · rw [if_neg may, if_neg may, later]

theorem sendPost_posts (X : XeroTool) (σ : XeroState) (call : XeroCall) (triple : XeroTriple)
    (exchange : BridgeExchange) :
    (sendPost X σ call triple exchange).1.posts =
      σ.posts ++ exchange.replies.map (postOf X call triple) := by
  rw [sendPost]
  cases exchange.outcome with
  | answered status data =>
    cases data with
    | none => rfl
    | some data =>
      dsimp only
      split <;> rfl
  | _ => rfl

theorem sendPost_file (X : XeroTool) (σ : XeroState) (call : XeroCall) (triple : XeroTriple)
    (exchange : BridgeExchange) :
    (sendPost X σ call triple exchange).1.file =
      if exchange.outcome.isGood then (recordIdempotency X σ.file triple.key).1 else σ.file := by
  rw [sendPost]
  cases exchange.outcome with
  | answered status data =>
    cases data with
    | none => rfl
    | some data =>
      by_cases bad : 400 ≤ status
      · have good : ¬status < 400 := by omega
        simp [bad, good, BridgeReply.isGood]
      · have good : status < 400 := by omega
        simp [bad, good, BridgeReply.isGood, recorded]
  | _ => rfl

theorem sendPost_executed (X : XeroTool) (σ : XeroState) (call : XeroCall) (triple : XeroTriple)
    (exchange : BridgeExchange) :
    executed (sendPost X σ call triple exchange).1.posts =
      executed σ.posts ++ List.replicate exchange.executions triple := by
  rw [sendPost_posts, executed_append, BridgeExchange.executions]

theorem invoke_reaches (X : XeroTool) (σ : XeroState) (call : XeroCall) (exchange : BridgeExchange)
    (triple : XeroTriple) (reached : reaches X σ call = some triple) :
    xeroStep X σ (.invoke call exchange) = (sendPost X σ call triple exchange).1 := by
  rw [reaches] at reached
  split at reached
  · contradiction
  · rename_i admitted
    split at reached
    · rename_i usable
      obtain rfl := Option.some.inj reached
      have configured : X.bridgeUrl ≠ "" := by
        intro unset
        rw [allowedBridgeUrl, if_pos unset] at usable
        contradiction
      rw [xeroStep, xeroScopedInvoke, admitted]
      simp only [configured, usable, ↓reduceIte]
    · contradiction

theorem invoke_stays (X : XeroTool) (σ : XeroState) (call : XeroCall) (exchange : BridgeExchange)
    (stays : reaches X σ call = none) :
    (xeroStep X σ (.invoke call exchange)).posts = σ.posts ∧
      (allowedBridgeUrl X = some true → (xeroStep X σ (.invoke call exchange)).file = σ.file) := by
  rcases admitted : admission X (checkIdempotency X σ.file) call with result | triple
  · rw [xeroStep, xeroScopedInvoke, admitted]
    exact ⟨rfl, fun _ => rfl⟩
  · rw [reaches, admitted] at stays
    have unusable : allowedBridgeUrl X ≠ some true := by
      intro usable
      simp [usable] at stays
    refine ⟨?_, fun usable => absurd usable unusable⟩
    rw [xeroStep, xeroScopedInvoke, admitted]
    dsimp only
    split
    · rfl
    · split
      · rfl
      · rfl
      · exact absurd ‹_› unusable

structure Postable (X : XeroTool) (triple : XeroTriple) : Prop where
  usable : allowedBridgeUrl X = some true
  again : ∃ call, ∀ σ : XeroState, checkIdempotency X σ.file triple.key = some false →
    reaches X σ call = some triple

def Sent (X : XeroTool) (σ : XeroState) : Prop := ∀ triple ∈ executed σ.posts, Postable X triple

/-- Every triple that may have been executed has its record, or stands behind a file that stops every call. -/
def Recorded (X : XeroTool) (σ : XeroState) : Prop :=
  ∀ triple ∈ executed σ.posts, checkIdempotency X σ.file triple.key ≠ some false

theorem step_sent (X : XeroTool) (σ : XeroState) (event : XeroEvent) (sent : Sent X σ) :
    Sent X (xeroStep X σ event) := by
  cases event with
  | invoke call exchange =>
    rcases reached : reaches X σ call with _ | triple
    · have same := (invoke_stays X σ call exchange reached).1
      intro triple member
      rw [same] at member
      exact sent triple member
    · obtain ⟨-, usable, again⟩ := reaches_some X σ call triple reached
      intro other member
      rw [invoke_reaches X σ call exchange triple reached, sendPost_executed] at member
      rcases List.mem_append.mp member with earlier | last
      · exact sent other earlier
      · rw [List.eq_of_mem_replicate last]
        exact ⟨usable, call, again⟩
  | fileWrite path content =>
    have same : (xeroStep X σ (.fileWrite path content)).posts = σ.posts := by
      rw [xeroStep, fileWrite]
      split
      · rfl
      · split <;> rfl
    intro triple member
    rw [same] at member
    exact sent triple member

/-- A post keeps the records exactly when it is not executed, or once and then answered well and recorded. -/
theorem post_keeps (X : XeroTool) (σ : XeroState) (call : XeroCall) (exchange : BridgeExchange)
    (triple : XeroTriple) (reached : reaches X σ call = some triple) (kept : Recorded X σ)
    (once : PostedOnce σ) :
    (exchange.executions == 0 ||
        exchange.executions == 1 && exchange.outcome.isGood && recordable X σ.file triple.key) = true ↔
      Recorded X (sendPost X σ call triple exchange).1 ∧
        PostedOnce (sendPost X σ call triple exchange).1 := by
  have unseen := (reaches_some X σ call triple reached).1
  have fresh : triple ∉ executed σ.posts := fun member => kept triple member unseen
  rw [Recorded, PostedOnce, sendPost_executed, sendPost_file]
  rcases many : exchange.executions with _ | _ | more
  · have bad := executions_zero exchange many
    simp only [bad, List.replicate_zero, List.append_nil]
    exact iff_of_true rfl ⟨kept, once⟩
  · change (exchange.outcome.isGood && recordable X σ.file triple.key) = true ↔ _
    rw [Bool.and_eq_true]
    constructor
    · rintro ⟨good, can⟩
      obtain ⟨own, others⟩ := record_spec X σ.file triple.key can
      rw [if_pos good]
      refine ⟨fun other member => ?_, ?_⟩
      · rcases List.mem_append.mp member with earlier | last
        · exact others _ (kept other earlier)
        · rw [List.eq_of_mem_replicate last, own]
          exact nofun
      · rw [List.nodup_append_comm]
        exact List.nodup_cons.mpr ⟨fresh, once⟩
    · rintro ⟨found, -⟩
      have own := found triple (List.mem_append_right _ (List.mem_singleton_self _))
      by_contra lost
      have same : (if exchange.outcome.isGood then (recordIdempotency X σ.file triple.key).1 else σ.file) =
          σ.file := by
        split
        · rename_i good
          have cannot : recordable X σ.file triple.key = false := by simpa [good] using lost
          exact record_fails X σ.file triple.key cannot
        · rfl
      rw [same] at own
      exact own unseen
  · -- the POST was repeated: the triple stands twice at the end
    have twice : ¬(executed σ.posts ++ List.replicate (more + 1 + 1) triple).Nodup := by
      intro nodup
      have last := (List.nodup_append.mp nodup).2.1
      rw [List.nodup_replicate] at last
      omega
    exact iff_of_false (by simp) fun both => twice both.2

theorem writtenFile_other (X : XeroTool) (dir target : List String) (content : Option String)
    (file : IdempotencyFile) (spared : target = dir ++ [idempotencyFile] → file = .directory)
    (key : String) (found : checkIdempotency X file key ≠ some false) :
    writtenFile X dir target content file = file := by
  by_cases own : target = dir ++ [idempotencyFile]
  · obtain rfl := spared own
    rw [writtenFile, if_pos own]
  · cases file with
    | absent => simp [checkIdempotency] at found
    | _ => simp [writtenFile, own]

theorem fileWrite_other (X : XeroTool) (σ : XeroState) (path : String) (content : Option String)
    (spared : overwrites X σ.file path = false) :
    (fileWrite X σ path content).posts = σ.posts ∧ ∀ key, checkIdempotency X σ.file key ≠ some false →
      checkIdempotency X (fileWrite X σ path content).file key ≠ some false := by
  obtain ⟨file, posts⟩ := σ
  rcases dir : X.jobDir with _ | parts
  · simp [fileWrite, dir]
  rw [fileWrite, dir]
  dsimp only
  by_cases refused : (path.toList.contains (Char.ofNat 0) ||
      !opensWith (pathText parts) (pathText (resolvePath parts path))) = true
  · rw [if_pos refused]
    exact ⟨rfl, fun key found => found⟩
  · rw [if_neg refused]
    refine ⟨rfl, fun key found => ?_⟩
    have plain : resolvePath parts path = parts ++ [idempotencyFile] → file = .directory := by
      intro own
      rw [Bool.not_eq_true, Bool.or_eq_false_iff, Bool.not_eq_false', own] at refused
      cases file with
      | directory => rfl
      | _ => simp [overwrites, dir, own, refused.2] at spared; simp [spared] at refused
    have same := writtenFile_other X parts (resolvePath parts path) content file plain key found
    change checkIdempotency X (writtenFile X parts (resolvePath parts path) content file) key ≠ some false
    rwa [same]

theorem fileWrite_own (X : XeroTool) (σ : XeroState) (path : String) (content : Option String)
    (replaces : overwrites X σ.file path = true) :
    (fileWrite X σ path content).posts = σ.posts ∧ ∀ triple : XeroTriple,
      checkIdempotency X (fileWrite X σ path content).file triple.key ≠ some false ↔
        spares X content triple = true := by
  obtain ⟨file, posts⟩ := σ
  rcases dir : X.jobDir with _ | parts
  · simp [overwrites, dir] at replaces
  have own : (!path.toList.contains (Char.ofNat 0) &&
      opensWith (pathText parts) (pathText (resolvePath parts path)) &&
      resolvePath parts path == parts ++ [idempotencyFile]) = true := by
    cases file with
    | directory => simp [overwrites, dir] at replaces
    | _ => simpa only [overwrites, dir] using replaces
  rw [Bool.and_eq_true, Bool.and_eq_true, Bool.not_eq_true', beq_iff_eq] at own
  obtain ⟨⟨named, inside⟩, target⟩ := own
  have written : fileWrite X ⟨file, posts⟩ path content = ⟨.ofContent X content, posts⟩ := by
    simp only [fileWrite, dir, named, inside, writtenFile, if_pos target]
    cases file with
    | directory => simp [overwrites, dir] at replaces
    | _ => rfl
  rw [written]
  refine ⟨rfl, fun triple => ?_⟩
  rcases content with _ | text
  · simp [spares, IdempotencyFile.ofContent, checkIdempotency, dir]
  · cases parsed : X.loads text with
    | value data =>
      simp only [spares, IdempotencyFile.ofContent, parsed, checkIdempotency, dir, Option.any_some, Ne,
        Option.some_inj, Bool.not_eq_false]
    | _ => simp [spares, IdempotencyFile.ofContent, parsed, checkIdempotency, dir]

theorem step_keeps (X : XeroTool) (σ : XeroState) (event : XeroEvent) (sent : Sent X σ)
    (holds : Recorded X σ ∧ PostedOnce σ) :
    keepsRecords X σ event = true ↔
      Recorded X (xeroStep X σ event) ∧ PostedOnce (xeroStep X σ event) := by
  cases event with
  | invoke call exchange =>
    rw [keepsRecords]
    rcases reached : reaches X σ call with _ | triple
    · obtain ⟨posts, file⟩ := invoke_stays X σ call exchange reached
      refine iff_of_true rfl ⟨fun triple member => ?_, ?_⟩
      · rw [posts] at member
        rw [file (sent triple member).usable]
        exact holds.1 triple member
      · rw [PostedOnce, posts]
        exact holds.2
    · rw [invoke_reaches X σ call exchange triple reached, Option.all_some]
      exact post_keeps X σ call exchange triple reached holds.1 holds.2
  | fileWrite path content =>
    rw [keepsRecords, xeroStep]
    rcases replaces : overwrites X σ.file path with _ | _
    · obtain ⟨posts, found⟩ := fileWrite_other X σ path content replaces
      refine iff_of_true rfl ⟨fun triple member => ?_, ?_⟩
      · rw [posts] at member
        exact found _ (holds.1 triple member)
      · rw [PostedOnce, posts]
        exact holds.2
    · obtain ⟨posts, found⟩ := fileWrite_own X σ path content replaces
      rw [Bool.not_true, Bool.false_or, List.all_eq_true, Recorded, PostedOnce, posts]
      constructor
      · intro every
        exact ⟨fun triple member => (found triple).mpr (every triple member), holds.2⟩
      · rintro ⟨kept, -⟩ triple member
        exact (found triple).mp (kept triple member)

/-- No triple has been posted twice, nor will be by whatever call comes next, whose own POST is not repeated. -/
def StaysOnce (X : XeroTool) (σ : XeroState) : Prop :=
  PostedOnce σ ∧ ∀ call exchange, exchange.executions ≤ 1 → PostedOnce (xeroStep X σ (.invoke call exchange))

theorem staysOnce_iff (X : XeroTool) (σ : XeroState) (sent : Sent X σ) :
    Recorded X σ ∧ PostedOnce σ ↔ StaysOnce X σ := by
  constructor
  · rintro ⟨kept, once⟩
    refine ⟨once, fun call exchange single => ?_⟩
    rcases reached : reaches X σ call with _ | triple
    · rw [PostedOnce, (invoke_stays X σ call exchange reached).1]
      exact once
    · have unseen := (reaches_some X σ call triple reached).1
      rw [PostedOnce, invoke_reaches X σ call exchange triple reached, sendPost_executed]
      rcases many : exchange.executions with _ | _ | more
      · rwa [List.replicate_zero, List.append_nil]
      · rw [List.nodup_append_comm]
        exact List.nodup_cons.mpr ⟨fun member => kept triple member unseen, once⟩
      · omega
  · rintro ⟨once, next⟩
    refine ⟨fun triple member => ?_, once⟩
    -- without its record the call of the triple comes to its post once more
    by_contra lost
    obtain ⟨call, again⟩ := (sent triple member).again
    have twice := next call ⟨[], .lost⟩ (Nat.le_refl 1)
    rw [PostedOnce, invoke_reaches X σ call ⟨[], .lost⟩ triple (again σ lost), sendPost_executed] at twice
    exact (List.nodup_append.mp twice).2.2 triple member triple (List.mem_singleton_self _) rfl

/-- In every state of a run each triple has been posted once, and goes on so whatever call comes next,
exactly when every step of the run keeps the records. -/
theorem posted_once_iff (X : XeroTool) (events : List XeroEvent) :
    Runs.Guarded (xeroStep X) (keepsRecords X) .start events = true ↔
      ∀ first later, events = first ++ later →
        StaysOnce X (Runs.run (xeroStep X) .start first) := by
  have begins : Sent X .start := fun triple member => absurd member List.not_mem_nil
  have nothing : Recorded X .start ∧ PostedOnce .start :=
    ⟨fun triple member => absurd member List.not_mem_nil, List.nodup_nil⟩
  have always (first : List XeroEvent) : Sent X (Runs.run (xeroStep X) .start first) :=
    Runs.run_always (xeroStep X) (Sent X) (step_sent X) first .start begins
  rw [Runs.guarded_iff_always (xeroStep X) (Sent X) (fun σ => Recorded X σ ∧ PostedOnce σ)
    (keepsRecords X) (step_sent X) (step_keeps X) events .start begins nothing]
  constructor
  · exact fun kept first later split =>
      (staysOnce_iff X _ (always first)).mp (kept first later split)
  · exact fun stays first later split =>
      (staysOnce_iff X _ (always first)).mpr (stays first later split)

def payablesJob : XeroTool where
  unicode := { lower := id, printable := fun _ => true }
  scopeMap := { specialists := ["genesis-e4l-ap"], scopes := [], writesForbidden := [] }
  bridgeUrl := "https://bridge.example/xero"
  bridgeToken := ""
  urlparse _ := some ⟨"https", "bridge.example", none, none⟩
  jobDir := some ["tmp", "jobs", "job-1"]
  loads _ := .decodeError
  encodes _ := true

def draftBill : XeroCall where
  operation := str "create_draft_bill"
  payload := dict []
  entityKey := str "demo"
  verifyApiRunId := str "verify-test-001"
  agentSlug := null
  kwargs := dict [("_parent_agent_slug", str "genesis-e4l-ap"),
    ("_agent_slug", str "genesis-e4l-ap")]

def retriedBill : List XeroEvent :=
  [.invoke draftBill ⟨[], .lost⟩, .invoke draftBill ⟨[], .answered 200 (some (dict []))⟩]

theorem bill_posted_twice :
    ¬∀ (X : XeroTool) (events : List XeroEvent), PostedOnce (Runs.run (xeroStep X) .start events) := by
  intro once
  have twice : executed (Runs.run (xeroStep payablesJob) .start retriedBill).posts =
      [⟨"genesis-e4l-ap", "create_draft_bill", "verify-test-001"⟩,
       ⟨"genesis-e4l-ap", "create_draft_bill", "verify-test-001"⟩] := rfl
  have kept := once payablesJob retriedBill
  rw [PostedOnce, twice] at kept
  exact absurd kept (by decide)

end GenesisAgents
