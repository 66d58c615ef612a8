import GenesisAgents.ActionGrants
import GenesisAgents.AgentRuns
import GenesisAgents.JobLedger

/-! Who may read a delegated job: the tenant and the owner a row is stored with, what
`create_child_job` copies from the parent, and the checks of `main.py` and `request_auth.py`. -/

namespace GenesisAgents

open JobLedger

/-- `Principal.has_scope` -/
def Principal.hasScope (principal : Principal) (scope : String) : Bool :=
  principal.scopes.contains scope || principal.scopes.contains "*"

def JobRow.owner (row : JobRow) : Option String × Option String :=
  (row.tenantId, row.ownerPrincipalId)

/-- `a and b` of two comparisons -/
def bothEqual : Except AuthFailure Bool → Except AuthFailure Bool → Except AuthFailure Bool
  | .ok true, second => second
  | first, _ => first

/-- `owns_resource`, of the columns of a row. -/
def ownsColumns (principal : Principal) (columns : Option String × Option String) :
    Except AuthFailure Bool :=
  if columns = (none, none) then .ok (principal.authMethod == "legacy_gateway")
  else bothEqual (compareDigest (columns.1.getD "") principal.tenantId)
    (compareDigest (columns.2.getD "") principal.principalId)

def ownsResource (principal : Principal) : Option JobRow → Except AuthFailure Bool
  | none => .ok false
  | some row => ownsColumns principal row.owner

def requireOwnedJob (principal : Principal) (job : Option JobRow) (scope : String) :
    Except Refusal JobRow :=
  match job with
  | none => .error ⟨404, "job not found"⟩
  | some row =>
    if !principal.hasScope scope then .error ⟨403, "principal scope denied"⟩
    else match ownsResource principal (some row) with
      | .ok true => .ok row
      | .ok false => .error ⟨403, "resource owner mismatch"⟩
      | .error failure => .error failure.refusal

/-- The legacy key is let through without a look at the row. -/
def authorizeJobRead (jobStoreOk : Bool) (l : JobLedger) (principal : Principal) (jobId : JobId)
    (scope : String) : Except Refusal Unit :=
  if principal.authMethod = "legacy_gateway" then .ok ()
  else if !jobStoreOk then .error ⟨503, "job_store unavailable"⟩
  else (requireOwnedJob principal (l.find jobId) scope).map fun _ => ()

theorem requireOwnedJob_owner (principal : Principal) (row other : JobRow) (scope : String)
    (same : row.owner = other.owner) :
    (requireOwnedJob principal (some row) scope).map (fun _ => ()) =
      (requireOwnedJob principal (some other) scope).map fun _ => () := by
  rw [requireOwnedJob, requireOwnedJob, ownsResource, ownsResource, same]
  by_cases granted : principal.hasScope scope = true
  · rw [granted]
    rcases ownsColumns principal other.owner with failure | (_ | _) <;> rfl
  · simp [granted]

theorem bothEqual_true (first second : Except AuthFailure Bool)
    (both : bothEqual first second = .ok true) : first = .ok true ∧ second = .ok true := by
  unfold bothEqual at both
  split at both
  · exact ⟨rfl, both⟩
  · rename_i other
    exact absurd both other

theorem owns_legacy_iff (now : Int) (columns : Option String × Option String) :
    ownsColumns (legacyGatewayPrincipal now) columns = .ok true ↔
      columns = (none, none) ∨ columns = (some "legacy", some "legacy:gateway") := by
  constructor
  · intro owns
    rw [ownsColumns] at owns
    split at owns
    · exact .inl ‹_›
    · have equal := bothEqual_true _ _ owns
      have tenantId : columns.1.getD "" = "legacy" := compareDigest_true _ _ equal.1
      have principalId : columns.2.getD "" = "legacy:gateway" := compareDigest_true _ _ equal.2
      refine .inr ?_
      rcases columns with ⟨_ | tenant, _ | owner⟩
      · exact absurd tenantId (show "" ≠ "legacy" by decide)
      · exact absurd tenantId (show "" ≠ "legacy" by decide)
      · exact absurd principalId (show "" ≠ "legacy:gateway" by decide)
      · exact Prod.ext (congrArg some tenantId) (congrArg some principalId)
  · rintro (rfl | rfl)
    · rfl
    · have tenants := compareDigest_self "legacy" (by decide)
      have owners := compareDigest_self "legacy:gateway" (by decide)
      rw [ownsColumns, if_neg (by simp)]
      calc
        _ = bothEqual (compareDigest "legacy" "legacy")
              (compareDigest "legacy:gateway" "legacy:gateway") := rfl
        _ = .ok true := by rw [tenants, owners, bothEqual]

/-! The columns of the rows under the calls of the job store. -/

namespace JobLedger

def ownerAt (l : JobLedger) (jobId : JobId) : Option (Option String × Option String) :=
  (l.find jobId).map JobRow.owner

theorem ownerAt_present (l : JobLedger) (jobId : JobId) (owner : Option String × Option String)
    (owned : l.ownerAt jobId = some owner) : jobId ∈ l.ids := by
  by_contra absent
  rw [ownerAt, (find_eq_none l jobId).mpr absent] at owned
  contradiction

theorem ownerAt_insertRow (l : JobLedger) (row : JobRow) (fresh : row.id ∉ l.ids)
    (jobId : JobId) (owner : Option String × Option String)
    (owned : l.ownerAt jobId = some owner) : (l.insertRow row fresh).ownerAt jobId = some owner := by
  have other : row.id ≠ jobId := by
    rintro rfl
    exact fresh (ownerAt_present l _ owner owned)
  rw [ownerAt, find_insertRow, if_neg other]
  exact owned

theorem ownerAt_update (l : JobLedger) (hits : JobRow → Bool) (write : JobRow → JobRow)
    (event : JobRow → Option (Option JobStatus × JobStatus))
    (keeps : ∀ row, (write row).id = row.id) (jobId : JobId)
    (owner : Option String × Option String) (owned : l.ownerAt jobId = some owner)
    (spares : ∀ row, (write row).owner = row.owner) :
    (l.update hits write event keeps).ownerAt jobId = some owner := by
  have same : (JobRow.owner ∘ fun row => if hits row then write row else row) = JobRow.owner := by
    funext row
    rw [Function.comp]
    split
    · exact spares row
    · rfl
  rw [ownerAt, find_update, Option.map_map, same]
  exact owned

/-- A row keeps its owner through every call. -/
theorem step_ownerAt (l : JobLedger) (op : JobOp) (jobId : JobId)
    (owner : Option String × Option String) (owned : l.ownerAt jobId = some owner) :
    (l.step op).ownerAt jobId = some owner := by
  cases op with
  | tick microseconds => exact owned
  | createJob request id =>
    rw [step, perform, createJob]
    split
    · split <;> exact owned
    · split
      · exact ownerAt_insertRow l _ ‹_› jobId owner owned
      · exact owned
  | createChildJob request =>
    rw [step, perform, createChildJob]
    split
    · exact ownerAt_insertRow l _ ‹_› jobId owner owned
    · exact owned
  | claimQueuedJobs limit =>
    apply ownerAt_update l _ _ _ _ jobId owner owned
    · exact fun _ => rfl
    · exact fun _ => rfl
  | claimJobById id =>
    apply ownerAt_update l _ _ _ _ jobId owner owned
    · exact fun _ => rfl
    · exact fun _ => rfl
  | updateJobStatus u =>
    rw [step, perform, updateJobStatus]
    split
    · exact owned
    · split
      · exact owned
      · apply ownerAt_update l _ _ _ _ jobId owner owned
        · exact fun _ => rfl
        · exact fun _ => rfl
  | heartbeat id =>
    apply ownerAt_update l _ _ _ _ jobId owner owned
    · exact fun _ => rfl
    · exact fun _ => rfl
  | expireStaleRunningJobs staleMinutes =>
    apply ownerAt_update l _ _ _ _ jobId owner owned
    · exact fun _ => rfl
    · exact fun _ => rfl

theorem step_child (l : JobLedger) (request : ChildRequest) (fresh : request.childJobId ∉ l.ids)
    (owner : Option String × Option String) (owned : l.ownerAt request.parentJobId = some owner) :
    (l.step (.createChildJob request)).ownerAt request.childJobId = some owner := by
  rcases Option.map_eq_some_iff.mp owned with ⟨parent, found, rfl⟩
  have inserted : (l.step (.createChildJob request)).find request.childJobId =
      some (request.row (some parent) l.clock) := by
    rw [step, perform, createChildJob]
    rw [dif_pos (show (request.row _ _).id ∉ l.ids from fresh), find_insertRow, found]
    exact if_pos rfl
  rw [ownerAt, inserted]
  rfl

end JobLedger

/-- The jobs `create_child_job` has put under a root since the store was `start`, with whatever other
calls in between. A call with the id of a row that exists makes no child. -/
inductive JobTree (start : JobLedger) (root : JobId) : JobLedger → List JobId → Prop
  | root : JobTree start root start [root]
  | child {l : JobLedger} {jobs : List JobId} (request : ChildRequest)
      (sofar : JobTree start root l jobs) (parent : request.parentJobId ∈ jobs)
      (fresh : request.childJobId ∉ l.ids) :
      JobTree start root (l.step (.createChildJob request)) (jobs ++ [request.childJobId])
  | other {l : JobLedger} {jobs : List JobId} (op : JobOp) (sofar : JobTree start root l jobs) :
      JobTree start root (l.step op) jobs

theorem jobTree_owner (start : JobLedger) (root : JobId) (owner : Option String × Option String)
    (owned : start.ownerAt root = some owner) (l : JobLedger) (jobs : List JobId)
    (tree : JobTree start root l jobs) : ∀ job ∈ jobs, l.ownerAt job = some owner := by
  induction tree with
  | root =>
    intro job member
    rw [List.mem_singleton.mp member]
    exact owned
  | @child l jobs request _ parent fresh sofar =>
    intro job member
    rcases List.mem_append.mp member with earlier | new
    · exact step_ownerAt l _ job owner (sofar job earlier)
    · rw [List.mem_singleton.mp new]
      exact step_child l request fresh owner (sofar _ parent)
  | other op _ sofar =>
    exact fun job member => step_ownerAt _ op job owner (sofar job member)

theorem jobTree_root (start : JobLedger) (root : JobId) (l : JobLedger) (jobs : List JobId)
    (tree : JobTree start root l jobs) : root ∈ jobs := by
  induction tree with
  | root => exact List.mem_singleton.mpr rfl
  | child request _ _ _ sofar => exact List.mem_append_left _ sofar
  | other op _ sofar => exact sofar

theorem authorizeJobRead_owner (jobStoreOk : Bool) (l : JobLedger) (principal : Principal)
    (job other : JobId) (scope : String) (owner : Option String × Option String)
    (owned : l.ownerAt job = some owner) (owned' : l.ownerAt other = some owner) :
    authorizeJobRead jobStoreOk l principal job scope =
      authorizeJobRead jobStoreOk l principal other scope := by
  rcases Option.map_eq_some_iff.mp owned with ⟨row, found, columns⟩
  rcases Option.map_eq_some_iff.mp owned' with ⟨row', found', columns'⟩
  rw [authorizeJobRead, authorizeJobRead, found, found']
  rw [requireOwnedJob_owner principal row row' scope (columns.trans columns'.symm)]

def Refused {α : Type} (answer : Except Refusal α) : Prop := ∃ refusal, answer = .error refusal

theorem legacy_refused (now : Int) (row : JobRow) (scope : String)
    (owned : row.owner ≠ (none, none))
    (foreign : row.owner ≠ (some "legacy", some "legacy:gateway")) :
    Refused (requireOwnedJob (legacyGatewayPrincipal now) (some row) scope) := by
  have denied : ownsResource (legacyGatewayPrincipal now) (some row) ≠ .ok true := by
    intro owns
    rcases (owns_legacy_iff now row.owner).mp owns with unowned | own
    · exact owned unowned
    · exact foreign own
  rw [requireOwnedJob]
  split
  · exact ⟨_, rfl⟩
  · split
    · exact absurd ‹_› denied
    · exact ⟨_, rfl⟩
    · exact ⟨_, rfl⟩

/-- A job of the tree has the columns of the root's row and is read by whoever reads the root. The
legacy key is refused it when it has an owner, unless that owner is the legacy identity itself. -/
theorem delegated_work_stays (start : JobLedger) (root : JobId) (row : JobRow)
    (found : start.find root = some row) (l : JobLedger) (jobs : List JobId)
    (tree : JobTree start root l jobs) : ∀ job ∈ jobs,
    l.ownerAt job = some (row.tenantId, row.ownerPrincipalId) ∧
      (∀ (jobStoreOk : Bool) (principal : Principal) (scope : String),
        principal.authMethod ≠ "legacy_gateway" →
        (authorizeJobRead jobStoreOk l principal job scope = .ok () ↔
          authorizeJobRead jobStoreOk l principal root scope = .ok ())) ∧
      (row.tenantId ≠ none ∨ row.ownerPrincipalId ≠ none →
        ¬(row.tenantId = some "legacy" ∧ row.ownerPrincipalId = some "legacy:gateway") →
        ∀ now scope,
          Refused (requireOwnedJob (legacyGatewayPrincipal now) (l.find job) scope)) := by
  have owned : start.ownerAt root = some row.owner := by rw [ownerAt, found, Option.map_some]
  have owners := jobTree_owner start root row.owner owned l jobs tree
  have rooted : l.ownerAt root = some row.owner := owners root (jobTree_root start root l jobs tree)
  intro job member
  refine ⟨owners job member, fun jobStoreOk principal scope _ => ?_, fun set foreign now scope => ?_⟩
  · rw [authorizeJobRead_owner jobStoreOk l principal job root scope row.owner
      (owners job member) rooted]
  · rcases Option.map_eq_some_iff.mp (owners job member) with ⟨child, here, columns⟩
    rw [here]
    apply legacy_refused
    · rw [columns]
      rintro unset
      have both := Prod.mk.inj unset
      exact set.elim (fun tenant => tenant both.1) (fun owner => owner both.2)
    · rw [columns]
      exact fun own => foreign (Prod.mk.inj own)

/-! A job with a child and a grandchild. -/

def submission (tenantId ownerPrincipalId : String) : JobRequest :=
  { agentSlug := "genesis-meta", prompt := "plan", params := none, buyerWalletId := none
    buyerClientId := none, priceTierCents := none, idempotencyKey := none, webhookUrl := none
    webhookSecret := none, escrowId := none, tenantId := some tenantId
    ownerPrincipalId := some ownerPrincipalId }

def submittedLedger (tenantId ownerPrincipalId : String) : JobLedger :=
  (JobLedger.empty 0).step (.createJob (submission tenantId ownerPrincipalId) "job-1")

def childOf (parentJobId childJobId : JobId) : ChildRequest :=
  { childJobId := childJobId, agentSlug := "genesis-research", prompt := "look"
    parentJobId := parentJobId, params := none }

def submittedRow (tenantId ownerPrincipalId : String) : JobRow :=
  (submission tenantId ownerPrincipalId).row "job-1" 0

def familyLedger (tenantId ownerPrincipalId : String) : JobLedger :=
  ((submittedLedger tenantId ownerPrincipalId).step
    (.createChildJob (childOf "job-1" "child-1"))).step (.createChildJob (childOf "child-1" "child-2"))

def grandchildRow (tenantId ownerPrincipalId : String) : JobRow :=
  (childOf "child-1" "child-2").row
    (some ((childOf "job-1" "child-1").row (some (submittedRow tenantId ownerPrincipalId)) 0)) 0

theorem grandchild_found (tenantId ownerPrincipalId : String) :
    (familyLedger tenantId ownerPrincipalId).find "child-2" =
      some (grandchildRow tenantId ownerPrincipalId) := by
  rfl

theorem submitted_found (tenantId ownerPrincipalId : String) :
    (submittedLedger tenantId ownerPrincipalId).find "job-1" =
      some (submittedRow tenantId ownerPrincipalId) := by
  rfl

theorem family_tree (tenantId ownerPrincipalId : String) :
    JobTree (submittedLedger tenantId ownerPrincipalId) "job-1"
      (familyLedger tenantId ownerPrincipalId) ["job-1", "child-1", "child-2"] := by
  have fresh : "child-1" ∉ (submittedLedger tenantId ownerPrincipalId).ids :=
    show "child-1" ∉ ["job-1"] by decide
  have fresh' : "child-2" ∉ ((submittedLedger tenantId ownerPrincipalId).step
      (.createChildJob (childOf "job-1" "child-1"))).ids :=
    show "child-2" ∉ ["job-1", "child-1"] by decide
  have alone : JobTree (submittedLedger tenantId ownerPrincipalId) "job-1"
      (submittedLedger tenantId ownerPrincipalId) ["job-1"] := .root
  have child := alone.child (childOf "job-1" "child-1") (List.mem_singleton.mpr rfl) fresh
  exact child.child (childOf "child-1" "child-2")
    (List.mem_cons_of_mem _ (List.mem_singleton.mpr rfl)) fresh'

theorem delegated_work_stays_with_cato :
    JobTree (submittedLedger "e4l" "service:cato") "job-1" (familyLedger "e4l" "service:cato")
        ["job-1", "child-1", "child-2"] ∧
      ∀ job ∈ ["job-1", "child-1", "child-2"],
      (familyLedger "e4l" "service:cato").ownerAt job = some (some "e4l", some "service:cato") ∧
        (∀ (jobStoreOk : Bool) (principal : Principal) (scope : String),
          principal.authMethod ≠ "legacy_gateway" →
          (authorizeJobRead jobStoreOk (familyLedger "e4l" "service:cato") principal job scope =
              .ok () ↔
            authorizeJobRead jobStoreOk (familyLedger "e4l" "service:cato") principal "job-1"
              scope = .ok ())) ∧
        ∀ now scope, Refused (requireOwnedJob (legacyGatewayPrincipal now)
          ((familyLedger "e4l" "service:cato").find job) scope) := by
  refine ⟨family_tree "e4l" "service:cato", fun job member => ?_⟩
  have stays := delegated_work_stays _ "job-1" _ (submitted_found "e4l" "service:cato") _ _
    (family_tree "e4l" "service:cato") job member
  exact ⟨stays.1, stays.2.1, stays.2.2 (.inl (by decide)) (by decide)⟩

/-- The legacy key reads the children of the job it submitted itself. -/
theorem legacy_reads_own :
    ¬∀ (start : JobLedger) (root : JobId) (row : JobRow), start.find root = some row →
      ∀ (l : JobLedger) (jobs : List JobId), JobTree start root l jobs → ∀ job ∈ jobs,
        l.ownerAt job = some (row.tenantId, row.ownerPrincipalId) ∧
          (∀ (jobStoreOk : Bool) (principal : Principal) (scope : String),
            principal.authMethod ≠ "legacy_gateway" →
            (authorizeJobRead jobStoreOk l principal job scope = .ok () ↔
              authorizeJobRead jobStoreOk l principal root scope = .ok ())) ∧
          (row.tenantId ≠ none ∨ row.ownerPrincipalId ≠ none →
            ∀ now scope,
              Refused (requireOwnedJob (legacyGatewayPrincipal now) (l.find job) scope)) := by
  intro hold
  have refused := (hold _ "job-1" _ (submitted_found "legacy" "legacy:gateway") _ _
    (family_tree "legacy" "legacy:gateway") "child-2" (by decide)).2.2 (.inl (by decide)) 0 "job.read"
  have owns : ownsColumns (legacyGatewayPrincipal 0) (grandchildRow "legacy" "legacy:gateway").owner =
      .ok true := (owns_legacy_iff 0 _).mpr (.inr rfl)
  have reads : requireOwnedJob (legacyGatewayPrincipal 0)
      (some (grandchildRow "legacy" "legacy:gateway")) "job.read" =
      .ok (grandchildRow "legacy" "legacy:gateway") := by
    rw [requireOwnedJob, ownsResource, owns]
    rfl
  rcases refused with ⟨refusal, answer⟩
  rw [grandchild_found, reads] at answer
  cases answer

end GenesisAgents
