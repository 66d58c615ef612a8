import GenesisAgents.EscrowBooks

/-! Whose escrow does the worker move? The gateway knows at submission whether it opened the escrow
itself; the worker goes by whether the stored row has a webhook. -/

namespace GenesisAgents

open Value SystemState

/-- What Postgres stores of a parameter in a column; `none` when the adapter or the server refuses
it. -/
structure Columns where
  text : Value → Option (Option String)
  integer : Value → Option (Option Int)

/-- The row that `create_job` inserts. -/
def insertedRow (C : Columns) (new : NewJob) (id : JobId) (now : Int) : Option JobRow := do
  let buyerWalletId ← C.text new.buyerWalletId
  let buyerClientId ← C.text new.buyerClientId
  let prompt ← (C.text new.prompt).join
  let _json ← dumps (new.params.orElse (dict []))
  let priceTierCents ← C.integer new.priceTierCents
  let idempotencyKey ← C.text new.idempotencyKey
  let webhookUrl ← C.text new.webhookUrl
  let escrowId ← C.text new.escrowId
  some { JobRow.queued id new.agentSlug now with
    buyerWalletId := buyerWalletId, buyerClientId := buyerClientId, prompt := prompt
    params := new.params.orElse (dict []), priceTierCents := priceTierCents
    idempotencyKey := idempotencyKey, webhookUrl := webhookUrl, escrowId := escrowId
    tenantId := some new.tenantId, ownerPrincipalId := some new.ownerPrincipalId }

inductive Created where
  | hit (id : JobId)
  | inserted (row : JobRow)

/-- `create_job`, with the job an idempotency key already has. A key that is no text cannot be
compared with the column. -/
def createJob (C : Columns) (keyed : String → Option JobId) (new : NewJob) (id : JobId)
    (now : Int) : Option Created :=
  if new.idempotencyKey.truthy then
    match new.idempotencyKey with
    | str key =>
      match keyed key with
      | some existing => some (.hit existing)
      | none => (insertedRow C new id now).map .inserted
    | _ => none
  else (insertedRow C new id now).map .inserted

structure Submission (D : Deployment) (C : Columns) where
  route : Route
  slug : String
  body : Value
  principal : Principal
  new : NewJob
  opened : Bool
  accepted : handle D route slug body principal = .ok (.enqueue new opened)
  keyed : String → Option JobId
  id : JobId
  createdAt : Int
  row : JobRow
  stored : createJob C keyed new id createdAt = some (.inserted row)

/-! Where the escrow of a submission comes from. -/

/-- The gateway obtained the id from `initiate_escrow`, or the job has the caller's id, or none. -/
def EscrowOrigin (D : Deployment) (body : Value) (new : NewJob) (opened : Bool) : Prop :=
  if opened then
    (body.get "escrow_id").truthy = false ∧
      ∃ request, (D.initiateEscrow request).ok = true ∧
        new.escrowId = optionValue (D.initiateEscrow request).escrowId
  else new.escrowId = null ∨ new.escrowId = body.get "escrow_id"

theorem optionValue_of_optionalText (v : Value) (s : Option String) (read : optionalText v = some s) :
    optionValue s = v := by
  cases v with
  | null =>
    obtain rfl := Option.some.inj read
    rfl
  | str text =>
    obtain rfl := Option.some.inj read
    rfl
  | _ => contradiction

theorem parseRunRequest_escrowId (body : Value) (request : RunRequest)
    (parsed : parseRunRequest body = some request) :
    optionValue request.escrowId = body.get "escrow_id" := by
  unfold parseRunRequest at parsed
  split at parsed
  · simp only [Option.bind_eq_bind, Option.bind_eq_some_iff] at parsed
    obtain ⟨_, -, _, -, _, -, _, -, escrowId, read, _, -, _, -, same⟩ := parsed
    obtain rfl := Option.some.inj same
    exact optionValue_of_optionalText _ escrowId read
  · contradiction

theorem isSet_eq_truthy (s : Option String) : isSet s = (optionValue s).truthy := by
  cases s <;> rfl

theorem initiate_ok (D : Deployment) (slug : String) (price buyer agent : Value)
    (escrowId : Option String) (opened : initiate D slug price buyer agent = .ok escrowId) :
    ∃ request, (D.initiateEscrow request).ok = true ∧
      escrowId = (D.initiateEscrow request).escrowId := by
  rw [initiate] at opened
  split at opened
  · contradiction
  · rename_i amountCents _
    simp only at opened
    split at opened
    · rename_i ok
      exact ⟨_, ok, (Except.ok.inj opened).symm⟩
    · contradiction

theorem asyncEscrow_origin (D : Deployment) (slug : String) (body : RunRequest)
    (price buyer agent : Value) (escrow : JobEscrow)
    (found : asyncEscrow D slug body price buyer agent = .ok escrow) :
    if escrow.opened then
      isSet body.escrowId = false ∧ ∃ request, (D.initiateEscrow request).ok = true ∧
        escrow.escrowId = (D.initiateEscrow request).escrowId
    else escrow.escrowId = none ∨ escrow.escrowId = body.escrowId := by
  rw [asyncEscrow] at found
  split at found
  · obtain rfl := Except.ok.inj found
    exact .inr rfl
  · rename_i unset
    split at found
    · rcases opened : initiate D slug price buyer agent with refusal | escrowId
      · simp [opened, Except.map] at found
      · simp only [opened, Except.map, Except.ok.injEq] at found
        subst found
        exact ⟨by simpa using unset, initiate_ok D slug price buyer agent escrowId opened⟩
    · obtain rfl := Except.ok.inj found
      exact .inl rfl

theorem checkedWebhook_ok (D : Deployment) (webhook checked : Value)
    (passes : checkedWebhook D webhook = .ok checked) : checked = webhook := by
  rw [checkedWebhook] at passes
  split at passes
  · rcases allowed : assertNotSsrf D webhook with refusal | _
    · rw [allowed] at passes
      contradiction
    · rw [allowed] at passes
      exact (Except.ok.inj passes).symm
  · exact (Except.ok.inj passes).symm

theorem runAsync_enqueues (D : Deployment) (slug : String) (bundle : GatewayBundle)
    (body : RunRequest) (principal : Principal) (prompt : String) (new : NewJob) (opened : Bool)
    (accepted : runAsync D slug bundle body principal prompt = .ok (.enqueue new opened)) :
    new.idempotencyKey = null ∧ new.webhookUrl = optionValue body.callbackUrl ∧
      ∃ price buyer agent escrow, asyncEscrow D slug body price buyer agent = .ok escrow ∧
        new.escrowId = optionValue escrow.escrowId ∧ opened = escrow.opened := by
  rw [runAsync] at accepted
  split at accepted
  · contradiction
  obtain ⟨params, -, accepted⟩ := except_bind_ok _ _ _ accepted
  obtain ⟨escrow, found, accepted⟩ := except_bind_ok _ _ _ accepted
  obtain ⟨webhook, passes, accepted⟩ := except_bind_ok _ _ _ accepted
  obtain ⟨priceTierCents, -, accepted⟩ := except_bind_ok _ _ _ accepted
  obtain ⟨rfl, rfl⟩ := Execution.enqueue.inj (Except.ok.inj accepted)
  exact ⟨rfl, checkedWebhook_ok D _ _ passes, _, _, _, escrow, found, rfl, rfl⟩

theorem runAgent_enqueues (D : Deployment) (slug : String) (body : RunRequest)
    (principal : Principal) (new : NewJob) (opened : Bool)
    (accepted : runAgent D slug body principal = .ok (.enqueue new opened)) :
    ∃ bundle prompt, runAsync D slug bundle body principal prompt = .ok (.enqueue new opened) := by
  rw [runAgent] at accepted
  simp only at accepted
  split at accepted
  · contradiction
  split at accepted
  · contradiction
  split at accepted
  · contradiction
  · contradiction
  split at accepted
  · -- a live test goes to the persona router
    split at accepted <;> split at accepted <;> simp at accepted
  split at accepted
  · exact ⟨_, _, accepted⟩
  split at accepted
  · obtain ⟨params, -, accepted⟩ := except_bind_ok _ _ _ accepted
    dsimp only at accepted
    split at accepted
    · obtain ⟨escrowId, -, accepted⟩ := except_bind_ok _ _ _ accepted
      simp [pure, Except.pure] at accepted
    · simp [pure, Except.pure] at accepted
  · simp at accepted

theorem escrow_origin (D : Deployment) (route : Route) (slug : String) (body : Value)
    (principal : Principal) (new : NewJob) (opened : Bool)
    (accepted : handle D route slug body principal = .ok (.enqueue new opened)) :
    EscrowOrigin D body new opened := by
  cases route with
  | run =>
    rw [handle] at accepted
    split at accepted
    · contradiction
    rename_i request parsed
    obtain ⟨bundle, prompt, asynchronous⟩ := runAgent_enqueues D slug request principal new opened
      accepted
    obtain ⟨-, -, price, buyer, agent, escrow, found, stored, rfl⟩ :=
      runAsync_enqueues D slug bundle request principal prompt new opened asynchronous
    have named := parseRunRequest_escrowId body request parsed
    have origin := asyncEscrow_origin D slug request price buyer agent escrow found
    rw [EscrowOrigin]
    split
    · rename_i gateway
      rw [if_pos gateway, isSet_eq_truthy, named] at origin
      obtain ⟨unset, call, ok, id⟩ := origin
      exact ⟨unset, call, ok, by rw [stored, id]⟩
    · rename_i caller
      rw [if_neg caller] at origin
      rw [stored, ← named]
      rcases origin with none_stored | same
      · exact .inl (by rw [none_stored]; rfl)
      · exact .inr (by rw [same])
  | jobs =>
    rw [handle, submitJob] at accepted
    split at accepted
    · contradiction
    split at accepted
    · contradiction
    split at accepted
    · contradiction
    · obtain ⟨rfl, rfl⟩ := Execution.enqueue.inj (Except.ok.inj accepted)
      exact .inr rfl

/-- Only the run route opens escrows, and its jobs have no idempotency key to hit. -/
theorem opened_not_hit (D : Deployment) (C : Columns) (route : Route) (slug : String) (body : Value)
    (principal : Principal) (new : NewJob)
    (accepted : handle D route slug body principal = .ok (.enqueue new true))
    (keyed : String → Option JobId) (id existing : JobId) (now : Int) :
    createJob C keyed new id now ≠ some (.hit existing) := by
  cases route with
  | run =>
    rw [handle] at accepted
    split at accepted
    · contradiction
    rename_i request parsed
    obtain ⟨bundle, prompt, asynchronous⟩ := runAgent_enqueues D slug request principal new true
      accepted
    have keyless := (runAsync_enqueues D slug bundle request principal prompt new true
      asynchronous).1
    rw [createJob, keyless]
    simp [truthy]
  | jobs =>
    rw [handle, submitJob] at accepted
    split at accepted
    · contradiction
    split at accepted
    · contradiction
    split at accepted
    · contradiction
    · simp at accepted

/-- Did the worker's last status write, the one of the exception handler, raise as well? -/
def lastWriteRaised (σ : SystemState) : Bool :=
  match σ.lastWrite.bind σ.callPhase with
  | some .raised => true
  | _ => false

/-- The worker has moved the escrow the gateway opened, once, and no other. -/
def OwnershipKept {D : Deployment} {C : Columns} (s : Submission D C) (σ : SystemState) : Prop :=
  (σ.escrowCalls.filter EscrowCall.ofWorker).map EscrowCall.escrowId =
    List.replicate (if s.opened && isSet s.row.escrowId then 1 else 0) (s.row.escrowId.getD "")

def escrowDeployment : Deployment :=
  { researchDeployment with escrowOk := true, urlHost := fun _ => some "market.example" }

def plainColumns : Columns where
  text
    | null => some none
    | str s => some (some s)
    | _ => none
  integer
    | null => some none
    | int n => some (some n)
    | _ => none

def marketPrincipal : Principal := ⟨"user:1", "tenant-1", "market", [], "ap2", 0⟩

def externalEscrowRow (webhookUrl : Option String) : JobRow :=
  { JobRow.queued "job-1" "genesis-research" 0 with
    prompt := "summarise", webhookUrl := webhookUrl, escrowId := some "escrow-7"
    tenantId := some "tenant-1", ownerPrincipalId := some "user:1" }

def unhookedSubmission : Submission escrowDeployment plainColumns where
  route := .jobs
  slug := "genesis-research"
  body := dict [("prompt", str "summarise"), ("escrow_id", str "escrow-7")]
  principal := marketPrincipal
  new := submittedJob "genesis-research"
    (dict [("prompt", str "summarise"), ("escrow_id", str "escrow-7")]) marketPrincipal
  opened := false
  accepted := rfl
  keyed _ := none
  id := "job-1"
  createdAt := 0
  row := externalEscrowRow none
  stored := rfl

def hookedSubmission : Submission escrowDeployment plainColumns where
  route := .jobs
  slug := "genesis-research"
  body := dict [("prompt", str "summarise"), ("escrow_id", str "escrow-7"),
    ("webhook_url", str "https://market.example/hook")]
  principal := marketPrincipal
  new := submittedJob "genesis-research"
    (dict [("prompt", str "summarise"), ("escrow_id", str "escrow-7"),
      ("webhook_url", str "https://market.example/hook")]) marketPrincipal
  opened := false
  accepted := rfl
  keyed _ := none
  id := "job-1"
  createdAt := 0
  row := externalEscrowRow (some "https://market.example/hook")
  stored := rfl

def claimedRows (row : JobRow) (jobId : JobId) : Option JobRow :=
  if jobId = row.id then some (row.claim 0) else none

def deliveredRun : List SystemEvent :=
  [.execute (.returned reportResult) .noDirectory, .store (.advance 0), .store (.advance 0),
   .store (.commit 0), .resume "" "", .settle, .close false]

end GenesisAgents
