import GenesisAgents.EscrowOwnership

/-! Where does the internal secret go? Every request of a submitted job that carries it: the callback
of the worker, to a URL that the submission has brought, and the calls of the escrow client. -/

namespace GenesisAgents

open Value SystemState

structure Origin where
  scheme : String
  host : String
  port : Nat
  deriving DecidableEq

structure Network where
  /-- `INTERNAL_SECRET` -/
  secret : String
  /-- `SWARMSYNC_API_URL` -/
  apiUrl : String
  /-- `SWARMSYNC_API_INTERNAL_URL`, the base of the escrow client. -/
  internalUrl : String
  callbackMaxAttempts : Int
  /-- Where `httpx` sends a request for a URL; `none` when it raises before sending. -/
  origin : String → Option Origin

structure HttpRequest where
  target : Origin
  /-- The `X-Internal-Secret` header. -/
  secret : Option String

namespace Network

variable (N : Network)

def post (url : String) (secret : Option String) : List HttpRequest :=
  (N.origin url).toList.map fun target => ⟨target, secret⟩

/-- `headers["X-Internal-Secret"]` of `fire_callback` -/
def callbackSecret : Option String := if N.secret = "" then none else some N.secret

/-- The attempts of `fire_callback` from attempt `k` on; each is answered with a status or raises. -/
def attempts (url : String) (responses : Nat → Option Nat) : Nat → Nat → List HttpRequest
  | 0, _ => []
  | left + 1, k =>
    N.post url N.callbackSecret ++
      match (N.origin url).bind fun _ => responses k with
      | some status =>
        if 200 ≤ status ∧ status < 300 then [] else attempts url responses left (k + 1)
      | none => attempts url responses left (k + 1)

def fireCallback (responses : Nat → Option Nat) (callback : Callback) : List HttpRequest :=
  N.attempts callback.url responses N.callbackMaxAttempts.toNat 1

def initiatePath : String := "/payments/ap2/initiate"
def completePath : String := "/payments/ap2/complete"
def releasePath : String := "/payments/ap2/release"

/-- A function of the escrow client; without a secret it sends nothing. -/
def escrowPost (path : String) : List HttpRequest :=
  if N.secret = "" then [] else N.post (N.internalUrl ++ path) (some N.secret)

def movePath : EscrowMove → String
  | .complete => completePath
  | .release _ => releasePath

def escrowRequest (call : EscrowCall) : List HttpRequest := N.escrowPost (movePath call.move)

def requests {D : Deployment} {C : Columns} (s : Submission D C) (responses : Nat → Option Nat)
    (σ : SystemState) : List HttpRequest :=
  (if s.opened then N.escrowPost initiatePath else []) ++ σ.escrowCalls.flatMap N.escrowRequest ++
    σ.callbacks.flatMap (N.fireCallback responses)

def SecretKept (sent : List HttpRequest) : Prop :=
  ∀ request ∈ sent, request.secret = some N.secret → N.secret ≠ "" →
    N.origin N.apiUrl = some request.target

/-- A request for the URL goes to the API or is never sent. -/
def inside (url : String) : Bool := N.origin url = none || N.origin url = N.origin N.apiUrl

/-- What the configuration, the row and the escrow profile must be for the secret to stay. -/
def StaysInside {D : Deployment} {C : Columns} (s : Submission D C) (P : Processing) : Prop :=
  N.secret = "" ∨
    (isSet s.row.webhookUrl = true → 0 < N.callbackMaxAttempts →
        N.inside (s.row.webhookUrl.getD "") = true) ∧
      (s.opened = true → N.inside (N.internalUrl ++ initiatePath) = true) ∧
      (isSet s.row.escrowId = true → isSet s.row.webhookUrl = false → P.escrowPermitted = true →
        N.inside (N.internalUrl ++ completePath) = true ∧
          N.inside (N.internalUrl ++ releasePath) = true) ∧
      (isSet s.row.escrowId = true → P.escrowOk = true →
        N.inside (N.internalUrl ++ releasePath) = true)

end Network

open Network RowLocks

theorem secretKept_append (N : Network) (first second : List HttpRequest) :
    N.SecretKept (first ++ second) ↔ N.SecretKept first ∧ N.SecretKept second :=
  List.forall_mem_append

theorem secretKept_flatMap {α : Type} (N : Network) (sends : α → List HttpRequest) (l : List α) :
    N.SecretKept (l.flatMap sends) ↔ ∀ a ∈ l, N.SecretKept (sends a) := by
  constructor
  · exact fun kept a member request sent => kept request (List.mem_flatMap.mpr ⟨a, member, sent⟩)
  · intro kept request sent
    obtain ⟨a, member, sent⟩ := List.mem_flatMap.mp sent
    exact kept a member request sent

theorem post_kept (N : Network) (url : String) (set : N.secret ≠ "") :
    N.SecretKept (N.post url (some N.secret)) ↔ N.inside url = true := by
  rw [inside, Bool.or_eq_true, decide_eq_true_iff, decide_eq_true_iff]
  rcases there : N.origin url with _ | target
  · simp [SecretKept, post, there]
  · simp [SecretKept, post, there, set, eq_comm]

theorem escrowPost_kept (N : Network) (path : String) (set : N.secret ≠ "") :
    N.SecretKept (N.escrowPost path) ↔ N.inside (N.internalUrl ++ path) = true := by
  rw [escrowPost, if_neg set]
  exact post_kept N _ set

theorem attempts_kept (N : Network) (url : String) (responses : Nat → Option Nat)
    (set : N.secret ≠ "") (stays : N.inside url = true) (left : Nat) :
    ∀ k, N.SecretKept (N.attempts url responses left k) := by
  have first : N.SecretKept (N.post url N.callbackSecret) := by
    rw [callbackSecret, if_neg set]
    exact (post_kept N url set).mpr stays
  have nothing : N.SecretKept [] := fun request sent => absurd sent List.not_mem_nil
  induction left with
  | zero => exact fun _ => nothing
  | succ left onward =>
    intro k
    rw [attempts, secretKept_append]
    refine ⟨first, ?_⟩
    split
    · split
      · exact nothing
      · exact onward (k + 1)
    · exact onward (k + 1)

theorem fireCallback_kept (N : Network) (responses : Nat → Option Nat) (callback : Callback)
    (set : N.secret ≠ "") :
    N.SecretKept (N.fireCallback responses callback) ↔
      (0 < N.callbackMaxAttempts → N.inside callback.url = true) := by
  rw [fireCallback]
  constructor
  · intro kept positive
    obtain ⟨left, some_left⟩ : ∃ left, N.callbackMaxAttempts.toNat = left + 1 :=
      Nat.exists_eq_succ_of_ne_zero (by omega)
    rw [some_left, attempts, secretKept_append, callbackSecret, if_neg set] at kept
    exact (post_kept N callback.url set).mp kept.1
  · intro stays
    by_cases positive : 0 < N.callbackMaxAttempts
    · exact attempts_kept N callback.url responses set (stays positive) _ 1
    · have none_left : N.callbackMaxAttempts.toNat = 0 := by omega
      rw [none_left]
      exact fun request sent => absurd sent List.not_mem_nil

theorem kept_without_secret (N : Network) (sent : List HttpRequest) (unset : N.secret = "") :
    N.SecretKept sent := fun _ _ _ set => absurd unset set

def Called (P : Processing) (call : EscrowCall) : Prop :=
  (P.ownsEscrow && P.escrowPermitted) = true ∨
    call.move = .release "admin_refund" ∧ (isSet P.job.escrowId && P.escrowOk) = true

structure SendsInv (P : Processing) (σ : SystemState) : Prop where
  carries : CarriesEscrow P σ.store
  calls : ∀ call ∈ σ.escrowCalls, Called P call
  /-- A refund that goes on to its release has read an escrow. -/
  releasing : ∀ request ∈ σ.admins, ∀ escrowId, request.phase = .releasing escrowId →
    (isSet P.job.escrowId && P.escrowOk) = true
  callbacks : ∀ callback ∈ σ.callbacks,
    isSet P.job.webhookUrl = true ∧ callback.url = P.job.webhookUrl.getD ""

theorem escrowCallsOf_called (P : Processing) (exit : Exit) :
    ∀ call ∈ escrowCallsOf P exit, Called P call := by
  intro call member
  rw [escrowCallsOf] at member
  split at member
  · rename_i owned
    exact .inl owned
  · contradiction

theorem firedCallbacks_url (P : Processing) (heartbeatRaised : Bool) (final : Option Exit) :
    ∀ callback ∈ firedCallbacks P heartbeatRaised final,
      isSet P.job.webhookUrl = true ∧ callback.url = P.job.webhookUrl.getD "" := by
  intro callback member
  cases final with
  | none => contradiction
  | some exit =>
    rw [firedCallbacks] at member
    split at member
    · rename_i fires
      obtain rfl := List.mem_singleton.mp member
      exact ⟨(Bool.and_eq_true_iff.mp fires).2, rfl⟩
    · contradiction

theorem set_releasing (P : Processing) (admins : List AdminRequest) (k : Nat) (new : AdminRequest)
    (before : ∀ request ∈ admins, ∀ escrowId, request.phase = .releasing escrowId →
      (isSet P.job.escrowId && P.escrowOk) = true)
    (own : ∀ escrowId, new.phase = .releasing escrowId →
      (isSet P.job.escrowId && P.escrowOk) = true) :
    ∀ request ∈ admins.set k new, ∀ escrowId, request.phase = .releasing escrowId →
      (isSet P.job.escrowId && P.escrowOk) = true := by
  intro request member escrowId ready
  rcases List.mem_or_eq_of_mem_set member with there | rfl
  · exact before request there escrowId ready
  · exact own escrowId ready

theorem releases_escrow (P : Processing) (σ : SystemState) (request : AdminRequest) (row : JobRow)
    (carries : CarriesEscrow P σ.store) (found : σ.store.table.read P.job.id = some row)
    (releasing : releases P request row = true) :
    (isSet P.job.escrowId && P.escrowOk) = true := by
  obtain ⟨row', found', same⟩ := carries.row
  obtain rfl := Option.some.inj (found.symm.trans found')
  rw [releases, same, Bool.and_eq_true, Bool.and_eq_true] at releasing
  rw [releasing.1.2, releasing.2, Bool.and_self]

theorem step_sendsInv (P : Processing) (σ : SystemState) (event : SystemEvent)
    (inv : SendsInv P σ) : SendsInv P (step P σ event) := by
  have carries := step_keeps_store P (CarriesEscrow P) (step_carriesEscrow P) σ event inv.carries
  have moved := system_cases P σ event
  generalize step P σ event = τ at moved carries
  cases moved with
  | settle exit i waiting asked =>
    refine ⟨carries, ?_, inv.releasing, inv.callbacks⟩
    exact List.forall_mem_append.mpr ⟨inv.calls, escrowCallsOf_called P exit⟩
  | close final i heartbeatRaised waiting =>
    refine ⟨carries, inv.calls, inv.releasing, ?_⟩
    exact List.forall_mem_append.mpr ⟨inv.callbacks, firedCallbacks_url P heartbeatRaised final⟩
  | request action =>
    refine ⟨carries, inv.calls, List.forall_mem_append.mpr ⟨inv.releasing, ?_⟩, inv.callbacks⟩
    simp
  | turn k request phase present onward reads settled ended =>
    refine ⟨carries, inv.calls, ?_, inv.callbacks⟩
    refine set_releasing P σ.admins k { request with phase := phase } inv.releasing ?_
    intro escrowId ready
    obtain ⟨-, row, found, releasing, -⟩ := reads escrowId ready
    exact releases_escrow P σ request row inv.carries found releasing
  | override k request present reading =>
    refine ⟨carries, inv.calls, ?_, inv.callbacks⟩
    exact set_releasing P σ.admins k _ inv.releasing fun escrowId ready => by contradiction
  | release k request escrowId present ready asked =>
    have owed := inv.releasing request (List.mem_of_getElem? present) escrowId ready
    refine ⟨carries, ?_, ?_, inv.callbacks⟩
    · exact List.forall_mem_append.mpr ⟨inv.calls, by simp [Called, owed]⟩
    · exact set_releasing P σ.admins k _ inv.releasing fun escrowId ready => by contradiction
  | _ => exact ⟨carries, inv.calls, inv.releasing, inv.callbacks⟩

theorem run_sendsInv (P : Processing) (clock : Int) (rows : JobId → Option JobRow)
    (events : List SystemEvent) (claimed : rows P.job.id = some P.job) :
    SendsInv P (Runs.run (step P) (start clock rows) events) := by
  apply Runs.run_always (step P) (SendsInv P) (step_sendsInv P)
  exact ⟨start_carriesEscrow P clock rows claimed, by simp [start], by simp [start],
    by simp [start]⟩

/-! Runs that reach each of the senders. -/

def aloneRun (outcome : AgentOutcome) : List SystemEvent :=
  [.execute outcome .noDirectory, .store (.advance 0), .store (.advance 0), .store (.commit 0),
   .resume "" "", .settle, .close false]

theorem update_alone (store : StoreState) (u : StatusUpdate) (rows : JobId → Option JobRow)
    (row : JobRow) (calls : store.calls = [⟨.updateJobStatus u, .ready⟩])
    (table : store.table = Table.ofRows rows) (found : rows u.jobId = some row)
    (running : row.status = .running) :
    ∃ left, (((store.step (.advance 0)).step (.advance 0)).step (.commit 0)).calls[0]? =
      some ⟨.updateJobStatus u, .returned (.flag true) left⟩ := by
  have read : store.table.read u.jobId = some row := by
    rw [table, Table.read, Table.ofRows, found]
    rfl
  have there : store.table u.jobId = some ⟨row, none⟩ := by rw [table, Table.ofRows, found]; rfl
  have accepted : u.refuses row.status = false := by rw [running]; rfl
  have selected : store.step (.advance 0) =
      store.setPhase 0 (.updateJobStatus u) (.selected store.clock row.status) := by
    simp [StoreState.step, StoreState.advance, calls, StoreState.advanceUpdate, read, accepted]
  have held : (store.step (.advance 0)).step (.advance 0) =
      (store.step (.advance 0)).hold 0 (.updateJobStatus u) store.clock (some row.status) [] u.jobId
        (u.apply store.clock) := by
    rw [selected]
    simp [StoreState.step, StoreState.advance, StoreState.setPhase, calls,
      StoreState.advanceUpdate, there, Cell.free]
  rw [held, selected]
  simp [StoreState.step, StoreState.commit, StoreState.hold, StoreState.setPhase, calls,
    StoreState.completion]

theorem aloneRun_ends (P : Processing) (outcome : AgentOutcome) (clock : Int)
    (rows : JobId → Option JobRow) (claimed : rows P.job.id = some P.job)
    (running : P.job.status = .running) :
    (Runs.run (step P) (start clock rows) (aloneRun outcome)).escrowCalls =
        escrowCallsOf P (P.exitOf outcome .noDirectory).1 ∧
      (Runs.run (step P) (start clock rows) (aloneRun outcome)).callbacks =
        firedCallbacks P false (some (P.exitOf outcome .noDirectory).1) := by
  have about := (exitOf_update P outcome .noDirectory).1
  have executed : step P (start clock rows) (.execute outcome .noDirectory) =
      (start clock rows).write (P.exitOf outcome .noDirectory).1
        (P.exitOf outcome .noDirectory).2 := rfl
  rw [aloneRun, Runs.run_cons, executed]
  generalize (P.exitOf outcome .noDirectory).1 = exit at about ⊢
  generalize (P.exitOf outcome .noDirectory).2 = handling
  obtain ⟨left, returned⟩ := update_alone ((start clock rows).write exit handling).store exit.update
    rows P.job rfl rfl (about.symm ▸ claimed) running
  have worker : ((start clock rows).write exit handling).worker = .writing exit handling 0 := rfl
  have escrowCalls : ((start clock rows).write exit handling).escrowCalls = [] := rfl
  have callbacks : ((start clock rows).write exit handling).callbacks = [] := rfl
  generalize (start clock rows).write exit handling = σ at *
  simp [step, resume, settle, close, callPhase, worker, returned, escrowCalls, callbacks]

def refundRun : List SystemEvent := [.request .adminRefund, .adminStep 0, .adminStep 0]

theorem refundRun_releases (P : Processing) (clock : Int) (rows : JobId → Option JobRow)
    (claimed : rows P.job.id = some P.job) (escrow : isSet P.job.escrowId = true)
    (ok : P.escrowOk = true) :
    (Runs.run (step P) (start clock rows) refundRun).escrowCalls =
      [⟨.admin, P.job.escrowId.getD "", .release "admin_refund"⟩] := by
  have read : (StoreState.start clock rows).table.read P.job.id = some P.job := by
    simp [StoreState.start, Table.read, Table.ofRows, claimed]
  simp [refundRun, step, start, adminStep, read, releases, escrow, ok, setAdmin, override, callUpdate]

def soleRow (P : Processing) (jobId : JobId) : Option JobRow :=
  if jobId = P.job.id then some P.job else none

theorem owned_of (P : Processing) (escrow : isSet P.job.escrowId = true)
    (unhooked : isSet P.job.webhookUrl = false) (permitted : P.escrowPermitted = true) :
    (P.ownsEscrow && P.escrowPermitted) = true := by
  simp [Processing.ownsEscrow, Processing.isExternalEscrow, escrow, unhooked, permitted]

section Submission

variable {D : Deployment} {C : Columns} (N : Network) (s : Submission D C) (P : Processing)

theorem inside_of_call (responses : Nat → Option Nat) (σ : SystemState) (call : EscrowCall)
    (set : N.secret ≠ "") (kept : N.SecretKept (N.requests s responses σ))
    (called : call ∈ σ.escrowCalls) : N.inside (N.internalUrl ++ movePath call.move) = true := by
  rw [requests, secretKept_append, secretKept_append] at kept
  have sent := (secretKept_flatMap N N.escrowRequest σ.escrowCalls).mp kept.1.2 call called
  exact (escrowPost_kept N _ set).mp sent

theorem inside_of_callback (responses : Nat → Option Nat) (σ : SystemState) (callback : Callback)
    (set : N.secret ≠ "") (kept : N.SecretKept (N.requests s responses σ))
    (fired : callback ∈ σ.callbacks) (positive : 0 < N.callbackMaxAttempts) :
    N.inside callback.url = true := by
  rw [requests, secretKept_append] at kept
  have sent := (secretKept_flatMap N (N.fireCallback responses) σ.callbacks).mp kept.2 callback fired
  exact (fireCallback_kept N responses callback set).mp sent positive

/-- While the configuration and the row keep it inside, every run does. -/
theorem requests_kept (claimedAt : Int) (claimed : P.job = s.row.claim claimedAt)
    (stays : N.StaysInside s P) (responses : Nat → Option Nat) (σ : SystemState)
    (inv : SendsInv P σ) : N.SecretKept (N.requests s responses σ) := by
  rcases stays with unset | ⟨webhook, initiate, owned, refund⟩
  · exact kept_without_secret N _ unset
  by_cases unset : N.secret = ""
  · exact kept_without_secret N _ unset
  have escrowId : P.job.escrowId = s.row.escrowId := by rw [claimed]; rfl
  have webhookUrl : P.job.webhookUrl = s.row.webhookUrl := by rw [claimed]; rfl
  rw [requests, secretKept_append, secretKept_append]
  refine ⟨⟨?_, ?_⟩, ?_⟩
  · split
    · rename_i opened
      exact (escrowPost_kept N _ unset).mpr (initiate opened)
    · exact fun request sent => absurd sent List.not_mem_nil
  · refine (secretKept_flatMap N _ _).mpr fun call member => ?_
    refine (escrowPost_kept N _ unset).mpr ?_
    rcases inv.calls call member with ours | ⟨released, refunds⟩
    · simp only [Processing.ownsEscrow, Processing.isExternalEscrow, Bool.and_eq_true,
        Bool.not_eq_true', escrowId, webhookUrl] at ours
      have both := owned ours.1.1 ours.1.2 ours.2
      cases call.move with
      | complete => exact both.1
      | release reason => exact both.2
    · rw [Bool.and_eq_true, escrowId] at refunds
      rw [released]
      exact refund refunds.1 refunds.2
  · refine (secretKept_flatMap N _ _).mpr fun callback member => ?_
    obtain ⟨hooked, url⟩ := inv.callbacks callback member
    rw [webhookUrl] at hooked url
    refine (fireCallback_kept N responses callback unset).mpr fun positive => ?_
    rw [url]
    exact webhook hooked positive

/-- In every outcome of the job the secret stays inside exactly when the configuration and the row
keep it there. -/
theorem secret_stays_iff (claimedAt : Int) (claimed : P.job = s.row.claim claimedAt) :
    (∀ (clock : Int) (rows : JobId → Option JobRow) (events : List SystemEvent)
      (responses : Nat → Option Nat), rows P.job.id = some P.job →
        N.SecretKept (N.requests s responses (Runs.run (step P) (start clock rows) events))) ↔
      N.StaysInside s P := by
  constructor
  · intro kept
    by_cases unset : N.secret = ""
    · exact .inl unset
    have alone (outcome : AgentOutcome) := kept 0 (soleRow P) (aloneRun outcome) (fun _ => none)
      (if_pos rfl)
    have ends (outcome : AgentOutcome) := aloneRun_ends P outcome 0 (soleRow P) (if_pos rfl)
      (by rw [claimed]; rfl)
    have escrowId : P.job.escrowId = s.row.escrowId := by rw [claimed]; rfl
    have webhookUrl : P.job.webhookUrl = s.row.webhookUrl := by rw [claimed]; rfl
    refine .inr ⟨fun hooked positive => ?_, fun opened => ?_, fun escrow unhooked permitted => ?_,
      fun escrow ok => ?_⟩
    · -- the callback of an agent that raises
      rw [← webhookUrl] at hooked ⊢
      apply inside_of_callback N s _ _ (callbackOf P (P.exitOf (.raised "" "") .noDirectory).1) unset
        (alone (.raised "" "")) _ positive
      rw [(ends (.raised "" "")).2, firedCallbacks, hooked]
      exact List.mem_singleton_self _
    · have sent := alone (.raised "" "")
      rw [requests, secretKept_append, secretKept_append, if_pos opened] at sent
      exact (escrowPost_kept N _ unset).mp sent.1.1
    · rw [← escrowId] at escrow
      rw [← webhookUrl] at unhooked
      have owned := owned_of P escrow unhooked permitted
      constructor
      · apply inside_of_call N s _ _ ⟨.worker, P.job.escrowId.getD "", .complete⟩ unset
          (alone (.returned reportResult))
        rw [(ends (.returned reportResult)).1, escrowCallsOf, if_pos owned]
        exact List.mem_singleton_self _
      · apply inside_of_call N s _ _ ⟨.worker, P.job.escrowId.getD "", .release "runtime_exception:"⟩
          unset (alone (.raised "" ""))
        rw [(ends (.raised "" "")).1, escrowCallsOf, if_pos owned]
        exact List.mem_singleton_self _
    · rw [← escrowId] at escrow
      apply inside_of_call N s _ _ ⟨.admin, P.job.escrowId.getD "", .release "admin_refund"⟩ unset
        (kept 0 (soleRow P) refundRun (fun _ => none) (if_pos rfl))
      rw [refundRun_releases P 0 (soleRow P) (if_pos rfl) escrow ok]
      exact List.mem_singleton_self _
  · intro stays clock rows events responses present
    exact requests_kept N s P claimedAt claimed stays responses _
      (run_sendsInv P clock rows events present)

end Submission

/-! Two webhooks that the check of the gateway lets pass. -/

def apiOrigin : Origin := ⟨"https", "api.swarmsync.ai", 443⟩

def collectorOrigin : Origin := ⟨"https", "collector.example", 443⟩

def shippedNetwork : Network where
  secret := "s3cret"
  apiUrl := "https://api.swarmsync.ai"
  internalUrl := "http://localhost:3000"
  callbackMaxAttempts := 3
  origin url :=
    if "https://api.swarmsync.ai".toList.isPrefixOf url.toList then some apiOrigin
    else if "https://collector.example/".toList.isPrefixOf url.toList then some collectorOrigin
    else if "http://localhost:3000".toList.isPrefixOf url.toList then
      some ⟨"http", "localhost", 3000⟩
    else none

def publicDeployment : Deployment :=
  { researchDeployment with
    urlHost := fun url => (shippedNetwork.origin url).map fun there => there.host }

def webhookBody (webhookUrl : String) : Value :=
  dict [("prompt", str "summarise"), ("webhook_url", str webhookUrl)]

def webhookRow (webhookUrl : String) : JobRow :=
  { JobRow.queued "job-1" "genesis-research" 0 with
    prompt := "summarise", webhookUrl := some webhookUrl
    tenantId := some "tenant-1", ownerPrincipalId := some "user:1" }

def collectorSubmission : Submission publicDeployment plainColumns where
  route := .jobs
  slug := "genesis-research"
  body := webhookBody "https://collector.example/hook"
  principal := marketPrincipal
  new := submittedJob "genesis-research" (webhookBody "https://collector.example/hook")
    marketPrincipal
  opened := false
  accepted := rfl
  keyed _ := none
  id := "job-1"
  createdAt := 0
  row := webhookRow "https://collector.example/hook"
  stored := rfl

def apiSubmission : Submission publicDeployment plainColumns where
  route := .jobs
  slug := "genesis-research"
  body := webhookBody "https://api.swarmsync.ai/jobs/callback"
  principal := marketPrincipal
  new := submittedJob "genesis-research" (webhookBody "https://api.swarmsync.ai/jobs/callback")
    marketPrincipal
  opened := false
  accepted := rfl
  keyed _ := none
  id := "job-1"
  createdAt := 0
  row := webhookRow "https://api.swarmsync.ai/jobs/callback"
  stored := rfl

def shippedProcessing (job : JobRow) : Processing :=
  { Processing.escrowEnabled job with escrowOk := false, escrowPermitted := false }

theorem api_callback_stays :
    shippedNetwork.SecretKept (shippedNetwork.requests apiSubmission (fun _ => some 503)
      (Runs.run (step (shippedProcessing (apiSubmission.row.claim 0)))
        (start 60000000 (claimedRows apiSubmission.row)) deliveredRun)) := by
  have stays : shippedNetwork.StaysInside apiSubmission
      (shippedProcessing (apiSubmission.row.claim 0)) := by
    refine .inr ⟨fun _ _ => by decide, by simp [apiSubmission], ?_, ?_⟩
    · simp [apiSubmission, webhookRow, JobRow.queued, isSet]
    · simp [shippedProcessing]
  exact (secret_stays_iff shippedNetwork apiSubmission _ 0 rfl).mpr stays 60000000
    (claimedRows apiSubmission.row) deliveredRun (fun _ => some 503) rfl

theorem secret_leaves :
    ¬∀ (D : Deployment) (C : Columns) (N : Network) (s : Submission D C) (P : Processing)
      (claimedAt clock : Int) (rows : JobId → Option JobRow) (events : List SystemEvent)
      (responses : Nat → Option Nat), P.job = s.row.claim claimedAt → rows P.job.id = some P.job →
      N.SecretKept (N.requests s responses (Runs.run (step P) (start clock rows) events)) := by
  intro keeps
  have kept := keeps publicDeployment plainColumns shippedNetwork collectorSubmission
    (shippedProcessing (collectorSubmission.row.claim 0)) 0 60000000
    (claimedRows collectorSubmission.row) deliveredRun (fun _ => some 200) rfl rfl
  have sent : shippedNetwork.requests collectorSubmission (fun _ => some 200)
      (Runs.run (step (shippedProcessing (collectorSubmission.row.claim 0)))
        (start 60000000 (claimedRows collectorSubmission.row)) deliveredRun) =
      [⟨collectorOrigin, some "s3cret"⟩] := rfl
  rw [sent] at kept
  have addressed := kept _ (List.mem_singleton_self _) rfl (by decide)
  exact absurd addressed (by decide)

end GenesisAgents
