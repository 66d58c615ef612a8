import GenesisAgents.Experiments

/-! Does full mode need consent? The mode of an evaluation on its way from the command line and the
examples to the requests, and into the report. -/

namespace GenesisAgents

open Value

/-- The agents that run in full mode on the gateway do so with consent, and all run in the mode of the report. -/
structure ConsentedRun (args : EvalArgs) (run : EvalRun) : Prop where
  consent : ∀ post ∈ run.posts, post.gateway = true → post.mode = .full →
    args.mode = .full ∧ args.iUnderstandFullMode = true
  report : ∀ report, run.report = some report → ∀ post ∈ run.posts, post.mode = report.mode

/-- The example is valid, and its slug is one of the catalogue and of no money domain. -/
def Invocable (U : Unicode) (ex : EvalExample) : Prop :=
  ∃ request live resolution, parseExample ex.inputs = .ok request ∧
    resolveLiveSlug request.slug = some (live, resolution) ∧ isMoneyDomain U live = false ∧
    resolution ≠ .unverified

def EvalWorld.Invokes (E : EvalWorld) (args : EvalArgs) (plan : EvalPlan) : Prop :=
  E.plan args = .ok plan ∧ args.dryRun = false ∧ (args.fakeClient = true ∨ E.hasCredential = true)

/-- An example that a run without `--mode full` invokes has `"mode": "full"` among its inputs. -/
def EvalWorld.Smuggles (E : EvalWorld) (args : EvalArgs) : Prop :=
  args.mode = .liveTest ∧ ∃ plan, E.Invokes args plan ∧
    ∃ ex ∈ plan.examples, Invocable E.unicode ex ∧ ex.inputs.get "mode" = str "full"

theorem body_mode (request : EvalRequest) (gateway : Bool) (liveSlug : String) :
    (AgentPost.mode ⟨gateway, liveSlug, request.body⟩) = request.mode := by
  rcases request with ⟨slug, task, mode, requireArtifact⟩
  cases mode <;> cases task <;> cases requireArtifact <;> rfl

theorem requestAgain_counts (reply : Nat → EvalReply) (left attempt : Nat) :
    attempt ≤ (requestAgain reply left attempt).1 := by
  induction left generalizing attempt with
  | zero => exact Nat.le_refl attempt
  | succ left later =>
    rw [requestAgain]
    split
    · have next := later (attempt + 1)
      omega
    · exact Nat.le_refl attempt

/-- Every request of an example has its mode, and there is one exactly when nothing stands in the way. -/
theorem runAgent_posts (client : GenesisClient) (reply : Nat → EvalReply) (request : EvalRequest) :
    (∀ post ∈ (client.runAgent reply request).1, post.mode = request.mode) ∧
      ((client.runAgent reply request).1 ≠ [] ↔
        ∃ live resolution, resolveLiveSlug request.slug = some (live, resolution) ∧
          isMoneyDomain client.unicode live = false ∧ resolution ≠ .unverified) := by
  rw [GenesisClient.runAgent]
  rcases resolved : resolveLiveSlug request.slug with _ | ⟨live, resolution⟩
  · simp
  · by_cases money : isMoneyDomain client.unicode live = true
    · simp [money]
    · by_cases unverified : resolution = .unverified
      · simp [money, unverified]
      · have attempts := requestAgain_counts reply (defaultMaxAttempts - 1) 1
        simp only [if_neg money, if_neg unverified]
        constructor
        · intro post member
          rw [List.eq_of_mem_replicate member]
          exact body_mode request client.gateway live
        · apply iff_of_true
          · rw [ne_eq, List.replicate_eq_nil_iff]
            omega
          · exact ⟨live, resolution, rfl, Bool.eq_false_iff.mpr money, unverified⟩

theorem arunExample_posts (client : GenesisClient) (reply : Nat → EvalReply) (inputs : Value)
    (request : EvalRequest) (parsed : parseExample inputs = .ok request) :
    (arunExample client reply inputs).1 = (client.runAgent reply request).1 := by
  rw [arunExample, parsed]
  dsimp only
  split <;> rename_i same <;> rw [same]

theorem arunExample_invalid (client : GenesisClient) (reply : Nat → EvalReply) (inputs : Value)
    (why : String) (invalid : parseExample inputs = .error why) : (arunExample client reply inputs).1 = [] := by
  rw [arunExample, invalid]

theorem parsed_mode (inputs : Value) (request : EvalRequest) (parsed : parseExample inputs = .ok request) :
    request.mode = .full ↔ inputs.get "mode" = str "full" := by
  have given : givenMode inputs = some request.mode := by
    rw [parseExample] at parsed
    split at parsed
    · split at parsed
      · cases parsed
      · split at parsed
        · cases parsed
        · cases parsed
        · rename_i mode
          rw [← Except.ok.inj parsed]
          assumption
    · cases parsed
  constructor
  · intro full
    rw [full, givenMode] at given
    split at given
    · cases given
    · rename_i named
      exact orElse_eq _ _ _ named (mt Value.str.inj (by decide))
    · cases given
  · intro named
    rw [givenMode, named] at given
    exact (Option.some.inj given).symm

theorem example_posts (client : GenesisClient) (reply : Nat → EvalReply) (ex : EvalExample) :
    (∀ post ∈ (arunExample client reply ex.inputs).1,
      (post.mode = .full ↔ ex.inputs.get "mode" = str "full") ∧ Invocable client.unicode ex) ∧
    (Invocable client.unicode ex → (arunExample client reply ex.inputs).1 ≠ []) := by
  rcases parsed : parseExample ex.inputs with why | request
  · rw [arunExample_invalid client reply ex.inputs why parsed]
    constructor
    · intro post member
      cases member
    · rintro ⟨request, live, resolution, valid, _⟩
      rw [parsed] at valid
      cases valid
  · rw [arunExample_posts client reply ex.inputs request parsed]
    have posts := runAgent_posts client reply request
    constructor
    · intro post member
      rcases posts.2.mp (List.ne_nil_of_mem member) with ⟨live, resolution, resolved, free, known⟩
      rw [posts.1 post member]
      exact ⟨parsed_mode ex.inputs request parsed, request, live, resolution, parsed, resolved, free, known⟩
    · rintro ⟨other, live, resolution, valid, resolved, free, known⟩
      rw [parsed] at valid
      rw [← Except.ok.inj valid] at resolved
      exact posts.2.mpr ⟨live, resolution, resolved, free, known⟩

theorem mem_invokeAll (client : GenesisClient) (course : Nat → ExampleCourse) (i : Nat)
    (examples : List EvalExample) (post : AgentPost)
    (member : post ∈ EvalWorld.invokeAll client course i examples) :
    ∃ ex ∈ examples, ∃ n, post ∈ (arunExample client (course n).reply ex.inputs).1 := by
  induction examples generalizing i with
  | nil => cases member
  | cons ex rest later =>
    rw [EvalWorld.invokeAll, List.mem_append] at member
    rcases member with own | member
    · split at own
      · exact ⟨ex, List.mem_cons_self, i, own⟩
      · cases own
    · rcases later (i + 1) member with ⟨other, inside, n, posted⟩
      exact ⟨other, List.mem_cons_of_mem ex inside, n, posted⟩

theorem scripted_invokeAll (client : GenesisClient) (i : Nat) (examples : List EvalExample) (ex : EvalExample)
    (inside : ex ∈ examples) (post : AgentPost)
    (posted : post ∈ (arunExample client EvalWorld.scriptedCourse.reply ex.inputs).1) :
    post ∈ EvalWorld.invokeAll client (fun _ => EvalWorld.scriptedCourse) i examples := by
  induction examples generalizing i with
  | nil => cases inside
  | cons head rest later =>
    rw [EvalWorld.invokeAll, List.mem_append]
    rcases List.mem_cons.mp inside with rfl | inside
    · exact .inl posted
    · exact .inr (later (i + 1) inside)

theorem loadExample_isDict (E : EvalWorld) (path : String) (i : Nat) (record : Value) (ex : EvalExample)
    (loaded : E.loadExample path i record = .ok ex) : ex.inputs.isDict = true := by
  rw [EvalWorld.loadExample] at loaded
  split at loaded
  · rename_i shaped
    rw [Bool.and_eq_true] at shaped
    dsimp only at loaded
    split at loaded
    · cases loaded
    · cases loaded
    · split at loaded
      · rw [← Except.ok.inj loaded]
        exact shaped.2
      · cases loaded
  · cases loaded

theorem loadExamples_isDict (E : EvalWorld) (path : String) (i : Nat) (records : List Value)
    (examples : List EvalExample) (loaded : E.loadExamples path i records = .ok examples) :
    ∀ ex ∈ examples, ex.inputs.isDict = true := by
  induction records generalizing i examples with
  | nil =>
    rw [← Except.ok.inj loaded]
    exact List.forall_mem_nil _
  | cons record rest later =>
    rcases except_bind_ok _ _ _ loaded with ⟨ex, first, loaded⟩
    rcases except_bind_ok _ _ _ loaded with ⟨others, remaining, loaded⟩
    rw [← Except.ok.inj loaded]
    exact List.forall_mem_cons.mpr ⟨loadExample_isDict E path i record ex first, later (i + 1) others remaining⟩

theorem loadDataset_isDict (E : EvalWorld) (path : String) (examples : List EvalExample)
    (loaded : E.loadDataset path = .ok examples) : ∀ ex ∈ examples, ex.inputs.isDict = true := by
  rw [EvalWorld.loadDataset] at loaded
  split at loaded
  · cases loaded
  · cases loaded
  · rcases except_bind_ok _ _ _ loaded with ⟨records, _, loaded⟩
    exact loadExamples_isDict E path 0 records examples loaded

theorem plan_examples (E : EvalWorld) (args : EvalArgs) (plan : EvalPlan) (planned : E.plan args = .ok plan) :
    ¬ (args.mode = .full ∧ args.iUnderstandFullMode = false) ∧ ∃ loaded, E.loadDataset args.dataset = .ok loaded ∧
      plan.examples = loaded.map (EvalExample.inMode args.mode) := by
  rw [EvalWorld.plan] at planned
  split at planned
  · cases planned
  · rename_i consented
    rcases except_bind_ok _ _ _ planned with ⟨loaded, read, planned⟩
    have checked : ∀ live, (do
        E.validateSlugs (loaded.map (EvalExample.inMode args.mode)) live
        E.checkGuards (loaded.map (EvalExample.inMode args.mode)) args.allowDeploy args.allowMoney
        let judge ← E.loadJudge args.judge
        .ok ⟨loaded.map (EvalExample.inMode args.mode), live, judge⟩ : Except EvalStop EvalPlan) = .ok plan →
        plan.examples = loaded.map (EvalExample.inMode args.mode) := by
      intro live planned
      rcases except_bind_ok _ _ _ planned with ⟨_, _, planned⟩
      rcases except_bind_ok _ _ _ planned with ⟨_, _, planned⟩
      rcases except_bind_ok _ _ _ planned with ⟨judge, _, planned⟩
      rw [← Except.ok.inj planned]
    apply And.intro consented
    refine ⟨loaded, read, ?_⟩
    dsimp only at planned
    split at planned
    · rcases except_bind_ok _ _ _ planned with ⟨live, _, planned⟩
      exact checked live planned
    · exact checked E.snapshot planned

theorem inMode_full (ex : EvalExample) (shape : ex.inputs.isDict = true) :
    (ex.inMode .full).inputs.get "mode" = str "full" := by
  rw [EvalExample.inMode]
  dsimp only
  rw [if_pos rfl]
  apply get_insert_self
  split
  · exact shape
  · rw [isDict_insert]
    exact shape

/-- With `--mode full` the command line has the consent, and every example is in full mode. -/
theorem plan_full (E : EvalWorld) (args : EvalArgs) (plan : EvalPlan) (planned : E.plan args = .ok plan)
    (full : args.mode = .full) :
    args.iUnderstandFullMode = true ∧ ∀ ex ∈ plan.examples, ex.inputs.get "mode" = str "full" := by
  rcases plan_examples E args plan planned with ⟨consented, loaded, read, examples⟩
  constructor
  · rw [← Bool.not_eq_false]
    exact fun missing => consented ⟨full, missing⟩
  · intro ex inside
    rw [examples, full] at inside
    rcases List.mem_map.mp inside with ⟨given, among, rfl⟩
    exact inMode_full given (loadDataset_isDict E args.dataset loaded read given among)

theorem main_cases (E : EvalWorld) (args : EvalArgs) (course : Nat → ExampleCourse) :
    E.main args course = .nothing ∨ ∃ plan client done, E.Invokes args plan ∧ client.unicode = E.unicode ∧
      E.main args course = EvalWorld.runExperiment args plan client done := by
  rw [EvalWorld.main]
  split
  · exact .inl rfl
  · rename_i plan planned
    by_cases dry : args.dryRun = true
    · rw [if_pos dry]
      exact .inl rfl
    · rw [if_neg dry]
      have wet : args.dryRun = false := Bool.eq_false_iff.mpr dry
      split
      · rename_i scripted
        exact .inr ⟨plan, _, _, ⟨planned, wet, .inl scripted⟩, rfl, rfl⟩
      · split
        · rename_i credential
          exact .inr ⟨plan, _, _, ⟨planned, wet, .inr credential⟩, rfl, rfl⟩
        · exact .inl rfl

theorem nothing_consented (args : EvalArgs) : ConsentedRun args .nothing where
  consent := fun _ member => nomatch member
  report := fun _ none => nomatch none

/-- Where nothing smuggles, a run of the examples keeps the mode of its command line. -/
theorem runExperiment_consented (E : EvalWorld) (args : EvalArgs) (plan : EvalPlan) (client : GenesisClient)
    (course : Nat → ExampleCourse) (invokes : E.Invokes args plan) (same : client.unicode = E.unicode)
    (honest : ¬ E.Smuggles args) :
    ConsentedRun args (EvalWorld.runExperiment args plan client course) := by
  have moded : ∀ post ∈ (EvalWorld.runExperiment args plan client course).posts, post.mode = args.mode := by
    intro post member
    rcases mem_invokeAll client course 0 plan.examples post member with ⟨ex, inside, n, posted⟩
    have own := (example_posts client (course n).reply ex).1 post posted
    cases mode : args.mode with
    | full => exact own.1.mpr ((plan_full E args plan invokes.1 mode).2 ex inside)
    | liveTest =>
      cases sent : post.mode with
      | liveTest => rfl
      | full =>
        have valid := own.2
        rw [same] at valid
        exact absurd ⟨mode, plan, invokes, ex, inside, valid, own.1.mp sent⟩ honest
  constructor
  · intro post member _ full
    have mode := (moded post member).symm.trans full
    exact ⟨mode, (plan_full E args plan invokes.1 mode).1⟩
  · intro report written post member
    rw [moded post member, ← Option.some.inj written]

/-- An example that smuggles is invoked, with a gateway that answers, in a mode that the report does not state. -/
theorem smuggled_run (E : EvalWorld) (args : EvalArgs) (smuggles : E.Smuggles args) :
    ¬ ConsentedRun args (E.main args fun _ => EvalWorld.scriptedCourse) := by
  rcases smuggles with ⟨live, plan, ⟨planned, wet, way⟩, ex, inside, valid, full⟩
  have invoked : ∃ gateway, E.main args (fun _ => EvalWorld.scriptedCourse) =
      EvalWorld.runExperiment args plan ⟨E.unicode, gateway⟩ fun _ => EvalWorld.scriptedCourse := by
    rw [EvalWorld.main, planned]
    dsimp only
    rw [if_neg (by rw [wet]; exact Bool.false_ne_true)]
    by_cases scripted : args.fakeClient = true
    · rw [if_pos scripted]
      exact ⟨false, rfl⟩
    · rw [if_neg scripted, if_pos (way.resolve_left scripted)]
      exact ⟨true, rfl⟩
  rcases invoked with ⟨gateway, invoked⟩
  have own := example_posts ⟨E.unicode, gateway⟩ EvalWorld.scriptedCourse.reply ex
  rcases List.exists_mem_of_ne_nil _ (own.2 valid) with ⟨post, posted⟩
  have member := scripted_invokeAll ⟨E.unicode, gateway⟩ 0 plan.examples ex inside post posted
  intro consented
  rw [invoked] at consented
  have stated := consented.report _ rfl post member
  rw [(own.1 post posted).1.mpr full, live] at stated
  cases stated

/-- Full mode needs consent unless an example brings its own. -/
theorem full_mode_consented_iff (E : EvalWorld) (args : EvalArgs) :
    (∀ course, ConsentedRun args (E.main args course)) ↔ ¬ E.Smuggles args := by
  constructor
  · intro consented smuggles
    exact smuggled_run E args smuggles (consented _)
  · intro honest course
    rcases main_cases E args course with nothing | ⟨plan, client, done, invokes, same, invoked⟩
    · rw [nothing]
      exact nothing_consented args
    · rw [invoked]
      exact runExperiment_consented E args plan client done invokes same honest

/-! An example that asks for full mode, on a command line that does not. -/

def fullLine : String :=
  "\x7b\"id\": \"research-1\", \"inputs\": \x7b\"slug\": \"genesis-research\", \"task\": \"Say ok.\", " ++
    "\"mode\": \"full\"\x7d\x7d"

def fullRecord : Value :=
  dict [("id", str "research-1"),
    ("inputs", dict [("slug", str "genesis-research"), ("task", str "Say ok."), ("mode", str "full")])]

def researchWorld : EvalWorld where
  unicode := { lower := id, printable := fun _ => true }
  file := fun path => if path = "smoke.jsonl" then .text (fullLine ++ "\n") else .missing
  pathText := id
  stem := fun _ => "smoke"
  loads := fun text => if text = fullLine then .ok fullRecord else .error "Expecting value: line 1 column 1 (char 0)"
  httpGet := fun _ => .ok (dict [("agents", list [dict [("slug", str "genesis_research_x402")]])])
  snapshot := liveSlugs
  judgeImport := fun _ _ => .notCallable
  gatewayApiKey := some "gateway-key"
  agentGatewaySecret := none

def plainArgs : EvalArgs where
  dataset := "smoke.jsonl"
  mode := .liveTest
  iUnderstandFullMode := false
  concurrency := 2
  baseUrl := "https://swarmsync-agents.onrender.com"
  slugSource := .live
  judge := "keyword"
  dryRun := false
  fakeClient := false
  allowDeploy := false
  allowMoney := false

theorem plain_run_in_full_mode :
    ¬ ConsentedRun plainArgs (researchWorld.main plainArgs fun _ => ⟨true, fun _ => .answered 200⟩) := by
  have sent : ((researchWorld.main plainArgs fun _ => ⟨true, fun _ => .answered 200⟩).posts.any fun post =>
      post.gateway && post.mode == .full) = true := by decide +kernel
  rcases List.any_eq_true.mp sent with ⟨post, member, sent⟩
  rw [Bool.and_eq_true, beq_iff_eq] at sent
  intro consented
  have asked := (consented.consent post member sent.1 sent.2).1
  cases asked

end GenesisAgents
