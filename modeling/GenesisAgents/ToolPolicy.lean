import GenesisAgents.Value
import GenesisAgents.Library.KeyedGroups

/-! Tool security boundary: `runtime/tool_policy.py`. The tables are a parameter of every function,
so that statements range over edits of them; `productionTables` is what the file holds. -/

namespace GenesisAgents

/-- Risk classes, from least to most privileged, and the class of a prohibited tool. -/
inductive Risk where
  | readOnly | filesystemWrite | network | browser | shell | subagent | deployment | payment | admin
  | prohibited
  deriving DecidableEq, Repr

namespace Risk

def name : Risk → String
  | readOnly => "read_only"
  | filesystemWrite => "filesystem_write"
  | network => "network"
  | browser => "browser"
  | shell => "shell"
  | subagent => "subagent"
  | deployment => "deployment"
  | payment => "payment"
  | admin => "admin"
  | prohibited => "prohibited"

end Risk

structure PolicyTables where
  prohibitionGroups : List (String × String)
  slugScopedOnly : List String
  prohibitedToolsBySlug : List (String × List String)
  toolRiskByName : List (String × Risk)
  slugAllowedRisks : List (String × List Risk)
  defaultAllowedRisks : List Risk
  humanOnlyTools : List String

namespace PolicyTables

variable (tables : PolicyTables)

/-- `PROHIBITED_TOOLS`: the prohibited names that are not only slug-scoped. -/
def prohibitedTools : List String :=
  (tables.prohibitionGroups.map Prod.fst).filter fun name => !tables.slugScopedOnly.contains name

def allowedRisks (agentSlug : String) : List Risk :=
  (tables.slugAllowedRisks.lookup agentSlug).getD tables.defaultAllowedRisks

end PolicyTables

/-- What `check_tool_policy` returns. -/
structure Policy where
  ok : Bool
  toolName : String
  agentSlug : String
  riskClass : Risk
  allowedRisks : List Risk
  prohibitionGroup : Option String
  error : Option String
  deriving DecidableEq, Repr

section

variable (tables : PolicyTables)

def isProhibited (toolName : String) (agentSlug : String) : Bool :=
  if tables.prohibitedTools.contains toolName then true
  else if agentSlug != "" &&
      ((tables.prohibitedToolsBySlug.lookup agentSlug).getD []).contains toolName then true
  else false

def prohibitionGroup (toolName : String) : String :=
  (tables.prohibitionGroups.lookup toolName).getD "A"

/-- Unknown tools are `admin`, which fails closed. -/
def getToolRiskByName (toolName : String) : Risk :=
  if tables.prohibitedTools.contains toolName then .prohibited
  else (tables.toolRiskByName.lookup toolName).getD .admin

def isToolAllowed (agentSlug toolName : String) : Bool :=
  if tables.humanOnlyTools.contains toolName then false
  else (tables.allowedRisks agentSlug).contains (getToolRiskByName tables toolName)

/-- `sorted(...)` of a risk set -/
def sortedRisks (risks : List Risk) : List Risk :=
  risks.mergeSort fun a b => decide (a.name ≤ b.name)

def checkToolPolicy (agentSlug toolName : String) : Policy :=
  let allowed := tables.allowedRisks agentSlug
  if isProhibited tables toolName agentSlug then
    { ok := false, toolName, agentSlug, riskClass := .prohibited
      allowedRisks := sortedRisks allowed
      prohibitionGroup := some (prohibitionGroup tables toolName)
      error := some "tool_policy_denied" }
  else if tables.humanOnlyTools.contains toolName then
    { ok := false, toolName, agentSlug, riskClass := getToolRiskByName tables toolName
      allowedRisks := sortedRisks allowed
      prohibitionGroup := none, error := some "human_action_required" }
  else
    let risk := getToolRiskByName tables toolName
    let ok := allowed.contains risk
    { ok, toolName, agentSlug, riskClass := risk
      allowedRisks := sortedRisks allowed
      prohibitionGroup := none
      error := if ok then none else some "tool_policy_denied" }

/-- A prohibition is final: no other table makes the policy accept the tool. -/
theorem checkToolPolicy_prohibited (agentSlug toolName : String)
    (prohibited : isProhibited tables toolName agentSlug = true) :
    (checkToolPolicy tables agentSlug toolName).ok = false ∧
      (checkToolPolicy tables agentSlug toolName).riskClass = .prohibited := by
  simp [checkToolPolicy, prohibited]

theorem checkToolPolicy_riskClass (agentSlug toolName : String)
    (clear : isProhibited tables toolName agentSlug = false) :
    (checkToolPolicy tables agentSlug toolName).riskClass = getToolRiskByName tables toolName := by
  unfold checkToolPolicy
  by_cases human : toolName ∈ tables.humanOnlyTools <;> simp [clear, human]

/-- Away from the prohibited names the policy decides by the human-only list and the risk grant. -/
theorem checkToolPolicy_ok (agentSlug toolName : String)
    (clear : isProhibited tables toolName agentSlug = false) :
    (checkToolPolicy tables agentSlug toolName).ok = isToolAllowed tables agentSlug toolName := by
  unfold checkToolPolicy isToolAllowed
  by_cases human : toolName ∈ tables.humanOnlyTools <;> simp [clear, human]

/-- `is_tool_allowed` does not look at the prohibitions of a slug: it differs from the policy at the
prohibited tools whose risk the slug is granted. -/
theorem policies_agree_iff (agentSlug toolName : String) :
    isToolAllowed tables agentSlug toolName = (checkToolPolicy tables agentSlug toolName).ok ↔
      (isProhibited tables toolName agentSlug = true → toolName ∈ tables.humanOnlyTools ∨
        getToolRiskByName tables toolName ∉ tables.allowedRisks agentSlug) := by
  cases prohibited : isProhibited tables toolName agentSlug with
  | false => exact iff_of_true (checkToolPolicy_ok tables agentSlug toolName prohibited).symm (by simp)
  | true =>
    rw [(checkToolPolicy_prohibited tables agentSlug toolName prohibited).1, isToolAllowed]
    by_cases human : toolName ∈ tables.humanOnlyTools
    · simp [human]
    · simp [human]

end

def e4lRisks : List Risk := [.readOnly, .filesystemWrite, .network]

def webRisks : List Risk := [.readOnly, .filesystemWrite, .network, .browser]

def productionTables : PolicyTables where
  prohibitionGroups := [
    ("finance_run_payroll_batch", "A"), ("finance_process_vendor_invoice", "A"),
    ("finance_run_finance_close", "A"), ("billing_run_dunning_batch", "A"),
    ("billing_run_billing_cycle", "A"), ("commerce_register_domain", "A"),
    ("commerce_activate_payment_gateway", "A"), ("commerce_ship_fulfillment_batch", "A"),
    ("commerce_launch_commerce_stack", "A"), ("pricing_purchase_dataset", "A"),
    ("pricing_run_pricing_cycle", "A"), ("domain_create_intent_mandate", "A"),
    ("domain_register", "A"), ("domain_select_and_register", "A"),
    ("escrow_client.initiate_escrow", "A"), ("escrow_client.complete_escrow", "A"),
    ("escrow_client.release_escrow", "A"), ("escrow_client.calculate_split", "B"),
    ("pricing_generate_pricing_report", "C"), ("workflow_webhook_trigger", "A")]
  slugScopedOnly := ["workflow_webhook_trigger"]
  prohibitedToolsBySlug := [
    ("genesis-finance", ["workflow_webhook_trigger"]),
    ("genesis-billing", ["workflow_webhook_trigger"]),
    ("genesis-commerce", ["workflow_webhook_trigger"]),
    ("genesis-pricing", ["workflow_webhook_trigger"])]
  toolRiskByName := [
    ("file_write", .filesystemWrite), ("code_format", .readOnly), ("genesis_call", .subagent),
    ("conduit", .browser), ("workspace_shell", .shell), ("web_search", .network),
    ("web_fetch", .network), ("xero_scoped_invoke", .network),
    ("financeos_invoice_proof", .network), ("financeos_verify_api", .network),
    ("financeos_get_invoice_proof", .network), ("financeos_get_verify_api", .network),
    ("finance_sync_bank_fees", .payment), ("finance_import_x402_transactions", .payment),
    ("finance_generate_finance_report", .readOnly), ("finance_get_budget_metrics", .readOnly),
    ("finance_get_audit_log", .readOnly), ("finance_get_alerts", .readOnly),
    ("billing_import_ar_ledger", .payment), ("billing_deploy_plan_change", .payment),
    ("billing_generate_revops_report", .readOnly), ("billing_get_budget_metrics", .readOnly),
    ("billing_get_audit_log", .readOnly), ("billing_get_alerts", .readOnly),
    ("commerce_configure_tax_engine", .payment), ("commerce_get_budget_metrics", .readOnly),
    ("commerce_get_audit_log", .readOnly), ("commerce_get_alerts", .readOnly),
    ("pricing_run_elasticity_experiment", .payment), ("pricing_deploy_pricing_update", .payment),
    ("pricing_get_budget_metrics", .readOnly), ("pricing_get_audit_log", .readOnly),
    ("pricing_get_alerts", .readOnly), ("domain_check_availability", .readOnly),
    ("domain_get_cost_summary", .readOnly), ("domain_generate_candidates", .readOnly),
    ("domain_configure_dns", .deployment), ("workflow_zapier_export", .filesystemWrite),
    ("workflow_n8n_export", .filesystemWrite), ("workflow_make_export", .filesystemWrite),
    ("workflow_webhook_trigger", .network), ("data_s3_signed_url", .payment),
    ("data_bigquery_query", .readOnly), ("data_dbt_compile", .filesystemWrite),
    ("data_pipeline_design", .filesystemWrite), ("data_quality_check", .readOnly),
    ("data_get_editor_context", .readOnly), ("data_get_gcp_connection", .readOnly),
    ("data_list_resource_templates", .readOnly), ("data_read_resource", .readOnly),
    ("github_tool", .deployment), ("run_code", .shell), ("send_email", .network),
    ("screenshot_url", .network), ("vision_analyze", .network), ("vision_ocr", .network),
    ("vision_compare", .network), ("hr_bamboohr_query", .network),
    ("hr_greenhouse_query", .network), ("hr_lever_query", .network),
    ("hr_template_generate", .filesystemWrite)]
  slugAllowedRisks := [
    ("genesis-ai-vision", webRisks), ("genesis-analyst", webRisks), ("genesis-billing", webRisks),
    ("genesis-builder", [.readOnly, .filesystemWrite, .shell, .browser, .deployment, .network]),
    ("genesis-commerce", webRisks), ("genesis-content", webRisks),
    ("genesis-data-pipeline", [.readOnly, .filesystemWrite, .shell, .browser]),
    ("genesis-deploy", [.readOnly, .filesystemWrite, .shell, .deployment, .network, .browser]),
    ("genesis-domain", [.readOnly, .browser]), ("genesis-e4l-ap", e4lRisks),
    ("genesis-e4l-ar", e4lRisks), ("genesis-e4l-cash", e4lRisks), ("genesis-e4l-close", e4lRisks),
    ("genesis-e4l-cogs-cm", e4lRisks), ("genesis-e4l-commissions", e4lRisks),
    ("genesis-e4l-controller", e4lRisks), ("genesis-e4l-fs-integrity", e4lRisks),
    ("genesis-e4l-intercompany", e4lRisks), ("genesis-e4l-journals", e4lRisks),
    ("genesis-e4l-revenue", e4lRisks), ("genesis-e4l-shopify", e4lRisks),
    ("genesis-e4l-stripe", e4lRisks), ("genesis-e4l-treasury", e4lRisks),
    ("genesis-email", webRisks), ("genesis-finance", e4lRisks), ("genesis-hr", webRisks),
    ("genesis-legal", webRisks), ("genesis-maintenance", [.readOnly, .browser]),
    ("genesis-marketing", webRisks),
    ("genesis-meta", [.readOnly, .filesystemWrite, .subagent, .browser]),
    ("genesis-onboarding", [.readOnly, .browser]), ("genesis-pricing", [.readOnly, .browser]),
    ("genesis-qa", [.readOnly, .filesystemWrite, .shell, .browser, .network]),
    ("genesis-research", webRisks),
    ("genesis-security", [.readOnly, .filesystemWrite, .shell, .network, .browser]),
    ("genesis-seo", webRisks), ("genesis-support", webRisks),
    ("genesis-workflow-automator", webRisks)]
  defaultAllowedRisks := [.readOnly]
  humanOnlyTools := ["send_email"]

/-! The two policy functions, with the tables of the repository. -/

theorem webhook_allowed_and_denied : ¬∀ (tables : PolicyTables) (agentSlug toolName : String),
    isToolAllowed tables agentSlug toolName = (checkToolPolicy tables agentSlug toolName).ok := by
  intro agree
  exact absurd (agree productionTables "genesis-finance" "workflow_webhook_trigger") (by decide)

/-- With the tables of the repository the functions differ at one tool of three agents. -/
theorem production_policies_agree_iff (agentSlug toolName : String) :
    isToolAllowed productionTables agentSlug toolName =
        (checkToolPolicy productionTables agentSlug toolName).ok ↔
      ¬(agentSlug ∈ ["genesis-finance", "genesis-billing", "genesis-commerce"] ∧
        toolName = "workflow_webhook_trigger") := by
  rw [policies_agree_iff]
  constructor
  · rintro agree ⟨listed, rfl⟩
    have granted : ∀ slug ∈ ["genesis-finance", "genesis-billing", "genesis-commerce"],
        isProhibited productionTables "workflow_webhook_trigger" slug = true ∧
          getToolRiskByName productionTables "workflow_webhook_trigger" ∈ productionTables.allowedRisks slug ∧
            "workflow_webhook_trigger" ∉ productionTables.humanOnlyTools := by decide
    rcases granted agentSlug listed with ⟨prohibited, grant, agents⟩
    exact (agree prohibited).elim agents fun denied => denied grant
  · intro other prohibited
    rw [isProhibited] at prohibited
    split at prohibited
    · rename_i outright
      refine .inr ?_
      rw [getToolRiskByName, if_pos outright, PolicyTables.allowedRisks]
      cases found : productionTables.slugAllowedRisks.lookup agentSlug with
      | none => decide
      | some risks =>
        have granted : ∀ entry ∈ productionTables.slugAllowedRisks, Risk.prohibited ∉ entry.2 := by decide
        exact granted _ (KeyedGroups.lookup_mem _ _ _ found)
    · split at prohibited
      · rename_i ofSlug
        rw [Bool.and_eq_true] at ofSlug
        cases found : productionTables.prohibitedToolsBySlug.lookup agentSlug with
        | none => simp [found] at ofSlug
        | some tools =>
          have entries : ∀ entry ∈ productionTables.prohibitedToolsBySlug,
              entry.2 = ["workflow_webhook_trigger"] ∧
                (entry.1 ∈ ["genesis-finance", "genesis-billing", "genesis-commerce"] ∨
                  getToolRiskByName productionTables "workflow_webhook_trigger" ∉
                    productionTables.allowedRisks entry.1) := by decide
          rw [found] at ofSlug
          rcases entries _ (KeyedGroups.lookup_mem _ _ _ found) with ⟨rfl, listed | denied⟩
          · exact absurd ⟨listed, by simpa using ofSlug.2⟩ other
          · obtain rfl : toolName = "workflow_webhook_trigger" := by simpa using ofSlug.2
            exact .inr denied
      · contradiction

end GenesisAgents
