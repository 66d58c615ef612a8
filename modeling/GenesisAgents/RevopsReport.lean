import GenesisAgents.FinanceReport

/-! `billing_generate_revops_report` of `tools/billing_tool.py`: the checks of its arguments, the loop over
the subscriptions, and the report it returns. -/

namespace GenesisAgents.MoneyReports

open Value

def billingTool : String := "billing_generate_revops_report"

/-- `_SUB_STATUSES`, sorted -/
def subStatuses : List String := ["active", "cancelled", "trial"]

/-- `_SUB_INTERVALS`, sorted -/
def subIntervals : List String := ["month", "year"]

/-- The arguments; a missing one is `None`. -/
structure RevopsInput where
  subscriptions : Value
  currency : Value
  period : Value

/-- `isinstance(v, str) and v` -/
def isFilledText : Value → Bool
  | str s => s != ""
  | _ => false

/-- `sub[key] == name` -/
def keyIs (key name : String) (sub : Value) : Bool :=
  match sub.get key with
  | str s => s == name
  | _ => false

section

variable (R : Reporting)

def checkRevopsArguments (input : RevopsInput) : List Value :=
  flagged (isList input.subscriptions) "subscriptions" "required_list" input.subscriptions ++
    flagged (validCurrency R input.currency) "currency" "required_iso4217_uppercase_3" input.currency ++
    flagged (isFilledText input.period) "period" "required_non_empty_str" input.period

def checkSubscription (currency : Value) (idx : Nat) (sub : Value) : Except ReportError (List Value) :=
  let field (name : String) := "subscriptions[" ++ toString idx ++ "]" ++ name
  if !sub.isDict then .ok [violation (field "") "must_be_object" (typeName sub)]
  else do
    let knownStatus ← memberOf subStatuses (sub.get "status")
    let knownInterval ← memberOf subIntervals (sub.get "interval")
    .ok (flagged (isText 1 128 (sub.get "plan")) (field ".plan") "str_1_128" (sub.get "plan") ++
      flagged (isMoney (sub.get "amount_minor")) (field ".amount_minor") "int_minor_units_gte_0"
        (sub.get "amount_minor") ++
      flagged knownStatus (field ".status") "enum_['active', 'cancelled', 'trial']" (sub.get "status") ++
      flagged knownInterval (field ".interval") "enum_['month', 'year']" (sub.get "interval") ++
      checkCurrency R (field ".currency") currency (sub.get "currency"))

def checkSubscriptions (currency : Value) (subs : List Value) : Except ReportError (List Value) :=
  checkEach (checkSubscription R currency) 0 subs

structure ValidRevopsArguments (input : RevopsInput) : Prop where
  subscriptions : isList input.subscriptions = true
  currency : validCurrency R input.currency = true
  period : isFilledText input.period = true

structure ValidSubscription (currency sub : Value) : Prop where
  object : sub.isDict = true
  plan : isText 1 128 (sub.get "plan") = true
  amountMinor : isMoney (sub.get "amount_minor") = true
  status : ∃ s ∈ subStatuses, sub.get "status" = str s
  interval : ∃ s ∈ subIntervals, sub.get "interval" = str s
  ownCurrency : validCurrency R (sub.get "currency") = true
  sameCurrency : pyEq (sub.get "currency") currency = true

theorem isFilledText_str (v : Value) (valid : isFilledText v = true) : ∃ s, v = str s := by
  cases v with
  | str s => exact ⟨s, rfl⟩
  | _ => exact absurd valid Bool.false_ne_true

theorem checkRevopsArguments_clean_iff (input : RevopsInput) :
    checkRevopsArguments R input = [] ↔ ValidRevopsArguments R input := by
  simp only [checkRevopsArguments, List.append_eq_nil_iff, flagged_eq_nil]
  constructor
  · rintro ⟨⟨subscriptions, currency⟩, period⟩
    exact ⟨subscriptions, currency, period⟩
  · intro valid
    exact ⟨⟨valid.subscriptions, valid.currency⟩, valid.period⟩

theorem checkSubscription_ok_iff (currency : Value) (idx : Nat) (sub : Value) :
    (∃ violations, checkSubscription R currency idx sub = .ok violations) ↔
      (sub.isDict = true →
        isContainer (sub.get "status") = false ∧ isContainer (sub.get "interval") = false) := by
  rw [← memberOf_ok_iff subStatuses, ← memberOf_ok_iff subIntervals]
  unfold checkSubscription
  cases sub.isDict with
  | false => exact iff_of_true ⟨_, rfl⟩ fun object => absurd object Bool.false_ne_true
  | true =>
    constructor
    · rintro ⟨violations, checked⟩ -
      rcases except_bind_ok _ _ _ checked with ⟨knownStatus, status, tail⟩
      rcases except_bind_ok _ _ _ tail with ⟨knownInterval, interval, -⟩
      exact ⟨⟨knownStatus, status⟩, knownInterval, interval⟩
    · intro returns
      rcases returns rfl with ⟨⟨knownStatus, status⟩, knownInterval, interval⟩
      exact ⟨_, by simp only [bind, Except.bind, status, interval]; rfl⟩

theorem checkSubscription_clean_iff (currency : Value) (idx : Nat) (sub : Value) :
    checkSubscription R currency idx sub = .ok [] ↔ ValidSubscription R currency sub := by
  constructor
  · intro checked
    unfold checkSubscription at checked
    rcases object : sub.isDict with _ | _
    · rw [object] at checked
      exact absurd (Except.ok.inj checked) (List.cons_ne_nil _ _)
    rw [object] at checked
    rcases except_bind_ok _ _ _ checked with ⟨knownStatus, status, tail⟩
    rcases except_bind_ok _ _ _ tail with ⟨knownInterval, interval, clean⟩
    simp only [Except.ok.injEq, List.append_eq_nil_iff, flagged_eq_nil, checkCurrency_eq_nil] at clean
    rcases clean with ⟨⟨⟨⟨plan, amount⟩, rfl⟩, rfl⟩, own, same⟩
    exact ⟨object, plan, amount, (memberOf_true_iff _ _).mp status, (memberOf_true_iff _ _).mp interval,
      own, same⟩
  · intro valid
    have status := (memberOf_true_iff _ _).mpr valid.status
    have interval := (memberOf_true_iff _ _).mpr valid.interval
    have own (field : String) := (checkCurrency_eq_nil R field currency (sub.get "currency")).mpr
      ⟨valid.ownCurrency, valid.sameCurrency⟩
    simp only [checkSubscription, bind, Except.bind, valid.object, status, interval, valid.plan,
      valid.amountMinor, own]
    rfl

theorem checkSubscriptions_clean_iff (currency : Value) (subs : List Value) :
    checkSubscriptions R currency subs = .ok [] ↔ ∀ sub ∈ subs, ValidSubscription R currency sub :=
  checkEach_clean_iff _ _ (checkSubscription_clean_iff R currency) subs 0

end

/-- `_allocate` -/
def allocate (totalMinor parts : Int) : Except ReportError (List Int) :=
  if parts ≤ 0 then .error .valueError
  else
    let base := totalMinor / parts
    let remainder := totalMinor % parts
    .ok ((List.range remainder.toNat).foldl (fun out i => out.modify i (· + 1))
      (List.replicate parts.toNat base))

/-- `monthly_minor` and `annual_minor` -/
def monthlyAnnual (sub : Value) : Except ReportError (Int × Int) :=
  if keyIs "interval" "year" sub then do
    let parts ← allocate (amountMinor sub) 12
    .ok (parts.headD 0, amountMinor sub)
  else .ok (amountMinor sub, amountMinor sub * 12)

/-- The accumulators; a plan has its `count` and its `mrr_minor`. -/
structure Revenue where
  mrr : Int
  arr : Int
  active : Int
  trial : Int
  churned : Int
  planGroups : Tally String (Int × Int)

def Revenue.enter (r : Revenue) (sub : Value) : Except ReportError Revenue := do
  let (monthly, annual) ← monthlyAnnual sub
  let plan := textAt "plan" sub
  if keyIs "status" "active" sub then
    .ok { r with
      mrr := r.mrr + monthly
      arr := r.arr + annual
      active := r.active + 1
      planGroups := r.planGroups.add plan (1, monthly) }
  else
    let counted := { r with planGroups := r.planGroups.add plan (1, 0) }
    if keyIs "status" "trial" sub then .ok { counted with trial := r.trial + 1 }
    else if keyIs "status" "cancelled" sub then .ok { counted with churned := r.churned + 1 }
    else .ok counted

def revenueOf (subs : List Value) : Except ReportError Revenue :=
  subs.foldlM Revenue.enter ⟨0, 0, 0, 0, 0, .empty⟩

def planValue (group : Int × Int) : Value := dict [("count", int group.1), ("mrr_minor", int group.2)]

/-- `sorted(plan_groups.items())` -/
def planBreakdown (r : Revenue) : List (String × (Int × Int)) :=
  r.planGroups.entries.insertionSort fun a b => a.1 ≤ b.1

def planTable (table : List (String × (Int × Int))) : Value :=
  dict (table.map fun entry => (entry.1, planValue entry.2))

/-- The report without `generated_at` and the checksum. -/
def revopsFigures (input : RevopsInput) (subs : List Value) (r : Revenue) (churnRate arpa : Int) :
    List (String × Value) :=
  [("period", input.period), ("currency", input.currency), ("source", str "caller_supplied"),
   ("mrr_minor", int r.mrr), ("arr_minor", int r.arr), ("active_subscriptions", int r.active),
   ("trial_subscriptions", int r.trial), ("churned_subscriptions", int r.churned),
   ("churn_rate_bp", int churnRate), ("plan_breakdown", planTable (planBreakdown r)),
   ("arpa_minor", int arpa), ("subscription_count", int subs.length)]

section

variable (R : Reporting)

def revopsReport (input : RevopsInput) (subs : List Value) : Except ReportError Value := do
  let r ← revenueOf subs
  let churnRate ← basisPoints r.churned (r.active + r.churned)
  let arpa ← divideHalfEven r.mrr r.active
  let body := revopsFigures input subs r churnRate arpa
  let checksum ← sha256Hex R (dict body)
  let report := body ++ [("generated_at", str R.generatedAt), ("result_checksum", str checksum)]
  let fingerprint ← sha256Hex R (dict [("subscriptions", list subs), ("currency", input.currency),
    ("period", input.period)])
  .ok (readSuccess R billingTool [("report", dict report)]
    (readEvidence R "caller_supplied" fingerprint subs.length checksum))

def revopsBody (input : RevopsInput) : Except ReportError Value := do
  let violations := checkRevopsArguments R input
  if !violations.isEmpty then .ok (validationFailed R billingTool violations)
  else
    let subs := elementsOf input.subscriptions
    let violations ← checkSubscriptions R input.currency subs
    if !violations.isEmpty then .ok (validationFailed R billingTool violations)
    else revopsReport R input subs

/-- `billing_generate_revops_report` -/
def billingGenerateRevopsReport (input : RevopsInput) : Value :=
  caught R billingTool (revopsBody R input)

end

end GenesisAgents.MoneyReports
