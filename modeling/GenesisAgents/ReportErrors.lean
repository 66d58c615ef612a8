import GenesisAgents.FinanceTotals
import GenesisAgents.RevopsTotals
import GenesisAgents.ReportLimits

/-! Which arguments of the two report tools raise an exception: the catch-all of each makes it an
`upstream_timeout`, which is retryable. -/

namespace GenesisAgents.MoneyReports

open Value DecimalRounding

theorem checked_ok_iff (R : Reporting) (tool : String) (returns clean : Prop)
    {check : Except ReportError (List Value)} (ok : (∃ violations, check = .ok violations) ↔ returns)
    (nothing : check = .ok [] ↔ clean) (next : Except ReportError Value) :
    (∃ envelope, (check >>= fun violations => if !violations.isEmpty then
      .ok (validationFailed R tool violations) else next) = .ok envelope) ↔
        returns ∧ (clean → ∃ envelope, next = .ok envelope) := by
  rw [← ok, ← nothing]
  rcases check with error | _ | ⟨violation, others⟩
  · refine iff_of_false ?_ ?_
    · rintro ⟨envelope, returned⟩
      contradiction
    · rintro ⟨⟨violations, checked⟩, -⟩
      contradiction
  · constructor
    · exact fun returned => ⟨⟨[], rfl⟩, fun _ => returned⟩
    · exact fun returned => returned.2 rfl
  · refine iff_of_true ⟨_, rfl⟩ ⟨⟨_, rfl⟩, fun none_ => ?_⟩
    exact absurd (Except.ok.inj none_) (List.cons_ne_nil _ _)

theorem amount_nonneg (tx : Value) (valid : isMoney (tx.get "amount_minor") = true) :
    0 ≤ amountMinor tx := by
  unfold amountMinor
  split
  · rename_i n read
    rw [read] at valid
    exact of_decide_eq_true valid
  · rfl

theorem amountOf_nonneg (name : String) (txs : List Value) (amounts : ∀ tx ∈ txs, 0 ≤ amountMinor tx) :
    0 ≤ amountOf name txs :=
  sum_amounts_nonneg amountMinor _ fun tx member => amounts tx (List.mem_filter.mp member).1

theorem amountOf_filter_le (name : String) (p : Value → Bool) (txs : List Value)
    (amounts : ∀ tx ∈ txs, 0 ≤ amountMinor tx) : amountOf name (txs.filter p) ≤ amountOf name txs :=
  sum_sublist_le amountMinor _ _ (List.filter_sublist.filter _) fun tx member =>
    amounts tx (List.mem_filter.mp member).1

theorem part_fits (name : String) (p : Value → Bool) (txs : List Value)
    (amounts : ∀ tx ∈ txs, 0 ≤ amountMinor tx) (fits : Fits (amountOf name txs)) :
    0 ≤ amountOf name (txs.filter p) ∧ Fits (amountOf name (txs.filter p)) := by
  have positive := amountOf_nonneg name (txs.filter p) fun tx member =>
    amounts tx (List.mem_filter.mp member).1
  exact ⟨positive, fits_of_le _ _ positive (amountOf_filter_le name p txs amounts) fits⟩

theorem breakdown_fits (txs : List Value) (amounts : ∀ tx ∈ txs, 0 ≤ amountMinor tx)
    (fits : Fits (amountOf "expense" txs)) (entry : String × Int)
    (shown : entry ∈ expenseBreakdown (ledgerOf txs)) : Fits entry.2 := by
  have entered := (List.mem_insertionSort _).mp shown
  rw [← Tally.get_of_mem _ entry entered, Tally.get_eq_sumOf, categories_sumOf]
  exact (part_fits "expense" _ txs amounts fits).2

theorem monthRow_written (txs : List Value) (amounts : ∀ tx ∈ txs, 0 ≤ amountMinor tx)
    (income : Fits (amountOf "income" txs)) (expenses : Fits (amountOf "expense" txs)) (m : String) :
    writable (monthRow (ledgerOf txs) m).value = true := by
  rcases part_fits "income" (fun tx => monthKey tx == m) txs amounts income with ⟨incomePositive, incomeFits⟩
  rcases part_fits "expense" (fun tx => monthKey tx == m) txs amounts expenses with
    ⟨expensePositive, expenseFits⟩
  rw [monthRow_eq, MonthRow.value, writable_dict]
  simp only [List.forall_mem_cons, List.not_mem_nil, false_imp_iff, implies_true, and_true, writable_int]
  exact ⟨rfl, incomeFits, expenseFits, fits_sub _ _ incomePositive expensePositive incomeFits expenseFits⟩

theorem expenseItem_written (R : Reporting) (currency : Value) (txs : List Value)
    (valid : ∀ tx ∈ txs, ValidTransaction R currency tx) (expenses : Fits (amountOf "expense" txs))
    (tx : Value) (member : tx ∈ txs) (expense : hasType "expense" tx = true) :
    writable (expenseItem tx) = true := by
  have amounts (tx : Value) (member : tx ∈ txs) : 0 ≤ amountMinor tx :=
    amount_nonneg tx (valid tx member).amountMinor
  have small : amountMinor tx ≤ amountOf "expense" txs :=
    List.single_le_sum (List.forall_mem_map.mpr fun tx member => amounts tx (List.mem_filter.mp member).1) _
      (List.mem_map_of_mem (List.mem_filter.mpr ⟨member, expense⟩))
  rcases validDate_str R _ (valid tx member).date with ⟨d, dateText⟩
  rcases isText_str _ _ _ (valid tx member).description with ⟨s, descriptionText⟩
  rcases isText_str _ _ _ ((valid tx member).category expense) with ⟨c, categoryText⟩
  rw [expenseItem, dateText, descriptionText, categoryText, writable_dict]
  simp only [List.forall_mem_cons, List.not_mem_nil, false_imp_iff, implies_true, and_true, writable_int]
  exact ⟨rfl, rfl, fits_of_le _ _ (amounts tx member) small expenses, rfl⟩

structure TotalsFit (txs : List Value) : Prop where
  income : Fits (amountOf "income" txs)
  expenses : Fits (amountOf "expense" txs)
  count : Fits txs.length

section

variable (R : Reporting) (input : FinanceInput) (txs : List Value)

/-- The figures can be written exactly when the totals can. -/
theorem figures_written_iff (arguments : ValidFinanceArguments R input)
    (valid : ∀ tx ∈ txs, ValidTransaction R input.currency tx) (margin : Int) (ratio : Fits margin) :
    writable (dict (figures input txs margin)) = true ↔ TotalsFit txs := by
  have amounts (tx : Value) (member : tx ∈ txs) : 0 ≤ amountMinor tx :=
    amount_nonneg tx (valid tx member).amountMinor
  rcases validCurrency_str R _ arguments.currency with ⟨currency, currencyText⟩
  rcases validPeriod_str R _ arguments.period with ⟨period, periodText⟩
  rcases arguments.source with ⟨source, -, sourceText⟩
  rw [writable_dict, figures, currencyText, periodText, sourceText]
  simp only [List.forall_mem_cons, List.not_mem_nil, false_imp_iff, implies_true, and_true, writable_int,
    writable_str, true_and, ledgerOf_income, ledgerOf_expenses]
  constructor
  · rintro ⟨income, expenses, -, -, -, -, -, count⟩
    exact ⟨income, expenses, count⟩
  · rintro ⟨income, expenses, count⟩
    have positive := amountOf_nonneg "income" txs amounts
    have positive' := amountOf_nonneg "expense" txs amounts
    refine ⟨income, expenses, fits_sub _ _ positive positive' income expenses, ratio, ?_, ?_, ?_, count⟩
    · rw [tableValue, writable_dict, List.forall_mem_map]
      intro entry shown
      exact (writable_int _).mpr (breakdown_fits txs amounts expenses entry shown)
    · rw [writable_list, List.forall_mem_map]
      exact fun m _ => monthRow_written txs amounts income expenses m
    · rw [writable_list]
      intro item shown
      rcases mem_topExpenses txs item shown with ⟨tx, member, expense, rfl⟩
      exact expenseItem_written R input.currency txs valid expenses tx member expense

structure FinanceWithin (txs : List Value) : Prop where
  elements : ∀ tx ∈ txs, writable tx = true
  totals : TotalsFit txs
  margin : amountOf "income" txs = 0 ∨
    roundDigits precision |((amountOf "income" txs - amountOf "expense" txs : Int) : ℚ) * 10000| /
      |(amountOf "income" txs : ℚ)| < 10 ^ precision - 1 / 2

theorem financeReport_ok_iff (arguments : ValidFinanceArguments R input)
    (valid : ∀ tx ∈ txs, ValidTransaction R input.currency tx) :
    (∃ envelope, financeReport R input txs = .ok envelope) ↔ FinanceWithin txs := by
  have amounts (tx : Value) (member : tx ∈ txs) : 0 ≤ amountMinor tx :=
    amount_nonneg tx (valid tx member).amountMinor
  have fingerprinted : writable (dict [("transactions", list txs), ("currency", input.currency),
      ("period", input.period)]) = true ↔ ∀ tx ∈ txs, writable tx = true := by
    rcases validCurrency_str R _ arguments.currency with ⟨currency, currencyText⟩
    rcases validPeriod_str R _ arguments.period with ⟨period, periodText⟩
    rw [writable_dict, currencyText, periodText]
    simp only [List.forall_mem_cons, List.not_mem_nil, false_imp_iff, implies_true, and_true, writable_list,
      writable_str]
  have net (totals : TotalsFit txs) : Fits (amountOf "income" txs - amountOf "expense" txs) :=
    fits_sub _ _ (amountOf_nonneg "income" txs amounts) (amountOf_nonneg "expense" txs amounts)
      totals.income totals.expenses
  constructor
  · rintro ⟨envelope, reported⟩
    rcases except_bind_ok _ _ _ reported with ⟨margin, ratio, tail⟩
    rcases except_bind_ok _ _ _ tail with ⟨checksum, hashed, tail⟩
    rcases except_bind_ok _ _ _ tail with ⟨fingerprint, printed, -⟩
    rw [ledgerOf_income, ledgerOf_expenses] at ratio
    have totals := (figures_written_iff R input txs arguments valid margin
      (basisPoints_fits _ _ _ ratio)).mp ((sha256Hex_ok_iff R _).mp ⟨checksum, hashed⟩)
    exact ⟨fingerprinted.mp ((sha256Hex_ok_iff R _).mp ⟨fingerprint, printed⟩), totals,
      (basisPoints_ok_iff _ _ (net totals)).mp ⟨margin, ratio⟩⟩
  · rintro ⟨elements, totals, small⟩
    rcases (basisPoints_ok_iff _ _ (net totals)).mpr small with ⟨margin, ratio⟩
    rcases (sha256Hex_ok_iff R _).mpr ((figures_written_iff R input txs arguments valid margin
      (basisPoints_fits _ _ _ ratio)).mpr totals) with ⟨checksum, hashed⟩
    rcases (sha256Hex_ok_iff R _).mpr (fingerprinted.mpr elements) with ⟨fingerprint, printed⟩
    exact ⟨_, by
      simp only [financeReport, bind, Except.bind, ledgerOf_income, ledgerOf_expenses, ratio, hashed,
        printed]
      rfl⟩

/-- The arguments for which the tool raises nothing. -/
structure FinanceHandled : Prop where
  source : isContainer input.source = false
  types : ValidFinanceArguments R input → ∀ tx ∈ elementsOf input.transactions, tx.isDict = true →
    isContainer (tx.get "type") = false
  within : ValidFinanceArguments R input →
    (∀ tx ∈ elementsOf input.transactions, ValidTransaction R input.currency tx) →
      FinanceWithin (elementsOf input.transactions)

theorem financeBody_ok_iff :
    (∃ envelope, financeBody R input = .ok envelope) ↔ FinanceHandled R input := by
  have first := checked_ok_iff R financeTool _ _ (checkFinanceArguments_ok_iff R input)
    (checkFinanceArguments_clean_iff R input)
  have second := checked_ok_iff R financeTool _ _
    (checkEach_ok_iff _ _ (checkTransaction_ok_iff R input.currency) (elementsOf input.transactions) 0)
    (checkTransactions_clean_iff R input.currency (elementsOf input.transactions))
  refine (first _).trans ?_
  constructor
  · rintro ⟨source, rest⟩
    exact ⟨source, fun arguments => ((second _).mp (rest arguments)).1, fun arguments valid =>
      (financeReport_ok_iff R input _ arguments valid).mp (((second _).mp (rest arguments)).2 valid)⟩
  · intro handled
    exact ⟨handled.source, fun arguments => (second _).mpr ⟨handled.types arguments, fun valid =>
      (financeReport_ok_iff R input _ arguments valid).mpr (handled.within arguments valid)⟩⟩

end

section

variable (R : Reporting) (input : RevopsInput) (subs : List Value)

theorem earned_nonneg (amount : Value → Int) (sub : Value) (positive : 0 ≤ amount sub) :
    0 ≤ earned amount sub := by
  unfold earned
  split
  · exact positive
  · rfl

theorem monthlyOf_nonneg (sub : Value) (positive : 0 ≤ amountMinor sub) : 0 ≤ monthlyOf sub := by
  unfold monthlyOf
  split <;> omega

theorem monthlyOf_le (sub : Value) (positive : 0 ≤ amountMinor sub) : monthlyOf sub ≤ annualOf sub := by
  unfold monthlyOf annualOf
  split <;> omega

theorem earned_le (sub : Value) (positive : 0 ≤ amountMinor sub) :
    earned monthlyOf sub ≤ earned annualOf sub := by
  unfold earned
  split
  · exact monthlyOf_le sub positive
  · rfl

theorem ofStatus_nonneg (name : String) (sub : Value) : 0 ≤ ofStatus name sub := by
  unfold ofStatus
  split <;> decide

theorem totalOf_ofStatus_nonneg (name : String) : 0 ≤ totalOf (ofStatus name) subs :=
  sum_amounts_nonneg _ subs fun sub _ => ofStatus_nonneg name sub

theorem planBreakdown_fits (amounts : ∀ sub ∈ subs, 0 ≤ amountMinor sub)
    (monthly : Fits (revenue subs).mrr) (count : Fits subs.length) (entry : String × (Int × Int))
    (shown : entry ∈ planBreakdown (revenue subs)) : Fits entry.2.1 ∧ Fits entry.2.2 := by
  have entered := (List.mem_insertionSort _).mp shown
  have shares : ∀ sub ∈ subs, 0 ≤ earned monthlyOf sub := fun sub member =>
    earned_nonneg _ sub (monthlyOf_nonneg sub (amounts sub member))
  rw [← Tally.get_of_mem _ entry entered, Tally.get_eq_sumOf, plans_sumOf, shares_sum]
  let part := subs.filter fun sub => decide (planOf sub = entry.1)
  have inside : part.Sublist subs := List.filter_sublist
  constructor
  · exact fits_of_le _ _ (Int.natCast_nonneg _) (Int.ofNat_le.mpr inside.length_le) count
  · exact fits_of_le _ _ (sum_amounts_nonneg _ part fun sub member => shares sub (inside.subset member))
      (sum_sublist_le _ part subs inside shares) monthly

theorem churnRate_ok (active churned : Int) (positive : 0 ≤ active) (positive' : 0 ≤ churned)
    (fits : Fits churned) : ∃ rate, basisPoints churned (active + churned) = .ok rate := by
  rw [basisPoints_ok_iff _ _ fits, or_iff_not_imp_left]
  intro nonzero
  have whole : (0 : ℚ) < (active + churned : Int) := by exact_mod_cast (by omega : 0 < active + churned)
  have part : (churned : ℚ) ≤ (active + churned : Int) := by exact_mod_cast (by omega : churned ≤ active + churned)
  have magnitude : (0 : ℚ) ≤ churned * 10000 := mul_nonneg (by exact_mod_cast positive') (by norm_num)
  have rounded := roundDigits_le_tenfold precision _ magnitude
  have digits : (10 : ℚ) ^ precision = 10000000000000000000000000000 := by norm_num [precision]
  rw [abs_of_nonneg magnitude, abs_of_pos whole, div_lt_iff₀ whole, digits]
  linarith

structure RevenueFits : Prop where
  annual : Fits (revenue subs).arr
  count : Fits subs.length

theorem statuses_fit (valid : ∀ sub ∈ subs, ValidSubscription R input.currency sub)
    (count : Fits subs.length) :
    Fits (revenue subs).active ∧ Fits (revenue subs).trial ∧ Fits (revenue subs).churned := by
  have whole := statuses_total subs fun sub member => (valid sub member).status
  have active : 0 ≤ (revenue subs).active := totalOf_ofStatus_nonneg subs "active"
  have trial : 0 ≤ (revenue subs).trial := totalOf_ofStatus_nonneg subs "trial"
  have churned : 0 ≤ (revenue subs).churned := totalOf_ofStatus_nonneg subs "cancelled"
  exact ⟨fits_of_le _ _ active (by omega) count, fits_of_le _ _ trial (by omega) count,
    fits_of_le _ _ churned (by omega) count⟩

theorem mrr_fits (amounts : ∀ sub ∈ subs, 0 ≤ amountMinor sub) (annual : Fits (revenue subs).arr) :
    Fits (revenue subs).mrr := by
  refine fits_of_le _ _ (sum_amounts_nonneg _ subs fun sub member => ?_)
    (List.sum_le_sum fun sub member => ?_) annual
  · exact earned_nonneg _ sub (monthlyOf_nonneg sub (amounts sub member))
  · exact earned_le sub (amounts sub member)

theorem revopsFigures_written_iff (arguments : ValidRevopsArguments R input)
    (valid : ∀ sub ∈ subs, ValidSubscription R input.currency sub) (churnRate arpa : Int)
    (rate : Fits churnRate) (share : Fits arpa) :
    writable (dict (revopsFigures input subs (revenue subs) churnRate arpa)) = true ↔
      RevenueFits subs := by
  have amounts (sub : Value) (member : sub ∈ subs) : 0 ≤ amountMinor sub :=
    amount_nonneg sub (valid sub member).amountMinor
  rcases validCurrency_str R _ arguments.currency with ⟨currency, currencyText⟩
  rcases isFilledText_str _ arguments.period with ⟨period, periodText⟩
  rw [writable_dict, revopsFigures, currencyText, periodText]
  simp only [List.forall_mem_cons, List.not_mem_nil, false_imp_iff, implies_true, and_true, writable_int,
    writable_str, true_and]
  constructor
  · rintro ⟨-, annual, -, -, -, -, -, -, count⟩
    exact ⟨annual, count⟩
  · rintro ⟨annual, count⟩
    have monthly := mrr_fits subs amounts annual
    rcases statuses_fit R input subs valid count with ⟨active, trial, churned⟩
    refine ⟨monthly, annual, active, trial, churned, rate, ?_, share, count⟩
    rw [planTable, writable_dict, List.forall_mem_map]
    intro entry shown
    rcases planBreakdown_fits subs amounts monthly count entry shown with ⟨number, part⟩
    rw [planValue, writable_dict]
    simp only [List.forall_mem_cons, List.not_mem_nil, false_imp_iff, implies_true, and_true, writable_int]
    exact ⟨number, part⟩

structure RevenueWithin : Prop where
  elements : ∀ sub ∈ subs, writable sub = true
  totals : RevenueFits subs
  arpa : (revenue subs).active = 0 ∨
    |((revenue subs).mrr : ℚ) / (revenue subs).active| < 10 ^ precision - 1 / 2

theorem revopsReport_ok_iff (arguments : ValidRevopsArguments R input)
    (valid : ∀ sub ∈ subs, ValidSubscription R input.currency sub) :
    (∃ envelope, revopsReport R input subs = .ok envelope) ↔ RevenueWithin subs := by
  have fingerprinted : writable (dict [("subscriptions", list subs), ("currency", input.currency),
      ("period", input.period)]) = true ↔ ∀ sub ∈ subs, writable sub = true := by
    rcases validCurrency_str R _ arguments.currency with ⟨currency, currencyText⟩
    rcases isFilledText_str _ arguments.period with ⟨period, periodText⟩
    rw [writable_dict, currencyText, periodText]
    simp only [List.forall_mem_cons, List.not_mem_nil, false_imp_iff, implies_true, and_true, writable_list,
      writable_str]
  have written (churnRate arpa : Int) := revopsFigures_written_iff R input subs arguments valid churnRate arpa
  constructor
  · rintro ⟨envelope, reported⟩
    rcases except_bind_ok _ _ _ reported with ⟨r, looped, tail⟩
    obtain rfl := Except.ok.inj ((revenueOf_eq subs).symm.trans looped)
    rcases except_bind_ok _ _ _ tail with ⟨churnRate, rate, tail⟩
    rcases except_bind_ok _ _ _ tail with ⟨arpa, share, tail⟩
    rcases except_bind_ok _ _ _ tail with ⟨checksum, hashed, tail⟩
    rcases except_bind_ok _ _ _ tail with ⟨fingerprint, printed, -⟩
    exact ⟨fingerprinted.mp ((sha256Hex_ok_iff R _).mp ⟨fingerprint, printed⟩),
      (written churnRate arpa (basisPoints_fits _ _ _ rate) (divideHalfEven_fits _ _ _ share)).mp
        ((sha256Hex_ok_iff R _).mp ⟨checksum, hashed⟩),
      (divideHalfEven_ok_iff _ _).mp ⟨arpa, share⟩⟩
  · rintro ⟨elements, totals, small⟩
    have churn : ∃ churnRate, basisPoints (revenue subs).churned
        ((revenue subs).active + (revenue subs).churned) = .ok churnRate :=
      churnRate_ok _ _ (totalOf_ofStatus_nonneg subs "active") (totalOf_ofStatus_nonneg subs "cancelled")
        (statuses_fit R input subs valid totals.count).2.2
    rcases churn with ⟨churnRate, rate⟩
    rcases (divideHalfEven_ok_iff _ _).mpr small with ⟨arpa, share⟩
    rcases (sha256Hex_ok_iff R _).mpr ((written churnRate arpa (basisPoints_fits _ _ _ rate)
      (divideHalfEven_fits _ _ _ share)).mpr totals) with ⟨checksum, hashed⟩
    rcases (sha256Hex_ok_iff R _).mpr (fingerprinted.mpr elements) with ⟨fingerprint, printed⟩
    exact ⟨_, by
      simp only [revopsReport, bind, Except.bind, revenueOf_eq, rate, share, hashed, printed]
      rfl⟩

/-- The arguments for which the tool raises nothing. -/
structure RevopsHandled : Prop where
  types : ValidRevopsArguments R input → ∀ sub ∈ elementsOf input.subscriptions, sub.isDict = true →
    isContainer (sub.get "status") = false ∧ isContainer (sub.get "interval") = false
  within : ValidRevopsArguments R input →
    (∀ sub ∈ elementsOf input.subscriptions, ValidSubscription R input.currency sub) →
      RevenueWithin (elementsOf input.subscriptions)

theorem revopsBody_ok_iff : (∃ envelope, revopsBody R input = .ok envelope) ↔ RevopsHandled R input := by
  have first := checked_ok_iff R billingTool True (ValidRevopsArguments R input)
    (iff_of_true ⟨checkRevopsArguments R input, rfl⟩ trivial)
    (by rw [Except.ok.injEq]; exact checkRevopsArguments_clean_iff R input)
  have second := checked_ok_iff R billingTool _ _
    (checkEach_ok_iff _ _ (checkSubscription_ok_iff R input.currency) (elementsOf input.subscriptions) 0)
    (checkSubscriptions_clean_iff R input.currency (elementsOf input.subscriptions))
  refine (first _).trans ?_
  constructor
  · rintro ⟨-, rest⟩
    exact ⟨fun arguments => ((second _).mp (rest arguments)).1, fun arguments valid =>
      (revopsReport_ok_iff R input _ arguments valid).mp (((second _).mp (rest arguments)).2 valid)⟩
  · intro handled
    exact ⟨trivial, fun arguments => (second _).mpr ⟨handled.types arguments, fun valid =>
      (revopsReport_ok_iff R input _ arguments valid).mpr (handled.within arguments valid)⟩⟩

end

/-- A success, or a failure with the code `validation_failed` that is not retryable. -/
def Permanent (envelope : Value) : Prop :=
  Accepted envelope ∨ (envelope.get "error").get? "code" = some (str "validation_failed") ∧
    (envelope.get "error").get? "retryable" = some (bool false)

section

variable (R : Reporting)

theorem fromException_not_permanent (tool : String) (error : ReportError) :
    ¬Permanent (fromException R tool error) := by
  rintro (accepted | ⟨-, retryable⟩)
  · exact fromException_refuses R tool error accepted
  · exact absurd (bool.inj (Option.some.inj retryable)).symm Bool.false_ne_true

theorem caught_permanent_iff (tool : String) (body : Except ReportError Value)
    (returned : ∀ envelope, body = .ok envelope → Permanent envelope) :
    Permanent (caught R tool body) ↔ ∃ envelope, body = .ok envelope := by
  cases body with
  | ok envelope => exact iff_of_true (returned envelope rfl) ⟨envelope, rfl⟩
  | error error =>
    refine iff_of_false (fromException_not_permanent R tool error) ?_
    rintro ⟨envelope, same⟩
    contradiction

theorem checked_permanent (tool : String) (check : Except ReportError (List Value))
    (next : Except ReportError Value) (later : ∀ envelope, next = .ok envelope → Permanent envelope)
    (envelope : Value) (returned : (check >>= fun violations => if !violations.isEmpty then
      .ok (validationFailed R tool violations) else next) = .ok envelope) : Permanent envelope := by
  rcases except_bind_ok _ _ _ returned with ⟨violations, -, rest⟩
  split at rest
  · rw [← Except.ok.inj rest]
    exact .inr ⟨rfl, rfl⟩
  · exact later envelope rest

theorem financeBody_permanent (input : FinanceInput) (envelope : Value)
    (returned : financeBody R input = .ok envelope) : Permanent envelope := by
  refine checked_permanent R financeTool _ _ (fun envelope rest => ?_) envelope returned
  refine checked_permanent R financeTool _ _ (fun envelope report => ?_) envelope rest
  rcases except_bind_ok _ _ _ report with ⟨margin, -, tail⟩
  rcases except_bind_ok _ _ _ tail with ⟨checksum, -, tail⟩
  rcases except_bind_ok _ _ _ tail with ⟨fingerprint, -, made⟩
  rw [← Except.ok.inj made]
  exact .inl rfl

theorem revopsBody_permanent (input : RevopsInput) (envelope : Value)
    (returned : revopsBody R input = .ok envelope) : Permanent envelope := by
  refine checked_permanent R billingTool (.ok (checkRevopsArguments R input)) _
    (fun envelope rest => ?_) envelope returned
  refine checked_permanent R billingTool _ _ (fun envelope report => ?_) envelope rest
  rcases except_bind_ok _ _ _ report with ⟨r, -, tail⟩
  rcases except_bind_ok _ _ _ tail with ⟨churnRate, -, tail⟩
  rcases except_bind_ok _ _ _ tail with ⟨arpa, -, tail⟩
  rcases except_bind_ok _ _ _ tail with ⟨checksum, -, tail⟩
  rcases except_bind_ok _ _ _ tail with ⟨fingerprint, -, made⟩
  rw [← Except.ok.inj made]
  exact .inl rfl

/-- Exactly the handled arguments of either tool have a permanent outcome. -/
theorem reports_permanent_iff :
    (∀ input, Permanent (financeGenerateFinanceReport R input) ↔ FinanceHandled R input) ∧
      ∀ input, Permanent (billingGenerateRevopsReport R input) ↔ RevopsHandled R input := by
  constructor
  · intro input
    rw [← financeBody_ok_iff]
    exact caught_permanent_iff R financeTool _ (financeBody_permanent R input)
  · intro input
    rw [← revopsBody_ok_iff]
    exact caught_permanent_iff R billingTool _ (revopsBody_permanent R input)

end

/-- A list for the source is no member of a frozenset: it cannot be hashed. -/
theorem list_source_is_retryable :
    ¬∀ (R : Reporting),
      (∀ input, Permanent (financeGenerateFinanceReport R input)) ∧
        ∀ input, Permanent (billingGenerateRevopsReport R input) := by
  intro always
  exact fromException_not_permanent sampleReporting financeTool .typeError
    ((always sampleReporting).1 ⟨list [], str "EUR", str "2024-02", list []⟩)

end GenesisAgents.MoneyReports
