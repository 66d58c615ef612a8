import GenesisAgents.FinanceReport

/-! What the accumulators of the finance report hold after the loop, and when the report that is returned
adds up. -/

namespace GenesisAgents.MoneyReports

open Value

theorem hasType_unique (name other : String) (tx : Value) (one : hasType name tx = true)
    (distinct : name ≠ other) : hasType other tx = false := by
  unfold hasType at one ⊢
  split at one
  · rename_i s read
    exact beq_false_of_ne fun same => distinct ((eq_of_beq one).symm.trans same)
  · contradiction

def amountOf (name : String) (txs : List Value) : Int :=
  ((txs.filter (hasType name)).map amountMinor).sum

structure Entered (l : Ledger) (txs : List Value) (l' : Ledger) : Prop where
  income : l'.totalIncome = l.totalIncome + amountOf "income" txs
  expenses : l'.totalExpenses = l.totalExpenses + amountOf "expense" txs
  categories : l'.expenseByCategory =
    l.expenseByCategory.gather categoryOf amountMinor (txs.filter (hasType "expense"))
  monthlyIncome : l'.monthlyIncome =
    l.monthlyIncome.gather monthKey amountMinor (txs.filter (hasType "income"))
  monthlyExpenses : l'.monthlyExpenses =
    l.monthlyExpenses.gather monthKey amountMinor (txs.filter (hasType "expense"))
  items : l'.expenseItems = l.expenseItems ++ (txs.filter (hasType "expense")).map expenseItem

theorem amountOf_cons (name : String) (tx : Value) (rest : List Value) :
    amountOf name (tx :: rest) = (if hasType name tx then amountMinor tx else 0) + amountOf name rest := by
  rw [amountOf, List.filter_cons]
  split
  · rw [List.map_cons, List.sum_cons]
    rfl
  · rw [zero_add]
    rfl

theorem foldl_entered (txs : List Value) : ∀ l, Entered l txs (txs.foldl enter l) := by
  induction txs with
  | nil =>
    intro l
    exact ⟨(add_zero _).symm, (add_zero _).symm, rfl, rfl, rfl, (List.append_nil _).symm⟩
  | cons tx rest later =>
    intro l
    have tail := later (enter l tx)
    rw [List.foldl_cons]
    by_cases income : hasType "income" tx = true
    · have other := hasType_unique "income" "expense" tx income (by decide)
      rw [enter, if_pos income] at tail ⊢
      constructor
      · rw [tail.income, amountOf_cons, if_pos income, add_assoc]
      · rw [tail.expenses, amountOf_cons, other, if_neg Bool.false_ne_true, zero_add]
      · rw [tail.categories, List.filter_cons_of_neg (by simp [other])]
      · rw [tail.monthlyIncome, List.filter_cons_of_pos income]
        rfl
      · rw [tail.monthlyExpenses, List.filter_cons_of_neg (by simp [other])]
      · rw [tail.items, List.filter_cons_of_neg (by simp [other])]
    · by_cases expense : hasType "expense" tx = true
      · rw [enter, if_neg income, if_pos expense] at tail ⊢
        constructor
        · rw [tail.income, amountOf_cons, if_neg income, zero_add]
        · rw [tail.expenses, amountOf_cons, if_pos expense, add_assoc]
        · rw [tail.categories, List.filter_cons_of_pos expense]
          rfl
        · rw [tail.monthlyIncome, List.filter_cons_of_neg income]
        · rw [tail.monthlyExpenses, List.filter_cons_of_pos expense]
          rfl
        · rw [tail.items, List.filter_cons_of_pos expense, List.map_cons, List.append_assoc]
          rfl
      · rw [enter, if_neg income, if_neg expense] at tail ⊢
        constructor
        · rw [tail.income, amountOf_cons, if_neg income, zero_add]
        · rw [tail.expenses, amountOf_cons, if_neg expense, zero_add]
        · rw [tail.categories, List.filter_cons_of_neg expense]
        · rw [tail.monthlyIncome, List.filter_cons_of_neg income]
        · rw [tail.monthlyExpenses, List.filter_cons_of_neg expense]
        · rw [tail.items, List.filter_cons_of_neg expense]

theorem ledgerOf_entered (txs : List Value) :
    Entered ⟨0, 0, .empty, .empty, .empty, []⟩ txs (ledgerOf txs) := foldl_entered txs _

theorem ledgerOf_income (txs : List Value) : (ledgerOf txs).totalIncome = amountOf "income" txs :=
  (ledgerOf_entered txs).income.trans (zero_add _)

theorem ledgerOf_expenses (txs : List Value) : (ledgerOf txs).totalExpenses = amountOf "expense" txs :=
  (ledgerOf_entered txs).expenses.trans (zero_add _)

def monthAmount (name m : String) (txs : List Value) : Int :=
  amountOf name (txs.filter fun tx => monthKey tx == m)

def categoryAmount (p : String → Bool) (txs : List Value) : Int :=
  amountOf "expense" (txs.filter fun tx => p (categoryOf tx))

theorem gather_total (key : Value → String) (name : String) (txs : List Value) :
    (((Tally.empty : Tally String Int).gather key amountMinor (txs.filter (hasType name))).entries.map
      Prod.snd).sum = amountOf name txs := by
  rw [← Tally.sumOf_all, Tally.sumOf_gather, List.filter_true]
  exact zero_add _

theorem filter_type_comm (name : String) (p : Value → Bool) (txs : List Value) :
    (txs.filter (hasType name)).filter p = (txs.filter p).filter (hasType name) := by
  rw [List.filter_filter, List.filter_filter]
  exact List.filter_congr fun tx _ => Bool.and_comm _ _

theorem gather_month (name m : String) (txs : List Value) :
    ((Tally.empty : Tally String Int).gather monthKey amountMinor (txs.filter (hasType name))).get m =
      monthAmount name m txs := by
  rw [Tally.get_eq_sumOf, Tally.sumOf_gather, filter_type_comm]
  exact zero_add _

theorem categories_sumOf (p : String → Bool) (txs : List Value) :
    Tally.sumOf p (ledgerOf txs).expenseByCategory.entries = categoryAmount p txs := by
  rw [(ledgerOf_entered txs).categories, Tally.sumOf_gather, filter_type_comm]
  exact zero_add _

theorem allMonths_nodup (l : Ledger) : (allMonths l).Nodup :=
  (List.perm_insertionSort _ _).nodup_iff.mpr (List.nodup_dedup _)

theorem mem_allMonths (l : Ledger) (m : String) :
    m ∈ allMonths l ↔ m ∈ l.monthlyIncome.keys ∨ m ∈ l.monthlyExpenses.keys := by
  rw [allMonths, List.mem_insertionSort, List.mem_dedup, List.mem_append]

theorem monthRow_eq (txs : List Value) (m : String) :
    monthRow (ledgerOf txs) m = ⟨m, monthAmount "income" m txs, monthAmount "expense" m txs,
      monthAmount "income" m txs - monthAmount "expense" m txs⟩ := by
  rw [monthRow, (ledgerOf_entered txs).monthlyIncome, (ledgerOf_entered txs).monthlyExpenses,
    gather_month, gather_month]

/-- The monthly amounts of a type add up to all of it, over months that have it all. -/
theorem months_sum (name : String) (txs : List Value) (ms : List String) (distinct : ms.Nodup)
    (all : ∀ m ∈ ((Tally.empty : Tally String Int).gather monthKey amountMinor
      (txs.filter (hasType name))).keys, m ∈ ms) :
    (ms.map fun m => monthAmount name m txs).sum = amountOf name txs := by
  rw [← gather_total monthKey name txs, ← Tally.sum_get _ ms distinct all]
  exact congrArg List.sum (List.map_congr_left fun m _ => (gather_month name m txs).symm)

theorem months_income (txs : List Value) :
    ((allMonths (ledgerOf txs)).map fun m => monthAmount "income" m txs).sum = amountOf "income" txs := by
  refine months_sum "income" txs _ (allMonths_nodup _) fun m there => (mem_allMonths _ m).mpr (.inl ?_)
  rwa [(ledgerOf_entered txs).monthlyIncome]

theorem months_expenses (txs : List Value) :
    ((allMonths (ledgerOf txs)).map fun m => monthAmount "expense" m txs).sum =
      amountOf "expense" txs := by
  refine months_sum "expense" txs _ (allMonths_nodup _) fun m there => (mem_allMonths _ m).mpr (.inr ?_)
  rwa [(ledgerOf_entered txs).monthlyExpenses]

section

variable (R : Reporting)

/-- A report adds up: its figures are those of the transactions, transfers left out. -/
structure AddsUp (txs : List Value) (report : List (String × Value)) (breakdown : List (String × Int))
    (rows : List MonthRow) : Prop where
  income : report.lookup "total_income_minor" = some (int (amountOf "income" txs))
  expenses : report.lookup "total_expenses_minor" = some (int (amountOf "expense" txs))
  net : report.lookup "net_profit_minor" =
    some (int (amountOf "income" txs - amountOf "expense" txs))
  breakdownShown : report.lookup "expense_breakdown_minor" = some (tableValue breakdown)
  breakdownSum : (breakdown.map Prod.snd).sum = amountOf "expense" txs
  rowsShown : report.lookup "monthly_breakdown" = some (list (rows.map MonthRow.value))
  months : (rows.map MonthRow.month).Nodup
  incomes : (rows.map MonthRow.income).sum = amountOf "income" txs
  outlays : (rows.map MonthRow.expenses).sum = amountOf "expense" txs
  nets : (rows.map MonthRow.net).sum = amountOf "income" txs - amountOf "expense" txs
  monthly : ∀ row ∈ rows, row.income = monthAmount "income" row.month txs ∧
    row.expenses = monthAmount "expense" row.month txs
  checksum : report.lookup "result_checksum" = some (str (R.sha256 (canonicalText (dict
    (report.filter fun entry => entry.1 != "generated_at" && entry.1 != "result_checksum")))))

def ReportAddsUp (txs : List Value) (envelope : Value) : Prop :=
  ∃ report breakdown rows, (envelope.get "result").get "report" = dict report ∧
    AddsUp R txs report breakdown rows

structure Reported (input : FinanceInput) (txs : List Value) (margin : Int) (envelope : Value) : Prop where
  arguments : ValidFinanceArguments R input
  elements : ∀ tx ∈ txs, ValidTransaction R input.currency tx
  ratio : basisPoints (amountOf "income" txs - amountOf "expense" txs) (amountOf "income" txs) = .ok margin
  returned : (envelope.get "result").get "report" = dict (Envelope.stripItems
    (figures input txs margin ++ [("generated_at", str R.generatedAt),
      ("result_checksum", str (R.sha256 (canonicalText (dict (figures input txs margin)))))]))

theorem accepted_reported (input : FinanceInput) (txs : List Value) (given : input.transactions = list txs)
    (accepted : Accepted (financeGenerateFinanceReport R input)) :
    ∃ margin, Reported R input txs margin (financeGenerateFinanceReport R input) := by
  have body := caught_accepted R financeTool _ accepted
  rw [← financeGenerateFinanceReport] at body
  generalize financeGenerateFinanceReport R input = envelope at accepted body ⊢
  simp only [financeBody, bind, Except.bind, given, elementsOf] at body
  split at body
  · contradiction
  rename_i violations arguments
  split at body
  · exact absurd (Except.ok.inj body ▸ accepted) (validationFailed_refuses R _ _)
  rename_i clean
  split at body
  · contradiction
  rename_i violations' elements
  split at body
  · exact absurd (Except.ok.inj body ▸ accepted) (validationFailed_refuses R _ _)
  rename_i clean'
  obtain rfl : violations = [] := by simpa using clean
  obtain rfl : violations' = [] := by simpa using clean'
  simp only [financeReport, bind, Except.bind, ledgerOf_income, ledgerOf_expenses] at body
  split at body
  · contradiction
  rename_i margin ratio
  split at body
  · contradiction
  rename_i checksum hashed
  split at body
  · contradiction
  obtain rfl := sha256Hex_ok R _ checksum hashed
  exact ⟨margin, (checkFinanceArguments_clean_iff R input).mp arguments,
    (checkTransactions_clean_iff R _ txs).mp elements, ratio, (Except.ok.inj body) ▸ rfl⟩

/-! Accepted values are stripped of nothing, the table of the categories apart. -/

theorem expenseItem_kept (currency tx : Value) (valid : ValidTransaction R currency tx)
    (expense : hasType "expense" tx = true) : Envelope.stripBanned (expenseItem tx) = expenseItem tx := by
  rcases validDate_str R _ valid.date with ⟨d, dateText⟩
  rcases isText_str _ _ _ valid.description with ⟨s, descriptionText⟩
  rcases isText_str _ _ _ (valid.category expense) with ⟨c, categoryText⟩
  rw [expenseItem, dateText, descriptionText, categoryText]
  rfl

theorem mem_topExpenses (txs : List Value) (item : Value) (shown : item ∈ topExpenses (ledgerOf txs)) :
    ∃ tx ∈ txs, hasType "expense" tx = true ∧ item = expenseItem tx := by
  have entered := List.mem_of_mem_take shown
  rw [List.mem_insertionSort, (ledgerOf_entered txs).items, List.nil_append] at entered
  rcases List.mem_map.mp entered with ⟨tx, member, rfl⟩
  exact ⟨tx, (List.mem_filter.mp member).1, (List.mem_filter.mp member).2, rfl⟩

def CategoriesKept (txs : List Value) : Prop :=
  ∀ tx ∈ txs, hasType "expense" tx = true → bannedKey (categoryOf tx) = false

theorem breakdown_kept_iff (txs : List Value) :
    (∀ entry ∈ expenseBreakdown (ledgerOf txs), bannedKey entry.1 = false) ↔ CategoriesKept txs := by
  have keys (k : String) : k ∈ (ledgerOf txs).expenseByCategory.keys ↔
      ∃ tx ∈ txs.filter (hasType "expense"), categoryOf tx = k := by
    rw [(ledgerOf_entered txs).categories, Tally.mem_keys_gather]
    exact or_iff_right List.not_mem_nil
  constructor
  · intro kept tx member expense
    have there := (keys (categoryOf tx)).mpr ⟨tx, List.mem_filter.mpr ⟨member, expense⟩, rfl⟩
    rcases List.mem_map.mp there with ⟨entry, entered, same⟩
    rw [← same]
    exact kept entry ((List.mem_insertionSort _).mpr entered)
  · intro kept entry shown
    have entered : entry.1 ∈ (ledgerOf txs).expenseByCategory.keys :=
      List.mem_map_of_mem ((List.mem_insertionSort _).mp shown)
    rcases (keys entry.1).mp entered with ⟨tx, member, same⟩
    rw [← same]
    exact kept tx (List.mem_filter.mp member).1 (List.mem_filter.mp member).2

theorem breakdown_sum (txs : List Value) :
    ((expenseBreakdown (ledgerOf txs)).map Prod.snd).sum = amountOf "expense" txs := by
  rw [expenseBreakdown, ((List.perm_insertionSort _ _).map Prod.snd).sum_eq,
    (ledgerOf_entered txs).categories]
  exact gather_total categoryOf "expense" txs

theorem stripBanned_tableValue (table : List (String × Int)) :
    Envelope.stripBanned (tableValue table) =
      tableValue (table.filter fun entry => !bannedKey entry.1) :=
  congrArg dict (stripItems_table int (fun _ => rfl) table)

theorem figures_kept (input : FinanceInput) (txs : List Value) (margin : Int) (envelope : Value)
    (reported : Reported R input txs margin envelope) (kept : CategoriesKept txs) :
    Envelope.stripItems (figures input txs margin) = figures input txs margin := by
  rcases validCurrency_str R _ reported.arguments.currency with ⟨currency, currencyText⟩
  rcases validPeriod_str R _ reported.arguments.period with ⟨period, periodText⟩
  rcases reported.arguments.source with ⟨source, -, sourceText⟩
  have breakdown : (expenseBreakdown (ledgerOf txs)).filter (fun entry => !bannedKey entry.1) =
      expenseBreakdown (ledgerOf txs) :=
    List.filter_eq_self.mpr fun entry shown => by rw [(breakdown_kept_iff txs).mpr kept entry shown]; rfl
  have rows : Envelope.stripList ((allMonths (ledgerOf txs)).map fun m => (monthRow (ledgerOf txs) m).value) =
      (allMonths (ledgerOf txs)).map fun m => (monthRow (ledgerOf txs) m).value := by
    refine stripList_kept _ fun row member => ?_
    rcases List.mem_map.mp member with ⟨m, -, rfl⟩
    rfl
  have top : Envelope.stripList (topExpenses (ledgerOf txs)) = topExpenses (ledgerOf txs) := by
    refine stripList_kept _ fun item shown => ?_
    rcases mem_topExpenses txs item shown with ⟨tx, member, expense, rfl⟩
    exact expenseItem_kept R input.currency tx (reported.elements tx member) expense
  have table := stripBanned_tableValue (expenseBreakdown (ledgerOf txs))
  rw [breakdown] at table
  rw [figures, currencyText, periodText, sourceText]
  refine stripItems_kept _ ?_
  simp only [List.forall_mem_cons, List.not_mem_nil, false_imp_iff, implies_true, and_true]
  refine ⟨⟨rfl, rfl⟩, ⟨rfl, rfl⟩, ⟨rfl, rfl⟩, ⟨rfl, rfl⟩, ⟨rfl, rfl⟩, ⟨rfl, rfl⟩, ⟨rfl, rfl⟩,
    ⟨rfl, table⟩, ⟨rfl, ?_⟩, ⟨rfl, ?_⟩, rfl, rfl⟩
  · exact congrArg list rows
  · exact congrArg list top

theorem figures_text (input : FinanceInput) (txs : List Value) (margin : Int)
    (same : canonicalText (dict (Envelope.stripItems (figures input txs margin))) =
      canonicalText (dict (figures input txs margin))) : CategoriesKept txs := by
  have table := jsonValue_stripItems (figures input txs margin) "expense_breakdown_minor"
    (tableValue (expenseBreakdown (ledgerOf txs))) (by simp [figures])
    (fun w there => by simpa [figures] using there) (canonicalText_inj _ _ same)
  rw [stripBanned_tableValue] at table
  exact (breakdown_kept_iff txs).mp (jsonValue_table int _ table)

def checksumBody (input : FinanceInput) (txs : List Value) : List (String × Value) :=
  figures input txs
    (match basisPoints (amountOf "income" txs - amountOf "expense" txs) (amountOf "income" txs) with
    | .ok margin => margin
    | .error _ => 0)

theorem checksumBody_eq (input : FinanceInput) (txs : List Value) (margin : Int) (envelope : Value)
    (reported : Reported R input txs margin envelope) :
    checksumBody input txs = figures input txs margin := by
  rw [checksumBody, reported.ratio]

theorem figures_addUp (input : FinanceInput) (txs : List Value) (margin : Int) (envelope : Value)
    (reported : Reported R input txs margin envelope) (kept : CategoriesKept txs) :
    ReportAddsUp R txs envelope := by
  have same := figures_kept R input txs margin envelope reported kept
  let added : List (String × Value) := [("generated_at", str R.generatedAt),
    ("result_checksum", str (R.sha256 (canonicalText (dict (figures input txs margin)))))]
  have whole : Envelope.stripItems (figures input txs margin ++ added) =
      figures input txs margin ++ added := by
    have both : Envelope.stripItems (figures input txs margin ++ added) =
      Envelope.stripItems (figures input txs margin) ++ added := rfl
    rw [both, same]
  have rows : (allMonths (ledgerOf txs)).map (monthRow (ledgerOf txs)) =
      (allMonths (ledgerOf txs)).map fun m => ⟨m, monthAmount "income" m txs,
        monthAmount "expense" m txs, monthAmount "income" m txs - monthAmount "expense" m txs⟩ :=
    List.map_congr_left fun m _ => monthRow_eq txs m
  refine ⟨figures input txs margin ++ added, expenseBreakdown (ledgerOf txs),
    (allMonths (ledgerOf txs)).map (monthRow (ledgerOf txs)), reported.returned.trans (congrArg dict whole), ?_⟩
  constructor
  · exact congrArg (some ∘ int) (ledgerOf_income txs)
  · exact congrArg (some ∘ int) (ledgerOf_expenses txs)
  · rw [← ledgerOf_income, ← ledgerOf_expenses]
    rfl
  · rfl
  · exact breakdown_sum txs
  · rw [List.map_map]
    rfl
  · rw [rows, List.map_map]
    exact (List.map_id _).symm ▸ allMonths_nodup _
  · rw [rows, List.map_map]
    exact months_income txs
  · rw [rows, List.map_map]
    exact months_expenses txs
  · rw [rows, List.map_map, ← months_income, ← months_expenses]
    refine eq_sub_of_add_eq ?_
    rw [← List.sum_map_add]
    exact congrArg List.sum (List.map_congr_left fun m _ => sub_add_cancel _ _)
  · intro row shown
    rw [rows] at shown
    rcases List.mem_map.mp shown with ⟨m, -, rfl⟩
    exact ⟨rfl, rfl⟩
  · rfl

/-- An accepted report adds up exactly when no expense has the name of a banned key as its category. -/
theorem report_adds_up_iff (input : FinanceInput) (txs : List Value) (given : input.transactions = list txs)
    (accepted : Accepted (financeGenerateFinanceReport R input))
    (collisionFree :
      R.sha256 (canonicalText (dict (Envelope.stripItems (checksumBody input txs)))) =
        R.sha256 (canonicalText (dict (checksumBody input txs))) →
      canonicalText (dict (Envelope.stripItems (checksumBody input txs))) =
        canonicalText (dict (checksumBody input txs))) :
    ReportAddsUp R txs (financeGenerateFinanceReport R input) ↔ CategoriesKept txs := by
  rcases accepted_reported R input txs given accepted with ⟨margin, reported⟩
  rw [checksumBody_eq R input txs margin _ reported] at collisionFree
  refine ⟨?_, figures_addUp R input txs margin _ reported⟩
  rintro ⟨report, breakdown, rows, shown, adds⟩
  obtain rfl := dict.inj (shown.symm.trans reported.returned)
  have checksums : R.sha256 (canonicalText (dict (figures input txs margin))) =
      R.sha256 (canonicalText (dict (Envelope.stripItems (figures input txs margin)))) :=
    str.inj (Option.some.inj adds.checksum)
  exact figures_text input txs margin (collisionFree checksums.symm)

end

/-! One expense of the category `note`. -/

def expenseOf (category : String) : Value :=
  dict [("date", str "2024-02-01"), ("description", str "rent"), ("amount_minor", int 500),
    ("type", str "expense"), ("currency", str "EUR"), ("category", str category)]

def februaryInput (txs : List Value) : FinanceInput :=
  ⟨list txs, str "EUR", str "2024-02", str "caller_supplied"⟩

theorem note_expense_does_not_add_up :
    ¬∀ (R : Reporting) (input : FinanceInput) (txs : List Value), input.transactions = list txs →
      Accepted (financeGenerateFinanceReport R input) →
        ReportAddsUp R txs (financeGenerateFinanceReport R input) := by
  intro always
  have accepted : Accepted (financeGenerateFinanceReport sampleReporting
      (februaryInput [expenseOf "note"])) := by decide +kernel
  rcases always sampleReporting (februaryInput [expenseOf "note"]) [expenseOf "note"] rfl accepted with
    ⟨report, breakdown, rows, shown, adds⟩
  rcases accepted_reported sampleReporting (februaryInput [expenseOf "note"]) [expenseOf "note"] rfl
    accepted with ⟨margin, reported⟩
  obtain rfl := dict.inj (shown.symm.trans reported.returned)
  have tables : Envelope.stripBanned (tableValue (expenseBreakdown (ledgerOf [expenseOf "note"]))) =
      tableValue breakdown := Option.some.inj adds.breakdownShown
  have lost : (expenseBreakdown (ledgerOf [expenseOf "note"])).filter (fun entry => !bannedKey entry.1) =
      [] := by decide
  rw [stripBanned_tableValue, lost] at tables
  obtain rfl : breakdown = [] := List.map_eq_nil_iff.mp (dict.inj tables).symm
  exact absurd adds.breakdownSum (by decide)

theorem rent_report_adds_up :
    ReportAddsUp sampleReporting [expenseOf "rent"]
      (financeGenerateFinanceReport sampleReporting (februaryInput [expenseOf "rent"])) := by
  refine (report_adds_up_iff sampleReporting (februaryInput [expenseOf "rent"]) [expenseOf "rent"] rfl
    (by decide +kernel) id).mpr ?_
  intro tx member _
  rw [List.mem_singleton.mp member]
  decide

end GenesisAgents.MoneyReports
