import GenesisAgents.MoneyReports

/-! `finance_generate_finance_report` of `tools/finance_tool.py`: the checks of its arguments, the loop
over the transactions, and the report it returns. -/

namespace GenesisAgents.MoneyReports

open Value

def financeTool : String := "finance_generate_finance_report"

/-- `_TX_TYPES`, sorted -/
def txTypes : List String := ["expense", "income", "transfer"]

/-- `_REPORT_SOURCES`, sorted -/
def reportSources : List String := ["caller_supplied", "xero_export"]

/-- The arguments; a missing one is `None`. -/
structure FinanceInput where
  transactions : Value
  currency : Value
  period : Value
  source : Value

def isList : Value → Bool
  | list _ => true
  | _ => false

/-- `tx.get("type") == name` -/
def hasType (name : String) (tx : Value) : Bool :=
  match tx.get "type" with
  | str s => s == name
  | _ => false

section

variable (R : Reporting)

def checkFinanceArguments (input : FinanceInput) : Except ReportError (List Value) := do
  let known ← memberOf reportSources input.source
  .ok (flagged (isList input.transactions) "transactions" "required_list" input.transactions ++
    flagged (validCurrency R input.currency) "currency" "required_iso4217_uppercase_3" input.currency ++
    flagged (validPeriod R input.period) "period" "required_YYYY-MM_or_YYYY-MM-DD/YYYY-MM-DD"
      input.period ++
    flagged known "source" "required_enum_['caller_supplied', 'xero_export']" input.source)

def checkTransaction (currency : Value) (idx : Nat) (tx : Value) : Except ReportError (List Value) :=
  let field (name : String) := "transactions[" ++ toString idx ++ "]" ++ name
  if !tx.isDict then .ok [violation (field "") "must_be_object" (typeName tx)]
  else do
    let known ← memberOf txTypes (tx.get "type")
    .ok (flagged (validDate R (tx.get "date")) (field ".date") "rfc3339_date" (tx.get "date") ++
      flagged (isText 1 255 (tx.get "description")) (field ".description") "str_1_255"
        (tx.get "description") ++
      flagged (isMoney (tx.get "amount_minor")) (field ".amount_minor") "int_minor_units_gte_0"
        (tx.get "amount_minor") ++
      flagged known (field ".type") "enum_['expense', 'income', 'transfer']" (tx.get "type") ++
      checkCurrency R (field ".currency") currency (tx.get "currency") ++
      if hasType "expense" tx then
        flagged (isText 1 64 (tx.get "category")) (field ".category") "required_str_1_64_for_expense"
          (tx.get "category")
      else [])

def checkTransactions (currency : Value) (txs : List Value) : Except ReportError (List Value) :=
  checkEach (checkTransaction R currency) 0 txs

structure ValidFinanceArguments (input : FinanceInput) : Prop where
  transactions : isList input.transactions = true
  currency : validCurrency R input.currency = true
  period : validPeriod R input.period = true
  source : ∃ s ∈ reportSources, input.source = str s

structure ValidTransaction (currency tx : Value) : Prop where
  object : tx.isDict = true
  date : validDate R (tx.get "date") = true
  description : isText 1 255 (tx.get "description") = true
  amountMinor : isMoney (tx.get "amount_minor") = true
  type : ∃ s ∈ txTypes, tx.get "type" = str s
  ownCurrency : validCurrency R (tx.get "currency") = true
  sameCurrency : pyEq (tx.get "currency") currency = true
  category : hasType "expense" tx = true → isText 1 64 (tx.get "category") = true

theorem checkFinanceArguments_ok_iff (input : FinanceInput) :
    (∃ violations, checkFinanceArguments R input = .ok violations) ↔ isContainer input.source = false := by
  rw [← memberOf_ok_iff reportSources]
  constructor
  · rintro ⟨violations, checked⟩
    rcases except_bind_ok _ _ _ checked with ⟨known, member, -⟩
    exact ⟨known, member⟩
  · rintro ⟨known, member⟩
    exact ⟨_, by simp only [checkFinanceArguments, bind, Except.bind, member]; rfl⟩

theorem checkFinanceArguments_clean_iff (input : FinanceInput) :
    checkFinanceArguments R input = .ok [] ↔ ValidFinanceArguments R input := by
  constructor
  · intro checked
    rcases except_bind_ok _ _ _ checked with ⟨known, member, clean⟩
    simp only [Except.ok.injEq, List.append_eq_nil_iff, flagged_eq_nil] at clean
    rcases clean with ⟨⟨⟨transactions, currency⟩, period⟩, rfl⟩
    exact ⟨transactions, currency, period, (memberOf_true_iff _ _).mp member⟩
  · intro valid
    have member := (memberOf_true_iff _ _).mpr valid.source
    simp only [checkFinanceArguments, bind, Except.bind, member, valid.transactions, valid.currency,
      valid.period]
    rfl

theorem checkTransaction_ok_iff (currency : Value) (idx : Nat) (tx : Value) :
    (∃ violations, checkTransaction R currency idx tx = .ok violations) ↔
      (tx.isDict = true → isContainer (tx.get "type") = false) := by
  rw [← memberOf_ok_iff txTypes]
  unfold checkTransaction
  cases tx.isDict with
  | false => exact iff_of_true ⟨_, rfl⟩ fun object => absurd object Bool.false_ne_true
  | true =>
    constructor
    · rintro ⟨violations, checked⟩ -
      rcases except_bind_ok _ _ _ checked with ⟨known, member, -⟩
      exact ⟨known, member⟩
    · intro returns
      rcases returns rfl with ⟨known, member⟩
      exact ⟨_, by simp only [bind, Except.bind, member]; rfl⟩

theorem checkTransaction_clean_iff (currency : Value) (idx : Nat) (tx : Value) :
    checkTransaction R currency idx tx = .ok [] ↔ ValidTransaction R currency tx := by
  have category (field : String) : (if hasType "expense" tx then flagged (isText 1 64 (tx.get "category"))
      field "required_str_1_64_for_expense" (tx.get "category") else []) = [] ↔
        (hasType "expense" tx = true → isText 1 64 (tx.get "category") = true) := by
    cases hasType "expense" tx <;> simp [flagged_eq_nil]
  constructor
  · intro checked
    unfold checkTransaction at checked
    rcases object : tx.isDict with _ | _
    · rw [object] at checked
      exact absurd (Except.ok.inj checked) (List.cons_ne_nil _ _)
    rw [object] at checked
    rcases except_bind_ok _ _ _ checked with ⟨known, member, clean⟩
    simp only [Except.ok.injEq, List.append_eq_nil_iff, flagged_eq_nil, checkCurrency_eq_nil, category] at clean
    rcases clean with ⟨⟨⟨⟨⟨date, description⟩, amount⟩, rfl⟩, own, same⟩, expense⟩
    exact ⟨object, date, description, amount, (memberOf_true_iff _ _).mp member, own, same, expense⟩
  · intro valid
    have member := (memberOf_true_iff _ _).mpr valid.type
    have own (field : String) := (checkCurrency_eq_nil R field currency (tx.get "currency")).mpr
      ⟨valid.ownCurrency, valid.sameCurrency⟩
    simp only [checkTransaction, bind, Except.bind, valid.object, member, valid.date, valid.description,
      valid.amountMinor, own, (category _).mpr valid.category]
    rfl

theorem checkTransactions_clean_iff (currency : Value) (txs : List Value) :
    checkTransactions R currency txs = .ok [] ↔ ∀ tx ∈ txs, ValidTransaction R currency tx :=
  checkEach_clean_iff _ _ (checkTransaction_clean_iff R currency) txs 0

end

/-- `int(tx["amount_minor"])` -/
def amountMinor (tx : Value) : Int :=
  match tx.get "amount_minor" with
  | int n => n
  | _ => 0

def textAt (key : String) (tx : Value) : String :=
  match tx.get key with
  | str s => s
  | _ => ""

/-- `str(tx["date"])[:7]` -/
def monthKey (tx : Value) : String := clip 7 (textAt "date" tx)

def categoryOf (tx : Value) : String := textAt "category" tx

structure Ledger where
  totalIncome : Int
  totalExpenses : Int
  expenseByCategory : Tally String Int
  monthlyIncome : Tally String Int
  monthlyExpenses : Tally String Int
  expenseItems : List Value

def expenseItem (tx : Value) : Value :=
  dict [("description", tx.get "description"), ("category", tx.get "category"),
    ("amount_minor", int (amountMinor tx)), ("date", tx.get "date")]

def enter (l : Ledger) (tx : Value) : Ledger :=
  if hasType "income" tx then
    { l with
      totalIncome := l.totalIncome + amountMinor tx
      monthlyIncome := l.monthlyIncome.add (monthKey tx) (amountMinor tx) }
  else if hasType "expense" tx then
    { l with
      totalExpenses := l.totalExpenses + amountMinor tx
      monthlyExpenses := l.monthlyExpenses.add (monthKey tx) (amountMinor tx)
      expenseByCategory := l.expenseByCategory.add (categoryOf tx) (amountMinor tx)
      expenseItems := l.expenseItems ++ [expenseItem tx] }
  else l

def ledgerOf (txs : List Value) : Ledger :=
  txs.foldl enter ⟨0, 0, .empty, .empty, .empty, []⟩

/-- A row of `monthly_breakdown`. -/
structure MonthRow where
  month : String
  income : Int
  expenses : Int
  net : Int

def MonthRow.value (row : MonthRow) : Value :=
  dict [("month", str row.month), ("income_minor", int row.income), ("expenses_minor", int row.expenses),
    ("net_minor", int row.net)]

def allMonths (l : Ledger) : List String :=
  (l.monthlyIncome.keys ++ l.monthlyExpenses.keys).dedup.insertionSort (· ≤ ·)

def monthRow (l : Ledger) (m : String) : MonthRow :=
  ⟨m, l.monthlyIncome.get m, l.monthlyExpenses.get m, l.monthlyIncome.get m - l.monthlyExpenses.get m⟩

/-- `dict(sorted(expense_by_category.items()))` -/
def expenseBreakdown (l : Ledger) : List (String × Int) :=
  l.expenseByCategory.entries.insertionSort fun a b => a.1 ≤ b.1

def tableValue (table : List (String × Int)) : Value := dict (table.map fun entry => (entry.1, int entry.2))

def topExpenses (l : Ledger) : List Value :=
  (l.expenseItems.insertionSort fun a b => amountMinor b ≤ amountMinor a).take 5

/-- The report without `generated_at` and the checksum. -/
def figures (input : FinanceInput) (txs : List Value) (margin : Int) : List (String × Value) :=
  let l := ledgerOf txs
  [("period", input.period), ("currency", input.currency), ("source", input.source),
   ("total_income_minor", int l.totalIncome), ("total_expenses_minor", int l.totalExpenses),
   ("net_profit_minor", int (l.totalIncome - l.totalExpenses)), ("profit_margin_bp", int margin),
   ("expense_breakdown_minor", tableValue (expenseBreakdown l)),
   ("monthly_breakdown", list ((allMonths l).map fun m => (monthRow l m).value)),
   ("top_expenses", list (topExpenses l)), ("transaction_count", int txs.length)]

section

variable (R : Reporting)

def financeReport (input : FinanceInput) (txs : List Value) : Except ReportError Value := do
  let l := ledgerOf txs
  let margin ← basisPoints (l.totalIncome - l.totalExpenses) l.totalIncome
  let body := figures input txs margin
  let checksum ← sha256Hex R (dict body)
  let report := body ++ [("generated_at", str R.generatedAt), ("result_checksum", str checksum)]
  let fingerprint ← sha256Hex R (dict [("transactions", list txs), ("currency", input.currency),
    ("period", input.period)])
  let source := match input.source.orElse (str "caller_supplied") with
    | str s => s
    | _ => ""
  .ok (readSuccess R financeTool [("report", dict report)]
    (readEvidence R source fingerprint txs.length checksum))

def financeBody (input : FinanceInput) : Except ReportError Value := do
  let violations ← checkFinanceArguments R input
  if !violations.isEmpty then .ok (validationFailed R financeTool violations)
  else
    let txs := elementsOf input.transactions
    let violations ← checkTransactions R input.currency txs
    if !violations.isEmpty then .ok (validationFailed R financeTool violations)
    else financeReport R input txs

/-- `finance_generate_finance_report` -/
def financeGenerateFinanceReport (input : FinanceInput) : Value :=
  caught R financeTool (financeBody R input)

end

end GenesisAgents.MoneyReports
