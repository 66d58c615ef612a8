import GenesisAgents.RevopsReport
import Mathlib.Algebra.Group.Prod

/-! What the loop of the revenue report adds up, and when the figures of the returned report agree. -/

namespace GenesisAgents.MoneyReports

open Value

theorem modify_replicate (base : Int) (front back : Nat) :
    (List.replicate front (base + 1) ++ List.replicate (back + 1) base).modify front (· + 1) =
      List.replicate (front + 1) (base + 1) ++ List.replicate back base := by
  induction front with
  | zero => rfl
  | succ front later =>
    rw [List.replicate_succ, List.cons_append, List.modify_succ_cons, later]
    rfl

/-- The earliest parts carry the remainder. -/
theorem raise_range (base : Int) (parts : Nat) : ∀ remainder ≤ parts,
    (List.range remainder).foldl (fun out i => out.modify i (· + 1)) (List.replicate parts base) =
      List.replicate remainder (base + 1) ++ List.replicate (parts - remainder) base := by
  intro remainder
  induction remainder with
  | zero => exact fun _ => rfl
  | succ remainder later =>
    intro room
    have left : parts - remainder = parts - (remainder + 1) + 1 := by omega
    rw [List.range_succ, List.foldl_append, later (by omega), left]
    exact modify_replicate base remainder _

theorem allocate_eq (totalMinor : Int) (parts : Nat) (positive : 0 < parts) :
    allocate totalMinor parts = .ok (List.replicate (totalMinor % parts).toNat (totalMinor / parts + 1) ++
      List.replicate (parts - (totalMinor % parts).toNat) (totalMinor / parts)) := by
  have small : totalMinor % parts < parts := Int.emod_lt_of_pos _ (by exact_mod_cast positive)
  rw [allocate, if_neg (by omega)]
  exact congrArg Except.ok (raise_range _ _ _ (by omega))

theorem allocate_sum (totalMinor : Int) (parts : Nat) (positive : 0 < parts) (out : List Int)
    (allocated : allocate totalMinor parts = .ok out) : out.sum = totalMinor := by
  have whole := Int.emod_add_mul_ediv totalMinor parts
  have small : totalMinor % parts < parts := Int.emod_lt_of_pos _ (by exact_mod_cast positive)
  have low : 0 ≤ totalMinor % parts := Int.emod_nonneg _ (by omega)
  rw [allocate_eq totalMinor parts positive] at allocated
  obtain rfl := Except.ok.inj allocated
  rw [List.sum_append, List.sum_replicate, List.sum_replicate, nsmul_eq_mul, nsmul_eq_mul,
    Nat.cast_sub (by omega), Int.toNat_of_nonneg low]
  linarith

theorem neighbours_fair (base : Int) (front back : Nat) :
    (List.replicate front (base + 1) ++ List.replicate back base).Pairwise (· ≥ ·) ∧
      ∀ x ∈ List.replicate front (base + 1) ++ List.replicate back base,
        ∀ y ∈ List.replicate front (base + 1) ++ List.replicate back base, |x - y| ≤ 1 := by
  have near (x : Int) (member : x ∈ List.replicate front (base + 1) ++ List.replicate back base) :
      base ≤ x ∧ x ≤ base + 1 := by
    rcases List.mem_append.mp member with high | low
    · rw [List.eq_of_mem_replicate high]
      omega
    · rw [List.eq_of_mem_replicate low]
      omega
  refine ⟨List.pairwise_append.mpr ⟨?_, ?_, ?_⟩, fun x inside y inside' => ?_⟩
  · exact List.pairwise_replicate.mpr (.inr le_rfl)
  · exact List.pairwise_replicate.mpr (.inr le_rfl)
  · intro x high y low
    rw [List.eq_of_mem_replicate high, List.eq_of_mem_replicate low]
    omega
  · have bounds := near x inside
    have bounds' := near y inside'
    rw [abs_le]
    omega

/-- The largest-remainder allocation is exact, and as even as whole parts can be. -/
theorem allocate_fair (totalMinor parts : Int) (positive : 0 < parts) :
    ∃ out, allocate totalMinor parts = .ok out ∧ (out.length : Int) = parts ∧ out.sum = totalMinor ∧
      out.Pairwise (· ≥ ·) ∧ ∀ x ∈ out, ∀ y ∈ out, |x - y| ≤ 1 := by
  obtain ⟨count, rfl⟩ := Int.eq_ofNat_of_zero_le positive.le
  have filled : 0 < count := by exact_mod_cast positive
  have allocated := allocate_eq totalMinor count filled
  have small : totalMinor % count < count := Int.emod_lt_of_pos _ positive
  have low : 0 ≤ totalMinor % count := Int.emod_nonneg _ positive.ne'
  refine ⟨_, allocated, ?_, allocate_sum totalMinor count filled _ allocated, neighbours_fair _ _ _⟩
  rw [List.length_append, List.length_replicate, List.length_replicate]
  omega

/-- A refund of seven in three parts. -/
theorem refund_allocated : allocate (-7) 3 = .ok [-2, -2, -3] ∧
    ∃ out, allocate (-7) 3 = .ok out ∧ (out.length : Int) = 3 ∧ out.sum = -7 ∧ out.Pairwise (· ≥ ·) ∧
      ∀ x ∈ out, ∀ y ∈ out, |x - y| ≤ 1 :=
  ⟨by rfl, allocate_fair (-7) 3 (by decide)⟩

/-- The month that counts is the first, rounded up. -/
def monthlyOf (sub : Value) : Int :=
  if keyIs "interval" "year" sub then -(-amountMinor sub / 12) else amountMinor sub

def annualOf (sub : Value) : Int :=
  if keyIs "interval" "year" sub then amountMinor sub else amountMinor sub * 12

theorem monthlyAnnual_eq (sub : Value) : monthlyAnnual sub = .ok (monthlyOf sub, annualOf sub) := by
  rw [monthlyAnnual, monthlyOf, annualOf]
  split
  · have first : ∀ n : Int, (List.replicate (n % 12).toNat (n / 12 + 1) ++
        List.replicate (12 - (n % 12).toNat) (n / 12)).headD 0 = -(-n / 12) := by
      intro n
      have low := Int.emod_nonneg n (by decide : (12 : Int) ≠ 0)
      have small := Int.emod_lt_of_pos n (by decide : (0 : Int) < 12)
      rcases remains : (n % 12).toNat with _ | remainder
      · change n / 12 = _
        omega
      · change n / 12 + 1 = _
        omega
    have allocated := allocate_eq (amountMinor sub) 12 (by decide)
    rw [Nat.cast_ofNat] at allocated
    simp only [bind, Except.bind, allocated, first]
  · rfl

def earned (amount : Value → Int) (sub : Value) : Int :=
  if keyIs "status" "active" sub then amount sub else 0

def ofStatus (name : String) (sub : Value) : Int := if keyIs "status" name sub then 1 else 0

def planOf (sub : Value) : String := textAt "plan" sub

def planShare (sub : Value) : Int × Int := (1, earned monthlyOf sub)

theorem keyIs_unique (key name other : String) (sub : Value) (one : keyIs key name sub = true)
    (distinct : name ≠ other) : keyIs key other sub = false := by
  unfold keyIs at one ⊢
  split at one
  · exact beq_false_of_ne fun same => distinct ((eq_of_beq one).symm.trans same)
  · contradiction

theorem enter_ok (r : Revenue) (sub : Value) :
    r.enter sub = .ok ⟨r.mrr + earned monthlyOf sub, r.arr + earned annualOf sub,
      r.active + ofStatus "active" sub, r.trial + ofStatus "trial" sub,
      r.churned + ofStatus "cancelled" sub, r.planGroups.add (planOf sub) (planShare sub)⟩ := by
  simp only [Revenue.enter, bind, Except.bind, monthlyAnnual_eq, earned, ofStatus, planOf, planShare]
  by_cases active : keyIs "status" "active" sub = true
  · have trial := keyIs_unique "status" "active" "trial" sub active (by decide)
    have churned := keyIs_unique "status" "active" "cancelled" sub active (by decide)
    simp [active, trial, churned]
  by_cases trial : keyIs "status" "trial" sub = true
  · have churned := keyIs_unique "status" "trial" "cancelled" sub trial (by decide)
    simp [active, trial, churned]
  by_cases churned : keyIs "status" "cancelled" sub = true
  · simp [active, trial, churned]
  · simp [active, trial, churned]

def totalOf (amount : Value → Int) (subs : List Value) : Int := (subs.map amount).sum

theorem totalOf_cons (amount : Value → Int) (sub : Value) (rest : List Value) :
    totalOf amount (sub :: rest) = amount sub + totalOf amount rest := List.sum_cons

theorem foldlM_enter (subs : List Value) : ∀ r : Revenue,
    subs.foldlM Revenue.enter r = .ok ⟨r.mrr + totalOf (earned monthlyOf) subs,
      r.arr + totalOf (earned annualOf) subs, r.active + totalOf (ofStatus "active") subs,
      r.trial + totalOf (ofStatus "trial") subs, r.churned + totalOf (ofStatus "cancelled") subs,
      r.planGroups.gather planOf planShare subs⟩ := by
  induction subs with
  | nil => simp [totalOf, Tally.gather, pure, Except.pure]
  | cons sub rest later =>
    intro r
    rw [List.foldlM_cons, enter_ok]
    refine (later _).trans ?_
    simp only [totalOf_cons, add_assoc]
    rfl

def revenue (subs : List Value) : Revenue :=
  ⟨totalOf (earned monthlyOf) subs, totalOf (earned annualOf) subs, totalOf (ofStatus "active") subs,
    totalOf (ofStatus "trial") subs, totalOf (ofStatus "cancelled") subs,
    Tally.empty.gather planOf planShare subs⟩

theorem revenueOf_eq (subs : List Value) : revenueOf subs = .ok (revenue subs) := by
  rw [revenueOf, foldlM_enter]
  simp only [zero_add]
  rfl

/-- What is missing of an active annual amount to a multiple of twelve. -/
def missing (sub : Value) : Int :=
  if keyIs "interval" "year" sub then earned (fun sub => -amountMinor sub % 12) sub else 0

theorem missing_nonneg (sub : Value) : 0 ≤ missing sub := by
  rw [missing, earned]
  split
  · split
    · exact Int.emod_nonneg _ (by decide)
    · rfl
  · rfl

theorem twelve_monthly (sub : Value) :
    12 * earned monthlyOf sub = earned annualOf sub + missing sub := by
  unfold missing earned monthlyOf annualOf
  split
  · split
    · have whole := Int.emod_add_mul_ediv (-amountMinor sub) 12
      linarith
    · linarith
  · split <;> rfl

/-- Twelve times the monthly revenue is the annual one and all that is missing. -/
theorem twelve_mrr (subs : List Value) :
    12 * (revenue subs).mrr = (revenue subs).arr + totalOf missing subs := by
  induction subs with
  | nil => rfl
  | cons sub rest later =>
    simp only [revenue, totalOf_cons] at later ⊢
    linarith [twelve_monthly sub]

theorem totalOf_missing_nonneg (subs : List Value) : 0 ≤ totalOf missing subs :=
  List.sum_nonneg fun amount member => by
    rcases List.mem_map.mp member with ⟨sub, -, rfl⟩
    exact missing_nonneg sub

/-- The monthly revenue is a twelfth of the annual one, up to what is missing. -/
theorem mrr_close_iff (subs : List Value) :
    |12 * (revenue subs).mrr - (revenue subs).arr| < 12 ↔ totalOf missing subs < 12 := by
  have whole := twelve_mrr subs
  have low := totalOf_missing_nonneg subs
  have difference : 12 * (revenue subs).mrr - (revenue subs).arr = totalOf missing subs := by omega
  rw [difference, abs_of_nonneg low]

theorem fst_sum (shares : List (Int × Int)) : shares.sum.1 = (shares.map Prod.fst).sum :=
  map_list_sum (AddMonoidHom.fst Int Int) shares

theorem snd_sum (shares : List (Int × Int)) : shares.sum.2 = (shares.map Prod.snd).sum :=
  map_list_sum (AddMonoidHom.snd Int Int) shares

theorem shares_sum (subs : List Value) :
    (subs.map planShare).sum = ((subs.length : Int), totalOf (earned monthlyOf) subs) := by
  induction subs with
  | nil => rfl
  | cons sub rest later =>
    rw [List.map_cons, List.sum_cons, later, totalOf_cons, List.length_cons, planShare]
    refine Prod.ext ?_ rfl
    push_cast
    exact add_comm _ _

theorem plans_sumOf (p : String → Bool) (subs : List Value) :
    Tally.sumOf p (revenue subs).planGroups.entries =
      ((subs.filter fun sub => p (planOf sub)).map planShare).sum := by
  rw [revenue, Tally.sumOf_gather]
  exact zero_add _

def shownPlans (subs : List Value) : List (String × (Int × Int)) :=
  (planBreakdown (revenue subs)).filter fun entry => !bannedKey entry.1

theorem shownPlans_sum (subs : List Value) : ((shownPlans subs).map Prod.snd).sum =
    ((subs.filter fun sub => !bannedKey (planOf sub)).map planShare).sum := by
  rw [← plans_sumOf fun k => !bannedKey k]
  exact (((List.perm_insertionSort _ _).filter _).map Prod.snd).sum_eq

def PlansKept (subs : List Value) : Prop := ∀ sub ∈ subs, bannedKey (planOf sub) = false

theorem plansKept_iff (subs : List Value) :
    PlansKept subs ↔ (subs.filter fun sub => !bannedKey (planOf sub)).length = subs.length := by
  rw [List.length_filter_eq_length_iff]
  exact forall₂_congr fun sub _ => by rw [Bool.not_eq_true']

/-- The counts of the shown plans are all subscriptions exactly when no plan is lost. -/
theorem shownPlans_count (subs : List Value) :
    ((shownPlans subs).map fun entry => entry.2.1).sum = subs.length ↔ PlansKept subs := by
  have counts : ((shownPlans subs).map fun entry => entry.2.1).sum =
      ((subs.filter fun sub => !bannedKey (planOf sub)).length : Int) := by
    calc
      _ = ((shownPlans subs).map Prod.snd).sum.1 := by rw [fst_sum, List.map_map]; rfl
      _ = _ := by rw [shownPlans_sum, shares_sum]
  rw [counts, plansKept_iff]
  exact Int.natCast_inj

theorem shownPlans_mrr (subs : List Value) (kept : PlansKept subs) :
    ((shownPlans subs).map fun entry => entry.2.2).sum = (revenue subs).mrr := by
  have all : (subs.filter fun sub => !bannedKey (planOf sub)) = subs :=
    List.filter_eq_self.mpr fun sub member => by rw [kept sub member]; rfl
  calc
    _ = ((shownPlans subs).map Prod.snd).sum.2 := by rw [snd_sum, List.map_map]; rfl
    _ = totalOf (earned monthlyOf) subs := by rw [shownPlans_sum, all, shares_sum]

/-! The statuses of accepted subscriptions. -/

theorem statuses_total (subs : List Value)
    (listed : ∀ sub ∈ subs, ∃ status ∈ subStatuses, sub.get "status" = str status) :
    (revenue subs).active + (revenue subs).trial + (revenue subs).churned = subs.length := by
  induction subs with
  | nil => rfl
  | cons sub rest later =>
    rw [List.forall_mem_cons] at listed
    have one : ofStatus "active" sub + ofStatus "trial" sub + ofStatus "cancelled" sub = 1 := by
      rcases listed.1 with ⟨status, known, read⟩
      simp only [subStatuses, List.mem_cons, List.not_mem_nil, or_false] at known
      rcases known with rfl | rfl | rfl <;> simp [ofStatus, keyIs, read]
    have others := later listed.2
    simp only [revenue, totalOf_cons, List.length_cons] at others ⊢
    push_cast
    linarith

section

variable (R : Reporting)

/-- The figures of a revenue report, as they are read, and what they have to do with each other. -/
structure Agrees (report : List (String × Value)) (plans : List (String × (Int × Int)))
    (mrr arr active trial churned count : Int) : Prop where
  mrrShown : report.lookup "mrr_minor" = some (int mrr)
  arrShown : report.lookup "arr_minor" = some (int arr)
  activeShown : report.lookup "active_subscriptions" = some (int active)
  trialShown : report.lookup "trial_subscriptions" = some (int trial)
  churnedShown : report.lookup "churned_subscriptions" = some (int churned)
  countShown : report.lookup "subscription_count" = some (int count)
  plansShown : report.lookup "plan_breakdown" = some (planTable plans)
  annual : |12 * mrr - arr| < 12
  plansMrr : (plans.map fun entry => entry.2.2).sum = mrr
  plansCount : (plans.map fun entry => entry.2.1).sum = count
  statuses : active + trial + churned = count

def RevenueAgrees (envelope : Value) : Prop :=
  ∃ report plans mrr arr active trial churned count,
    (envelope.get "result").get "report" = dict report ∧
      Agrees report plans mrr arr active trial churned count

structure RevenueReported (input : RevopsInput) (subs : List Value) (churnRate arpa : Int)
    (envelope : Value) : Prop where
  elements : ∀ sub ∈ subs, ValidSubscription R input.currency sub
  returned : ∃ checksum, (envelope.get "result").get "report" = dict (Envelope.stripItems
    (revopsFigures input subs (revenue subs) churnRate arpa ++ [("generated_at", str R.generatedAt),
      ("result_checksum", str checksum)]))

theorem accepted_revenueReported (input : RevopsInput) (subs : List Value)
    (given : input.subscriptions = list subs) (accepted : Accepted (billingGenerateRevopsReport R input)) :
    ∃ churnRate arpa,
      RevenueReported R input subs churnRate arpa (billingGenerateRevopsReport R input) := by
  have body := caught_accepted R billingTool _ accepted
  rw [← billingGenerateRevopsReport] at body
  generalize billingGenerateRevopsReport R input = envelope at accepted body ⊢
  simp only [revopsBody, bind, Except.bind, given, elementsOf] at body
  split at body
  · exact absurd (Except.ok.inj body ▸ accepted) (validationFailed_refuses R _ _)
  split at body
  · contradiction
  rename_i violations elements
  split at body
  · exact absurd (Except.ok.inj body ▸ accepted) (validationFailed_refuses R _ _)
  rename_i clean
  obtain rfl : violations = [] := by simpa using clean
  simp only [revopsReport, bind, Except.bind, revenueOf_eq] at body
  split at body
  · contradiction
  rename_i churnRate _
  split at body
  · contradiction
  rename_i arpa _
  split at body
  · contradiction
  rename_i checksum _
  split at body
  · contradiction
  exact ⟨churnRate, arpa, (checkSubscriptions_clean_iff R _ subs).mp elements, checksum,
    (Except.ok.inj body) ▸ rfl⟩

theorem stripBanned_planTable (table : List (String × (Int × Int))) :
    Envelope.stripBanned (planTable table) =
      planTable (table.filter fun entry => !bannedKey entry.1) :=
  congrArg dict (stripItems_table planValue (fun _ => rfl) table)

theorem planTable_injective : Function.Injective planTable := by
  intro table other same
  refine List.map_injective_iff.mpr ?_ (dict.inj same)
  rintro ⟨plan, count, mrr⟩ ⟨plan', count', mrr'⟩ entries
  simpa [planValue] using entries

/-- The figures of an accepted revenue report agree exactly when no plan has the name of a banned key and
less than twelve minor units are missing of the annual amounts. -/
theorem revenue_agrees_iff (input : RevopsInput) (subs : List Value)
    (given : input.subscriptions = list subs)
    (accepted : Accepted (billingGenerateRevopsReport R input)) :
    RevenueAgrees (billingGenerateRevopsReport R input) ↔
      PlansKept subs ∧ totalOf missing subs < 12 := by
  rcases accepted_revenueReported R input subs given accepted with
    ⟨churnRate, arpa, elements, checksum, returned⟩
  have shown : some (Envelope.stripBanned (planTable (planBreakdown (revenue subs)))) =
      some (planTable (shownPlans subs)) := congrArg some (stripBanned_planTable _)
  constructor
  · rintro ⟨report, plans, mrr, arr, active, trial, churned, count, there, agrees⟩
    obtain rfl := dict.inj (there.symm.trans returned)
    obtain rfl : (revenue subs).mrr = mrr := int.inj (Option.some.inj agrees.mrrShown)
    obtain rfl : (revenue subs).arr = arr := int.inj (Option.some.inj agrees.arrShown)
    obtain rfl : (subs.length : Int) = count := int.inj (Option.some.inj agrees.countShown)
    obtain rfl : shownPlans subs = plans :=
      planTable_injective (Option.some.inj (shown.symm.trans agrees.plansShown))
    exact ⟨(shownPlans_count subs).mp agrees.plansCount, (mrr_close_iff subs).mp agrees.annual⟩
  · rintro ⟨kept, close⟩
    refine ⟨_, shownPlans subs, (revenue subs).mrr, (revenue subs).arr, (revenue subs).active,
      (revenue subs).trial, (revenue subs).churned, subs.length, returned, ?_⟩
    constructor
    · rfl
    · rfl
    · rfl
    · rfl
    · rfl
    · rfl
    · exact shown
    · exact (mrr_close_iff subs).mpr close
    · exact shownPlans_mrr subs kept
    · exact (shownPlans_count subs).mpr kept
    · exact statuses_total subs fun sub member => (elements sub member).status

end

/-! Twelve annual subscriptions of one minor unit, and one of twelve. -/

def annualSub (amount : Int) : Value :=
  dict [("plan", str "pro"), ("amount_minor", int amount), ("status", str "active"),
    ("interval", str "year"), ("currency", str "EUR")]

def revopsInput (subs : List Value) : RevopsInput := ⟨list subs, str "EUR", str "2024-02"⟩

theorem annual_units_do_not_agree :
    ¬∀ (R : Reporting) (input : RevopsInput) (subs : List Value), input.subscriptions = list subs →
      Accepted (billingGenerateRevopsReport R input) →
        RevenueAgrees (billingGenerateRevopsReport R input) := by
  intro always
  let subs := List.replicate 12 (annualSub 1)
  have accepted : Accepted (billingGenerateRevopsReport sampleReporting (revopsInput subs)) := by
    decide +kernel
  rcases always sampleReporting (revopsInput subs) subs rfl accepted with
    ⟨report, plans, mrr, arr, active, trial, churned, count, there, agrees⟩
  rcases accepted_revenueReported sampleReporting (revopsInput subs) subs rfl accepted with
    ⟨churnRate, arpa, -, checksum, returned⟩
  obtain rfl := dict.inj (there.symm.trans returned)
  obtain rfl : (revenue subs).mrr = mrr := int.inj (Option.some.inj agrees.mrrShown)
  obtain rfl : (revenue subs).arr = arr := int.inj (Option.some.inj agrees.arrShown)
  exact absurd agrees.annual (by decide)

theorem annual_dozen_agrees :
    RevenueAgrees (billingGenerateRevopsReport sampleReporting (revopsInput [annualSub 12])) := by
  refine (revenue_agrees_iff sampleReporting (revopsInput [annualSub 12]) [annualSub 12] rfl
    (by decide +kernel)).mpr ⟨?_, by decide +kernel⟩
  intro sub member
  rw [List.mem_singleton.mp member]
  decide

end GenesisAgents.MoneyReports
