import Mathlib.Data.Int.Log
import Mathlib.Data.Rat.Floor
import Mathlib.Algebra.Order.Ring.Int
import Mathlib.Tactic.Linarith
import Mathlib.Tactic.NormNum
import Mathlib.Tactic.Positivity
import Mathlib.Algebra.Order.Group.Unbundled.Abs
import Mathlib.Tactic.FieldSimp
import Mathlib.Tactic.LinearCombination

/-! Rounding to the nearest, ties to the even neighbour: to an integer, and to a number of significant
decimal digits. -/

namespace DecimalRounding

def halfEven (q : ℚ) : ℤ :=
  let below := ⌊q⌋
  if q - below < 1 / 2 then below
  else if 1 / 2 < q - below then below + 1
  else if Even below then below
  else below + 1

/-- An integer is reached from half a unit below it, and at the half itself when it is even. -/
theorem le_halfEven_iff (n : ℤ) (q : ℚ) :
    n ≤ halfEven q ↔ (n : ℚ) - 1 / 2 < q ∨ (Even n ∧ (n : ℚ) - 1 / 2 = q) := by
  have floor := Int.floor_le q
  have ceiling := Int.lt_floor_add_one q
  unfold halfEven
  dsimp only
  generalize ⌊q⌋ = below at floor ceiling
  by_cases low : n ≤ below
  · have cast : (n : ℚ) ≤ below := by exact_mod_cast low
    refine iff_of_true ?_ (.inl (by linarith))
    split
    · exact low
    split
    · omega
    split
    · exact low
    · omega
  by_cases high : below + 2 ≤ n
  · have cast : (below : ℚ) + 2 ≤ n := by exact_mod_cast high
    refine iff_of_false ?_ ?_
    · split
      · omega
      split
      · omega
      split <;> omega
    · rintro (less | ⟨-, same⟩) <;> linarith
  have next : n = below + 1 := by omega
  subst next
  push_cast
  split
  · rename_i small
    refine iff_of_false (by omega) ?_
    rintro (less | ⟨-, same⟩) <;> linarith
  split
  · rename_i big
    exact iff_of_true le_rfl (.inl (by linarith))
  rename_i small big
  have half : q = below + 1 / 2 := by linarith
  split
  · rename_i even
    refine iff_of_false (by omega) ?_
    rintro (less | ⟨odd, -⟩)
    · linarith
    · exact absurd even (Int.even_add_one.mp odd)
  · rename_i odd
    exact iff_of_true le_rfl (.inr ⟨Int.even_add_one.mpr odd, by linarith⟩)

theorem halfEven_mono {p q : ℚ} (below : p ≤ q) : halfEven p ≤ halfEven q := by
  rcases (le_halfEven_iff (halfEven p) p).mp le_rfl with less | ⟨even, same⟩
  · exact (le_halfEven_iff _ q).mpr (.inl (less.trans_le below))
  · rcases below.lt_or_eq with less | rfl
    · exact (le_halfEven_iff _ q).mpr (.inl (same.trans_lt less))
    · exact le_rfl

@[simp] theorem halfEven_intCast (n : ℤ) : halfEven n = n := by
  refine le_antisymm ?_ ((le_halfEven_iff n n).mpr (.inl (by linarith)))
  by_contra above
  have next : n + 1 ≤ halfEven n := by omega
  rcases (le_halfEven_iff (n + 1) n).mp next with less | ⟨-, same⟩
  · push_cast at less
    linarith
  · push_cast at same
    linarith

theorem halfEven_le_of_le {q : ℚ} {n : ℤ} (below : q ≤ n) : halfEven q ≤ n :=
  (halfEven_mono below).trans_eq (halfEven_intCast n)

theorem le_halfEven_of_le {q : ℚ} {n : ℤ} (above : n ≤ q) : n ≤ halfEven q :=
  (halfEven_intCast n).symm.trans_le (halfEven_mono above)

/-- The unit of the last of `digits` significant decimal digits. -/
def unit (digits : ℕ) (m : ℚ) : ℚ := 10 ^ (Int.log 10 m + 1 - digits)

/-- A magnitude with `digits` significant decimal digits. -/
def roundDigits (digits : ℕ) (m : ℚ) : ℚ := unit digits m * halfEven (m / unit digits m)

section

variable (digits : ℕ)

theorem unit_pos (m : ℚ) : 0 < unit digits m := zpow_pos (by norm_num) _

theorem unit_mul (m : ℚ) : unit digits m * 10 ^ digits = 10 ^ (Int.log 10 m + 1) := by
  rw [unit, ← zpow_natCast, ← zpow_add₀ (by norm_num)]
  congr 1
  omega

@[simp] theorem roundDigits_zero : roundDigits digits 0 = 0 := by
  have zero : halfEven 0 = 0 := by simpa using halfEven_intCast 0
  rw [roundDigits, zero_div, zero, Int.cast_zero, mul_zero]

theorem roundDigits_nonneg (m : ℚ) (positive : 0 ≤ m) : 0 ≤ roundDigits digits m := by
  have rounded : (0 : ℤ) ≤ halfEven (m / unit digits m) := by
    refine le_halfEven_of_le ?_
    rw [Int.cast_zero]
    exact div_nonneg positive (unit_pos digits m).le
  exact mul_nonneg (unit_pos digits m).le (by exact_mod_cast rounded)

theorem roundDigits_le_next (m : ℚ) : roundDigits digits m ≤ 10 ^ (Int.log 10 m + 1) := by
  have room : m < unit digits m * 10 ^ digits := by
    rw [unit_mul]
    exact_mod_cast Int.lt_zpow_succ_log_self (by norm_num) m
  have fits : halfEven (m / unit digits m) ≤ 10 ^ digits := by
    refine halfEven_le_of_le ?_
    rw [div_le_iff₀' (unit_pos digits m)]
    exact_mod_cast room.le
  rw [← unit_mul digits m, roundDigits]
  refine mul_le_mul_of_nonneg_left ?_ (unit_pos digits m).le
  exact_mod_cast fits

theorem roundDigits_le_tenfold (m : ℚ) (positive : 0 ≤ m) : roundDigits digits m ≤ 10 * m := by
  rcases positive.eq_or_lt with rfl | positive
  · rw [roundDigits_zero, mul_zero]
  have lead : (10 : ℚ) ^ Int.log 10 m ≤ m := by
    exact_mod_cast Int.zpow_log_le_self (by norm_num) positive
  have next := roundDigits_le_next digits m
  rw [zpow_add_one₀ (by norm_num)] at next
  linarith

theorem roundDigits_le (m : ℚ) (positive : 0 < m) (k : ℤ) (below : m < 10 ^ k) :
    roundDigits digits m ≤ 10 ^ k := by
  have lead : (10 : ℚ) ^ Int.log 10 m ≤ m := by
    exact_mod_cast Int.zpow_log_le_self (by norm_num) positive
  have shorter : Int.log 10 m < k := (zpow_lt_zpow_iff_right₀ (by norm_num)).mp (lead.trans_lt below)
  exact (roundDigits_le_next digits m).trans (zpow_le_zpow_right₀ (by norm_num) (by omega))

theorem le_roundDigits (some : 0 < digits) (m : ℚ) (positive : 0 < m) :
    (10 : ℚ) ^ Int.log 10 m ≤ roundDigits digits m := by
  have lead : (10 : ℚ) ^ Int.log 10 m ≤ m := by
    exact_mod_cast Int.zpow_log_le_self (by norm_num) positive
  have whole : unit digits m * 10 ^ (digits - 1) = 10 ^ Int.log 10 m := by
    rw [unit, ← zpow_natCast, ← zpow_add₀ (by norm_num)]
    congr 1
    omega
  have enough : (10 ^ (digits - 1) : ℤ) ≤ halfEven (m / unit digits m) := by
    refine le_halfEven_of_le ?_
    rw [le_div_iff₀' (unit_pos digits m)]
    push_cast
    rw [whole]
    exact lead
  rw [← whole, roundDigits]
  refine mul_le_mul_of_nonneg_left ?_ (unit_pos digits m).le
  exact_mod_cast enough

/-- A rounded magnitude needs more than `digits` digits before the point exactly when the magnitude is
within half a unit of ten to that power. -/
theorem halfEven_roundDigits (some : 0 < digits) (m : ℚ) (positive : 0 ≤ m) :
    (10 : ℤ) ^ digits ≤ halfEven (roundDigits digits m) ↔ (10 : ℚ) ^ digits - 1 / 2 ≤ m := by
  have ten : (1 : ℚ) < 10 := by norm_num
  have large : (10 : ℚ) ≤ 10 ^ digits := by
    simpa using pow_le_pow_right₀ ten.le some
  rcases positive.eq_or_lt with rfl | positive
  · have zero : halfEven 0 = 0 := by simpa using halfEven_intCast 0
    rw [roundDigits_zero, zero]
    refine iff_of_false (not_le.mpr (by positivity)) (by linarith)
  have lead : (10 : ℚ) ^ Int.log 10 m ≤ m := by
    exact_mod_cast Int.zpow_log_le_self (by norm_num) positive
  have next : m < 10 ^ (Int.log 10 m + 1) := by
    exact_mod_cast Int.lt_zpow_succ_log_self (by norm_num) m
  have whole : (10 : ℚ) ^ digits = 10 ^ (digits : ℤ) := (zpow_natCast 10 digits).symm
  rcases lt_trichotomy (Int.log 10 m + 1) digits with short | exact_ | long
  · -- fewer digits than there is room for: both sides fail
    have shorter : (10 : ℚ) ^ (Int.log 10 m + 1) ≤ 10 ^ ((digits - 1 : ℕ) : ℤ) :=
      zpow_le_zpow_right₀ ten.le (by omega)
    rw [zpow_natCast] at shorter
    have tenfold : (10 : ℚ) ^ digits = 10 * 10 ^ (digits - 1) := by
      rw [← pow_succ', Nat.sub_add_cancel some]
    have one : (1 : ℚ) ≤ 10 ^ (digits - 1) := one_le_pow₀ ten.le
    have bounded : halfEven (roundDigits digits m) ≤ 10 ^ (digits - 1) := by
      refine halfEven_le_of_le ((roundDigits_le_next digits m).trans ?_)
      exact_mod_cast shorter
    refine iff_of_false (not_le.mpr (bounded.trans_lt ?_)) (by linarith)
    exact pow_lt_pow_right₀ (by norm_num) (by omega)
  · -- exactly as many digits: the unit is one, and rounding again changes nothing
    have one : unit digits m = 1 := by rw [unit, exact_, sub_self, zpow_zero]
    have even : Even ((10 : ℤ) ^ digits) := (by decide : Even (10 : ℤ)).pow_of_ne_zero some.ne'
    rw [roundDigits, one, one_mul, div_one, halfEven_intCast, le_halfEven_iff, and_iff_right even]
    push_cast
    exact le_iff_lt_or_eq.symm
  · -- more digits: both sides hold
    have longer : (10 : ℚ) ^ digits ≤ 10 ^ Int.log 10 m := by
      rw [whole]
      exact zpow_le_zpow_right₀ ten.le (by omega)
    refine iff_of_true (le_halfEven_of_le ?_) (by linarith)
    push_cast
    exact longer.trans (le_roundDigits digits some m positive)

end

/-- Rounding gives the integer within half a unit, and of two of them the even one. -/
theorem halfEven_eq_iff (q : ℚ) (n : ℤ) :
    halfEven q = n ↔ |q - n| < 1 / 2 ∨ (|q - n| = 1 / 2 ∧ Even n) := by
  have reached := le_halfEven_iff n q
  have passed := le_halfEven_iff (n + 1) q
  push_cast at passed
  rw [le_antisymm_iff, ← Int.lt_add_one_iff, ← not_le, passed, reached, Int.even_add_one, abs_lt,
    abs_eq (by norm_num)]
  constructor
  · rintro ⟨low, above | ⟨even, same⟩⟩
    · rcases lt_trichotomy q (n + 1 / 2) with less | same | more
      · exact .inl ⟨by linarith, by linarith⟩
      · have even : Even n := by
          by_contra odd
          exact low (.inr ⟨odd, by linarith⟩)
        exact .inr ⟨.inl (by linarith), even⟩
      · exact absurd (.inl (by linarith)) low
    · exact .inr ⟨.inr (by linarith), even⟩
  · rintro (⟨low, high⟩ | ⟨same | same, even⟩)
    · refine ⟨?_, .inl (by linarith)⟩
      rintro (more | ⟨-, same⟩) <;> linarith
    · refine ⟨?_, .inl (by linarith)⟩
      rintro (more | ⟨odd, -⟩)
      · linarith
      · exact odd even
    · refine ⟨?_, .inr ⟨even, by linarith⟩⟩
      rintro (more | ⟨odd, -⟩)
      · linarith
      · exact odd even

theorem halfEven_neg (q : ℚ) : halfEven (-q) = -halfEven q := by
  rw [halfEven_eq_iff, Int.cast_neg, even_neg, neg_sub_neg, abs_sub_comm]
  exact (halfEven_eq_iff q _).mp rfl

/-- Rounding passes the tie above `k`. -/
def Passes (q : ℚ) (k : ℤ) : Prop := (k : ℚ) + 1 / 2 < q ∨ (Odd k ∧ (k : ℚ) + 1 / 2 = q)

theorem lt_halfEven_iff (k : ℤ) (q : ℚ) : k < halfEven q ↔ Passes q k := by
  have reached := le_halfEven_iff (k + 1) q
  have middle : ((k + 1 : ℤ) : ℚ) - 1 / 2 = k + 1 / 2 := by
    push_cast
    ring
  rw [middle, Int.even_add_one, Int.not_even_iff_odd] at reached
  exact Int.add_one_le_iff.symm.trans reached

section

variable (digits : ℕ)

/-- The tie above `k` is the number with `digits` significant digits closest to `q`. -/
def Blurs (q : ℚ) (k : ℤ) : Prop :=
  unit digits q ≤ 1 / 10 ∧ (|q - (k + 1 / 2)| < unit digits q / 2 ∨
    (|q - (k + 1 / 2)| = unit digits q / 2 ∧ unit digits q < 1 / 10))

theorem tie_units (k : ℤ) (e : ℕ) : ((k : ℚ) + 1 / 2) * 10 ^ (e + 1) = ((2 * k + 1) * 5 * 10 ^ e : ℤ) := by
  push_cast
  ring

theorem even_tie_units (k : ℤ) (e : ℕ) : Even ((2 * k + 1) * 5 * 10 ^ e : ℤ) ↔ 0 < e := by
  have odd : Odd ((2 * k + 1) * 5 : ℤ) := (odd_two_mul_add_one k).mul (by decide)
  cases e with
  | zero => simpa using odd
  | succ e =>
    refine iff_of_true ?_ e.succ_pos
    exact ((by decide : Even (10 : ℤ)).pow_of_ne_zero e.succ_ne_zero).mul_left _

theorem unit_eq (some : 0 < digits) (q : ℚ) (positive : 0 ≤ q) (short : q < 10 ^ digits) :
    ∃ e : ℕ, unit digits q * 10 ^ e = 1 := by
  have shorter : Int.log 10 q + 1 ≤ digits := by
    rcases positive.eq_or_lt with rfl | positive
    · rw [Int.log_zero_right]
      omega
    · have lead : (10 : ℚ) ^ Int.log 10 q ≤ q := by
        exact_mod_cast Int.zpow_log_le_self (by norm_num) positive
      rw [← zpow_natCast] at short
      have less := (zpow_lt_zpow_iff_right₀ (by norm_num)).mp (lead.trans_lt short)
      omega
  refine ⟨(digits - (Int.log 10 q + 1)).toNat, ?_⟩
  rw [unit, ← zpow_natCast, ← zpow_add₀ (by norm_num), Int.toNat_of_nonneg (by omega)]
  have zero : Int.log 10 q + 1 - digits + (digits - (Int.log 10 q + 1)) = 0 := by omega
  rw [zero, zpow_zero]

/-- The digits blur a tie exactly when rounding goes there. -/
theorem blurs_iff (q : ℚ) (k : ℤ) (e : ℕ) (tenths : unit digits q * 10 ^ (e + 1) = 1) :
    Blurs digits q k ↔ halfEven (q / unit digits q) = (2 * k + 1) * 5 * 10 ^ e := by
  have positive := unit_pos digits q
  have tie : ((k : ℚ) + 1 / 2) = unit digits q * ((2 * k + 1) * 5 * 10 ^ e : ℤ) := by
    rw [← tie_units, mul_left_comm, tenths, mul_one]
  have distance : |q - (k + 1 / 2)| =
      unit digits q * |q / unit digits q - ((2 * k + 1) * 5 * 10 ^ e : ℤ)| := by
    rw [tie, ← abs_of_pos positive, ← abs_mul, abs_of_pos positive, mul_sub, mul_div_cancel₀ _ positive.ne']
  have small : unit digits q ≤ 1 / 10 := by
    have large : (10 : ℚ) ≤ 10 ^ (e + 1) := by
      simpa using pow_le_pow_right₀ (by norm_num : (1 : ℚ) ≤ 10) e.succ_pos
    nlinarith
  have smaller : unit digits q < 1 / 10 ↔ 0 < e := by
    cases e with
    | zero =>
      rw [zero_add, pow_one] at tenths
      exact iff_of_false (by linarith) (lt_irrefl 0)
    | succ e =>
      have large : (100 : ℚ) ≤ 10 ^ (e + 2) := by
        have more := pow_le_pow_right₀ (by norm_num : (1 : ℚ) ≤ 10) (by omega : 2 ≤ e + 2)
        linarith
      exact iff_of_true (by nlinarith) e.succ_pos
  have half : unit digits q / 2 = unit digits q * (1 / 2) := by ring
  rw [Blurs, and_iff_right small, halfEven_eq_iff, even_tie_units, smaller, distance, half,
    mul_lt_mul_iff_right₀ positive, mul_right_inj' positive.ne']

/-- Rounding twice passes a tie as rounding once does, unless the digits blur the tie. -/
theorem passes_roundDigits (some : 0 < digits) (q : ℚ) (positive : 0 ≤ q) (short : q < 10 ^ digits) (k : ℤ) :
    Passes (roundDigits digits q) k ↔ (Blurs digits q k ∧ Odd k) ∨ (¬Blurs digits q k ∧ Passes q k) := by
  have unitPos := unit_pos digits q
  rcases unit_eq digits some q positive short with ⟨e, tenths⟩
  cases e with
  | zero =>
    -- the last digit is that of the units
    rw [pow_zero, mul_one] at tenths
    have clear : ¬Blurs digits q k := by
      rw [Blurs, tenths]
      norm_num
    rw [roundDigits, tenths, one_mul, div_one, ← lt_halfEven_iff, halfEven_intCast, lt_halfEven_iff]
    simp [clear]
  | succ e =>
    have tie : ((k : ℚ) + 1 / 2) = unit digits q * ((2 * k + 1) * 5 * 10 ^ e : ℤ) := by
      rw [← tie_units, mul_left_comm, tenths, mul_one]
    have rounded : Passes (roundDigits digits q) k ↔
        (2 * k + 1) * 5 * 10 ^ e < halfEven (q / unit digits q) ∨
          (Odd k ∧ (2 * k + 1) * 5 * 10 ^ e = halfEven (q / unit digits q)) := by
      rw [Passes, roundDigits, tie, mul_lt_mul_iff_right₀ unitPos, mul_right_inj' unitPos.ne', Int.cast_lt,
        Int.cast_inj]
    rw [rounded, blurs_iff digits q k e tenths, Passes]
    generalize (2 * k + 1) * 5 * 10 ^ e = units at tie
    by_cases blurred : halfEven (q / unit digits q) = units
    · rw [blurred]
      simp
    · have above : units < halfEven (q / unit digits q) ↔ (k : ℚ) + 1 / 2 < q := by
        rw [← not_iff_not, not_lt, not_lt]
        constructor
        · intro below
          by_contra more
          refine blurred (le_antisymm below (le_halfEven_of_le ?_))
          rw [le_div_iff₀' unitPos, ← tie]
          exact (not_le.mp more).le
        · intro below
          refine halfEven_le_of_le ?_
          rw [div_le_iff₀' unitPos, ← tie]
          exact below
      have apart : (k : ℚ) + 1 / 2 ≠ q := by
        intro same
        have whole : q / unit digits q = units := by
          rw [div_eq_iff unitPos.ne', mul_comm, ← tie, same]
        exact blurred (by rw [whole, halfEven_intCast])
      rw [above, or_iff_left fun both => blurred both.2.symm, or_iff_right fun both => blurred both.1,
        and_iff_right blurred, or_iff_left fun both => apart both.2]

theorem roundDigits_intCast (some : 0 < digits) (n : ℤ) (positive : 0 ≤ n) (short : (n : ℚ) < 10 ^ digits) :
    roundDigits digits n = n := by
  rcases unit_eq digits some n (by exact_mod_cast positive) short with ⟨e, tenths⟩
  have whole : (n : ℚ) / unit digits n = ((n * 10 ^ e : ℤ) : ℚ) := by
    rw [div_eq_iff (unit_pos digits _).ne']
    push_cast
    linear_combination -(n : ℚ) * tenths
  rw [roundDigits, whole, halfEven_intCast, ← whole, mul_div_cancel₀ _ (unit_pos digits _).ne']

theorem roundDigits_pos (some : 0 < digits) (m : ℚ) (positive : 0 < m) : 0 < roundDigits digits m :=
  (zpow_pos (by norm_num) _).trans_le (le_roundDigits digits some m positive)

/-- A ratio with a small numerator is blurred with a tie only when it is that tie. -/
theorem eq_of_blurs (n d : ℤ) (positive : 0 ≤ n) (divisor : 0 < d) (small : (10 * n : ℚ) < 10 ^ digits) (k : ℤ)
    (blurred : Blurs digits (n / d) k) : (n : ℚ) / d = k + 1 / 2 := by
  by_contra apart
  have divisor' : (0 : ℚ) < d := by exact_mod_cast divisor
  have near : |(n : ℚ) / d - (k + 1 / 2)| ≤ unit digits ((n : ℚ) / d) / 2 := by
    rcases blurred.2 with near | near
    · exact near.le
    · exact near.1.le
  rcases positive.eq_or_lt with rfl | positive
  · -- no tie is that close to zero
    have close := near.trans (div_le_div_of_nonneg_right blurred.1 (by norm_num : (0 : ℚ) ≤ 2))
    rw [Int.cast_zero, zero_div, zero_sub, abs_neg, abs_le] at close
    have high : 2 * k + 1 < 1 := by
      have bound : (2 * k + 1 : ℚ) < 1 := by linarith [close.2]
      exact_mod_cast bound
    have low : -1 < 2 * k + 1 := by
      have bound : (-1 : ℚ) < 2 * k + 1 := by linarith [close.1]
      exact_mod_cast bound
    omega
  have positive' : (0 : ℚ) < n := by exact_mod_cast positive
  have distance : (1 : ℚ) ≤ |(n : ℚ) / d - (k + 1 / 2)| * (2 * d) := by
    have whole : |(n : ℚ) / d - (k + 1 / 2)| * (2 * d) = (|2 * n - (2 * k + 1) * d| : ℤ) := by
      have double : (0 : ℚ) < 2 * d := by linarith
      rw [Int.cast_abs, ← abs_of_pos double, ← abs_mul]
      push_cast
      congr 1
      field_simp
    rw [whole]
    refine Int.cast_one_le_of_pos (abs_pos.mpr fun zero => apart ?_)
    have zero : (2 * n - (2 * k + 1) * d : ℚ) = 0 := by exact_mod_cast zero
    rw [div_eq_iff divisor'.ne']
    linarith
  have narrow : unit digits ((n : ℚ) / d) * d < 1 := by
    have lead : (10 : ℚ) ^ Int.log 10 ((n : ℚ) / d) ≤ n / d := by
      exact_mod_cast Int.zpow_log_le_self (by norm_num) (div_pos positive' divisor')
    have units := unit_mul digits ((n : ℚ) / d)
    rw [zpow_add_one₀ (by norm_num)] at units
    rw [le_div_iff₀ divisor'] at lead
    have power : (0 : ℚ) < 10 ^ digits := by positivity
    nlinarith
  nlinarith

end

end DecimalRounding
