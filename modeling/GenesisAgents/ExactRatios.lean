import GenesisAgents.ReportLimits

/-! When the ratios of the report tools are exactly rounded: they are rounded to 28 digits before they are
rounded to an integer. -/

namespace GenesisAgents.MoneyReports

open DecimalRounding

/-- A magnitude that is computed as `q` is rounded to the same integer as `m`: at the ties that 28 digits
do not tell from `q`, and at the others. -/
structure RoundsAs (q m : ℚ) : Prop where
  short : q < 10 ^ precision - 1 / 2
  blurred : ∀ k : ℤ, Blurs precision q k → (Odd k ↔ Passes m k)
  apart : ∀ k : ℤ, ¬Blurs precision q k → (Passes q k ↔ Passes m k)

theorem halfEven_eq_iff_passes (p q : ℚ) : halfEven p = halfEven q ↔ ∀ k, Passes p k ↔ Passes q k := by
  simp only [← lt_halfEven_iff]
  refine ⟨fun same k => by rw [same], fun ties => ?_⟩
  exact eq_of_forall_lt_iff ties

theorem roundsAs_iff (q m : ℚ) (positive : 0 ≤ q) : RoundsAs q m ↔
    q < 10 ^ precision - 1 / 2 ∧ halfEven (roundDigits precision q) = halfEven m := by
  have rounded (short : q < 10 ^ precision - 1 / 2) :=
    passes_roundDigits precision (by decide) q positive (by linarith)
  rw [halfEven_eq_iff_passes]
  constructor
  · rintro ⟨short, blurred, apart⟩
    refine ⟨short, fun k => (rounded short k).trans ?_⟩
    by_cases blurs : Blurs precision q k
    · simpa [blurs] using blurred k blurs
    · simpa [blurs] using apart k blurs
  · rintro ⟨short, ties⟩
    have passed (k : ℤ) := (rounded short k).symm.trans (ties k)
    exact ⟨short, fun k blurs => by simpa [blurs] using passed k,
      fun k clear => by simpa [clear] using passed k⟩

theorem signed_halfEven (v : ℚ) : (if v < 0 then -halfEven |v| else halfEven |v|) = halfEven v := by
  split
  · rename_i negative
    rw [abs_of_neg negative, halfEven_neg, neg_neg]
  · rename_i positive
    rw [abs_of_nonneg (not_lt.mp positive)]

theorem quantize_eq_ok (v : ℚ) (n : ℤ) (written : quantize v = .ok n) : n = halfEven v := by
  rw [quantize] at written
  by_cases long : 10 ^ precision ≤ halfEven |v|
  · rw [if_pos long] at written
    contradiction
  · rw [if_neg long] at written
    rw [← Except.ok.inj written, signed_halfEven]

theorem halfEven_abs (v : ℚ) : halfEven |v| = |halfEven v| := by
  have positive : 0 ≤ halfEven |v| :=
    le_halfEven_of_le (by rw [Int.cast_zero]; exact abs_nonneg v)
  rw [← signed_halfEven v]
  split
  · rw [abs_neg, abs_of_nonneg positive]
  · rw [abs_of_nonneg positive]

theorem decimalResult_eq_ok (v r : ℚ) (rounded : decimalResult v = .ok r) :
    r = if v < 0 then -roundDigits precision |v| else roundDigits precision |v| := by
  rw [decimalResult] at rounded
  by_cases large : (10 : ℚ) ^ (maxExponent + 1) ≤ roundDigits precision |v|
  · rw [if_pos large] at rounded
    contradiction
  · rw [if_neg large] at rounded
    exact (Except.ok.inj rounded).symm

theorem quotient_eq_iff (q m : ℚ) (sign : q < 0 ↔ m < 0) :
    (decimalResult q >>= quantize) = .ok (halfEven m) ↔ RoundsAs |q| |m| := by
  rw [roundsAs_iff _ _ (abs_nonneg q), ← quotient_ok_iff]
  constructor
  · intro written
    refine ⟨⟨_, written⟩, ?_⟩
    rcases except_bind_ok _ _ _ written with ⟨r, rounded, whole⟩
    rw [← decimalResult_abs q r rounded, halfEven_abs, halfEven_abs, quantize_eq_ok r _ whole]
  · rintro ⟨⟨n, written⟩, same⟩
    rw [written]
    rcases except_bind_ok _ _ _ written with ⟨r, rounded, whole⟩
    rw [quantize_eq_ok r n whole, decimalResult_eq_ok q r rounded, ← signed_halfEven m]
    by_cases negative : q < 0
    · rw [if_pos negative, if_pos (sign.mp negative), halfEven_neg, same]
    · rw [if_neg negative, if_neg (fun below => negative (sign.mpr below)), same]

/-- The average of a total is the exact one. -/
theorem divideHalfEven_eq_iff (numerator denominator : Int) (nonzero : denominator ≠ 0) :
    divideHalfEven numerator denominator = .ok (halfEven ((numerator : ℚ) / denominator)) ↔
      RoundsAs |(numerator : ℚ) / denominator| |(numerator : ℚ) / denominator| := by
  rw [divideHalfEven, if_neg nonzero]
  exact quotient_eq_iff _ _ Iff.rfl

theorem basisPoints_eq_iff (numerator denominator : Int) (nonzero : denominator ≠ 0) :
    basisPoints numerator denominator = .ok (halfEven ((numerator : ℚ) * 10000 / denominator)) ↔
      roundDigits precision |(numerator : ℚ) * 10000| < 10 ^ (maxExponent + 1) ∧
        RoundsAs (roundDigits precision |(numerator : ℚ) * 10000| / |(denominator : ℚ)|)
          |(numerator : ℚ) * 10000 / denominator| := by
  rw [basisPoints, if_neg nonzero]
  by_cases large : (10 : ℚ) ^ (maxExponent + 1) ≤ roundDigits precision |(numerator : ℚ) * 10000|
  · rw [decimalResult, if_pos large]
    refine iff_of_false ?_ fun both => not_lt.mpr large both.1
    intro written
    cases written
  · have rounded : decimalResult ((numerator : ℚ) * 10000) = .ok _ := if_neg large
    have sign : (if (numerator : ℚ) * 10000 < 0 then -roundDigits precision |(numerator : ℚ) * 10000|
        else roundDigits precision |(numerator : ℚ) * 10000|) / (denominator : ℚ) < 0 ↔
        (numerator : ℚ) * 10000 / denominator < 0 := by
      rcases lt_trichotomy ((numerator : ℚ) * 10000) 0 with negative | zero | positive
      · have product := roundDigits_pos precision (by decide) _ (abs_pos_of_neg negative)
        rw [if_pos negative, div_neg_iff, div_neg_iff]
        generalize roundDigits precision _ = magnitude at product
        simp only [Left.neg_neg_iff, Left.neg_pos_iff, product, product.not_gt, negative, negative.not_gt]
      · rw [zero, if_neg (lt_irrefl 0), abs_zero, roundDigits_zero]
      · have product := roundDigits_pos precision (by decide) _ (abs_pos_of_pos positive)
        rw [if_neg positive.not_gt, div_neg_iff, div_neg_iff]
        generalize roundDigits precision _ = magnitude at product
        simp only [product, product.not_gt, positive, positive.not_gt]
    have quotient := quotient_eq_iff _ _ sign
    rw [abs_div, abs_signed _ _ (roundDigits_nonneg _ _ (abs_nonneg _))] at quotient
    rw [and_iff_right (not_le.mp large), ← quotient, rounded]
    rfl

/-- A ratio with a numerator of at most 26 digits is rounded once. -/
theorem roundsAs_small (n d : ℤ) (positive : 0 ≤ n) (divisor : 0 < d) (small : n < 10 ^ 27) :
    RoundsAs ((n : ℚ) / d) (n / d) := by
  have small' : (n : ℚ) < 10 ^ 27 := by exact_mod_cast small
  refine ⟨?_, fun k blurs => ?_, fun k clear => Iff.rfl⟩
  · have cast : (0 : ℚ) ≤ n := by exact_mod_cast positive
    have most : (n : ℚ) / d ≤ n := div_le_self cast (Int.cast_one_le_of_pos divisor)
    rw [precision]
    linarith
  · have tie := eq_of_blurs precision n d positive divisor (by rw [precision]; linarith) k blurs
    rw [Passes, tie]
    simp

theorem basisPoints_small (numerator denominator : Int) (nonzero : denominator ≠ 0)
    (small : |numerator| < 10 ^ 23) :
    basisPoints numerator denominator = .ok (halfEven ((numerator : ℚ) * 10000 / denominator)) := by
  have product : |(numerator : ℚ) * 10000| = ((|numerator| * 10000 : ℤ) : ℚ) := by
    rw [abs_mul, abs_of_pos (by norm_num : (0 : ℚ) < 10000)]
    push_cast
    rfl
  have bound : ((|numerator| * 10000 : ℤ) : ℚ) < 10 ^ 27 := by
    have below : |numerator| * 10000 < 10 ^ 27 := by omega
    exact_mod_cast below
  have whole : roundDigits precision ((|numerator| * 10000 : ℤ) : ℚ) = (|numerator| * 10000 : ℤ) := by
    refine roundDigits_intCast precision (by decide) _ (by positivity) ?_
    rw [precision]
    linarith
  rw [basisPoints_eq_iff _ _ nonzero, abs_div, product, whole, ← Int.cast_abs]
  refine ⟨?_, roundsAs_small _ _ (by positivity) (abs_pos.mpr nonzero) (by omega)⟩
  refine bound.trans (pow_lt_pow_right₀ (by norm_num) (by decide))

theorem divideHalfEven_small (numerator denominator : Int) (nonzero : denominator ≠ 0)
    (small : |numerator| < 10 ^ 27) :
    divideHalfEven numerator denominator = .ok (halfEven ((numerator : ℚ) / denominator)) := by
  rw [divideHalfEven_eq_iff _ _ nonzero, abs_div, ← Int.cast_abs, ← Int.cast_abs]
  exact roundsAs_small _ _ (abs_nonneg _) (abs_pos.mpr nonzero) small

/-- Basis points and averages are exact and never fail. -/
theorem ratios_exact_iff (numerator denominator : Int) (nonzero : denominator ≠ 0) :
    (basisPoints numerator denominator = .ok (halfEven ((numerator : ℚ) * 10000 / denominator)) ∧
      divideHalfEven numerator denominator = .ok (halfEven ((numerator : ℚ) / denominator))) ↔
    (roundDigits precision |(numerator : ℚ) * 10000| < 10 ^ (maxExponent + 1) ∧
      RoundsAs (roundDigits precision |(numerator : ℚ) * 10000| / |(denominator : ℚ)|)
        |(numerator : ℚ) * 10000 / denominator|) ∧
    RoundsAs |(numerator : ℚ) / denominator| |(numerator : ℚ) / denominator| :=
  and_congr (basisPoints_eq_iff numerator denominator nonzero)
    (divideHalfEven_eq_iff numerator denominator nonzero)

theorem ratios_exact_third :
    (basisPoints 1 3 = .ok (halfEven (((1 : Int) : ℚ) * 10000 / (3 : Int))) ∧
      divideHalfEven 1 3 = .ok (halfEven (((1 : Int) : ℚ) / (3 : Int)))) := by
  refine (ratios_exact_iff 1 3 (by decide)).mpr ⟨?_, ?_⟩
  · exact (basisPoints_eq_iff 1 3 (by decide)).mp (basisPoints_small 1 3 (by decide) (by decide))
  · exact (divideHalfEven_eq_iff 1 3 (by decide)).mp (divideHalfEven_small 1 3 (by decide) (by decide))

/-- A ratio just above a half is a half in 28 digits. -/
theorem half_blurred : Blurs precision |((5 * 10 ^ 29 + 1 : Int) : ℚ) / (10 ^ 30 : Int)| 0 := by
  have log : Int.log 10 |((5 * 10 ^ 29 + 1 : Int) : ℚ) / (10 ^ 30 : Int)| = -1 := by
    refine le_antisymm (Int.lt_add_one_iff.mp ((Int.lt_zpow_iff_log_lt (by decide) ?_).mp ?_))
      ((Int.zpow_le_iff_le_log (by decide) ?_).mp ?_) <;> norm_num
  rw [Blurs, unit, log, precision]
  norm_num [abs_lt]

theorem near_half_not_exact :
    ¬(basisPoints (5 * 10 ^ 29 + 1) (10 ^ 30) =
        .ok (halfEven (((5 * 10 ^ 29 + 1 : Int) : ℚ) * 10000 / (10 ^ 30 : Int))) ∧
      divideHalfEven (5 * 10 ^ 29 + 1) (10 ^ 30) =
        .ok (halfEven (((5 * 10 ^ 29 + 1 : Int) : ℚ) / (10 ^ 30 : Int)))) := by
  rintro ⟨-, average⟩
  have passed := ((divideHalfEven_eq_iff _ _ (by decide)).mp average).blurred 0 half_blurred
  have more : Passes |((5 * 10 ^ 29 + 1 : Int) : ℚ) / (10 ^ 30 : Int)| 0 := by
    left
    norm_num
  exact absurd (passed.mpr more) (by decide)

end GenesisAgents.MoneyReports
