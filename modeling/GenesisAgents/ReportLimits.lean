import GenesisAgents.MoneyReports
import Mathlib.Algebra.Order.BigOperators.Group.List

/-! The limits of the report tools: the 28 digits of a rounded ratio, and the 4300 digits of an integer
that is written. -/

namespace GenesisAgents.MoneyReports

open Value DecimalRounding

/-- An integer of at most 4300 digits. -/
def Fits (n : Int) : Prop := n.natAbs < 10 ^ maxStrDigits

theorem fits_zero : Fits 0 := Nat.pow_pos (by decide)

theorem fits_of_le (n m : Int) (positive : 0 ≤ n) (bounded : n ≤ m) (fits : Fits m) : Fits n := by
  have smaller : n.natAbs ≤ m.natAbs := by omega
  exact smaller.trans_lt fits

theorem fits_sub (n m : Int) (positive : 0 ≤ n) (positive' : 0 ≤ m) (fits : Fits n) (fits' : Fits m) :
    Fits (n - m) := by
  have smaller : (n - m).natAbs ≤ max n.natAbs m.natAbs := by omega
  exact smaller.trans_lt (max_lt fits fits')

theorem sum_sublist_le {α : Type} (amount : α → Int) (part rows : List α) (inside : part.Sublist rows)
    (amounts : ∀ row ∈ rows, 0 ≤ amount row) : (part.map amount).sum ≤ (rows.map amount).sum :=
  (inside.map amount).sum_le_sum (List.forall_mem_map.mpr amounts)

theorem sum_amounts_nonneg {α : Type} (amount : α → Int) (rows : List α)
    (amounts : ∀ row ∈ rows, 0 ≤ amount row) : 0 ≤ (rows.map amount).sum :=
  List.sum_nonneg (List.forall_mem_map.mpr amounts)

@[simp] theorem writable_int (n : Int) : writable (int n) = true ↔ Fits n := by
  rw [writable, decide_eq_true_iff, Fits, Nat.pow_eq]

theorem writableList_iff (xs : List Value) :
    writableList xs = true ↔ ∀ x ∈ xs, writable x = true := by
  induction xs with
  | nil => exact iff_of_true rfl fun x member => absurd member List.not_mem_nil
  | cons x rest later => rw [writableList, Bool.and_eq_true, later, List.forall_mem_cons]

theorem writableItems_iff (kvs : List (String × Value)) :
    writableItems kvs = true ↔ ∀ entry ∈ kvs, writable entry.2 = true := by
  induction kvs with
  | nil => exact iff_of_true rfl fun x member => absurd member List.not_mem_nil
  | cons entry rest later => rw [writableItems, Bool.and_eq_true, later, List.forall_mem_cons]

@[simp] theorem writable_list (xs : List Value) :
    writable (list xs) = true ↔ ∀ x ∈ xs, writable x = true := by
  rw [writable, writableList_iff]

@[simp] theorem writable_dict (kvs : List (String × Value)) :
    writable (dict kvs) = true ↔ ∀ entry ∈ kvs, writable entry.2 = true := by
  rw [writable, writableItems_iff]

theorem writable_str (s : String) : writable (str s) = true := rfl

theorem sha256Hex_ok_iff (R : Reporting) (v : Value) :
    (∃ checksum, sha256Hex R v = .ok checksum) ↔ writable v = true := by
  rw [sha256Hex, canonicalJson]
  cases writable v with
  | true => exact iff_of_true ⟨_, rfl⟩ rfl
  | false => exact iff_of_false (by rintro ⟨checksum, hashed⟩; contradiction) Bool.false_ne_true

theorem abs_signed (v magnitude : ℚ) (positive : 0 ≤ magnitude) :
    |if v < 0 then -magnitude else magnitude| = magnitude := by
  split
  · rw [abs_neg, abs_of_nonneg positive]
  · exact abs_of_nonneg positive

theorem decimalResult_abs (v r : ℚ) (rounded : decimalResult v = .ok r) :
    |r| = roundDigits precision |v| := by
  rw [decimalResult] at rounded
  by_cases large : (10 : ℚ) ^ (maxExponent + 1) ≤ roundDigits precision |v|
  · rw [if_pos large] at rounded
    contradiction
  · rw [if_neg large] at rounded
    rw [← Except.ok.inj rounded]
    exact abs_signed v _ (roundDigits_nonneg _ _ (abs_nonneg v))

theorem decimalResult_ok (v : ℚ) (k : ℕ) (room : k ≤ maxExponent) (below : |v| < 10 ^ k) :
    ∃ r, decimalResult v = .ok r := by
  have bound : roundDigits precision |v| ≤ 10 ^ k := by
    rcases (abs_nonneg v).eq_or_lt with zero | positive
    · rw [← zero, roundDigits_zero]
      positivity
    · have rounded := roundDigits_le precision |v| positive k (by rwa [zpow_natCast])
      rwa [zpow_natCast] at rounded
  have less : (10 : ℚ) ^ k < 10 ^ (maxExponent + 1) := pow_lt_pow_right₀ (by norm_num) (by omega)
  rw [decimalResult]
  exact ⟨_, if_neg (not_le.mpr (bound.trans_lt less))⟩

theorem quantize_ok_iff (v : ℚ) : (∃ n, quantize v = .ok n) ↔ halfEven |v| < 10 ^ precision := by
  rw [quantize]
  by_cases long : 10 ^ precision ≤ halfEven |v|
  · rw [if_pos long]
    exact iff_of_false (by rintro ⟨n, written⟩; contradiction) (not_lt.mpr long)
  · rw [if_neg long]
    exact iff_of_true ⟨_, rfl⟩ (not_le.mp long)

/-- A ratio is written as an integer exactly when it rounds to at most 28 digits. -/
theorem quotient_ok_iff (v : ℚ) :
    (∃ n, (decimalResult v >>= quantize) = .ok n) ↔ |v| < 10 ^ precision - 1 / 2 := by
  have digits := halfEven_roundDigits precision (by decide) |v| (abs_nonneg v)
  constructor
  · rintro ⟨n, written⟩
    rcases except_bind_ok _ _ _ written with ⟨r, rounded, whole⟩
    have short := (quantize_ok_iff r).mp ⟨n, whole⟩
    rw [decimalResult_abs v r rounded] at short
    exact not_le.mp fun long => not_le.mpr short (digits.mpr long)
  · intro short
    have below : |v| < 10 ^ precision := by linarith
    rcases decimalResult_ok v precision (by decide) below with ⟨r, rounded⟩
    have fits : halfEven |r| < 10 ^ precision := by
      rw [decimalResult_abs v r rounded]
      exact not_le.mp fun long => not_le.mpr short (digits.mp long)
    rcases (quantize_ok_iff r).mpr fits with ⟨n, whole⟩
    exact ⟨n, by rw [rounded]; exact whole⟩

theorem divideHalfEven_ok_iff (numerator denominator : Int) :
    (∃ n, divideHalfEven numerator denominator = .ok n) ↔
      denominator = 0 ∨ |(numerator : ℚ) / denominator| < 10 ^ precision - 1 / 2 := by
  rw [divideHalfEven]
  split
  · rename_i zero
    exact iff_of_true ⟨0, rfl⟩ (.inl zero)
  · rename_i nonzero
    rw [or_iff_right nonzero]
    exact quotient_ok_iff _

theorem basisPoints_ok_iff (numerator denominator : Int) (fits : Fits numerator) :
    (∃ n, basisPoints numerator denominator = .ok n) ↔ denominator = 0 ∨
      roundDigits precision |(numerator : ℚ) * 10000| / |(denominator : ℚ)| < 10 ^ precision - 1 / 2 := by
  rw [basisPoints]
  split
  · rename_i zero
    exact iff_of_true ⟨0, rfl⟩ (.inl zero)
  · rename_i nonzero
    have below : |(numerator : ℚ) * 10000| < 10 ^ (maxStrDigits + 4) := by
      have cast : |(numerator : ℚ)| < 10 ^ maxStrDigits := by
        rw [← Int.cast_abs, ← Nat.cast_natAbs]
        exact_mod_cast fits
      have four : |(10000 : ℚ)| = 10 ^ 4 := by norm_num
      rw [abs_mul, pow_add, four]
      exact mul_lt_mul_of_pos_right cast (by norm_num)
    rcases decimalResult_ok _ _ (by decide) below with ⟨product, rounded⟩
    have quotient : |product / denominator| =
        roundDigits precision |(numerator : ℚ) * 10000| / |(denominator : ℚ)| := by
      rw [abs_div, decimalResult_abs _ _ rounded]
    rw [or_iff_right nonzero, ← quotient, ← quotient_ok_iff, rounded]
    rfl

theorem quantize_small (v : ℚ) (n : Int) (whole : quantize v = .ok n) : n.natAbs < 10 ^ precision := by
  have short := (quantize_ok_iff v).mp ⟨n, whole⟩
  have positive : 0 ≤ halfEven |v| :=
    le_halfEven_of_le (by rw [Int.cast_zero]; exact abs_nonneg v)
  rw [quantize, if_neg (not_le.mpr short)] at whole
  rw [← Except.ok.inj whole]
  zify
  split
  · rwa [abs_neg, abs_of_nonneg positive]
  · rwa [abs_of_nonneg positive]

theorem fits_of_quantize (v : ℚ) (n : Int) (whole : quantize v = .ok n) : Fits n :=
  (quantize_small v n whole).trans_le (Nat.pow_le_pow_right (by decide) (by decide))

theorem basisPoints_fits (numerator denominator n : Int)
    (written : basisPoints numerator denominator = .ok n) : Fits n := by
  unfold basisPoints at written
  split at written
  · obtain rfl := Except.ok.inj written
    exact fits_zero
  · rcases except_bind_ok _ _ _ written with ⟨product, -, tail⟩
    rcases except_bind_ok _ _ _ tail with ⟨value, -, whole⟩
    exact fits_of_quantize value n whole

theorem divideHalfEven_fits (numerator denominator n : Int)
    (written : divideHalfEven numerator denominator = .ok n) : Fits n := by
  unfold divideHalfEven at written
  split at written
  · obtain rfl := Except.ok.inj written
    exact fits_zero
  · rcases except_bind_ok _ _ _ written with ⟨value, -, whole⟩
    exact fits_of_quantize value n whole

end GenesisAgents.MoneyReports
