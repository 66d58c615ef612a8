import Mathlib.Data.List.Basic

/-! Natural numbers as they are printed: their digits, and that different numbers are printed differently. -/

namespace DecimalText

theorem repr_inj (m n : Nat) (same : m.repr = n.repr) : m = n := by
  have digits := congrArg String.toList same
  rw [Nat.toList_repr, Nat.toList_repr] at digits
  have values := congrArg (Nat.ofDigitChars 10 · 0) digits
  simpa only [Nat.ofDigitChars_ten_toDigits] using values

theorem repr_digits (n : Nat) : ∀ c ∈ n.repr.toList, c.isDigit = true := by
  rw [Nat.toList_repr]
  exact fun c digit => Nat.isDigit_of_mem_toDigits (by decide) (by decide) digit

theorem repr_free (n : Nat) (c : Char) (other : c.isDigit = false) : c ∉ n.repr.toList := by
  intro member
  rw [repr_digits n c member] at other
  contradiction

theorem toDigits_starts (n : Nat) (positive : 0 < n) :
    ∃ c rest, Nat.toDigits 10 n = c :: rest ∧ c ≠ '0' := by
  induction n using Nat.strongRecOn with
  | ind n earlier =>
    by_cases small : n < 10
    · refine ⟨n.digitChar, [], Nat.toDigits_of_lt_base small, ?_⟩
      rw [Ne, Nat.digitChar_eq_zero]
      omega
    · obtain ⟨c, rest, starts, nonzero⟩ := earlier (n / 10) (by omega) (by omega)
      rw [Nat.toDigits_of_base_le (by decide) (by omega), starts]
      exact ⟨c, _, rfl, nonzero⟩

end DecimalText
