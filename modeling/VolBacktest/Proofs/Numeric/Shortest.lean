import VolBacktest.Numeric.Decimal
import VolBacktest.Proofs.Numeric.Rounding

/-!
# The shortest decimal reads back

Whatever tie is broken which way, the decimal that is chosen for a number is rounded to the number.
On the grids this is tested; if no grid of 17 digits had a hit, all digits would be written, and
those have the value of the number.
-/

namespace VolBacktest.Binary64

theorem readsBack_iff {x : Binary64} {decimal : Decimal} :
    x.readsBack decimal = true ↔
      ofDecimal x.negative decimal.digits decimal.exponent = some x := by
  rw [readsBack, beq_iff_eq]

theorem readsBack_of_nearestOnGrid {x : Binary64} {tie : Tie} {exponent : ℤ} {decimal : Decimal}
    (h : x.nearestOnGrid tie exponent = some decimal) : x.readsBack decimal = true := by
  simp only [nearestOnGrid] at h
  split at h
  next below above =>
    obtain rfl := Option.some.inj h
    split
    · exact below
    · exact above
  next below _ => exact Option.some.inj h ▸ below
  next _ above => exact Option.some.inj h ▸ above
  next => contradiction

/-- A negative power of two ends after that many decimal places. -/
theorem exactDecimal_value (x : Binary64) :
    (x.exactDecimal.digits : ℚ) * 10 ^ x.exactDecimal.exponent = x.magnitude := by
  simp only [exactDecimal, numerator, magnitude, Nat.shiftLeft_eq]
  obtain integral | fractional := le_or_gt 0 x.exponent
  · obtain ⟨k, shift⟩ := Int.eq_ofNat_of_zero_le integral
    simp [shift]
  · obtain ⟨k, shift⟩ : ∃ k : ℕ, x.exponent = -k := ⟨(-x.exponent).toNat, by omega⟩
    have lower : min (-(k : ℤ)) 0 = -k := by omega
    have ten : (10 : ℚ) ^ k = 5 ^ k * 2 ^ k := by rw [← mul_pow]; norm_num
    rw [shift, lower, neg_neg, Int.toNat_natCast, Int.toNat_neg_natCast, zpow_neg, zpow_neg,
      zpow_natCast, zpow_natCast, ten]
    push_cast [Nat.pow_eq]
    field_simp

theorem ofDecimal_shortestDecimal {x : Binary64} (nonzero : x.isZero = false) (tie : Tie) :
    ofDecimal x.negative (x.shortestDecimal tie).digits (x.shortestDecimal tie).exponent =
      some x := by
  simp only [shortestDecimal]
  cases found : ((List.range 17).map fun (n : ℕ) =>
      floorLog10 x.numerator x.denominator - (n : ℤ)).findSome? (x.nearestOnGrid tie) with
  | none => exact ofDecimal_eq_some nonzero x.exactDecimal_value
  | some decimal =>
      obtain ⟨exponent, -, hit⟩ := List.exists_of_findSome?_eq_some found
      exact readsBack_iff.mp (readsBack_of_nearestOnGrid hit)

/-- The decimal of a nonzero number is no zero. -/
theorem shortestDecimal_digits_pos {x : Binary64} (nonzero : x.isZero = false) (tie : Tie) :
    0 < (x.shortestDecimal tie).digits := by
  by_contra none
  have reads := ofDecimal_shortestDecimal nonzero tie
  rw [Nat.eq_zero_of_not_pos none, ofDecimal_zero, Option.some.injEq] at reads
  rw [← reads] at nonzero
  contradiction

end VolBacktest.Binary64
