import Mathlib.Algebra.Order.Field.Power
import Mathlib.Data.Int.Log
import Mathlib.Data.Rat.Floor
import Mathlib.Tactic.FieldSimp
import Mathlib.Tactic.Linarith
import Mathlib.Tactic.NormNum
import Mathlib.Tactic.Positivity
import VolBacktest.Numeric.Binary64

/-!
# Rounding to binary64

Rounding a decimal or a quotient to the nearest binary64 number depends on its value alone, and a
value that a binary64 number has is rounded to that number: `Binary64.ofDecimal_congr` and
`Binary64.ofDecimal_eq_some`. The two guards of `Binary64.ofDecimal`, which keep its integers small,
change no answer.
-/

namespace VolBacktest

/-- A power with an integer exponent as the quotient that exact integer arithmetic works with. -/
theorem zpow_eq_div_toNat {base : ℚ} (nonzero : base ≠ 0) (exponent : ℤ) :
    base ^ exponent = base ^ exponent.toNat / base ^ (-exponent).toNat := by
  rw [← zpow_natCast, ← zpow_natCast, ← zpow_sub₀ nonzero, Int.toNat_sub_toNat_neg]

/-! ### Quotients -/

theorem roundHalfEven_mul_left {factor : ℕ} (positive : 0 < factor) (num den : ℕ) :
    roundHalfEven (factor * num) (factor * den) = roundHalfEven num den := by
  have below : 2 * (factor * (num % den)) < factor * den ↔ 2 * (num % den) < den := by
    rw [Nat.mul_left_comm, Nat.mul_lt_mul_left positive]
  have above : factor * den < 2 * (factor * (num % den)) ↔ den < 2 * (num % den) := by
    rw [Nat.mul_left_comm, Nat.mul_lt_mul_left positive]
  simp only [roundHalfEven, Nat.mul_div_mul_left _ _ positive, Nat.mul_mod_mul_left, below, above]

theorem roundHalfEven_mul_self {den : ℕ} (positive : 0 < den) (n : ℕ) :
    roundHalfEven (n * den) den = n := by
  simp [roundHalfEven, Nat.mul_div_cancel n positive, positive]

theorem roundHalfEven_eq_zero {num den : ℕ} (small : 2 * num < den) :
    roundHalfEven num den = 0 := by
  have below : num < den := by omega
  simp [roundHalfEven, Nat.div_eq_of_lt below, Nat.mod_eq_of_lt below, small]

theorem log_eq_of_mem_binade {q : ℚ} {k : ℤ} (lower : (2 : ℚ) ^ k ≤ q) (upper : q < 2 ^ (k + 1)) :
    Int.log 2 q = k := by
  have positive : 0 < q := lt_of_lt_of_le (by positivity) lower
  have atLeast : k ≤ Int.log 2 q :=
    (Int.zpow_le_iff_le_log one_lt_two positive).mp (by exact_mod_cast lower)
  have below : Int.log 2 q < k + 1 :=
    (Int.lt_zpow_iff_log_lt one_lt_two positive).mp (by exact_mod_cast upper)
  omega

theorem shiftLeft_le_shiftLeft_iff {num den : ℕ} (positive : 0 < den) (k : ℤ) :
    den <<< k.toNat ≤ num <<< (-k).toNat ↔ (2 : ℚ) ^ k ≤ (num : ℚ) / den := by
  have den_pos : (0 : ℚ) < den := by exact_mod_cast positive
  rw [zpow_eq_div_toNat two_ne_zero, div_le_div_iff₀ (by positivity) den_pos,
    Nat.shiftLeft_eq, Nat.shiftLeft_eq, mul_comm den]
  exact_mod_cast Iff.rfl

theorem floorLog2_eq_log {num den : ℕ} (num_pos : 0 < num) (den_pos : 0 < den) :
    floorLog2 num den = Int.log 2 ((num : ℚ) / den) := by
  have num_lower : (2 : ℚ) ^ (num.log2 : ℤ) ≤ num := by
    exact_mod_cast Nat.log2_self_le num_pos.ne'
  have num_upper : (num : ℚ) < 2 ^ ((num.log2 : ℤ) + 1) := by
    exact_mod_cast Nat.lt_log2_self (n := num)
  have den_lower : (2 : ℚ) ^ (den.log2 : ℤ) ≤ den := by
    exact_mod_cast Nat.log2_self_le den_pos.ne'
  have den_upper : (den : ℚ) < 2 ^ ((den.log2 : ℤ) + 1) := by
    exact_mod_cast Nat.lt_log2_self (n := den)
  have den_cast : (0 : ℚ) < den := by exact_mod_cast den_pos
  set guess : ℤ := (num.log2 : ℤ) - (den.log2 : ℤ) with guess_eq
  have upper : (num : ℚ) / den < 2 ^ (guess + 1) := by
    rw [div_lt_iff₀ den_cast]
    calc (num : ℚ) < 2 ^ ((num.log2 : ℤ) + 1) := num_upper
      _ = 2 ^ (guess + 1) * 2 ^ (den.log2 : ℤ) := by
        rw [← zpow_add₀ two_ne_zero]
        congr 1
        omega
      _ ≤ 2 ^ (guess + 1) * den := by gcongr
  have lower : (2 : ℚ) ^ (guess - 1) ≤ (num : ℚ) / den := by
    rw [le_div_iff₀ den_cast]
    calc (2 : ℚ) ^ (guess - 1) * den ≤ 2 ^ (guess - 1) * 2 ^ ((den.log2 : ℤ) + 1) := by gcongr
      _ = 2 ^ (num.log2 : ℤ) := by
        rw [← zpow_add₀ two_ne_zero]
        congr 1
        omega
      _ ≤ num := num_lower
  simp only [floorLog2, shiftLeft_le_shiftLeft_iff den_pos]
  split
  next reached => exact (log_eq_of_mem_binade reached upper).symm
  next missed =>
    refine (log_eq_of_mem_binade lower ?_).symm
    rw [sub_add_cancel]
    exact not_le.mp missed

namespace Binary64

theorem ofRatio_mul_left {negative : Bool} {factor num den : ℕ} (factor_pos : 0 < factor)
    (num_pos : 0 < num) (den_pos : 0 < den) :
    ofRatio negative (factor * num) (factor * den) = ofRatio negative num den := by
  have same : floorLog2 (factor * num) (factor * den) = floorLog2 num den := by
    have nonzero : (factor : ℚ) ≠ 0 := by exact_mod_cast factor_pos.ne'
    rw [floorLog2_eq_log (Nat.mul_pos factor_pos num_pos) (Nat.mul_pos factor_pos den_pos),
      floorLog2_eq_log num_pos den_pos]
    push_cast
    rw [mul_div_mul_left _ _ nonzero]
  simp only [ofRatio, same, Nat.shiftLeft_eq, Nat.mul_assoc, roundHalfEven_mul_left factor_pos]

/-- Only the value of a quotient matters. -/
theorem ofRatio_congr {negative : Bool} {num den num' den' : ℕ} (num_pos : 0 < num)
    (den_pos : 0 < den) (num_pos' : 0 < num') (den_pos' : 0 < den')
    (same : (num : ℚ) / den = (num' : ℚ) / den') :
    ofRatio negative num den = ofRatio negative num' den' := by
  have cross : num * den' = num' * den := by
    have den_ne : (den : ℚ) ≠ 0 := by exact_mod_cast den_pos.ne'
    have den_ne' : (den' : ℚ) ≠ 0 := by exact_mod_cast den_pos'.ne'
    exact_mod_cast (div_eq_div_iff den_ne den_ne').mp same
  rw [← ofRatio_mul_left den_pos' num_pos den_pos, ← ofRatio_mul_left den_pos num_pos' den_pos',
    Nat.mul_comm den' num, cross, Nat.mul_comm num' den, Nat.mul_comm den' den]

/-! ### The value of a number -/

/-- What the number is, its sign apart. -/
def magnitude (x : Binary64) : ℚ := x.significand * 2 ^ x.exponent

theorem numerator_div_denominator (x : Binary64) :
    (x.numerator : ℚ) / x.denominator = x.magnitude := by
  rw [magnitude, zpow_eq_div_toNat two_ne_zero, numerator, denominator, Nat.shiftLeft_eq,
    Nat.shiftLeft_eq]
  push_cast
  rw [one_mul, mul_div_assoc]

theorem denominator_pos (x : Binary64) : 0 < x.denominator := by
  rw [denominator, Nat.shiftLeft_eq]
  positivity

theorem numerator_pos {x : Binary64} (nonzero : x.isZero = false) : 0 < x.numerator := by
  have positive : 0 < x.significand := by
    simp only [isZero, beq_eq_false_iff_ne] at nonzero
    omega
  rw [numerator, Nat.shiftLeft_eq]
  positivity

/-- The binade of a number, bounded below, gives back its exponent: its significand is either full
or at the smallest exponent. -/
theorem exponent_eq {x : Binary64} (nonzero : x.isZero = false) :
    max (-1074) (floorLog2 x.numerator x.denominator - 52) = x.exponent := by
  have significand_pos : 0 < x.significand := by
    simp only [isZero, beq_eq_false_iff_ne] at nonzero
    omega
  obtain ⟨below, atLeast, -, full⟩ := x.canonical
  rw [floorLog2_eq_log (numerator_pos nonzero) x.denominator_pos, numerator_div_denominator]
  have positive : 0 < x.magnitude := by
    rw [magnitude]
    positivity
  have upper : Int.log 2 x.magnitude < x.exponent + 53 := by
    rw [← Int.lt_zpow_iff_log_lt one_lt_two positive]
    calc x.magnitude < 2 ^ (53 : ℤ) * 2 ^ x.exponent := by
          rw [magnitude]
          gcongr
          exact_mod_cast below
      _ = 2 ^ (x.exponent + 53) := by rw [← zpow_add₀ two_ne_zero, add_comm]
  obtain full | smallest := full
  · have lower : x.exponent + 52 ≤ Int.log 2 x.magnitude := by
      rw [← Int.zpow_le_iff_le_log one_lt_two positive]
      calc (2 : ℚ) ^ (x.exponent + 52) = 2 ^ (52 : ℤ) * 2 ^ x.exponent := by
            rw [← zpow_add₀ two_ne_zero, add_comm]
        _ ≤ x.magnitude := by
            rw [magnitude]
            gcongr
            exact_mod_cast full
    omega
  · omega

/-- Rounding gives a number back from its own value. -/
theorem ofRatio_numerator_denominator {x : Binary64} (nonzero : x.isZero = false) :
    ofRatio x.negative x.numerator x.denominator = some x := by
  have exact : roundHalfEven (x.numerator <<< (-x.exponent).toNat)
      (x.denominator <<< x.exponent.toNat) = x.significand := by
    have scaled : x.numerator <<< (-x.exponent).toNat =
        x.significand * x.denominator <<< x.exponent.toNat := by
      simp only [numerator, denominator, Nat.shiftLeft_eq]
      ring
    rw [scaled]
    refine roundHalfEven_mul_self ?_ _
    rw [Nat.shiftLeft_eq]
    exact Nat.mul_pos x.denominator_pos (by positivity)
  have below := x.canonical.1
  simp only [ofRatio, exponent_eq nonzero, exact]
  rw [if_neg below.ne, ofParts, dif_pos x.canonical]

/-! ### Decimals -/

theorem ofRatio_eq_none {negative : Bool} {num den : ℕ} {k : ℤ} (num_pos : 0 < num)
    (den_pos : 0 < den) (large : 1024 ≤ k) (reached : (2 : ℚ) ^ k ≤ (num : ℚ) / den) :
    ofRatio negative num den = none := by
  have positive : (0 : ℚ) < (num : ℚ) / den := by positivity
  have binade : k ≤ floorLog2 num den := by
    rw [floorLog2_eq_log num_pos den_pos]
    exact (Int.zpow_le_iff_le_log one_lt_two positive).mp (by exact_mod_cast reached)
  have beyond (significand : ℕ) {exponent : ℤ} (h : 971 < exponent) :
      ofParts negative significand exponent = none := by
    rw [ofParts, dif_neg]
    rintro ⟨-, -, atMost, -⟩
    omega
  simp only [ofRatio]
  split
  · exact beyond _ (by omega)
  · exact beyond _ (by omega)

theorem ofRatio_eq_signedZero {negative : Bool} {num den : ℕ} (num_pos : 0 < num)
    (den_pos : 0 < den) (small : (num : ℚ) / den < 2 ^ (-1076 : ℤ)) :
    ofRatio negative num den = some (signedZero negative) := by
  have positive : (0 : ℚ) < (num : ℚ) / den := by positivity
  have binade : floorLog2 num den < -1076 := by
    rw [floorLog2_eq_log num_pos den_pos]
    exact (Int.lt_zpow_iff_log_lt one_lt_two positive).mp (by exact_mod_cast small)
  have exponent : max (-1074) (floorLog2 num den - 52) = -1074 := by omega
  have vanishes :
      roundHalfEven (num <<< (-(-1074) : ℤ).toNat) (den <<< (-1074 : ℤ).toNat) = 0 := by
    refine roundHalfEven_eq_zero ?_
    change 2 * num <<< 1074 < den <<< 0
    have den_cast : (0 : ℚ) < den := by exact_mod_cast den_pos
    rw [div_lt_iff₀ den_cast, zpow_neg, inv_mul_eq_div, lt_div_iff₀ (by positivity)] at small
    have scaled : num * 2 ^ 1076 < den := by exact_mod_cast small
    rw [Nat.shiftLeft_eq, Nat.shiftLeft_zero]
    calc 2 * (num * 2 ^ 1074) ≤ num * 2 ^ 1076 := by
          rw [show 1076 = 1074 + 2 from rfl, pow_add]
          omega
      _ < den := scaled
  simp only [ofRatio, exponent, vanishes]
  rfl

theorem decimal_eq_div {significand : ℕ} {exponent : ℤ} :
    (significand : ℚ) * 10 ^ exponent =
      ((significand * 10 ^ exponent.toNat : ℕ) : ℚ) / (10 ^ (-exponent).toNat : ℕ) := by
  rw [zpow_eq_div_toNat (by norm_num)]
  push_cast
  rw [mul_div_assoc]

/-- Multiples of this power of ten are beyond the largest number. -/
theorem two_zpow_le_ten_zpow : (2 : ℚ) ^ (1024 : ℤ) ≤ 10 ^ (310 : ℤ) := by
  have part : (2 : ℚ) ^ 93 ≤ 10 ^ 28 := by norm_num
  calc (2 : ℚ) ^ (1024 : ℤ) = 2 * (2 ^ 93) ^ 11 := by
        rw [← pow_mul, ← pow_succ']
        rfl
    _ ≤ 10 ^ 2 * (10 ^ 28) ^ 11 := by
        gcongr
        norm_num
    _ = 10 ^ (310 : ℤ) := by
        rw [← pow_mul, ← pow_add]
        rfl

/-- Where the guards answer early, rounding has the same answer. -/
theorem ofDecimal_eq_ofRatio {negative : Bool} {significand : ℕ} {exponent : ℤ}
    (positive : 0 < significand) :
    ofDecimal negative significand exponent =
      ofRatio negative (significand * 10 ^ exponent.toNat) (10 ^ (-exponent).toNat) := by
  have num_pos : 0 < significand * 10 ^ exponent.toNat := by positivity
  have den_pos : 0 < 10 ^ (-exponent).toNat := by positivity
  rw [ofDecimal, if_neg positive.ne']
  split
  next large =>
    refine (ofRatio_eq_none num_pos den_pos (le_refl 1024) ?_).symm
    rw [← decimal_eq_div]
    calc (2 : ℚ) ^ (1024 : ℤ) ≤ 10 ^ (310 : ℤ) := two_zpow_le_ten_zpow
      _ ≤ 10 ^ exponent := zpow_le_zpow_right₀ (by norm_num) large
      _ ≤ significand * 10 ^ exponent :=
        le_mul_of_one_le_left (by positivity) (by exact_mod_cast positive)
  next =>
    split
    next small =>
      refine (ofRatio_eq_signedZero num_pos den_pos ?_).symm
      have upper : (significand : ℚ) < 2 ^ ((significand.log2 : ℤ) + 1) := by
        exact_mod_cast Nat.lt_log2_self (n := significand)
      have power : (10 : ℚ) ^ exponent ≤ 2 ^ (3 * exponent) := by
        obtain ⟨k, rfl⟩ : ∃ k : ℕ, exponent = -k := ⟨(-exponent).toNat, by omega⟩
        have eight : (2 : ℚ) ^ (3 : ℤ) ≤ 10 := by norm_num
        rw [zpow_mul, zpow_neg, zpow_neg, zpow_natCast, zpow_natCast]
        gcongr
      rw [← decimal_eq_div]
      calc (significand : ℚ) * 10 ^ exponent
            ≤ 2 ^ ((significand.log2 : ℤ) + 1) * 2 ^ (3 * exponent) := by gcongr
        _ = 2 ^ ((significand.log2 : ℤ) + 1 + 3 * exponent) := by rw [← zpow_add₀ two_ne_zero]
        _ < 2 ^ (-1076 : ℤ) := zpow_lt_zpow_right₀ (by norm_num) small
    next => rfl

/-- Only the value of a decimal matters, and the sign if it is zero. -/
theorem ofDecimal_congr {negative : Bool} {significand significand' : ℕ} {exponent exponent' : ℤ}
    (same : (significand : ℚ) * 10 ^ exponent = significand' * 10 ^ exponent') :
    ofDecimal negative significand exponent = ofDecimal negative significand' exponent' := by
  have power_ne (k : ℤ) : (10 : ℚ) ^ k ≠ 0 := by positivity
  obtain rfl | positive := Nat.eq_zero_or_pos significand
  · have zero : significand' = 0 := by
      simpa [power_ne] using same.symm
    rw [zero, ofDecimal_zero, ofDecimal_zero]
  · have positive' : 0 < significand' := by
      have left_pos : (0 : ℚ) < significand * 10 ^ exponent := by positivity
      rw [same] at left_pos
      exact_mod_cast pos_of_mul_pos_left left_pos (by positivity)
    rw [ofDecimal_eq_ofRatio positive, ofDecimal_eq_ofRatio positive']
    refine ofRatio_congr (by positivity) (by positivity) (by positivity) (by positivity) ?_
    rw [← decimal_eq_div, ← decimal_eq_div, same]

/-- A decimal with the value of a number is rounded to the number. -/
theorem ofDecimal_eq_some {x : Binary64} (nonzero : x.isZero = false) {significand : ℕ}
    {exponent : ℤ} (same : (significand : ℚ) * 10 ^ exponent = x.magnitude) :
    ofDecimal x.negative significand exponent = some x := by
  have magnitude_pos : (0 : ℚ) < x.magnitude := by
    have num_pos := numerator_pos nonzero
    have den_pos := x.denominator_pos
    rw [← numerator_div_denominator]
    positivity
  have positive : 0 < significand := by
    rw [← same] at magnitude_pos
    exact_mod_cast pos_of_mul_pos_left magnitude_pos (by positivity)
  rw [ofDecimal_eq_ofRatio positive, ← ofRatio_numerator_denominator nonzero]
  refine ofRatio_congr (by positivity) (by positivity) (numerator_pos nonzero) x.denominator_pos ?_
  rw [← decimal_eq_div, same, numerator_div_denominator]

end Binary64

end VolBacktest
