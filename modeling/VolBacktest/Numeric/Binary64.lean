/-!
# Finite binary64 numbers

Levels, quantities and measured values are binary64 numbers, and all that is ever done with them is
to read them from a decimal, to write them, and to compare them with zero. The type below therefore
holds the number itself, as a sign and a significand times a power of two in its one canonical form,
and no machine word. Two numbers are equal exactly if sign, significand and exponent agree, so the
two zeros stay apart.

Infinities and what is not a number are left out. No text holds them, so nothing that has been read has
any. Where strategies, results or engines are put together in some other way, all their numbers are
taken to be finite.

`Binary64.ofDecimal` rounds a decimal to the nearest number, a half to the even neighbour. It works
in exact integer arithmetic and answers `none` beyond the largest finite number. A reader that scales
the digits by a power of ten in binary64 arithmetic can be off by a last place where there are many
digits or the power is large. This one stands for any reader that reads numbers back as they were
written, which is the assumption `Number.ReadsBack` on numbers in JSON.
-/

namespace VolBacktest

/-- The quotient `num / den` rounded to the nearest integer, a half to the even neighbour. -/
def roundHalfEven (num den : Nat) : Nat :=
  let quotient := num / den
  let twice := 2 * (num % den)
  if twice < den then quotient
  else if den < twice then quotient + 1
  else quotient + quotient % 2

/-- The largest `k` with `2 ^ k ≤ num / den`, for a positive quotient. -/
def floorLog2 (num den : Nat) : Int :=
  let guess : Int := (num.log2 : Int) - (den.log2 : Int)
  if den <<< guess.toNat ≤ num <<< (-guess).toNat then guess else guess - 1

namespace Binary64

/-- Each magnitude is written in one way only: the significand fills its 53 bits unless the exponent
is already the smallest. -/
def Canonical (significand : Nat) (exponent : Int) : Prop :=
  significand < 1 <<< 53 ∧ -1074 ≤ exponent ∧ exponent ≤ 971 ∧
    (1 <<< 52 ≤ significand ∨ exponent = -1074)

instance (significand : Nat) (exponent : Int) : Decidable (Canonical significand exponent) :=
  inferInstanceAs (Decidable (_ ∧ _ ∧ _ ∧ _))

end Binary64

/-- The finite number `± significand * 2 ^ exponent`. -/
structure Binary64 where
  negative : Bool
  significand : Nat
  exponent : Int
  canonical : Binary64.Canonical significand exponent
deriving DecidableEq

namespace Binary64

/-- The zero of the given sign. -/
def signedZero (negative : Bool) : Binary64 where
  negative := negative
  significand := 0
  exponent := -1074
  canonical := by decide

def zero : Binary64 := signedZero false

instance : Inhabited Binary64 := ⟨zero⟩

/-- Numerical comparison with zero: both zeros are zero. -/
def isZero (x : Binary64) : Bool := x.significand == 0

@[simp] theorem isZero_signedZero (negative : Bool) : (signedZero negative).isZero = true := rfl

@[simp] theorem isZero_zero : zero.isZero = true := rfl

/-- A magnitude of zero leaves only the exponent of the zeros. -/
theorem isZero_iff {x : Binary64} :
    x.isZero = true ↔ ∃ negative, x = signedZero negative := by
  constructor
  · intro zero
    obtain ⟨negative, significand, exponent, canonical⟩ := x
    obtain rfl : significand = 0 := by simpa [isZero] using zero
    obtain ⟨-, -, -, full | rfl⟩ := canonical
    · exact absurd full (by decide)
    · exact ⟨negative, rfl⟩
  · rintro ⟨negative, rfl⟩
    rfl

/-- The magnitude as a quotient of two integers. -/
def numerator (x : Binary64) : Nat := x.significand <<< x.exponent.toNat

@[inherit_doc numerator]
def denominator (x : Binary64) : Nat := 1 <<< (-x.exponent).toNat

/-- The number with these parts, if they are canonical. -/
def ofParts (negative : Bool) (significand : Nat) (exponent : Int) : Option Binary64 :=
  if h : Canonical significand exponent then some ⟨negative, significand, exponent, h⟩ else none

/-- The number nearest to `± num / den`; `none` if that is beyond the largest finite number. A
significand that rounds up to 53 full bits and one more is the next power of two. -/
def ofRatio (negative : Bool) (num den : Nat) : Option Binary64 :=
  let exponent := max (-1074) (floorLog2 num den - 52)
  let significand := roundHalfEven (num <<< (-exponent).toNat) (den <<< exponent.toNat)
  if significand = 1 <<< 53 then ofParts negative (1 <<< 52) (exponent + 1)
  else ofParts negative significand exponent

/-- The number nearest to `± significand * 10 ^ exponent`. The two guards keep the arithmetic
small: a nonzero multiple of `10 ^ 310` is always too large, and a decimal below `2 ^ (-1076)` is
nearest to zero, which `10 ^ exponent ≤ 2 ^ (3 * exponent)` for negative exponents detects early
enough. -/
def ofDecimal (negative : Bool) (significand : Nat) (exponent : Int) : Option Binary64 :=
  if significand = 0 then some (signedZero negative)
  else if 310 ≤ exponent then none
  else if (significand.log2 : Int) + 1 + 3 * exponent < -1076 then some (signedZero negative)
  else ofRatio negative (significand * Nat.pow 10 exponent.toNat) (Nat.pow 10 (-exponent).toNat)

@[simp] theorem ofDecimal_zero (negative : Bool) (exponent : Int) :
    ofDecimal negative 0 exponent = some (signedZero negative) := rfl

end Binary64

end VolBacktest
