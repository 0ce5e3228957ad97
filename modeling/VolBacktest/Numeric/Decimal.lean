import VolBacktest.Numeric.Binary64

/-!
# The shortest decimal of a number

A number is written with the fewest digits that read back to it. For 1, 2, … 17 digits the two
neighbours of its magnitude on that decimal grid are tried; the first grid on which one of them
reads back gives the digits, and of two that do the nearer one is taken. Only the way of breaking
an exact tie and the layout around the digits differ between the places a number is written in,
and a `NumberStyle` holds those.
-/

namespace VolBacktest

/-- Which of two equally near decimals is taken. -/
inductive Tie where
  | toEven
  | up
deriving DecidableEq

/-- The decimal `digits * 10 ^ exponent`. -/
structure Decimal where
  digits : Nat
  exponent : Int
deriving DecidableEq

/-- The largest `k` with `10 ^ k ≤ num / den`, for a positive quotient. -/
def floorLog10 (num den : Nat) : Int :=
  let guess : Int := ((Nat.toDigits 10 num).length : Int) - ((Nat.toDigits 10 den).length : Int)
  if den * Nat.pow 10 guess.toNat ≤ num * Nat.pow 10 (-guess).toNat then guess else guess - 1

namespace Binary64

/-- Whether the decimal, under the sign of `x`, is read as `x`. -/
def readsBack (x : Binary64) (decimal : Decimal) : Bool :=
  ofDecimal x.negative decimal.digits decimal.exponent == some x

/-- The better of the two neighbours of `x` on the grid of multiples of `10 ^ exponent`, among those
that read back. -/
def nearestOnGrid (x : Binary64) (tie : Tie) (exponent : Int) : Option Decimal :=
  let num := x.numerator * Nat.pow 10 (-exponent).toNat
  let den := x.denominator * Nat.pow 10 exponent.toNat
  let below : Decimal := ⟨num / den, exponent⟩
  let above : Decimal := ⟨num / den + 1, exponent⟩
  let twice := 2 * (num % den)
  let downward := twice < den ∨ twice = den ∧ tie = .toEven ∧ below.digits % 2 = 0
  match x.readsBack below, x.readsBack above with
  | true, true => some (if downward then below else above)
  | true, false => some below
  | false, true => some above
  | false, false => none

/-- All digits of `x`: a binary fraction ends in the decimal system too. -/
def exactDecimal (x : Binary64) : Decimal where
  digits := x.numerator * Nat.pow 5 (-x.exponent).toNat
  exponent := min x.exponent 0

/-- The decimal with the fewest digits that reads back to a nonzero `x`. -/
def shortestDecimal (x : Binary64) (tie : Tie) : Decimal :=
  let leading := floorLog10 x.numerator x.denominator
  let grids := (List.range 17).map fun (n : Nat) => leading - (n : Int)
  (grids.findSome? (x.nearestOnGrid tie)).getD x.exactDecimal

end Binary64

/-- How a number is laid out. -/
structure NumberStyle where
  tie : Tie
  /-- Whether a number whose first digit stands at this power of ten is written without exponent. -/
  positional : Int → Bool
  /-- Whether an integral number keeps `.0`. -/
  keepsPoint : Bool

namespace NumberStyle

/-- Digits around a point, the first at the power of ten `leading`. -/
def placed (style : NumberStyle) (digits : List Char) (leading : Int) : List Char :=
  let fraction := if style.keepsPoint then ['.', '0'] else []
  if leading < 0 then
    '0' :: '.' :: (List.replicate (-leading - 1).toNat '0' ++ digits)
  else
    let whole := leading.toNat + 1
    if digits.length ≤ whole then
      digits ++ List.replicate (whole - digits.length) '0' ++ fraction
    else
      digits.take whole ++ '.' :: digits.drop whole

/-- Digits with a point after the first, and the power of ten with its sign. -/
def scientific (digits : List Char) (leading : Int) : List Char :=
  let mantissa := match digits with
    | first :: second :: rest => first :: '.' :: second :: rest
    | few => few
  mantissa ++ 'e' :: (if leading < 0 then '-' else '+') :: Nat.toDigits 10 leading.natAbs

/-- The magnitude of a nonzero number from its digits; zeros at their end carry nothing. -/
def magnitude (style : NumberStyle) (decimal : Decimal) : List Char :=
  let written := Nat.toDigits 10 decimal.digits
  let leading := decimal.exponent + (written.length : Int) - 1
  let digits := (written.reverse.dropWhile (· == '0')).reverse
  if style.positional leading then style.placed digits leading else scientific digits leading

def render (style : NumberStyle) (x : Binary64) : List Char :=
  let unsigned :=
    if x.isZero then style.placed ['0'] 0 else style.magnitude (x.shortestDecimal style.tie)
  if x.negative then '-' :: unsigned else unsigned

end NumberStyle

end VolBacktest
