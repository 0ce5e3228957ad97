import Mathlib.Data.List.TakeWhile
import VolBacktest.Json.Numeral
import VolBacktest.Json.Writer
import VolBacktest.Proofs.Numeric.Shortest
import VolBacktest.Proofs.Text.Digits

/-!
# Numbers read back

Every number that is written is scanned as one numeral, whatever follows it that cannot continue a
numeral, and the numeral denotes the number: `Number.scan_numeral` and `Number.readsBack`. The
layouts differ in where the point stands and in the zeros around the digits; the value that they
spell out is always that of the digits.

All that later modules know of how decimals are rounded is `Number.ReadsBack`. A reader that rounds
otherwise, and yet reads a number back from the digits that are written for it, could take the place
of the one here.
-/

namespace VolBacktest

open Text

namespace Json.Numeral

/-- The text goes on with nothing that belongs to a numeral. -/
def Ends (rest : List Char) : Prop :=
  ∀ c ∈ rest.head?, c.isDigit = false ∧ c ≠ '.' ∧ c ≠ 'e' ∧ c ≠ 'E'

theorem Ends.endsDigits {rest : List Char} (ends : Ends rest) : EndsDigits rest :=
  fun c first => (ends c first).1

/-- Digits of a number without zeros before it. -/
structure Significant (digits : List Char) : Prop where
  run : Digits digits
  first : ∃ c rest, digits = c :: rest ∧ c ≠ '0'

theorem significant_toDigits {n : Nat} (positive : 0 < n) : Significant (Nat.toDigits 10 n) := by
  refine ⟨digits_toDigits n, ?_⟩
  induction n using Nat.strongRecOn with
  | ind n ih =>
    rw [Nat.toDigits_eq_if (by decide)]
    split
    next small =>
      have nonzero : ∀ digit < 10, 0 < digit → Nat.digitChar digit ≠ '0' := by decide
      exact ⟨Nat.digitChar n, [], rfl, nonzero n small positive⟩
    next large =>
      obtain ⟨c, rest, split, nonzero⟩ := ih (n / 10) (by omega) (by omega)
      exact ⟨c, rest ++ [Nat.digitChar (n % 10)], by rw [split]; rfl, nonzero⟩

/-! ### Scanning -/

theorem splitDigits_append {digits rest : List Char} (run : Digits digits)
    (ends : EndsDigits rest) : splitDigits (digits ++ rest) = (digits, rest) := by
  rw [splitDigits, run.takeWhile_append ends, run.dropWhile_append ends]

theorem scanDigits_append {digits rest : List Char} (nonempty : digits ≠ []) (run : Digits digits)
    (ends : EndsDigits rest) : scanDigits (digits ++ rest) = .ok (digits, rest) := by
  simp [scanDigits, splitDigits_append run ends, nonempty]

theorem scanWhole_append {digits rest : List Char} (run : Significant digits ∨ digits = ['0'])
    (ends : EndsDigits rest) : scanWhole (digits ++ rest) = .ok (digits, rest) := by
  obtain ⟨run, c, tail, rfl, nonzero⟩ | rfl := run
  · have scanned := scanDigits_append (List.cons_ne_nil c tail) run ends
    rw [scanWhole, scanned]
    split
    next found => simp_all
    next => rfl
  · have scanned : scanDigits (['0'] ++ rest) = .ok (['0'], rest) :=
      scanDigits_append (by decide) (by simp [Digits]) ends
    rw [scanWhole, scanned]
    rfl

theorem scanFraction_point {digits rest : List Char} (nonempty : digits ≠ [])
    (run : Digits digits) (ends : EndsDigits rest) :
    scanFraction ('.' :: (digits ++ rest)) = .ok (some digits, rest) := by
  simp [scanFraction, scanDigits_append nonempty run ends, Except.map]

theorem scanFraction_other {rest : List Char} (other : ∀ c ∈ rest.head?, c ≠ '.') :
    scanFraction rest = .ok (none, rest) := by
  rw [scanFraction.eq_def]
  split
  next => exact absurd rfl (other '.' rfl)
  next => rfl

theorem scanExponent_other {rest : List Char} (other : ∀ c ∈ rest.head?, c ≠ 'e' ∧ c ≠ 'E') :
    scanExponent rest = .ok (none, rest) := by
  rw [scanExponent.eq_def]
  split
  next => exact absurd rfl (other 'e' rfl).1
  next => exact absurd rfl (other 'E' rfl).2
  next => rfl

/-- An exponent with its sign, as it is written. -/
def exponentPart (exponent : Int) : List Char :=
  'e' :: (if exponent < 0 then '-' else '+') :: Nat.toDigits 10 exponent.natAbs

theorem scanExponent_exponentPart {rest : List Char} (exponent : Int) (ends : EndsDigits rest) :
    scanExponent (exponentPart exponent ++ rest) = .ok (some exponent, rest) := by
  have scanned := scanDigits_append (Nat.toDigits_ne_nil (n := exponent.natAbs))
    (digits_toDigits exponent.natAbs) ends
  rw [exponentPart]
  split
  all_goals
    simp only [List.cons_append, scanExponent, scanSignedExponent, scanned, Except.map,
      Nat.ofDigitChars_ten_toDigits, Except.ok.injEq, Prod.mk.injEq, and_true, Option.some.injEq]
    omega

/-! ### Layouts -/

theorem scanUnsigned_of_parts {cs afterWhole afterFraction rest whole : List Char}
    {fraction : Option (List Char)} {exponent : Option Int} (negative : Bool)
    (scannedWhole : scanWhole cs = .ok (whole, afterWhole))
    (scannedFraction : scanFraction afterWhole = .ok (fraction, afterFraction))
    (scannedExponent : scanExponent afterFraction = .ok (exponent, rest)) :
    scanUnsigned negative cs =
      .ok (⟨negative, Nat.ofDigitChars 10 (whole ++ fraction.getD []) 0,
        exponent.getD 0 - ((fraction.getD []).length : Int),
        fraction.isNone && exponent.isNone⟩, rest) := by
  simp only [scanUnsigned, scannedWhole, scannedFraction, scannedExponent, bind, Except.bind]

theorem scanUnsigned_whole (negative : Bool) {digits rest : List Char}
    (run : Significant digits ∨ digits = ['0']) (ends : Ends rest) :
    scanUnsigned negative (digits ++ rest) =
      .ok (⟨negative, Nat.ofDigitChars 10 digits 0, 0, true⟩, rest) := by
  have scanned := scanUnsigned_of_parts negative (scanWhole_append run ends.endsDigits)
    (scanFraction_other fun c first => (ends c first).2.1)
    (scanExponent_other fun c first => (ends c first).2.2)
  simpa using scanned

theorem scanUnsigned_point {negative : Bool} {whole places rest : List Char}
    (run : Significant whole ∨ whole = ['0']) (nonempty : places ≠ []) (digits : Digits places)
    (ends : Ends rest) :
    scanUnsigned negative (whole ++ '.' :: (places ++ rest)) =
      .ok (⟨negative, Nat.ofDigitChars 10 (whole ++ places) 0, -(places.length : Int), false⟩,
        rest) := by
  have scanned := scanUnsigned_of_parts negative
    (scanWhole_append run (endsDigits_cons (places ++ rest) (by decide : '.'.isDigit = false)))
    (scanFraction_point nonempty digits ends.endsDigits)
    (scanExponent_other fun c first => (ends c first).2.2)
  simpa using scanned

/-- A point follows the first digit, if there are others. -/
theorem scanUnsigned_scientific {negative : Bool} {digits rest : List Char} (leading : Int)
    (significant : Significant digits) (ends : Ends rest) :
    scanUnsigned negative (NumberStyle.scientific digits leading ++ rest) =
      .ok (⟨negative, Nat.ofDigitChars 10 digits 0, leading + 1 - (digits.length : Int), false⟩,
        rest) := by
  obtain ⟨run, first, places, rfl, nonzero⟩ := significant
  have firstOnly : Significant [first] := by
    refine ⟨?_, first, [], rfl, nonzero⟩
    rintro c (_ | ⟨_, ⟨⟩⟩)
    exact run first List.mem_cons_self
  have exponent := scanExponent_exponentPart leading ends.endsDigits
  have begins : EndsDigits (exponentPart leading ++ rest) := endsDigits_cons _ rfl
  cases places with
  | nil =>
      have layout : NumberStyle.scientific [first] leading ++ rest =
          [first] ++ (exponentPart leading ++ rest) := rfl
      have scanned := scanUnsigned_of_parts negative (scanWhole_append (.inl firstOnly) begins)
        (scanFraction_other (by rintro c ⟨⟩; decide)) exponent
      rw [layout, scanned]
      simp
  | cons second places =>
      have layout : NumberStyle.scientific (first :: second :: places) leading ++ rest =
          [first] ++ '.' :: (second :: places ++ (exponentPart leading ++ rest)) := by
        simp [NumberStyle.scientific, exponentPart]
      have digits : Digits (second :: places) := fun c member =>
        run c (List.mem_cons_of_mem _ member)
      have scanned := scanUnsigned_of_parts negative
        (scanWhole_append (.inl firstOnly) (endsDigits_cons _ rfl))
        (scanFraction_point (List.cons_ne_nil second places) digits begins) exponent
      rw [layout, scanned]
      simp

/-- What a numeral spells out, its sign apart. -/
def value (n : Numeral) : ℚ := n.significand * 10 ^ n.exponent

/-- The characters are a numeral of this value that is no integer, whatever follows them. -/
def Spells (cs : List Char) (negative : Bool) (value : ℚ) : Prop :=
  ∃ n : Numeral, n.negative = negative ∧ n.integral = false ∧ n.value = value ∧
    ∀ rest, Ends rest → scanUnsigned negative (cs ++ rest) = .ok (n, rest)

theorem Significant.append {digits more : List Char} (significant : Significant digits)
    (run : Digits more) : Significant (digits ++ more) := by
  obtain ⟨own, first, rest, rfl, nonzero⟩ := significant
  exact ⟨own.append run, first, rest ++ more, rfl, nonzero⟩

theorem spells_point (negative : Bool) {whole places : List Char} {value : ℚ}
    (run : Significant whole ∨ whole = ['0']) (nonempty : places ≠ []) (digits : Digits places)
    (spelled : (Nat.ofDigitChars 10 (whole ++ places) 0 : ℚ) * 10 ^ (-(places.length : ℤ)) =
      value) : Spells (whole ++ '.' :: places) negative value := by
  refine ⟨⟨negative, Nat.ofDigitChars 10 (whole ++ places) 0, -(places.length : Int), false⟩,
    rfl, rfl, spelled, ?_⟩
  intro rest ends
  rw [List.append_assoc]
  exact scanUnsigned_point run nonempty digits ends

/-- The point stands before the digits, with zeros between. -/
theorem spells_before (negative : Bool) {digits : List Char} {leading : Int} (before : leading < 0)
    (significant : Significant digits) :
    Spells ('0' :: '.' :: (List.replicate (-leading - 1).toNat '0' ++ digits)) negative
      (Nat.ofDigitChars 10 digits 0 * 10 ^ (leading + 1 - digits.length)) := by
  have nonempty : digits ≠ [] := by
    obtain ⟨-, first, tail, rfl, -⟩ := significant
    exact List.cons_ne_nil first tail
  have zero : Nat.ofDigitChars 10 (['0'] ++ List.replicate (-leading - 1).toNat '0') 0 = 0 := by
    rw [ofDigitChars_append_replicate]
    simp [Nat.ofDigitChars_cons]
  change Spells (['0'] ++ '.' :: (List.replicate (-leading - 1).toNat '0' ++ digits)) _ _
  refine spells_point negative (.inr rfl) (by simp [nonempty])
    ((digits_replicate _).append significant.run) ?_
  rw [← List.append_assoc, Nat.ofDigitChars_append, zero]
  congr 2
  simp
  omega

/-- The point stands behind the digits, with zeros between. -/
theorem spells_behind (negative : Bool) {digits : List Char} {leading : Int}
    (notBefore : ¬leading < 0) (few : digits.length ≤ leading.toNat + 1)
    (significant : Significant digits) :
    Spells (digits ++ List.replicate (leading.toNat + 1 - digits.length) '0' ++ ['.', '0']) negative
      (Nat.ofDigitChars 10 digits 0 * 10 ^ (leading + 1 - digits.length)) := by
  refine spells_point negative (.inl (significant.append (digits_replicate _))) (by decide)
    (by simp [Digits]) ?_
  rw [List.append_assoc, ← List.replicate_succ', ofDigitChars_append_replicate]
  push_cast
  rw [mul_assoc, ← zpow_natCast, ← zpow_add₀ (by norm_num)]
  congr 2
  simp
  omega

theorem spells_inside (negative : Bool) {digits : List Char} {leading : Int}
    (notBefore : ¬leading < 0) (many : ¬digits.length ≤ leading.toNat + 1)
    (significant : Significant digits) :
    Spells (digits.take (leading.toNat + 1) ++ '.' :: digits.drop (leading.toNat + 1)) negative
      (Nat.ofDigitChars 10 digits 0 * 10 ^ (leading + 1 - digits.length)) := by
  obtain ⟨run, first, tail, rfl, nonzero⟩ := significant
  refine spells_point negative (.inl ⟨?_, first, tail.take leading.toNat, rfl, nonzero⟩) ?_ ?_ ?_
  · exact fun c member => run c (List.mem_of_mem_take member)
  · intro none
    rw [List.drop_eq_nil_iff] at none
    omega
  · exact fun c member => run c (List.mem_of_mem_drop member)
  · rw [List.take_append_drop]
    congr 2
    simp only [List.length_drop, List.length_cons] at *
    omega

/-- Digits around a point, wherever it stands among them. -/
theorem spells_placed {style : NumberStyle} (keepsPoint : style.keepsPoint = true)
    (negative : Bool) {digits : List Char} (leading : Int) (significant : Significant digits) :
    Spells (style.placed digits leading) negative
      (Nat.ofDigitChars 10 digits 0 * 10 ^ (leading + 1 - digits.length)) := by
  rw [NumberStyle.placed]
  simp only [keepsPoint, if_true]
  split
  next before => exact spells_before negative before significant
  next notBefore =>
    split
    next few => exact spells_behind negative notBefore few significant
    next many => exact spells_inside negative notBefore many significant

theorem spells_scientific (negative : Bool) {digits : List Char} (leading : Int)
    (significant : Significant digits) :
    Spells (NumberStyle.scientific digits leading) negative
      (Nat.ofDigitChars 10 digits 0 * 10 ^ (leading + 1 - digits.length)) :=
  ⟨_, rfl, rfl, rfl, fun _ ends => scanUnsigned_scientific leading significant ends⟩

/-- What is dropped at the end of the digits are zeros. -/
theorem exists_dropped_zeros (digits : List Char) :
    ∃ zeros, digits =
      (digits.reverse.dropWhile (· == '0')).reverse ++ List.replicate zeros '0' := by
  have dropped : digits.reverse.takeWhile (· == '0') =
      List.replicate (digits.reverse.takeWhile (· == '0')).length '0' := by
    refine List.eq_replicate_of_mem ?_
    intro c member
    simpa using List.mem_takeWhile_imp member
  refine ⟨(digits.reverse.takeWhile (· == '0')).length, ?_⟩
  calc digits = (digits.reverse.takeWhile (· == '0') ++
        digits.reverse.dropWhile (· == '0')).reverse := by
          rw [List.takeWhile_append_dropWhile, List.reverse_reverse]
    _ = (digits.reverse.dropWhile (· == '0')).reverse ++
        List.replicate (digits.reverse.takeWhile (· == '0')).length '0' := by
          rw [List.reverse_append, dropped, List.reverse_replicate, List.length_replicate]

/-- The first digit is no zero, so it is kept. -/
theorem Significant.of_append_zeros {kept : List Char} {zeros : Nat}
    (significant : Significant (kept ++ List.replicate zeros '0')) : Significant kept := by
  obtain ⟨run, first, tail, begins, nonzero⟩ := significant
  refine ⟨fun c member => run c (List.mem_append_left _ member), ?_⟩
  cases kept with
  | nil =>
      have among : first ∈ List.replicate zeros '0' := by
        rw [← List.nil_append (List.replicate zeros '0'), begins]
        exact List.mem_cons_self
      exact absurd (List.eq_of_mem_replicate among) nonzero
  | cons other rest =>
      rw [List.cons_append, List.cons.injEq] at begins
      exact ⟨other, rest, rfl, begins.1 ▸ nonzero⟩

theorem spells_magnitude {style : NumberStyle} (keepsPoint : style.keepsPoint = true)
    (negative : Bool) {decimal : Decimal} (positive : 0 < decimal.digits) :
    Spells (style.magnitude decimal) negative (decimal.digits * 10 ^ decimal.exponent) := by
  have significant := significant_toDigits positive
  have read : Nat.ofDigitChars 10 (Nat.toDigits 10 decimal.digits) 0 = decimal.digits :=
    Nat.ofDigitChars_ten_toDigits
  obtain ⟨zeros, split⟩ := exists_dropped_zeros (Nat.toDigits 10 decimal.digits)
  simp only [NumberStyle.magnitude]
  generalize ((Nat.toDigits 10 decimal.digits).reverse.dropWhile (· == '0')).reverse = kept at *
  rw [split] at significant read ⊢
  have same : (Nat.ofDigitChars 10 kept 0 : ℚ) *
      10 ^ (decimal.exponent + ((kept ++ List.replicate zeros '0').length : ℤ) - 1 + 1 -
        (kept.length : ℤ)) = decimal.digits * 10 ^ decimal.exponent := by
    have exponent : decimal.exponent + ((kept ++ List.replicate zeros '0').length : ℤ) - 1 + 1 -
        (kept.length : ℤ) = (zeros : ℤ) + decimal.exponent := by
      rw [List.length_append, List.length_replicate]
      omega
    rw [exponent, ← read, ofDigitChars_append_replicate, zpow_add₀ (by norm_num), zpow_natCast,
      ← mul_assoc]
    push_cast
    rfl
  rw [← same]
  split
  next => exact spells_placed keepsPoint negative _ significant.of_append_zeros
  next => exact spells_scientific negative _ significant.of_append_zeros

/-! ### Numbers -/

theorem scan_of_scanUnsigned {cs : List Char} {scanned : Numeral × List Char}
    (unsigned : scanUnsigned false cs = .ok scanned) : scan cs = .ok scanned := by
  rw [scan.eq_def]
  split
  next rest =>
    have stray : scanUnsigned false ('-' :: rest) = .error false := rfl
    rw [stray] at unsigned
    contradiction
  next => exact unsigned

theorem significant_or_zero (n : Nat) :
    Significant (Nat.toDigits 10 n) ∨ Nat.toDigits 10 n = ['0'] := by
  obtain rfl | positive := Nat.eq_zero_or_pos n
  · exact .inr rfl
  · exact .inl (significant_toDigits positive)

/-- Whatever numeral spells out the written magnitude of a number is rounded to the number. -/
theorem spells_unsigned (style : NumberStyle) (keepsPoint : style.keepsPoint = true)
    (x : Binary64) :
    ∃ value, (∀ n : Numeral, n.negative = x.negative → n.value = value → n.toBinary64 = .ok x) ∧
      Spells (if x.isZero then style.placed ['0'] 0
        else style.magnitude (x.shortestDecimal style.tie)) x.negative value := by
  cases zero : x.isZero with
  | true =>
      obtain ⟨negative, rfl⟩ := Binary64.isZero_iff.mp zero
      have layout : style.placed ['0'] 0 = ['0'] ++ '.' :: ['0'] := by
        simp [NumberStyle.placed, keepsPoint]
      rw [if_pos rfl, layout]
      refine ⟨0, ?_, spells_point _ (.inr rfl) (by decide) (by simp [Digits])
        (by simp [Nat.ofDigitChars_cons])⟩
      intro n sign none
      have significand : n.significand = 0 := by
        have power : (10 : ℚ) ^ n.exponent ≠ 0 := by positivity
        simpa [value, power] using none
      rw [toBinary64, significand, Binary64.ofDecimal_zero, sign]
      rfl
  | false =>
      refine ⟨_, ?_, spells_magnitude keepsPoint x.negative
        (Binary64.shortestDecimal_digits_pos zero style.tie)⟩
      intro n sign same
      rw [toBinary64, sign, Binary64.ofDecimal_congr same,
        Binary64.ofDecimal_shortestDecimal zero style.tie]

end Json.Numeral

/-- An integer fits into 64 bits, unsigned or in two's complement. -/
def Number.Fits : Number → Prop
  | .integer i => -(1 <<< 63 : Nat) ≤ i ∧ i < (1 <<< 64 : Nat)
  | .float _ => True

namespace Json.Numeral

/-- The numeral is read as the number. -/
structure Denotes (n : Numeral) (number : Number) : Prop where
  toNumber : number.Fits → n.toNumber = .ok number
  toBinary64 : ∀ x, number = .float x → n.toBinary64 = .ok x

theorem denotes_natural (magnitude : Nat) :
    Denotes ⟨false, magnitude, 0, true⟩ (.integer magnitude) := by
  refine ⟨?_, fun _ differs => Number.noConfusion differs⟩
  rintro ⟨-, upper⟩
  have small : magnitude < 1 <<< 64 := Int.ofNat_lt.mp upper
  have found : integer? ⟨false, magnitude, 0, true⟩ = some (magnitude : Int) := if_pos small
  rw [toNumber, found]

theorem denotes_negative (magnitude : Nat) :
    Denotes ⟨true, magnitude + 1, 0, true⟩ (.integer (.negSucc magnitude)) := by
  refine ⟨?_, fun _ differs => Number.noConfusion differs⟩
  rintro ⟨lower, -⟩
  have opposite : -((1 <<< 63 : Nat) : Int) ≤ -((magnitude + 1 : Nat) : Int) := lower
  have small : magnitude + 1 ≤ 1 <<< 63 := Int.ofNat_le.mp (neg_le_neg_iff.mp opposite)
  have bounds : 0 < magnitude + 1 ∧ magnitude + 1 ≤ 1 <<< 63 := ⟨magnitude.succ_pos, small⟩
  have found : integer? ⟨true, magnitude + 1, 0, true⟩ = some (.negSucc magnitude) := by
    rw [integer?]
    exact if_pos bounds
  rw [toNumber, found]

theorem denotes_float {n : Numeral} {x : Binary64} (fractional : n.integral = false)
    (reads : n.toBinary64 = .ok x) : Denotes n (.float x) := by
  refine ⟨?_, ?_⟩
  · intro _
    simp [toNumber, integer?, fractional, reads, Except.map]
  · rintro other ⟨⟩
    exact reads

end Json.Numeral

namespace Number

open Json Numeral

theorem scan_chars (number : Number) :
    ∃ n : Numeral, n.Denotes number ∧
      ∀ rest, Ends rest → scan (number.chars ++ rest) = .ok (n, rest) := by
  match number with
  | .integer (.ofNat magnitude) =>
      refine ⟨_, denotes_natural magnitude, ?_⟩
      intro rest ends
      have scanned := scanUnsigned_whole false (significant_or_zero magnitude) ends
      rw [Nat.ofDigitChars_ten_toDigits] at scanned
      exact scan_of_scanUnsigned scanned
  | .integer (.negSucc magnitude) =>
      refine ⟨_, denotes_negative magnitude, ?_⟩
      intro rest ends
      have scanned :=
        scanUnsigned_whole true (significant_or_zero (magnitude + 1)) ends
      rw [Nat.ofDigitChars_ten_toDigits] at scanned
      exact scanned
  | .float x =>
      obtain ⟨value, reads, n, sign, fractional, same, scanned⟩ :=
        spells_unsigned Json.numberStyle rfl x
      refine ⟨n, denotes_float fractional (reads n sign same), ?_⟩
      intro rest ends
      simp only [chars, NumberStyle.render]
      split
      next negative =>
        rw [negative] at scanned
        exact scanned rest ends
      next positive =>
        rw [Bool.eq_false_of_not_eq_true positive] at scanned
        exact scan_of_scanUnsigned (scanned rest ends)

/-- The numeral that is written for a number. -/
def numeral (number : Number) : Numeral :=
  match scan number.chars with
  | .ok (n, _) => n
  | .error _ => ⟨false, 0, 0, true⟩

/-- The number is read back from what is written for it. This is what the laws on reading what has
been written assume of how decimals are rounded, and nothing else. -/
def ReadsBack (number : Number) : Prop := number.numeral.Denotes number

theorem numeral_eq {number : Number} {n : Numeral}
    (scanned : ∀ rest, Ends rest → scan (number.chars ++ rest) = .ok (n, rest)) :
    number.numeral = n := by
  have alone := scanned [] nofun
  rw [List.append_nil] at alone
  rw [numeral, alone]

/-- Rounding to the nearest number keeps the assumption. -/
theorem readsBack (number : Number) : number.ReadsBack := by
  obtain ⟨n, denotes, scanned⟩ := number.scan_chars
  rw [ReadsBack, numeral_eq scanned]
  exact denotes

theorem scan_numeral (number : Number) {rest : List Char} (ends : Ends rest) :
    scan (number.chars ++ rest) = .ok (number.numeral, rest) := by
  obtain ⟨n, -, scanned⟩ := number.scan_chars
  rw [numeral_eq scanned]
  exact scanned rest ends

/-- What is read from a numeral fits. -/
theorem fits_of_toNumber {n : Numeral} {number : Number} (read : n.toNumber = .ok number) :
    number.Fits := by
  rw [toNumber] at read
  split at read
  next i integer =>
    cases read
    rw [integer?] at integer
    split at integer
    next => contradiction
    next =>
      split at integer
      next =>
        split at integer
        next bound =>
          cases integer
          refine ⟨?_, ?_⟩
          · exact neg_le_neg (Int.ofNat_le.mpr bound.2)
          · exact lt_of_le_of_lt (by omega : -(n.significand : ℤ) ≤ 0) (by decide)
        next => contradiction
      next =>
        split at integer
        next bound =>
          cases integer
          refine ⟨?_, Int.ofNat_lt.mpr bound⟩
          exact le_trans (by decide) (Int.natCast_nonneg _)
        next => contradiction
  next =>
    cases rounded : n.toBinary64 with
    | error => simp [rounded, Except.map] at read
    | ok x =>
        simp only [rounded, Except.map, Except.ok.injEq] at read
        exact read ▸ trivial

end Number

end VolBacktest
