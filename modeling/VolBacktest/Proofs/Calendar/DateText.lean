import VolBacktest.Calendar.DateText
import VolBacktest.Proofs.Text.Digits

/-!
# Dates read back

A date is read from its own text as the same date, whatever its year. Month and day are written
with exactly as many digits as reading takes, and so is a year without sign; a year with a sign is
read up to the hyphen behind it.
-/

namespace VolBacktest.Date

open Text

theorem isBlank_of_isDigit {c : Char} (digit : c.isDigit = true) : isBlank c = false := by
  have range : 48 ≤ c.toNat ∧ c.toNat ≤ 57 := Char.isDigit_iff_toNat.mp digit
  simp only [isBlank, blankRanges, List.any_cons, List.any_nil, Bool.or_false, Bool.or_eq_false_iff,
    Bool.and_eq_false_iff, decide_eq_false_iff_not]
  omega

theorem skipBlanks_cons {c : Char} (rest : List Char) (visible : isBlank c = false) :
    skipBlanks (c :: rest) = c :: rest := by
  rw [skipBlanks, List.dropWhile_cons_of_neg (by simp [visible])]

theorem skipBlanks_append {digits : List Char} (rest : List Char) (nonempty : digits ≠ [])
    (run : Digits digits) : skipBlanks (digits ++ rest) = digits ++ rest := by
  obtain ⟨first, tail, rfl⟩ := List.exists_cons_of_ne_nil nonempty
  exact skipBlanks_cons _ (isBlank_of_isDigit (run first List.mem_cons_self))

/-- As many digits as may be taken. -/
theorem readDigits_width {digits : List Char} (rest : List Char) (nonempty : digits ≠ [])
    (run : Digits digits) :
    readDigits (some digits.length) (digits ++ rest) =
      .ok (Nat.ofDigitChars 10 digits 0, rest) := by
  have whole : (digits ++ []).takeWhile Char.isDigit = digits := run.takeWhile_append nofun
  rw [List.append_nil] at whole
  simp [readDigits, whole, nonempty]

/-- Any number of digits, up to something else. -/
theorem readDigits_run {digits rest : List Char} (nonempty : digits ≠ []) (run : Digits digits)
    (ends : EndsDigits rest) :
    readDigits none (digits ++ rest) = .ok (Nat.ofDigitChars 10 digits 0, rest) := by
  rw [readDigits, Option.getD_none, List.take_length, run.takeWhile_append ends]
  simp [nonempty]

/-! ### The parts of a date -/

/-- The digits of a year, without its sign. -/
def yearDigits (year : Int) : List Char :=
  List.replicate (4 - (Nat.toDigits 10 year.natAbs).length) '0' ++ Nat.toDigits 10 year.natAbs

theorem digits_yearDigits (year : Int) : Digits (yearDigits year) :=
  (digits_replicate _).append (digits_toDigits _)

theorem yearDigits_ne_nil (year : Int) : yearDigits year ≠ [] := by
  rw [yearDigits]
  exact List.append_ne_nil_of_right_ne_nil _ Nat.toDigits_ne_nil

theorem ofDigitChars_yearDigits (year : Int) :
    Nat.ofDigitChars 10 (yearDigits year) 0 = year.natAbs := by
  rw [yearDigits, ofDigitChars_replicate_append, Nat.ofDigitChars_ten_toDigits]

theorem length_yearDigits {year : Int} (small : year.natAbs ≤ 9999) :
    (yearDigits year).length = 4 := by
  have atMost : (Nat.toDigits 10 year.natAbs).length ≤ 4 :=
    (Nat.length_toDigits_le_iff (by decide) (by decide)).mpr (by omega)
  rw [yearDigits, List.length_append, List.length_replicate]
  omega

/-- A year without a sign has exactly four digits. -/
theorem readYear_yearDigits {year : Int} (lower : 0 ≤ year) (upper : year ≤ 9999)
    (rest : List Char) : readYear (yearDigits year ++ '-' :: rest) = .ok (year, '-' :: rest) := by
  have size : (year.natAbs : Int) = year := by omega
  have inRange : ¬(year < -2147483648 ∨ 2147483648 ≤ year) := by omega
  have four := readDigits_width ('-' :: rest) (yearDigits_ne_nil year) (digits_yearDigits year)
  rw [length_yearDigits (by omega), ofDigitChars_yearDigits] at four
  have visible := skipBlanks_append ('-' :: rest) (yearDigits_ne_nil year) (digits_yearDigits year)
  obtain ⟨first, tail, begins⟩ := List.exists_cons_of_ne_nil (yearDigits_ne_nil year)
  have digit : first.isDigit = true := digits_yearDigits year first (by simp [begins])
  rw [readYear, visible]
  rw [begins, List.cons_append] at four ⊢
  split
  next same =>
    rw [(List.cons.inj same).1] at digit
    contradiction
  next same =>
    rw [(List.cons.inj same).1] at digit
    contradiction
  next => simp only [four, Except.map, bind, Except.bind, size, inRange, if_false]

theorem readYear_yearText {year : Int} (lower : minYear ≤ year) (upper : year ≤ maxYear)
    (rest : List Char) : readYear (yearText year ++ '-' :: rest) = .ok (year, '-' :: rest) := by
  have inRange : ¬(year < -2147483648 ∨ 2147483648 ≤ year) := by
    simp only [minYear, maxYear] at lower upper
    omega
  have signed := readDigits_run (yearDigits_ne_nil year) (digits_yearDigits year)
    (endsDigits_cons rest (by decide : '-'.isDigit = false))
  rw [ofDigitChars_yearDigits] at signed
  change readYear ((if year < 0 then '-' :: yearDigits year
    else if 9999 < year then '+' :: yearDigits year else yearDigits year) ++ '-' :: rest) = _
  split
  next before =>
    have size : -(year.natAbs : Int) = year := by omega
    simp only [List.cons_append, readYear, skipBlanks_cons _ (by decide : isBlank '-' = false),
      signed, Except.map, bind, Except.bind, size, inRange, if_false]
  next notBefore =>
    have size : (year.natAbs : Int) = year := by omega
    split
    next after =>
      simp only [List.cons_append, readYear, skipBlanks_cons _ (by decide : isBlank '+' = false),
        signed, Except.map, bind, Except.bind, size, inRange, if_false]
    next notAfter => exact readYear_yearDigits (by omega) (by omega) rest

theorem twoDigits_spec {n : Nat} (small : n < 100) :
    (twoDigits n).length = 2 ∧ Digits (twoDigits n) ∧
      Nat.ofDigitChars 10 (twoDigits n) 0 = n := by
  rw [twoDigits]
  split
  next single =>
    refine ⟨?_, (digits_replicate 1).append (digits_toDigits n), ?_⟩
    · simp [Nat.toDigits_of_lt_base single]
    · exact (ofDigitChars_replicate_append 1 _).trans Nat.ofDigitChars_ten_toDigits
  next double =>
    refine ⟨?_, digits_toDigits n, Nat.ofDigitChars_ten_toDigits⟩
    have atMost : (Nat.toDigits 10 n).length ≤ 2 :=
      (Nat.length_toDigits_le_iff (by decide) (by decide)).mpr small
    have atLeast : ¬(Nat.toDigits 10 n).length ≤ 1 := by
      rw [Nat.length_toDigits_le_iff (by decide) (by decide)]
      exact double
    omega

theorem readBounded_twoDigits {limit n : Nat} (rest : List Char) (limited : limit < 100)
    (positive : 1 ≤ n) (bounded : n ≤ limit) :
    readBounded limit (twoDigits n ++ rest) = .ok (n, rest) := by
  obtain ⟨length, run, value⟩ := twoDigits_spec (Nat.lt_of_le_of_lt bounded limited)
  have nonempty : twoDigits n ≠ [] := by
    intro none
    rw [none] at length
    contradiction
  have two := readDigits_width rest nonempty run
  rw [length, value] at two
  have inRange : ¬(n < 1 ∨ limit < n) := by omega
  simp only [readBounded, skipBlanks_append rest nonempty run, two, bind, Except.bind, inRange,
    if_false]

theorem readHyphen_cons (rest : List Char) : readHyphen ('-' :: rest) = .ok rest := by
  rw [readHyphen, skipBlanks_cons rest (by decide : isBlank '-' = false)]
  rfl

theorem daysInMonth_le (year : Int) (month : Nat) : daysInMonth year month ≤ 31 := by
  rw [daysInMonth.eq_def]
  split
  · split <;> decide
  all_goals decide

/-! ### The whole date -/

theorem parse_text (date : Date) : parse date.text = .ok date := by
  obtain ⟨lower, upper, monthPositive, monthBounded, dayPositive, dayBounded⟩ := date.valid
  have day := readBounded_twoDigits [] (by decide : 31 < 100) dayPositive
    (Nat.le_trans dayBounded (daysInMonth_le date.year date.month))
  rw [List.append_nil] at day
  have layout : date.chars =
      yearText date.year ++ '-' :: (twoDigits date.month ++ '-' :: twoDigits date.day) := by
    simp [chars]
  rw [parse, text, String.toList_ofList, layout, read]
  simp only [readYear_yearText lower upper, readHyphen_cons,
    readBounded_twoDigits _ (by decide : 12 < 100) monthPositive monthBounded, day, bind,
    Except.bind, ofYMD_self]
  rfl

end VolBacktest.Date
