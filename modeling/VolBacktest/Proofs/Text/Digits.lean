import Mathlib.Algebra.Group.Nat.Defs

/-!
# Runs of digits

What is read of a written number is the longest run of digits at the beginning of a text. These are
the facts about such runs, and about the zeros that are put before or behind them.
-/

namespace VolBacktest.Text

def Digits (digits : List Char) : Prop := ∀ c ∈ digits, c.isDigit = true

/-- The text goes on with something other than a digit. -/
def EndsDigits (rest : List Char) : Prop := ∀ c ∈ rest.head?, c.isDigit = false

theorem endsDigits_cons {c : Char} (rest : List Char) (h : c.isDigit = false) :
    EndsDigits (c :: rest) := by
  rintro first ⟨⟩
  exact h

theorem digits_toDigits (n : ℕ) : Digits (Nat.toDigits 10 n) :=
  fun _ member => Nat.isDigit_of_mem_toDigits (by decide) (by decide) member

theorem digits_replicate (zeros : ℕ) : Digits (List.replicate zeros '0') := by
  intro c member
  rw [List.eq_of_mem_replicate member]
  rfl

theorem Digits.append {digits more : List Char} (first : Digits digits) (second : Digits more) :
    Digits (digits ++ more) := by
  intro c member
  obtain atFirst | atSecond := List.mem_append.mp member
  · exact first c atFirst
  · exact second c atSecond

theorem Digits.takeWhile_append {digits rest : List Char} (run : Digits digits)
    (ends : EndsDigits rest) : (digits ++ rest).takeWhile Char.isDigit = digits := by
  have stops : rest.takeWhile Char.isDigit = [] := by
    cases rest with
    | nil => rfl
    | cons c rest => simp [ends c rfl]
  rw [List.takeWhile_append_of_pos run, stops, List.append_nil]

theorem Digits.dropWhile_append {digits rest : List Char} (run : Digits digits)
    (ends : EndsDigits rest) : (digits ++ rest).dropWhile Char.isDigit = rest := by
  rw [List.dropWhile_append_of_pos run]
  cases rest with
  | nil => rfl
  | cons c rest => simp [ends c rfl]

theorem ofDigitChars_append_replicate (digits : List Char) (zeros : ℕ) :
    Nat.ofDigitChars 10 (digits ++ List.replicate zeros '0') 0 =
      Nat.ofDigitChars 10 digits 0 * 10 ^ zeros := by
  rw [Nat.ofDigitChars_append, Nat.ofDigitChars_replicate_zero, Nat.mul_comm]

theorem ofDigitChars_replicate_append (zeros : ℕ) (digits : List Char) :
    Nat.ofDigitChars 10 (List.replicate zeros '0' ++ digits) 0 = Nat.ofDigitChars 10 digits 0 := by
  rw [Nat.ofDigitChars_append, Nat.ofDigitChars_replicate_zero, Nat.mul_zero]

end VolBacktest.Text
