import VolBacktest.Proofs.Json.Literals
import VolBacktest.Proofs.Json.Numerals

/-!
# Cutting a text into tokens

A token takes at least the character it begins with, so as many tokens as the text has characters
are enough, and the tokens of a text are its first token and those of what follows it:
`Token.ofText_cons`. With it, what a written string or number is cut into is found whatever
follows it.
-/

namespace VolBacktest.Json

/-! ### What a scan leaves -/

theorem Literal.length_rest_scan (cs : List Char) : (scan cs).rest.length ≤ cs.length := by
  fun_induction scan cs with
  | case1 => exact Nat.le_refl 0
  | case2 rest => exact Nat.le_succ _
  | case3 => exact Nat.zero_le _
  | case4 a b c d rest code unit ih =>
    simp only [Scanned.cons, List.length_cons]
    omega
  | case5 => exact Nat.zero_le _
  | case6 => exact Nat.zero_le _
  | case7 c rest _ _ escaped short ih =>
    simp only [Scanned.cons, List.length_cons]
    omega
  | case8 => exact Nat.zero_le _
  | case9 => exact Nat.zero_le _
  | case10 c rest _ _ _ _ _ visible ih =>
    simp only [Scanned.cons, List.length_cons]
    omega

namespace Numeral

/-- Digits were there, and only they have been taken. -/
theorem scanDigits_ok {cs digits rest : List Char}
    (scanned : scanDigits cs = .ok (digits, rest)) :
    rest.length < cs.length ∧ ∃ c tail, cs = c :: tail ∧ c.isDigit = true := by
  simp only [scanDigits] at scanned
  split at scanned
  next => contradiction
  next found =>
    obtain ⟨rfl, rfl⟩ := Prod.mk.inj (Except.ok.inj scanned)
    cases cs with
    | nil => exact absurd rfl found
    | cons c tail =>
      have digit : c.isDigit = true := by
        by_contra none
        simp [splitDigits, none] at found
      refine ⟨?_, c, tail, rfl, digit⟩
      rw [splitDigits, List.dropWhile_cons_of_pos digit]
      exact Nat.lt_succ_of_le (List.length_dropWhile_le Char.isDigit tail)

theorem scanWhole_ok {cs digits rest : List Char} (scanned : scanWhole cs = .ok (digits, rest)) :
    rest.length < cs.length ∧ ∃ c tail, cs = c :: tail ∧ c.isDigit = true := by
  rw [scanWhole] at scanned
  split at scanned
  next => contradiction
  next => exact scanDigits_ok scanned

/-- What is done with a scanned value does not change the rest. -/
theorem scanned_of_map {α β : Type} {scanned : Except Bool (α × List Char)}
    {f : α × List Char → β × List Char} {value : β} {rest : List Char}
    (h : scanned.map f = .ok (value, rest)) (keeps : ∀ result, (f result).2 = result.2) :
    ∃ before, scanned = .ok (before, rest) := by
  cases scanned with
  | error => contradiction
  | ok result =>
    have same : f result = (value, rest) := Except.ok.inj h
    have rest_eq : result.2 = rest := by rw [← keeps result, same]
    exact ⟨result.1, by rw [← rest_eq]⟩

theorem scanFraction_ok {cs rest : List Char} {fraction : Option (List Char)}
    (scanned : scanFraction cs = .ok (fraction, rest)) : rest.length ≤ cs.length := by
  rw [scanFraction.eq_def] at scanned
  split at scanned
  next tail =>
    obtain ⟨digits, found⟩ := scanned_of_map scanned fun _ => rfl
    exact Nat.le_succ_of_le (Nat.le_of_lt (scanDigits_ok found).1)
  next =>
    obtain ⟨-, rfl⟩ := Prod.mk.inj (Except.ok.inj scanned)
    exact Nat.le_refl _

theorem scanSignedExponent_ok {cs rest : List Char} {exponent : Int}
    (scanned : scanSignedExponent cs = .ok (exponent, rest)) : rest.length ≤ cs.length := by
  rw [scanSignedExponent.eq_def] at scanned
  split at scanned
  next =>
    obtain ⟨digits, found⟩ := scanned_of_map scanned fun _ => rfl
    exact Nat.le_succ_of_le (Nat.le_of_lt (scanDigits_ok found).1)
  next =>
    obtain ⟨digits, found⟩ := scanned_of_map scanned fun _ => rfl
    exact Nat.le_succ_of_le (Nat.le_of_lt (scanDigits_ok found).1)
  next =>
    obtain ⟨digits, found⟩ := scanned_of_map scanned fun _ => rfl
    exact Nat.le_of_lt (scanDigits_ok found).1

theorem scanExponent_ok {cs rest : List Char} {exponent : Option Int}
    (scanned : scanExponent cs = .ok (exponent, rest)) : rest.length ≤ cs.length := by
  rw [scanExponent.eq_def] at scanned
  split at scanned
  next =>
    obtain ⟨signed, found⟩ := scanned_of_map scanned fun _ => rfl
    exact Nat.le_succ_of_le (scanSignedExponent_ok found)
  next =>
    obtain ⟨signed, found⟩ := scanned_of_map scanned fun _ => rfl
    exact Nat.le_succ_of_le (scanSignedExponent_ok found)
  next =>
    obtain ⟨-, rfl⟩ := Prod.mk.inj (Except.ok.inj scanned)
    exact Nat.le_refl _

theorem scanUnsigned_ok {negative : Bool} {cs rest : List Char} {n : Numeral}
    (scanned : scanUnsigned negative cs = .ok (n, rest)) :
    rest.length < cs.length ∧ ∃ c tail, cs = c :: tail ∧ c.isDigit = true := by
  simp only [scanUnsigned, bind, Except.bind] at scanned
  split at scanned
  next => contradiction
  next afterWhole whole =>
    split at scanned
    next => contradiction
    next afterFraction fraction =>
      split at scanned
      next => contradiction
      next afterExponent exponent =>
        obtain ⟨-, rfl⟩ := Prod.mk.inj (Except.ok.inj scanned)
        obtain ⟨shorter, begins⟩ := scanWhole_ok whole
        have second := scanFraction_ok fraction
        have third := scanExponent_ok exponent
        exact ⟨by omega, begins⟩

/-- A numeral begins with its sign or a digit. -/
theorem scan_ok {cs rest : List Char} {n : Numeral} (scanned : scan cs = .ok (n, rest)) :
    rest.length < cs.length ∧ ∃ c tail, cs = c :: tail ∧ (c = '-' ∨ c.isDigit = true) := by
  rw [scan.eq_def] at scanned
  split at scanned
  next tail =>
    obtain ⟨shorter, -⟩ := scanUnsigned_ok scanned
    exact ⟨Nat.lt_succ_of_lt shorter, '-', tail, rfl, .inl rfl⟩
  next =>
    obtain ⟨shorter, c, tail, rfl, digit⟩ := scanUnsigned_ok scanned
    exact ⟨shorter, c, tail, rfl, .inr digit⟩

end Numeral

namespace Token

theorem expectWord_ok {word cs rest : List Char} (scanned : expectWord word cs = .ok rest) :
    rest.length ≤ cs.length := by
  induction word generalizing cs with
  | nil =>
    cases scanned
    exact Nat.le_refl _
  | cons expected more ih =>
    cases cs with
    | nil => contradiction
    | cons c cs =>
      rw [expectWord] at scanned
      split at scanned
      next => exact Nat.le_succ_of_le (ih scanned)
      next => contradiction

theorem length_scanWord (word : List Char) (value : Scalar) (isNull : Bool) (cs : List Char) :
    (scanWord word value isNull cs).2.length ≤ cs.length := by
  rw [scanWord]
  split
  next rest scanned => exact expectWord_ok scanned
  next => exact Nat.zero_le _

theorem length_scanNumeral (c : Char) (cs : List Char) :
    (scanNumeral (c :: cs)).2.length ≤ cs.length := by
  rw [scanNumeral]
  split
  next n rest scanned => exact Nat.le_of_lt_succ (Numeral.scan_ok scanned).1
  next => exact Nat.zero_le _

theorem length_scanLiteral (cs : List Char) : (scanLiteral cs).2.length ≤ cs.length := by
  simp only [scanLiteral]
  split
  next => exact Literal.length_rest_scan cs
  next => exact Nat.zero_le _
  next => exact Nat.zero_le _

theorem length_scan (c : Char) (cs : List Char) : (scan c cs).2.length ≤ cs.length := by
  rw [scan.eq_def]
  split
  case h_7 => exact length_scanLiteral cs
  case h_8 | h_9 | h_10 => exact length_scanWord _ _ _ _
  case h_11 =>
    split
    next => exact length_scanNumeral c cs
    next => exact Nat.zero_le _
  all_goals exact Nat.le_refl _

/-! ### The tokens of a text -/

/-- Beyond the number of characters, the limit makes no difference. -/
theorem sequence_eq_ofText {limit : Nat} {cs : List Char} (enough : cs.length ≤ limit) :
    sequence limit cs = ofText cs := by
  have stable (more : Nat) (cs : List Char) (limit : Nat) (bound : cs.length ≤ more)
      (enough : cs.length ≤ limit) : sequence limit cs = sequence more cs := by
    induction more generalizing cs limit with
    | zero =>
      obtain rfl := List.length_eq_zero_iff.mp (Nat.le_zero.mp bound)
      cases limit <;> rfl
    | succ more ih =>
      cases cs with
      | nil => cases limit <;> rfl
      | cons c cs =>
        obtain ⟨limit, rfl⟩ := Nat.exists_eq_add_of_lt enough
        have shorter := length_scan c cs
        rw [List.length_cons] at bound
        have left : (scan c cs).2.length ≤ more := by omega
        have right : (scan c cs).2.length ≤ cs.length + limit := by omega
        simp only [sequence]
        split
        · exact ih cs (cs.length + limit) (by omega) (by omega)
        · rw [ih (scan c cs).2 (cs.length + limit) left right]
  exact stable cs.length cs limit (Nat.le_refl _) enough

theorem ofText_cons {c : Char} {cs rest : List Char} {token : Token} (visible : isSpace c = false)
    (scanned : scan c cs = (token, rest)) : ofText (c :: cs) = token :: ofText rest := by
  have shorter := length_scan c cs
  rw [scanned] at shorter
  rw [ofText, List.length_cons, sequence, visible, scanned]
  simp only [Bool.false_eq_true, if_false]
  rw [sequence_eq_ofText shorter]

theorem ofText_stringChars (text : String) (rest : List Char) :
    ofText (stringChars text ++ rest) = scalar (.string (.ok text)) :: ofText rest := by
  have layout : stringChars text ++ rest =
      '"' :: (text.toList.flatMap escapedChar ++ '"' :: rest) := by
    simp [stringChars]
  rw [layout]
  exact ofText_cons rfl (scanLiteral_string text rest)

theorem ofText_numberChars (number : Number) {rest : List Char} (ends : Numeral.Ends rest) :
    ofText (number.chars ++ rest) = scalar (.number number.numeral) :: ofText rest := by
  have scanned := number.scan_numeral ends
  obtain ⟨-, c, tail, split, begins⟩ := Numeral.scan_ok scanned
  have other {d : Char} (notSign : d ≠ '-') (noDigit : d.isDigit = false) : c ≠ d := by
    rintro rfl
    obtain sign | digit := begins
    · exact notSign sign
    · exact Bool.noConfusion (noDigit.symm.trans digit)
  have visible : isSpace c = false := by
    simp [isSpace, other (d := ' ') (by decide) rfl, other (d := '\n') (by decide) rfl,
      other (d := '\t') (by decide) rfl, other (d := '\r') (by decide) rfl]
  rw [split] at scanned ⊢
  refine ofText_cons visible ?_
  rw [scan.eq_11 c tail (other (by decide) rfl) (other (by decide) rfl) (other (by decide) rfl)
    (other (by decide) rfl) (other (by decide) rfl) (other (by decide) rfl)
    (other (by decide) rfl) (other (by decide) rfl) (other (by decide) rfl)
    (other (by decide) rfl), if_pos begins, scanNumeral, scanned]

end Token

end VolBacktest.Json
