import VolBacktest.Proofs.Text.Digits
import VolBacktest.Strategy.Location

/-!
# Paths of a report

A path is a text, but it can be read in one way only. An index is a run of digits, so it ends before the
bracket that closes it, and what follows the bracket tells children from actions. Reports can therefore
be read as reports about locations.
-/

namespace VolBacktest

namespace Location

/-- Two texts that begin with a subscript have the same index and go on in the same way. -/
theorem subscript_append_inj {i j : Nat} {first second : String}
    (h : subscript i ++ first = subscript j ++ second) : i = j ∧ first = second := by
  have chars := congrArg String.toList h
  have bracketed : Nat.toDigits 10 i ++ ']' :: first.toList =
      Nat.toDigits 10 j ++ ']' :: second.toList := by
    simpa [subscript, Nat.toString_eq_ofList_toDigits] using chars
  have taken := congrArg (List.takeWhile Char.isDigit) bracketed
  have left := congrArg (List.dropWhile Char.isDigit) bracketed
  have closes (rest : List Char) : Text.EndsDigits (']' :: rest) := Text.endsDigits_cons rest rfl
  rw [(Text.digits_toDigits i).takeWhile_append (closes _),
    (Text.digits_toDigits j).takeWhile_append (closes _)] at taken
  rw [(Text.digits_toDigits i).dropWhile_append (closes _),
    (Text.digits_toDigits j).dropWhile_append (closes _)] at left
  refine ⟨?_, String.toList_inj.mp (List.cons.inj left).2⟩
  have value := congrArg (Nat.ofDigitChars 10 · 0) taken
  simpa using value

@[simp] theorem subscript_inj {i j : Nat} : subscript i = subscript j ↔ i = j := by
  constructor
  · intro same
    exact (subscript_append_inj (congrArg (· ++ "") same)).1
  · rintro rfl
    rfl

/-- The trigger of the strategy that a location is in. -/
def trigger? : Location → Option Nat
  | initialPortfolio | triggers => none
  | trigger i | child i _ | action i _ => some i

/-- What a path goes on with after the index of that trigger. -/
def continuation : Location → String
  | initialPortfolio | triggers | trigger _ => ""
  | child _ j => ".triggers" ++ subscript j
  | action _ k => ".actions" ++ subscript k

theorem path_of_trigger {location : Location} {i : Nat} (inside : location.trigger? = some i) :
    location.path = "triggers" ++ (subscript i ++ location.continuation) := by
  cases location <;> simp_all [trigger?, path, continuation, String.append_assoc]

/-- Inside a trigger the location is given by the index and the continuation. -/
theorem eq_of_continuation {a b : Location} {i : Nat} (inside : a.trigger? = some i)
    (insideToo : b.trigger? = some i) (same : a.continuation = b.continuation) : a = b := by
  replace same := congrArg String.toList same
  cases a <;> cases b <;> simp_all [trigger?, continuation, String.toList_inj]

/-- A path outside the triggers belongs to one location. -/
theorem eq_of_outside {a b : Location} (outside : a.trigger? = none) (same : a.path = b.path) :
    a = b := by
  replace same := congrArg String.toList same
  cases a with
  | initialPortfolio => cases b <;> simp [path] at same ⊢
  | triggers => cases b <;> simp [path, subscript] at same ⊢
  | trigger _ => contradiction
  | child _ _ => contradiction
  | action _ _ => contradiction

/-- Different locations have different paths. -/
theorem path_injective : Function.Injective path := by
  intro a b same
  cases inside : a.trigger? with
  | none => exact eq_of_outside inside same
  | some i =>
      cases insideToo : b.trigger? with
      | none => exact (eq_of_outside insideToo same.symm).symm
      | some j =>
          rw [path_of_trigger inside, path_of_trigger insideToo] at same
          obtain ⟨rfl, rest⟩ := subscript_append_inj ((String.append_right_inj _).mp same)
          exact eq_of_continuation inside insideToo rest

end Location

end VolBacktest
