import VolBacktest.SortedMap

/-!
# Calendar dates

Days of the proleptic Gregorian calendar, with a year zero and negative years before it. The range
of years is finite, and a `Date` always names a day that exists: the month lengths are part of the
type. Dates are ordered as days, which for years outside 0 to 9999 differs from the order of their
texts.
-/

namespace VolBacktest

namespace Date

def minYear : Int := -262143
def maxYear : Int := 262142

def isLeapYear (year : Int) : Bool :=
  year % 4 == 0 && (year % 100 != 0 || year % 400 == 0)

def daysInMonth (year : Int) (month : Nat) : Nat :=
  match month with
  | 2 => if isLeapYear year then 29 else 28
  | 4 | 6 | 9 | 11 => 30
  | _ => 31

/-- The calendar has such a day. -/
def Exists (year : Int) (month day : Nat) : Prop :=
  minYear ≤ year ∧ year ≤ maxYear ∧ 1 ≤ month ∧ month ≤ 12 ∧
    1 ≤ day ∧ day ≤ daysInMonth year month

instance (year : Int) (month day : Nat) : Decidable (Exists year month day) :=
  inferInstanceAs (Decidable (_ ∧ _ ∧ _ ∧ _ ∧ _ ∧ _))

end Date

structure Date where
  year : Int
  month : Nat
  day : Nat
  valid : Date.Exists year month day
deriving DecidableEq

namespace Date

instance : Inhabited Date := ⟨⟨1970, 1, 1, by decide⟩⟩

def ofYMD (year : Int) (month day : Nat) : Option Date :=
  if h : Exists year month day then some ⟨year, month, day, h⟩ else none

@[simp] theorem ofYMD_self (date : Date) : ofYMD date.year date.month date.day = some date := by
  simp [ofYMD, date.valid]

/-- Earlier in the calendar. -/
def Before (a b : Date) : Prop :=
  a.year < b.year ∨ a.year = b.year ∧ (a.month < b.month ∨ a.month = b.month ∧ a.day < b.day)

instance : LT Date := ⟨Before⟩

theorem lt_def (a b : Date) : a < b ↔
    a.year < b.year ∨ a.year = b.year ∧ (a.month < b.month ∨ a.month = b.month ∧ a.day < b.day) :=
  Iff.rfl

instance (a b : Date) : Decidable (a < b) :=
  inferInstanceAs (Decidable (_ ∨ _ ∧ (_ ∨ _ ∧ _)))

instance : KeyOrder Date where
  irrefl a := by simp [lt_def]
  trans {a b c} h₁ h₂ := by
    simp only [lt_def] at *
    omega
  eq_of_not_lt {a b} h₁ h₂ := by
    cases a; cases b
    simp only [lt_def, mk.injEq] at *
    omega

end Date

end VolBacktest
