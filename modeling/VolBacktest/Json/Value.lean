import VolBacktest.Numeric.Decimal
import VolBacktest.SortedMap

/-!
# JSON values

A value keeps the members of an object as a list, because the documents written here have a fixed
order of members. The values that are read, on the other hand, are canonical: `Json.ofMembers` sorts
the members by key and keeps the last value of each.

A number is an integer or a binary64 number, and both kinds are kept apart: `1` and `1.0` are
different values with different texts.
-/

namespace VolBacktest

inductive Number where
  | integer (value : Int)
  | float (value : Binary64)
deriving DecidableEq

inductive Json where
  | null
  | bool (value : Bool)
  | number (value : Number)
  | string (value : String)
  | array (items : List Json)
  | object (members : List (String × Json))

namespace Json

instance : Inhabited Json := ⟨null⟩

/-- The object with these members in key order, the last of each key. -/
def ofMembers (members : List (String × Json)) : Json :=
  object (SortedMap.ofList members).entries

/-- A value that may be absent, as null without one. -/
def ofOption (json : α → Json) : Option α → Json
  | none => null
  | some value => json value

def float (x : Binary64) : Json := number (.float x)

mutual

private def equal : Json → Json → Bool
  | null, null => true
  | bool a, bool b => a == b
  | number a, number b => decide (a = b)
  | string a, string b => decide (a = b)
  | array as, array bs => equalItems as bs
  | object as, object bs => equalMembers as bs
  | _, _ => false

private def equalItems : List Json → List Json → Bool
  | [], [] => true
  | a :: as, b :: bs => equal a b && equalItems as bs
  | _, _ => false

private def equalMembers : List (String × Json) → List (String × Json) → Bool
  | [], [] => true
  | (k, a) :: as, (l, b) :: bs => decide (k = l) && equal a b && equalMembers as bs
  | _, _ => false

end

mutual

private theorem eq_of_equal : ∀ {a b : Json}, equal a b = true → a = b
  | null, b, h => by cases b <;> simp_all [equal]
  | bool _, b, h => by cases b <;> simp_all [equal]
  | number _, b, h => by cases b <;> simp_all [equal]
  | string _, b, h => by cases b <;> simp_all [equal]
  | array as, b, h => by
    cases b <;> simp only [equal, Bool.false_eq_true] at h
    rw [eq_of_equalItems h]
  | object as, b, h => by
    cases b <;> simp only [equal, Bool.false_eq_true] at h
    rw [eq_of_equalMembers h]

private theorem eq_of_equalItems : ∀ {as bs : List Json}, equalItems as bs = true → as = bs
  | [], bs, h => by cases bs <;> simp_all [equalItems]
  | a :: as, bs, h => by
    cases bs <;> simp only [equalItems, Bool.false_eq_true, Bool.and_eq_true] at h
    rw [eq_of_equal h.1, eq_of_equalItems h.2]

private theorem eq_of_equalMembers :
    ∀ {as bs : List (String × Json)}, equalMembers as bs = true → as = bs
  | [], bs, h => by cases bs <;> simp_all [equalMembers]
  | (k, a) :: as, bs, h => by
    match bs, h with
    | (l, b) :: bs, h =>
      simp only [equalMembers, Bool.and_eq_true, decide_eq_true_eq] at h
      rw [h.1.1, eq_of_equal h.1.2, eq_of_equalMembers h.2]

end

mutual

private theorem equal_self : ∀ a : Json, equal a a = true
  | null => rfl
  | bool _ => by simp [equal]
  | number _ => by simp [equal]
  | string _ => by simp [equal]
  | array as => by rw [equal]; exact equalItems_self as
  | object as => by rw [equal]; exact equalMembers_self as

private theorem equalItems_self : ∀ as : List Json, equalItems as as = true
  | [] => rfl
  | a :: as => by simp [equalItems, equal_self a, equalItems_self as]

private theorem equalMembers_self : ∀ as : List (String × Json), equalMembers as as = true
  | [] => rfl
  | (k, a) :: as => by simp [equalMembers, equal_self a, equalMembers_self as]

end

instance : DecidableEq Json := fun a b =>
  if h : equal a b then isTrue (eq_of_equal h)
  else isFalse fun e => h (e ▸ equal_self a)

end Json

end VolBacktest
