import VolBacktest.Json.Value

/-!
# Numbers and outlines of values

A value is made up of its numbers and of an outline that has a zero in the place of each number. Both
together determine it: `Json.eq_of_outline`. This is used where numbers may be seen in several ways and
everything else in one.
-/

namespace VolBacktest.Json

mutual

/-- The numbers in a value at any depth, from left to right. -/
def numbers : Json → List Number
  | number value => [value]
  | array items => numbersOfItems items
  | object members => numbersOfMembers members
  | null | bool _ | string _ => []

def numbersOfItems : List Json → List Number
  | [] => []
  | item :: rest => numbers item ++ numbersOfItems rest

def numbersOfMembers : List (String × Json) → List Number
  | [] => []
  | (_, value) :: rest => numbers value ++ numbersOfMembers rest

end

mutual

/-- The value with a zero in the place of each number. -/
def outline : Json → Json
  | number _ => number (.integer 0)
  | array items => array (outlineItems items)
  | object members => object (outlineMembers members)
  | null => null
  | bool value => bool value
  | string value => string value

def outlineItems : List Json → List Json
  | [] => []
  | item :: rest => outline item :: outlineItems rest

def outlineMembers : List (String × Json) → List (String × Json)
  | [] => []
  | (key, value) :: rest => (key, outline value) :: outlineMembers rest

end

mutual

/-- Zeros and numbers are as many. -/
theorem length_numbers_outline : ∀ json : Json, json.outline.numbers.length = json.numbers.length
  | number _ | null | bool _ | string _ => rfl
  | array items => length_numbers_outlineItems items
  | object members => length_numbers_outlineMembers members

theorem length_numbers_outlineItems : ∀ items : List Json,
    (numbersOfItems (outlineItems items)).length = (numbersOfItems items).length
  | [] => rfl
  | item :: rest => by
    simp only [outlineItems, numbersOfItems, List.length_append, length_numbers_outline item,
      length_numbers_outlineItems rest]

theorem length_numbers_outlineMembers : ∀ members : List (String × Json),
    (numbersOfMembers (outlineMembers members)).length = (numbersOfMembers members).length
  | [] => rfl
  | (_, value) :: rest => by
    simp only [outlineMembers, numbersOfMembers, List.length_append, length_numbers_outline value,
      length_numbers_outlineMembers rest]

end

theorem length_numbers_of_outline {json other : Json} (same : other.outline = json.outline) :
    other.numbers.length = json.numbers.length := by
  rw [← length_numbers_outline, same, length_numbers_outline]

mutual

/-- A value is determined by its outline and its numbers. -/
theorem eq_of_outline : ∀ {json other : Json}, other.outline = json.outline →
    other.numbers = json.numbers → other = json
  | number _, other, same, numbers => by cases other <;> simp_all [outline, Json.numbers]
  | null, other, same, _ => by cases other <;> simp_all [outline]
  | bool _, other, same, _ => by cases other <;> simp_all [outline]
  | string _, other, same, _ => by cases other <;> simp_all [outline]
  | array items, other, same, numbers => by
    cases other with
    | array others => rw [eq_of_outlineItems (array.inj same) numbers]
    | _ => contradiction
  | object members, other, same, numbers => by
    cases other with
    | object others => rw [eq_of_outlineMembers (object.inj same) numbers]
    | _ => contradiction

theorem eq_of_outlineItems : ∀ {items others : List Json},
    outlineItems others = outlineItems items → numbersOfItems others = numbersOfItems items →
      others = items
  | [], [], _, _ => rfl
  | item :: rest, other :: others, same, numbers => by
    obtain ⟨first, behind⟩ := List.cons.inj same
    -- As many numbers stand in the first items, so the lists of numbers split at the same place.
    obtain ⟨ofFirst, ofRest⟩ := List.append_inj numbers (length_numbers_of_outline first)
    rw [eq_of_outline first ofFirst, eq_of_outlineItems behind ofRest]

theorem eq_of_outlineMembers : ∀ {members others : List (String × Json)},
    outlineMembers others = outlineMembers members →
      numbersOfMembers others = numbersOfMembers members → others = members
  | [], [], _, _ => rfl
  | (key, value) :: rest, (name, other) :: others, same, numbers => by
    obtain ⟨first, behind⟩ := List.cons.inj same
    obtain ⟨rfl, value⟩ := Prod.mk.inj first
    obtain ⟨ofFirst, ofRest⟩ := List.append_inj numbers (length_numbers_of_outline value)
    rw [eq_of_outline value ofFirst, eq_of_outlineMembers behind ofRest]

end

end VolBacktest.Json
