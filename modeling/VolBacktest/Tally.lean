/-!
# Tallies

How often each key occurs in a list, counted in one pass over it. The counts are in a map, and nothing is
made of the order in which a map holds its entries; so a tally also has the keys in the order in which they
were first met.
-/

namespace VolBacktest

structure Tally (κ : Type) where
  /-- The entries of a map from keys to how often they have been met. -/
  counts : List (κ × Nat)
  /-- The keys that have been met, each where it was first met. -/
  order : List κ

namespace Tally

variable {κ : Type} [DecidableEq κ]

def empty : Tally κ := ⟨[], []⟩

/-- The entries with this one, in the place of one that has the same key. -/
def setCount (key : κ) (count : Nat) : List (κ × Nat) → List (κ × Nat)
  | [] => [(key, count)]
  | (k, n) :: rest =>
    if k = key then (key, count) :: rest else (k, n) :: setCount key count rest

/-- The count of the key, if the map has an entry for it. -/
def count? (tally : Tally κ) (key : κ) : Option Nat :=
  (tally.counts.find? (·.1 = key)).map (·.2)

/-- Counts the key once more. -/
def add (tally : Tally κ) (key : κ) : Tally κ :=
  let count := (tally.count? key).getD 0
  { counts := setCount key (count + 1) tally.counts
    order := if count = 0 then tally.order ++ [key] else tally.order }

def ofList (keys : List κ) : Tally κ := keys.foldl add empty

end Tally

end VolBacktest
