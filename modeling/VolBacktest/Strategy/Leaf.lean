import VolBacktest.Strategy.Location

/-!
# Leaves of a strategy

The leaves are the triggers whose actions take effect. An aggregate stands for its children: a child
that looks at the portfolio only gates its siblings, and every other child is a leaf. All other
triggers of the strategy are leaves themselves. The rules for actions and the compilation of actions
both go through this one list.
-/

namespace VolBacktest

/-- A trigger whose actions take effect, and where it stands. -/
structure Leaf where
  trigger : Trigger
  location : Location
deriving DecidableEq

/-- The leaves that the trigger at this index contributes. -/
def Trigger.leaves (index : Nat) : Trigger → List Leaf
  | .aggregate children _ =>
    (children.zipIdx.filter fun (child, _) => child.kind ≠ .portfolio).map
      fun (child, position) => ⟨child, .child index position⟩
  | trigger => [⟨trigger, .trigger index⟩]

def Strategy.leaves (strategy : Strategy) : List Leaf :=
  strategy.triggers.zipIdx.flatMap fun (trigger, index) => trigger.leaves index

end VolBacktest
