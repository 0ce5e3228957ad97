import VolBacktest.Trigger.Basic

/-!
# Signals of aggregate triggers

An aggregate is meant to combine dates with a condition on the size of the portfolio: it then
gives a series of dates on which positions are opened, if the portfolio has to be empty, or
closed, otherwise. Of several children of one role the first counts, and children of other roles
do not matter.
-/

namespace VolBacktest

/-- The children of an aggregate by role, in their order. -/
structure AggregateParts where
  dates : List (Guarded (List Date))
  portfolios : List (Guarded LevelRequirement)

namespace Trigger

/-- The trigger, if it looks at the calendar. -/
def asDate : Trigger → Option (Guarded (List Date))
  | date t => some t
  | _ => none

/-- The trigger, if it looks at the portfolio. -/
def asPortfolio : Trigger → Option (Guarded LevelRequirement)
  | portfolio t => some t
  | _ => none

end Trigger

namespace AggregateParts

/-- The parts after one more child. -/
def add (parts : AggregateParts) : Trigger → AggregateParts
  | .date child => { parts with dates := parts.dates ++ [child] }
  | .portfolio child => { parts with portfolios := parts.portfolios ++ [child] }
  | .periodic _ | .aggregate _ _ | .market _ | .risk _ => parts

/-- Goes through the children, in their order. -/
def ofChildren (children : List Trigger) : AggregateParts :=
  children.foldl add ⟨[], []⟩

theorem foldl_add (parts : AggregateParts) (children : List Trigger) :
    children.foldl add parts =
      ⟨parts.dates ++ children.filterMap Trigger.asDate,
        parts.portfolios ++ children.filterMap Trigger.asPortfolio⟩ := by
  induction children generalizing parts with
  | nil => simp
  | cons child rest ih =>
      rw [List.foldl_cons, ih]
      cases child <;> simp [add, List.filterMap_cons, Trigger.asDate, Trigger.asPortfolio]

theorem ofChildren_eq (children : List Trigger) :
    ofChildren children =
      ⟨children.filterMap Trigger.asDate, children.filterMap Trigger.asPortfolio⟩ := by
  rw [ofChildren, foldl_add]
  rfl

@[simp] theorem dates_ofChildren (children : List Trigger) :
    (ofChildren children).dates = children.filterMap Trigger.asDate := by
  rw [ofChildren_eq]

@[simp] theorem portfolios_ofChildren (children : List Trigger) :
    (ofChildren children).portfolios = children.filterMap Trigger.asPortfolio := by
  rw [ofChildren_eq]

end AggregateParts

inductive SignalSide where
  /-- Open positions while there are none. -/
  | tradeIn
  /-- Close the open positions. -/
  | tradeOut
deriving DecidableEq

def SignalSide.name : SignalSide → String
  | tradeIn => "TradeIn"
  | tradeOut => "TradeOut"

/-- Only a portfolio that has to be empty opens positions. -/
def LevelRequirement.side (requirement : LevelRequirement) : SignalSide :=
  if requirement.direction = .equal ∧ requirement.level.isZero then .tradeIn else .tradeOut

/-- One date of a series and whether the signal fires then. -/
structure SignalItem where
  date : Date
  value : Bool
deriving DecidableEq

def SignalItem.firesOn (date : Date) : SignalItem := ⟨date, true⟩

structure Signal where
  side : SignalSide
  items : List SignalItem
deriving DecidableEq

/-- The signal of an aggregate with these children; none if a role is not filled. -/
def Signal.ofChildren (children : List Trigger) : Option Signal :=
  let parts := AggregateParts.ofChildren children
  match parts.dates, parts.portfolios with
  | date :: _, portfolio :: _ =>
    some ⟨portfolio.requirement.side, date.requirement.map SignalItem.firesOn⟩
  | _, _ => none

/-- A signal is made of the first date and the first portfolio child. -/
theorem Signal.ofChildren_eq_bind (children : List Trigger) :
    ofChildren children =
      (AggregateParts.ofChildren children).dates.head?.bind fun dates =>
        (AggregateParts.ofChildren children).portfolios.head?.map fun gate =>
          ⟨gate.requirement.side, dates.requirement.map SignalItem.firesOn⟩ := by
  rw [ofChildren]
  cases (AggregateParts.ofChildren children).dates with
  | nil => rfl
  | cons dates _ =>
      cases (AggregateParts.ofChildren children).portfolios with
      | nil => rfl
      | cons gate _ => rfl

end VolBacktest
