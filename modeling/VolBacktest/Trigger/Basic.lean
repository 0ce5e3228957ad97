import VolBacktest.Calendar.Date
import VolBacktest.Action.Basic

/-!
# Triggers

A trigger is a requirement that guards actions. The requirement looks at the calendar, at the
portfolio, at a market level or at a risk measure; an aggregate trigger combines other triggers,
which have actions of their own.
-/

namespace VolBacktest

/-- The code of a business-day frequency, the only one that a hedge may have. -/
def businessDay : String := "B"

/-- The data source that counts the open positions of the portfolio. -/
def portfolioLength : String := "len"

/-- How an observed value stands to the level of a requirement. -/
inductive Direction where
  | above
  | below
  | equal
deriving DecidableEq

def Direction.name : Direction → String
  | above => "ABOVE"
  | below => "BELOW"
  | equal => "EQUAL"

/-- A level of some data source, of the market or of the portfolio itself. -/
structure LevelRequirement where
  source : String
  level : Binary64
  direction : Direction
deriving DecidableEq

structure RiskRequirement where
  risk : RiskMeasure
  level : Binary64
  direction : Direction
deriving DecidableEq

/-- A requirement and the actions it guards. -/
structure Guarded (ρ : Type) where
  requirement : ρ
  actions : List Action
deriving DecidableEq

inductive Trigger where
  | date (trigger : Guarded (List Date))
  | portfolio (trigger : Guarded LevelRequirement)
  | periodic (trigger : Guarded String)
  | aggregate (children : List Trigger) (actions : List Action)
  | market (trigger : Guarded LevelRequirement)
  | risk (trigger : Guarded RiskRequirement)

inductive TriggerKind where
  | date
  | portfolio
  | periodic
  | aggregate
  | market
  | risk
deriving DecidableEq

def TriggerKind.name : TriggerKind → String
  | date => "DateTrigger"
  | portfolio => "PortfolioTrigger"
  | periodic => "PeriodicTrigger"
  | aggregate => "AggregateTrigger"
  | market => "MktTrigger"
  | risk => "RiskTrigger"

namespace Trigger

instance : Inhabited Trigger := ⟨aggregate [] []⟩

def kind : Trigger → TriggerKind
  | date _ => .date
  | portfolio _ => .portfolio
  | periodic _ => .periodic
  | aggregate _ _ => .aggregate
  | market _ => .market
  | risk _ => .risk

/-- The trigger's own actions, which for an aggregate are not those of its children. -/
def actions : Trigger → List Action
  | date t => t.actions
  | portfolio t => t.actions
  | periodic t => t.actions
  | aggregate _ actions => actions
  | market t => t.actions
  | risk t => t.actions

/-- The period of a periodic trigger. -/
def frequency : Trigger → Option String
  | periodic t => some t.requirement
  | _ => none

/-- The triggers that an aggregate combines. -/
def children : Trigger → List Trigger
  | aggregate children _ => children
  | _ => []

/-- The trigger with other actions of its own. -/
def withActions : Trigger → List Action → Trigger
  | date t, actions => date { t with actions }
  | portfolio t, actions => portfolio { t with actions }
  | periodic t, actions => periodic { t with actions }
  | aggregate children _, actions => aggregate children actions
  | market t, actions => market { t with actions }
  | risk t, actions => risk { t with actions }

@[simp] theorem actions_withActions (trigger : Trigger) (actions : List Action) :
    (trigger.withActions actions).actions = actions := by
  cases trigger <;> rfl

@[simp] theorem kind_withActions (trigger : Trigger) (actions : List Action) :
    (trigger.withActions actions).kind = trigger.kind := by
  cases trigger <;> rfl

mutual

private def equal : Trigger → Trigger → Bool
  | date a, date b => decide (a = b)
  | portfolio a, portfolio b => decide (a = b)
  | periodic a, periodic b => decide (a = b)
  | aggregate as actions, aggregate bs others => equalList as bs && decide (actions = others)
  | market a, market b => decide (a = b)
  | risk a, risk b => decide (a = b)
  | _, _ => false

private def equalList : List Trigger → List Trigger → Bool
  | [], [] => true
  | a :: as, b :: bs => equal a b && equalList as bs
  | _, _ => false

end

mutual

private theorem eq_of_equal : ∀ {a b : Trigger}, equal a b = true → a = b
  | date _, b, h => by cases b <;> simp_all [equal]
  | portfolio _, b, h => by cases b <;> simp_all [equal]
  | periodic _, b, h => by cases b <;> simp_all [equal]
  | aggregate as _, b, h => by
    cases b <;>
      simp only [equal, Bool.false_eq_true, Bool.and_eq_true, decide_eq_true_eq] at h
    rw [eq_of_equalList h.1, h.2]
  | market _, b, h => by cases b <;> simp_all [equal]
  | risk _, b, h => by cases b <;> simp_all [equal]

private theorem eq_of_equalList : ∀ {as bs : List Trigger}, equalList as bs = true → as = bs
  | [], bs, h => by cases bs <;> simp_all [equalList]
  | a :: as, bs, h => by
    cases bs <;> simp only [equalList, Bool.false_eq_true, Bool.and_eq_true] at h
    rw [eq_of_equal h.1, eq_of_equalList h.2]

end

mutual

private theorem equal_self : ∀ a : Trigger, equal a a = true
  | date _ => by simp [equal]
  | portfolio _ => by simp [equal]
  | periodic _ => by simp [equal]
  | aggregate as _ => by simp [equal, equalList_self as]
  | market _ => by simp [equal]
  | risk _ => by simp [equal]

private theorem equalList_self : ∀ as : List Trigger, equalList as as = true
  | [] => rfl
  | a :: as => by simp [equalList, equal_self a, equalList_self as]

end

instance : DecidableEq Trigger := fun a b =>
  if h : equal a b then isTrue (eq_of_equal h)
  else isFalse fun e => h (e ▸ equal_self a)

end Trigger

end VolBacktest
