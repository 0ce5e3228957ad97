import VolBacktest.Calendar.DateText
import VolBacktest.Config.Basic
import VolBacktest.Strategy.Location

/-!
# The journal

Judging, compiling and submitting a strategy leave a trail of events. A `Journaled` computation
produces them together with its result, in the order in which they happen; a failure keeps the
events up to it.
-/

namespace VolBacktest

inductive Event where
  | validated (triggers violations : Nat)
  | refused (violations : Nat)
  /-- An aggregate has given a series of so many dates. -/
  | signal (location : Location) (dates : Nat) (side : SignalSide)
  | hedge (location : Location) (frequency : HedgeFrequency)
  | compiled (tradeIn tradeOut : Nat) (hedged : Bool)
  | submitted (name : String) (first last : Date)
deriving DecidableEq

inductive Level where
  | debug
  | info
  | warn
deriving DecidableEq

/-- The part of the work that an event belongs to. -/
inductive Stage where
  | validation
  | lowering
  | actions
  | engine
deriving DecidableEq

namespace Event

def level : Event → Level
  | validated _ _ | signal _ _ _ | hedge _ _ => .debug
  | compiled _ _ _ | submitted _ _ _ => .info
  | refused _ => .warn

def stage : Event → Stage
  | validated _ _ => .validation
  | refused _ | signal _ _ _ | compiled _ _ _ => .lowering
  | hedge _ _ => .actions
  | submitted _ _ _ => .engine

def message : Event → String
  | validated triggers violations =>
    "validated strategy with " ++ toString triggers ++ " trigger(s): " ++ toString violations ++
      " violation(s)"
  | refused violations =>
    "refusing to compile strategy: " ++ toString violations ++ " violation(s)"
  | signal location dates side =>
    location.path ++ ": " ++ toString dates ++ " date(s) as " ++ side.name
  | hedge location frequency => location.path ++ ": delta hedge " ++ frequency.label
  | compiled tradeIn tradeOut hedged =>
    "compiled strategy: " ++ toString tradeIn ++ " trade-in / " ++ toString tradeOut ++
      " trade-out signal(s), hedge: " ++ (if hedged then "true" else "false")
  | submitted name first last =>
    "submitting '" ++ name ++ "' for " ++ first.text ++ " to " ++ last.text

end Event

/-- A result or a failure, and the events on the way to it. -/
structure Journaled (ε α : Type) where
  events : List Event
  result : Except ε α

namespace Journaled

variable {ε α β : Type}

def record (event : Event) : Journaled ε Unit := ⟨[event], .ok ()⟩

def fail (error : ε) : Journaled ε α := ⟨[], .error error⟩

protected def pure (value : α) : Journaled ε α := ⟨[], .ok value⟩

/-- What comes next happens only after a success. -/
protected def bind (first : Journaled ε α) (next : α → Journaled ε β) : Journaled ε β :=
  match first.result with
  | .ok value => ⟨first.events ++ (next value).events, (next value).result⟩
  | .error error => ⟨first.events, .error error⟩

instance : Monad (Journaled ε) where
  pure := Journaled.pure
  bind := Journaled.bind

@[simp] theorem pure_def (value : α) : (pure value : Journaled ε α) = ⟨[], .ok value⟩ := rfl

@[simp] theorem record_def (event : Event) :
    (record event : Journaled ε Unit) = ⟨[event], .ok ()⟩ := rfl

@[simp] theorem fail_def (error : ε) : (fail error : Journaled ε α) = ⟨[], .error error⟩ := rfl

@[simp] theorem ok_bind (events : List Event) (value : α) (next : α → Journaled ε β) :
    (⟨events, .ok value⟩ >>= next : Journaled ε β) =
      ⟨events ++ (next value).events, (next value).result⟩ := rfl

@[simp] theorem error_bind (events : List Event) (error : ε) (next : α → Journaled ε β) :
    (⟨events, .error error⟩ >>= next : Journaled ε β) = ⟨events, .error error⟩ := rfl

end Journaled

end VolBacktest
