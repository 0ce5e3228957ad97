import Mathlib.Data.List.TakeWhile
import VolBacktest.Proofs.Compilation.Reliance
import VolBacktest.Proofs.Lowering.LeafWalk
import VolBacktest.Proofs.Lowering.Reference
import VolBacktest.Proofs.Rules.Coverage
import VolBacktest.Proofs.Traversals

/-!
# What the log tells

The events of judging, lowering and compiling a strategy are written to a log, a line for each. The lines say
what has come of it: how many violations there are, which aggregates have given a signal and which leaf a
hedge, and what is in the configuration. They come from several functions, and lowering may break off in the
middle of the leaves, so what is in the log of a strategy is first established for each traversal: its events
are those of the elements before the first at which it fails.
-/

namespace VolBacktest

/-- What is written for an event. -/
structure Line where
  level : Level
  stage : Stage
  message : String
deriving DecidableEq

def Event.line (event : Event) : Line := ⟨event.level, event.stage, event.message⟩

/-- The log of a computation. -/
def Journaled.lines (run : Journaled ε α) : List Line := run.events.map Event.line

namespace Line

def ofReport (triggers violations : Nat) : Line :=
  ⟨.debug, .validation, "validated strategy with " ++ toString triggers ++ " trigger(s): " ++
    toString violations ++ " violation(s)"⟩

def ofRefusal (violations : Nat) : Line :=
  ⟨.warn, .lowering, "refusing to compile strategy: " ++ toString violations ++ " violation(s)"⟩

/-- An aggregate gives so many dates, which open or close positions. -/
def ofSignal (index dates : Nat) (opening : Prop) [Decidable opening] : Line :=
  ⟨.debug, .lowering, (Location.trigger index).path ++ ": " ++ toString dates ++ " date(s) as " ++
    if opening then "TradeIn" else "TradeOut"⟩

def ofHedge (leaf : Leaf) : Line :=
  ⟨.debug, .actions, leaf.location.path ++ ": delta hedge Daily"⟩

def ofConfig (config : Config) : Line :=
  ⟨.info, .lowering, "compiled strategy: " ++ toString config.tradeIn.length ++ " trade-in / " ++
    toString config.tradeOut.length ++ " trade-out signal(s), hedge: " ++
    if config.hedge.isSome then "true" else "false"⟩

end Line

/-! ### Aggregates -/

namespace Trigger

def childKinds : Trigger → List TriggerKind
  | aggregate children _ => children.map kind
  | _ => []

/-- The trigger is an aggregate with a date and a portfolio child. -/
def FillsRoles (trigger : Trigger) : Prop :=
  .date ∈ trigger.childKinds ∧ .portfolio ∈ trigger.childKinds

instance : DecidablePred FillsRoles := fun trigger =>
  inferInstanceAs (Decidable (.date ∈ trigger.childKinds ∧ .portfolio ∈ trigger.childKinds))

instance (requirement : LevelRequirement) : Decidable requirement.AsksForNone :=
  inferInstanceAs (Decidable (_ ∧ _))

/-- The line of an aggregate that fills both roles, from the first children in them. -/
inductive Announced : Trigger × Nat → Line → Prop where
  | aggregate {children : List Trigger} {own : List Action} {dates : Guarded (List Date)}
      {gate : Guarded LevelRequirement} {index : Nat}
      (firstDates : FirstOfKind children (.date dates))
      (firstGate : FirstOfKind children (.portfolio gate)) :
      Announced (.aggregate children own, index)
        (.ofSignal index dates.requirement.length gate.requirement.AsksForNone)

/-- The line of an aggregate of an accepted strategy, from its only two children. -/
inductive AnnouncedPair : Trigger × Nat → Line → Prop where
  | aggregate {children : List Trigger} {own : List Action} {dates : Guarded (List Date)}
      {gate : Guarded LevelRequirement} {index : Nat}
      (pair : children.Perm [.date dates, .portfolio gate]) :
      AnnouncedPair (.aggregate children own, index)
        (.ofSignal index dates.requirement.length (gate.requirement.direction = .equal))

/-- If there is a child of the kind, one of them is the first. -/
theorem exists_firstOfKind {children : List Trigger} {wanted : TriggerKind}
    (present : wanted ∈ children.map kind) :
    ∃ child, child.kind = wanted ∧ FirstOfKind children child := by
  induction children with
  | nil => contradiction
  | cons head rest ih =>
      by_cases same : head.kind = wanted
      · exact ⟨head, same, [], rest, rfl, by simp⟩
      · rw [List.map_cons, List.mem_cons] at present
        obtain ⟨child, isWanted, before, after, rfl, earlier⟩ := ih (present.resolve_left (Ne.symm same))
        refine ⟨child, isWanted, head :: before, after, rfl, ?_⟩
        simpa [isWanted, same] using earlier

theorem FirstOfKind.kind_mem {children : List Trigger} {child : Trigger}
    (first : FirstOfKind children child) : child.kind ∈ children.map kind := by
  obtain ⟨before, after, rfl, -⟩ := first
  simp

theorem line_signal (index dates : Nat) (requirement : LevelRequirement) :
    (Event.signal (.trigger index) dates requirement.side).line =
      .ofSignal index dates requirement.AsksForNone := by
  by_cases opening : requirement.AsksForNone
  · have side : requirement.side = .tradeIn :=
      LevelRequirement.side_eq_iff.mpr (iff_of_true rfl opening)
    rw [Line.ofSignal, if_pos opening, side]
    rfl
  · have side : requirement.side = .tradeOut :=
      LevelRequirement.side_eq_iff.mpr (iff_of_false nofun opening)
    rw [Line.ofSignal, if_neg opening, side]
    rfl

theorem announced_of_fillsRoles {trigger : Trigger} {index : Nat} (fills : trigger.FillsRoles) :
    ∃ line, (trigger.event index).map Event.line = some line ∧ Announced (trigger, index) line := by
  cases trigger with
  | aggregate children own =>
      obtain ⟨child, isDate, firstDates⟩ := exists_firstOfKind fills.1
      obtain ⟨other, isGate, firstGate⟩ := exists_firstOfKind fills.2
      obtain ⟨dates, rfl⟩ : ∃ dates, child = .date dates := by
        cases child <;> first | exact ⟨_, rfl⟩ | contradiction
      obtain ⟨gate, rfl⟩ : ∃ gate, other = .portfolio gate := by
        cases other <;> first | exact ⟨_, rfl⟩ | contradiction
      have signal := Signal.ofChildren_eq_some_iff.mpr ⟨dates, gate, firstDates, firstGate, rfl⟩
      refine ⟨_, ?_, .aggregate firstDates firstGate⟩
      rw [event, Trigger.signal, signal, ← line_signal, Option.map_some, Option.map_some,
        List.length_map]
  | date | portfolio | periodic | market | risk => cases fills.1

theorem event_of_not_fillsRoles {trigger : Trigger} {index : Nat} (lacks : ¬trigger.FillsRoles) :
    trigger.event index = none := by
  rw [event, Option.map_eq_none_iff]
  cases trigger with
  | aggregate children own =>
      rw [Trigger.signal, Option.eq_none_iff_forall_ne_some]
      intro signal given
      obtain ⟨dates, gate, firstDates, firstGate, -⟩ := Signal.ofChildren_eq_some_iff.mp given
      exact lacks ⟨firstDates.kind_mem, firstGate.kind_mem⟩
  | date | portfolio | periodic | market | risk => rfl

/-- A composed aggregate has a line, which its only two children decide. -/
theorem IsComposed.announcedPair {trigger : Trigger} (composed : trigger.IsComposed) {index : Nat}
    (isAggregate : trigger.kind = .aggregate) :
    ∃ line, (trigger.event index).map Event.line = some line ∧ AnnouncedPair (trigger, index) line := by
  cases trigger with
  | aggregate children own =>
      obtain ⟨dates, gate, isGate, shape⟩ := composed
      have signal : Signal.ofChildren children =
          some ⟨gate.requirement.side, dates.requirement.map SignalItem.firesOn⟩ := by
        obtain rfl | rfl := shape <;> rfl
      have pair : children.Perm [.date dates, .portfolio gate] := by
        obtain rfl | rfl := shape
        · exact .refl _
        · exact .swap ..
      have opening : gate.requirement.AsksForNone ↔ gate.requirement.direction = .equal := by
        simp [LevelRequirement.AsksForNone, isGate.2]
      refine ⟨_, ?_, .aggregate pair⟩
      rw [event, Trigger.signal, signal, Option.map_some, Option.map_some, List.length_map,
        line_signal]
      simp only [Line.ofSignal, opening]
  | date | portfolio | periodic | market | risk => contradiction

end Trigger

/-! ### Leaves -/

namespace Leaf

/-- The leaf hedges with its first action, at a frequency that the engine has. -/
def HedgesDaily (leaf : Leaf) : Prop :=
  leaf.action.map Action.kind = some .hedge ∧ leaf.trigger.frequency = some "B"

instance : DecidablePred HedgesDaily := fun leaf =>
  inferInstanceAs (Decidable (leaf.action.map Action.kind = some .hedge ∧ _))

/-- One of the actions of the leaf is a hedge. -/
def CarriesHedge (leaf : Leaf) : Prop := .hedge ∈ leaf.trigger.actions.map Action.kind

theorem line_hedge (leaf : Leaf) :
    (Event.hedge leaf.location .daily).line = .ofHedge leaf := by
  have text : (Event.hedge leaf.location .daily).message =
      leaf.location.path ++ ": delta hedge " ++ "Daily" := rfl
  have joined : ": delta hedge " ++ "Daily" = ": delta hedge Daily" := rfl
  rw [Event.line, text, String.append_assoc, joined]
  rfl

/-- Only a daily hedge has a line. -/
theorem line_event (leaf : Leaf) : leaf.event.map Event.line =
    if leaf.HedgesDaily then some (.ofHedge leaf) else none := by
  rw [event]
  split
  next action first =>
    have ofKind : leaf.action.map Action.kind = some .hedge := by
      rw [first]
      rfl
    cases mapped : leaf.hedgeFrequency with
    | none =>
        have notDaily : ¬leaf.HedgesDaily := fun hedges =>
          hedgeFrequency_eq_none_iff.mp mapped hedges.2
        rw [if_neg notDaily]
        rfl
    | some frequency =>
        cases frequency
        have daily : leaf.trigger.frequency = some businessDay := by
          by_contra not
          rw [hedgeFrequency_eq_none_iff.mpr not] at mapped
          contradiction
        have hedges : leaf.HedgesDaily := ⟨ofKind, daily⟩
        rw [if_pos hedges, Option.map_some, Option.map_some, line_hedge]
  next other =>
    have notHedge : ¬leaf.HedgesDaily := by
      rintro ⟨ofKind, -⟩
      obtain ⟨action, first, isHedge⟩ := Option.map_eq_some_iff.mp ofKind
      cases action with
      | hedge action => exact other action first
      | enter | exit | addTrade | rebalance => cases isHedge
    rw [if_neg notHedge]
    rfl

end Leaf

namespace Strategy

variable (strategy : Strategy)

/-- The lines of the aggregates. -/
def signalLines : List Line :=
  strategy.triggers.zipIdx.filterMap fun item => (item.1.event item.2).map Event.line

theorem lines_lowerJournaled : strategy.lowerJournaled.lines =
    strategy.signalLines ++ (strategy.loweredLeaves.filter Leaf.HedgesDaily).map Line.ofHedge := by
  have hedges : (strategy.loweredLeaves.filterMap Leaf.event).map Event.line =
      (strategy.loweredLeaves.filter Leaf.HedgesDaily).map Line.ofHedge := by
    rw [List.map_filterMap, ← List.filterMap_eq_map, List.filterMap_filter]
    refine List.filterMap_congr fun leaf _ => ?_
    simp only [leaf.line_event, decide_eq_true_eq, Function.comp_apply]
  rw [Journaled.lines, lowerJournaled_eq, List.map_append, hedges, List.map_filterMap, signalLines]

/-- Lowering tells of each aggregate that fills both roles, and then of the daily hedges among the leaves
before the first that it fails at. -/
inductive LoweringLog : List Line → Prop where
  | lowered {signals : List Line} {before rest : List Leaf}
      (announced : List.Forall₂ Trigger.Announced
        (strategy.triggers.zipIdx.filter fun item => item.1.FillsRoles) signals)
      (split : strategy.leaves = before ++ rest)
      (lowerable : ∀ leaf ∈ before, ∀ error, ¬leaf.Unlowerable error)
      (stopped : ∀ leaf, rest.head? = some leaf → ∃ error, leaf.Unlowerable error) :
      LoweringLog (signals ++ (before.filter Leaf.HedgesDaily).map .ofHedge)

/-- Compiling tells of the violations, and that they are the reason for giving up, or else of each aggregate,
of the leaf that hedges, if there is one, and of the configuration. -/
inductive CompilationLog : List Line → Prop where
  | refused (reported : strategy.diagnostics ≠ []) :
      CompilationLog [.ofReport strategy.triggers.length strategy.diagnostics.length,
        .ofRefusal strategy.diagnostics.length]
  | compiled {config : Config} {signals hedges : List Line} (silent : strategy.diagnostics = [])
      (result : strategy.compile = .ok config)
      (announced : List.Forall₂ Trigger.AnnouncedPair
        (strategy.triggers.zipIdx.filter fun item => item.1.kind = .aggregate) signals)
      (hedged : (∃ leaf ∈ strategy.leaves, leaf.CarriesHedge ∧
          (∀ other ∈ strategy.leaves, other.CarriesHedge → other = leaf) ∧ hedges = [.ofHedge leaf]) ∨
        (∀ leaf ∈ strategy.leaves, ¬leaf.CarriesHedge) ∧ hedges = []) :
      CompilationLog ([.ofReport strategy.triggers.length 0] ++ signals ++ hedges ++ [.ofConfig config])

variable {strategy}

/-- In an accepted strategy all hedges are first actions and daily. -/
theorem Accepted.hedgesDaily_iff (accepted : strategy.Accepted) {leaf : Leaf}
    (member : leaf ∈ strategy.leaves) : leaf.HedgesDaily ↔ leaf.CarriesHedge := by
  obtain ⟨action, single, fits⟩ := accepted.single leaf member
  rw [Leaf.HedgesDaily, Leaf.CarriesHedge, Leaf.action, single]
  cases action with
  | hedge action => exact iff_of_true ⟨rfl, fits.1⟩ List.mem_cons_self
  | enter | exit | addTrade | rebalance => simp [Action.kind]

/-- A hedge needs a frequency, so it is on a periodic trigger. -/
theorem Accepted.carriesHedge_unique (accepted : strategy.Accepted) {first second : Leaf}
    (atFirst : first ∈ strategy.leaves) (atSecond : second ∈ strategy.leaves)
    (firstHedges : first.CarriesHedge) (secondHedges : second.CarriesHedge) : first = second := by
  have periodic {leaf : Leaf} (member : leaf ∈ strategy.leaves) (hedges : leaf.CarriesHedge) :
      leaf.trigger.kind = .periodic := by
    have daily := ((accepted.hedgesDaily_iff member).mpr hedges).2
    cases trigger : leaf.trigger with
    | periodic _ => rfl
    | date | portfolio | aggregate | market | risk =>
        rw [trigger] at daily
        cases daily
  exact accepted.periodic_leaf_unique atFirst atSecond (periodic atFirst firstHedges)
    (periodic atSecond secondHedges) firstHedges secondHedges

theorem Accepted.loweredLeaves_eq (accepted : strategy.Accepted) :
    strategy.loweredLeaves = strategy.leaves := by
  refine List.takeWhile_eq_self_iff.mpr fun leaf member => ?_
  rw [Leaf.fault_eq_none (accepted_iff.mp accepted) member, Option.isNone_none]

/-- At most one leaf hedges. -/
theorem Accepted.hedge_leaves (accepted : strategy.Accepted) :
    (∃ leaf ∈ strategy.leaves, leaf.CarriesHedge ∧
        (∀ other ∈ strategy.leaves, other.CarriesHedge → other = leaf) ∧
          strategy.leaves.filter Leaf.HedgesDaily = [leaf]) ∨
      (∀ leaf ∈ strategy.leaves, ¬leaf.CarriesHedge) ∧
        strategy.leaves.filter Leaf.HedgesDaily = [] := by
  by_cases hedged : ∃ leaf ∈ strategy.leaves, leaf.CarriesHedge
  · obtain ⟨leaf, member, carries⟩ := hedged
    have only : ∀ other ∈ strategy.leaves, other.CarriesHedge → other = leaf :=
      fun other among hedges => accepted.carriesHedge_unique among member hedges carries
    refine .inl ⟨leaf, member, carries, only, ?_⟩
    have same : (strategy.leaves.filter Leaf.HedgesDaily).Perm [leaf] := by
      refine (List.perm_ext_iff_of_nodup (strategy.nodup_leaves.filter _)
        (List.nodup_singleton leaf)).mpr fun other => ?_
      rw [List.mem_filter, List.mem_singleton, decide_eq_true_eq]
      constructor
      · rintro ⟨among, daily⟩
        exact only other among ((accepted.hedgesDaily_iff among).mp daily)
      · rintro rfl
        exact ⟨member, (accepted.hedgesDaily_iff member).mpr carries⟩
    exact List.perm_singleton.mp same
  · have none : ∀ leaf ∈ strategy.leaves, ¬leaf.CarriesHedge :=
      fun leaf member carries => hedged ⟨leaf, member, carries⟩
    refine .inr ⟨none, List.filter_eq_nil_iff.mpr fun leaf member => ?_⟩
    rw [decide_eq_true_eq, accepted.hedgesDaily_iff member]
    exact none leaf member

theorem Accepted.announced (accepted : strategy.Accepted) :
    List.Forall₂ Trigger.AnnouncedPair
      (strategy.triggers.zipIdx.filter fun item => item.1.kind = .aggregate)
      strategy.signalLines := by
  refine forall₂_filter_filterMap ?_ ?_
  · intro item member isAggregate
    have owned := List.fst_mem_of_mem_zipIdx member
    exact (accepted.composed _ owned).announcedPair isAggregate
  · rintro ⟨trigger, index⟩ - other
    cases trigger with
    | aggregate children own => exact absurd rfl other
    | date | portfolio | periodic | market | risk => rfl

theorem lines_compileJournaled_of_reported (reported : strategy.diagnostics ≠ []) :
    strategy.compileJournaled.lines =
      [.ofReport strategy.triggers.length strategy.diagnostics.length,
        .ofRefusal strategy.diagnostics.length] := by
  have counted : strategy.diagnostics.length = strategy.violations.length := List.length_map _
  have found : ¬strategy.violations.isEmpty := by
    rwa [List.isEmpty_iff, ← diagnostics_eq_nil_iff]
  rw [Journaled.lines, compileJournaled, counted]
  simp only [Journaled.record_def, Journaled.ok_bind, if_neg found]
  rfl

theorem lines_compileJournaled_of_silent (silent : strategy.diagnostics = []) :
    strategy.compileJournaled.lines = [.ofReport strategy.triggers.length 0] ++
      strategy.lowerJournaled.lines ++ [.ofConfig strategy.configuration] := by
  have none := diagnostics_eq_nil_iff.mp silent
  have empty : strategy.violations.isEmpty := by rw [none, List.isEmpty_nil]
  have lowered : strategy.lowerJournaled.result = .ok strategy.configuration := by
    have compiled := compile_eq_ok silent
    rwa [compile_eq, if_pos silent] at compiled
  rw [Journaled.lines, compileJournaled]
  simp only [Journaled.record_def, Journaled.ok_bind, if_pos empty]
  rw [Journaled.events_bind_of_ok lowered, List.map_append, List.map_append, none]
  rfl

/-- The log tells the outcome: of compiling whether and why there is no configuration, or what is in it, and
of lowering, which may be applied to any strategy, how far it has come. -/
theorem log_tells_outcome (strategy : Strategy) :
    strategy.CompilationLog strategy.compileJournaled.lines ∧
      strategy.LoweringLog strategy.lowerJournaled.lines := by
  constructor
  case left =>
    by_cases silent : strategy.diagnostics = []
    · have accepted := accepted_iff.mpr silent
      rw [lines_compileJournaled_of_silent silent, lines_lowerJournaled, accepted.loweredLeaves_eq,
        ← List.append_assoc]
      refine .compiled silent (compile_eq_ok silent) accepted.announced ?_
      obtain ⟨leaf, member, carries, only, found⟩ | ⟨none, found⟩ := accepted.hedge_leaves
      · exact .inl ⟨leaf, member, carries, only, by rw [found, List.map_singleton]⟩
      · exact .inr ⟨none, by rw [found, List.map_nil]⟩
    · rw [lines_compileJournaled_of_reported silent]
      exact .refused silent
  case right =>
    rw [lines_lowerJournaled]
    refine .lowered ?announced List.takeWhile_append_dropWhile.symm ?lowerable ?stopped
    case announced =>
      refine forall₂_filter_filterMap ?_ ?_
      · rintro ⟨trigger, index⟩ - fills
        exact Trigger.announced_of_fillsRoles fills
      · rintro ⟨trigger, index⟩ - lacks
        rw [Trigger.event_of_not_fillsRoles lacks, Option.map_none]
    case lowerable =>
      intro leaf member
      have sound := List.mem_takeWhile_imp member
      rwa [Option.isNone_iff_eq_none, Leaf.fault_eq_none_iff] at sound
    case stopped =>
      intro leaf first
      have faulty := List.head?_dropWhile_not (fun leaf : Leaf => leaf.fault.isNone) strategy.leaves
      rw [first] at faulty
      obtain ⟨error, fault⟩ := Option.isSome_iff_exists.mp (Option.isNone_eq_false_iff.mp faulty)
      exact ⟨error, Leaf.fault_eq_some_iff.mp fault⟩

/-- Lowering the options goes unnoticed, the hedge and the closing signal do not. -/
example : rolledAndHedged.compileJournaled.lines.map Line.message =
    ["validated strategy with 3 trigger(s): 0 violation(s)",
      "triggers[2]: 1 date(s) as TradeOut", "triggers[1]: delta hedge Daily",
      "compiled strategy: 0 trade-in / 1 trade-out signal(s), hedge: true"] := by
  decide

end Strategy

end VolBacktest
