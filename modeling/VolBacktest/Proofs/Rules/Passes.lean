import VolBacktest.Proofs.Rules.Codes
import VolBacktest.Proofs.Rules.Coverage

/-!
# Passes over a strategy

Four groups of rules look at one trigger at a time, whatever stands beside it; only the rules on initial
positions, on the number of triggers and on repeated actions look at the strategy as a whole. What such a
pass reports about a trigger depends on its index only in the places it names: `violationsIn_shift`. So
whatever is done to the list of triggers, a pass follows. The code of an entry tells the pass that it is
from, so the entries of one code are those of one pass: `filter_violations_of_pass`.
-/

namespace VolBacktest

/-- Where the elements stand does not matter if nothing is made of it. -/
theorem flatMap_zipIdx_eq {α β : Type} (items : List α) (f : α → List β) :
    (items.zipIdx.flatMap fun item => f item.1) = items.flatMap f := by
  conv => rhs; rw [← List.zipIdx_map_fst 0 items, List.flatMap_map]

/-- The groups of rules that look at one trigger at a time. -/
inductive Pass where
  | topLevel
  | composition
  | ownActions
  | leaves

/-- The pass that reports such breaches; none for rules that look across the triggers. -/
def Breach.pass : Breach → Option Pass
  | initialPositions _ | tooManyTriggers _ | repeatedAction _ _ => none
  | topLevelKind _ => some .topLevel
  | childCount _ | dateChildCount _ | portfolioChildCount _ | portfolioGate _ _ =>
    some .composition
  | unsupportedOwnAction _ => some .ownActions
  | actionCount _ _ | enterDuration _ _ | enterInstrument _ | enterUnsized | hedgeDuration _ _
  | hedgeRisk _ | hedgeFrequency _ | unsupportedAction _ => some .leaves

/-- What a pass reports about the trigger at this index. -/
def Trigger.violationsIn (index : Nat) (trigger : Trigger) : Pass → List Violation
  | .topLevel => trigger.topLevelViolations index
  | .composition => trigger.compositionViolations index
  | .ownActions => trigger.ownActionViolations index
  | .leaves => (trigger.leaves index).flatMap Leaf.violations

/-- What a pass reports about all triggers, one after the other. -/
def Strategy.violationsIn (strategy : Strategy) (pass : Pass) : List Violation :=
  strategy.triggers.zipIdx.flatMap fun item => item.1.violationsIn item.2 pass

/-! ### Codes -/

theorem Breach.pass_of_isOfLeaf {breach : Breach} (ofLeaf : breach.isOfLeaf = true) :
    breach.pass = some .leaves := by
  cases breach <;> simp_all [isOfLeaf, pass]

/-- The pass that entries with this code are from. -/
def Pass.ofCode (code : String) : Option Pass :=
  if code = "V003" then some .topLevel
  else if code ∈ ["V004", "V005", "V006", "V007"] then some .composition
  else if code = "V008" then some .ownActions
  else if code ∈ ["V001", "V002", "V009"] then none
  else some .leaves

theorem Pass.ofCode_code (breach : Breach) : ofCode breach.code = breach.pass := by
  cases breach <;> rfl

/-- Every code but three belongs to a pass. -/
theorem exists_pass_of_code {code : String} (notPositions : code ≠ "V001") (notSize : code ≠ "V002")
    (notRepeated : code ≠ "V009") :
    ∃ pass, ∀ breach : Breach, breach.code = code → breach.pass = some pass := by
  have belongs : (Pass.ofCode code).isSome := by
    simp only [Pass.ofCode, List.mem_cons, notPositions, notSize, notRepeated, List.not_mem_nil,
      or_self, if_false]
    split
    · rfl
    · split
      · rfl
      · split <;> rfl
  obtain ⟨pass, named⟩ := Option.isSome_iff_exists.mp belongs
  refine ⟨pass, fun breach same => ?_⟩
  rw [← Pass.ofCode_code, same, named]

/-! ### Places -/

/-- The same place in a trigger that stands so many places later. -/
def Location.shift (offset : Nat) : Location → Location
  | initialPortfolio => initialPortfolio
  | triggers => triggers
  | trigger i => trigger (i + offset)
  | child i j => child (i + offset) j
  | action i k => action (i + offset) k

def Leaf.shift (offset : Nat) (leaf : Leaf) : Leaf :=
  { leaf with location := leaf.location.shift offset }

def Violation.shift (offset : Nat) (violation : Violation) : Violation :=
  { violation with location := violation.location.map (Location.shift offset) }

theorem Leaf.violations_shift (offset : Nat) (leaf : Leaf) :
    (leaf.shift offset).violations = leaf.violations.map (Violation.shift offset) := by
  rw [violations, violations, List.map_map]
  rfl

theorem map_reportUnless {condition : Prop} [Decidable condition] (f : Violation → Violation)
    (violation : Violation) :
    (reportUnless condition violation).map f = reportUnless condition (f violation) := by
  rw [reportUnless, reportUnless]
  split <;> rfl

namespace Trigger

variable {trigger : Trigger} {index : Nat} {violation : Violation}

theorem gateViolations_shift (trigger : Trigger) (index position offset : Nat) :
    trigger.gateViolations (index + offset) position =
      (trigger.gateViolations index position).map (Violation.shift offset) := by
  cases trigger with
  | portfolio gate =>
      rw [gateViolations, gateViolations, map_reportUnless]
      rfl
  | date | periodic | aggregate | market | risk => rfl

theorem compositionViolations_shift (trigger : Trigger) (index offset : Nat) :
    trigger.compositionViolations (index + offset) =
      (trigger.compositionViolations index).map (Violation.shift offset) := by
  cases trigger with
  | aggregate children own =>
      simp only [compositionViolations, List.map_append, map_reportUnless, List.map_flatMap,
        gateViolations_shift]
      rfl
  | date | portfolio | periodic | market | risk => rfl

theorem ownActionViolations_shift (trigger : Trigger) (index offset : Nat) :
    trigger.ownActionViolations (index + offset) =
      (trigger.ownActionViolations index).map (Violation.shift offset) := by
  simp only [ownActionViolations, List.map_flatMap, map_reportUnless]
  rfl

theorem leaves_shift (trigger : Trigger) (index offset : Nat) :
    trigger.leaves (index + offset) = (trigger.leaves index).map (Leaf.shift offset) := by
  cases trigger with
  | aggregate children own =>
      simp only [leaves, List.map_map]
      rfl
  | date | portfolio | periodic | market | risk => rfl

/-- Further back in the strategy a trigger is reported for the same, only under other places. -/
theorem violationsIn_shift (trigger : Trigger) (index offset : Nat) (pass : Pass) :
    trigger.violationsIn (index + offset) pass =
      (trigger.violationsIn index pass).map (Violation.shift offset) := by
  cases pass with
  | topLevel =>
      rw [violationsIn, violationsIn, topLevelViolations, topLevelViolations, map_reportUnless]
      rfl
  | composition => exact compositionViolations_shift trigger index offset
  | ownActions => exact ownActionViolations_shift trigger index offset
  | leaves =>
      simp only [violationsIn, leaves_shift, List.flatMap_map, List.map_flatMap,
        Leaf.violations_shift]

/-- What is broken does not depend on the index at all. -/
def breachesIn (trigger : Trigger) (pass : Pass) : List Breach :=
  (trigger.violationsIn 0 pass).map Violation.breach

theorem map_breach_violationsIn (trigger : Trigger) (index : Nat) (pass : Pass) :
    (trigger.violationsIn index pass).map Violation.breach = trigger.breachesIn pass := by
  have shifted := trigger.violationsIn_shift 0 index pass
  rw [Nat.zero_add] at shifted
  rw [shifted, List.map_map, breachesIn]
  rfl

/-- A pass reports breaches of its own rules, each in a place inside the trigger. -/
theorem pass_of_mem_violationsIn {pass : Pass} (member : violation ∈ trigger.violationsIn index pass) :
    violation.breach.pass = some pass ∧
      ∃ location, violation.location = some location ∧ location.trigger? = some index := by
  cases pass with
  | topLevel =>
      obtain ⟨-, rfl⟩ := mem_reportUnless_iff.mp member
      exact ⟨rfl, _, rfl, rfl⟩
  | composition =>
      cases trigger with
      | aggregate children own =>
          simp only [violationsIn, compositionViolations, List.mem_append, List.mem_flatMap,
            mem_reportUnless_iff] at member
          obtain ((⟨-, rfl⟩ | ⟨-, rfl⟩) | ⟨-, rfl⟩) | ⟨⟨child, position⟩, -, gate⟩ := member
          · exact ⟨rfl, _, rfl, rfl⟩
          · exact ⟨rfl, _, rfl, rfl⟩
          · exact ⟨rfl, _, rfl, rfl⟩
          · cases child with
            | portfolio t =>
                obtain ⟨-, rfl⟩ := mem_reportUnless_iff.mp gate
                exact ⟨rfl, _, rfl, rfl⟩
            | _ => cases gate
      | _ => cases member
  | ownActions =>
      obtain ⟨⟨action, position⟩, -, unsupported⟩ := List.mem_flatMap.mp member
      obtain ⟨-, rfl⟩ := mem_reportUnless_iff.mp unsupported
      exact ⟨rfl, _, rfl, rfl⟩
  | leaves =>
      obtain ⟨leaf, contributed, atLeaf⟩ := List.mem_flatMap.mp member
      obtain ⟨breach, broken, rfl⟩ := List.mem_map.mp atLeaf
      exact ⟨Breach.pass_of_isOfLeaf (isOfLeaf_of_mem_leafBreaches broken), _, rfl,
        trigger?_of_mem_leaves contributed⟩

end Trigger

/-! ### Reports -/

namespace Strategy

variable {strategy : Strategy} {violation : Violation}

/-- What the rules report that look at the strategy as a whole. -/
def violationsAcross (strategy : Strategy) : List Violation :=
  reportUnless strategy.initialPortfolio.isEmpty
      ((Breach.initialPositions strategy.initialPortfolio.length).at .initialPortfolio) ++
    reportUnless (strategy.triggers.length ≤ maxTriggers)
      ((Breach.tooManyTriggers strategy.triggers.length).at .triggers) ++
    strategy.repeatedKindViolations

theorem violations_eq (strategy : Strategy) :
    strategy.violations =
      reportUnless strategy.initialPortfolio.isEmpty
          ((Breach.initialPositions strategy.initialPortfolio.length).at .initialPortfolio) ++
        reportUnless (strategy.triggers.length ≤ maxTriggers)
          ((Breach.tooManyTriggers strategy.triggers.length).at .triggers) ++
        strategy.violationsIn .topLevel ++ strategy.violationsIn .composition ++
        strategy.violationsIn .ownActions ++ strategy.repeatedKindViolations ++
        strategy.violationsIn .leaves := by
  rw [violations, leafViolations, leaves, List.flatMap_assoc]
  rfl

theorem mem_violations_iff :
    violation ∈ strategy.violations ↔
      violation ∈ strategy.violationsAcross ∨ ∃ pass, violation ∈ strategy.violationsIn pass := by
  rw [violations_eq, violationsAcross]
  simp only [List.mem_append]
  constructor
  · rintro ((((((one | one) | one) | one) | one) | one) | one)
    · exact .inl (.inl (.inl one))
    · exact .inl (.inl (.inr one))
    · exact .inr ⟨_, one⟩
    · exact .inr ⟨_, one⟩
    · exact .inr ⟨_, one⟩
    · exact .inl (.inr one)
    · exact .inr ⟨_, one⟩
  · rintro (((one | one) | one) | ⟨pass, one⟩)
    · simp only [one, true_or]
    · simp only [one, true_or, or_true]
    · simp only [one, true_or, or_true]
    · cases pass <;> simp only [one, true_or, or_true]

theorem mem_violationsIn_iff {pass : Pass} :
    violation ∈ strategy.violationsIn pass ↔ ∃ (index : Nat) (trigger : Trigger),
      strategy.triggers[index]? = some trigger ∧ violation ∈ trigger.violationsIn index pass := by
  simp only [violationsIn, List.mem_flatMap, Prod.exists, List.mk_mem_zipIdx_iff_getElem?]
  exact exists_comm

theorem mem_repeatedKindViolations_iff :
    violation ∈ strategy.repeatedKindViolations ↔
      ∃ kind, 1 < strategy.ownActionKinds.count kind ∧ violation =
        ⟨.repeatedAction kind (strategy.ownActionKinds.count kind), none⟩ := by
  simp only [repeatedKindViolations_eq, List.mem_flatMap, mem_firstOccurrences, mem_reportUnless_iff,
    Nat.not_le]
  refine exists_congr fun kind => ⟨And.right, fun found => ⟨?_, found⟩⟩
  exact List.count_pos_iff.mp (Nat.zero_lt_of_lt found.1)

theorem mem_violationsAcross_iff :
    violation ∈ strategy.violationsAcross ↔
      (strategy.initialPortfolio ≠ [] ∧ violation =
        (Breach.initialPositions strategy.initialPortfolio.length).at .initialPortfolio) ∨
      (maxTriggers < strategy.triggers.length ∧ violation =
        (Breach.tooManyTriggers strategy.triggers.length).at .triggers) ∨
      ∃ kind, 1 < strategy.ownActionKinds.count kind ∧ violation =
        ⟨.repeatedAction kind (strategy.ownActionKinds.count kind), none⟩ := by
  simp only [violationsAcross, List.mem_append, mem_reportUnless_iff, List.isEmpty_iff, Nat.not_le,
    mem_repeatedKindViolations_iff, or_assoc, ne_eq]

theorem pass_of_mem_violationsAcross (member : violation ∈ strategy.violationsAcross) :
    violation.breach.pass = none := by
  obtain ⟨-, rfl⟩ | ⟨-, rfl⟩ | ⟨kind, -, rfl⟩ := mem_violationsAcross_iff.mp member
  · rfl
  · rfl
  · rfl

theorem pass_of_mem_violationsIn {pass : Pass} (member : violation ∈ strategy.violationsIn pass) :
    violation.breach.pass = some pass := by
  obtain ⟨index, trigger, -, inside⟩ := mem_violationsIn_iff.mp member
  exact (Trigger.pass_of_mem_violationsIn inside).1

/-- The entries of a kind that only one pass reports are those of the pass. -/
theorem filter_violations_of_pass {pass : Pass} {p : Breach → Bool}
    (only : ∀ breach, p breach = true → breach.pass = some pass) :
    strategy.violations.filter (fun violation => p violation.breach) =
      (strategy.violationsIn pass).filter fun violation => p violation.breach := by
  have absent {part : List Violation} (apart : ∀ v ∈ part, v.breach.pass ≠ some pass) :
      part.filter (fun violation => p violation.breach) = [] :=
    List.filter_eq_nil_iff.mpr fun v inside holds => apart v inside (only v.breach holds)
  have other {another : Pass} (differs : another ≠ pass) :
      (strategy.violationsIn another).filter (fun violation => p violation.breach) = [] := by
    refine absent fun v reported same => differs ?_
    exact Option.some.inj ((pass_of_mem_violationsIn reported).symm.trans same)
  have across : strategy.violationsAcross.filter (fun violation => p violation.breach) = [] := by
    refine absent fun v reported => ?_
    rw [pass_of_mem_violationsAcross reported]
    nofun
  rw [violationsAcross, List.filter_append, List.filter_append, List.append_eq_nil_iff,
    List.append_eq_nil_iff] at across
  obtain ⟨⟨positions, size⟩, repeats⟩ := across
  simp only [violations_eq, List.filter_append, positions, size, repeats, List.nil_append]
  cases pass <;> simp [other]

/-- The entries of a kind that no pass reports are those of the rules for the whole. -/
theorem filter_violations_across {p : Breach → Bool}
    (only : ∀ breach, p breach = true → breach.pass = none) :
    strategy.violations.filter (fun violation => p violation.breach) =
      strategy.violationsAcross.filter fun violation => p violation.breach := by
  have absent (pass : Pass) :
      (strategy.violationsIn pass).filter (fun violation => p violation.breach) = [] := by
    refine List.filter_eq_nil_iff.mpr fun v reported holds => ?_
    exact nomatch (pass_of_mem_violationsIn reported).symm.trans (only v.breach holds)
  simp [violations_eq, violationsAcross, List.filter_append, absent]

/-- What a pass reports about triggers that are put behind others. -/
theorem violationsIn_append (portfolio : List Instrument) (first second : List Trigger)
    (pass : Pass) :
    violationsIn ⟨portfolio, first ++ second⟩ pass = violationsIn ⟨portfolio, first⟩ pass ++
      (violationsIn ⟨portfolio, second⟩ pass).map (Violation.shift first.length) := by
  have behind : second.zipIdx (0 + first.length) =
      second.zipIdx.map fun item => (item.1, item.2 + first.length) := by
    rw [List.zipIdx_eq_map_add]
    simp only [Nat.zero_add, Nat.add_comm first.length]
  simp only [violationsIn, List.zipIdx_append, List.flatMap_append, behind, List.flatMap_map,
    List.map_flatMap, Trigger.violationsIn_shift]

/-- Which rules a pass finds broken does not depend on where the triggers stand. -/
theorem map_breach_violationsIn (strategy : Strategy) (pass : Pass) :
    (strategy.violationsIn pass).map Violation.breach =
      strategy.triggers.flatMap (·.breachesIn pass) := by
  simp only [violationsIn, List.map_flatMap, Trigger.map_breach_violationsIn]
  exact flatMap_zipIdx_eq strategy.triggers fun trigger => trigger.breachesIn pass

end Strategy

end VolBacktest
