import Mathlib.Data.List.Flatten
import VolBacktest.Proofs.Rules.Passes

/-!
# Reports of concatenated strategies

Triggers that are put behind others keep what is reported about them, under places that are further back.
Two rules alone can be broken by triggers together that keep them apart: there may be too many of them,
and a kind of action may occur in both parts. So more triggers never take an entry of a report away, and
what is left of a supported strategy without some of its triggers is supported.
-/

namespace VolBacktest

namespace Diagnostic

/-- The same entry about a trigger that stands so many places later: of its path only the index of the
trigger differs. -/
structure Renumbered (offset : Nat) (entry moved : Diagnostic) : Prop where
  phase : moved.phase = entry.phase
  code : moved.code = entry.code
  message : moved.message = entry.message
  path : ∃ (index : Nat) (rest : String),
    entry.path = some ("triggers[" ++ toString index ++ "]" ++ rest) ∧
      moved.path = some ("triggers[" ++ toString (index + offset) ++ "]" ++ rest)

/-- The entry says that actions of this kind are repeated. -/
def NamesRepeated (kind : ActionKind) (entry : Diagnostic) : Prop :=
  ∃ count : Nat, entry.message =
    "There are multiple actions of the same type: " ++ kind.name ++ " x" ++ toString count

end Diagnostic

/-! ### Entries -/

theorem Location.path_eq_of_trigger {location : Location} {index : Nat}
    (inside : location.trigger? = some index) :
    location.path = "triggers[" ++ toString index ++ "]" ++ location.continuation := by
  rw [path_of_trigger inside, subscript]
  simp only [← String.append_assoc]
  rfl

theorem Location.trigger?_shift {location : Location} {index : Nat}
    (inside : location.trigger? = some index) (offset : Nat) :
    (location.shift offset).trigger? = some (index + offset) ∧
      (location.shift offset).continuation = location.continuation := by
  cases location <;> cases inside <;> exact ⟨rfl, rfl⟩

/-- An entry about a place in a trigger is renumbered if the trigger moves. -/
theorem Violation.renumbered {violation : Violation} {location : Location} {index : Nat}
    (placed : violation.location = some location) (inside : location.trigger? = some index)
    (offset : Nat) :
    violation.diagnostic.Renumbered offset (violation.shift offset).diagnostic where
  phase := rfl
  code := rfl
  message := rfl
  path := by
    obtain ⟨insideToo, same⟩ := Location.trigger?_shift inside offset
    refine ⟨index, location.continuation, ?_, ?_⟩
    · rw [diagnostic, placed, Option.map_some, Location.path_eq_of_trigger inside]
    · rw [diagnostic, shift, placed, Option.map_some, Option.map_some,
        Location.path_eq_of_trigger insideToo, same]

theorem ActionKind.name_toList_injective {kind other : ActionKind}
    (same : kind.name.toList = other.name.toList) : kind = other := by
  cases kind <;> cases other <;> first | rfl | exact absurd same (by decide)

theorem ActionKind.takeWhile_name (kind : ActionKind) (rest : List Char) :
    (kind.name.toList ++ ' ' :: rest).takeWhile (· != ' ') = kind.name.toList := by
  have words : kind.name.toList.all (· != ' ') = true := by
    cases kind <;> decide
  rw [List.takeWhile_append_of_pos (List.all_eq_true.mp words)]
  exact List.append_nil _

theorem Breach.toList_message_repeatedAction (kind : ActionKind) (count : Nat) :
    (repeatedAction kind count).message.toList =
      "There are multiple actions of the same type: ".toList ++
        (kind.name.toList ++ ' ' :: 'x' :: (toString count).toList) := by
  change ("There are multiple actions of the same type: " ++ kind.name ++ " x" ++
    toString count).toList = _
  simp only [String.toList_append, List.append_assoc]
  rfl

/-- The name of a repeated kind ends at a space, so that a message names one kind only. -/
theorem Breach.repeatedAction_message_inj {kind other : ActionKind} {count times : Nat}
    (same : (repeatedAction kind count).message = (repeatedAction other times).message) :
    kind = other := by
  have chars := congrArg String.toList same
  rw [toList_message_repeatedAction, toList_message_repeatedAction] at chars
  have names := congrArg (List.takeWhile (· != ' ')) (List.append_cancel_left chars)
  exact ActionKind.name_toList_injective <|
    calc kind.name.toList
        _ = _ := (kind.takeWhile_name _).symm
        _ = _ := names
        _ = other.name.toList := other.takeWhile_name _

namespace Strategy

/-- The entries with one code. -/
def reported (strategy : Strategy) (code : String) : List Diagnostic :=
  strategy.diagnostics.filter (·.code = code)

variable {strategy : Strategy} {code : String}

theorem reported_eq (strategy : Strategy) (code : String) :
    strategy.reported code =
      (strategy.violations.filter fun violation => violation.breach.code = code).map
        Violation.diagnostic := by
  rw [reported, diagnostics, List.filter_map]
  rfl

theorem reported_ne_nil_iff :
    strategy.reported code ≠ [] ↔ ∃ violation ∈ strategy.violations, violation.breach.code = code := by
  rw [reported_eq, ne_eq, List.map_eq_nil_iff, List.filter_eq_nil_iff]
  simp

/-- The entries of a pass that have its codes. -/
theorem reported_of_pass {pass : Pass} (only : ∀ breach : Breach, breach.code = code →
    breach.pass = some pass) (strategy : Strategy) :
    strategy.reported code =
      ((strategy.violationsIn pass).filter fun violation => violation.breach.code = code).map
        Violation.diagnostic := by
  rw [reported_eq, filter_violations_of_pass fun breach same => only breach (of_decide_eq_true same)]

/-- The entries with the code of a rule for the whole strategy. -/
theorem reported_across (only : ∀ breach : Breach, breach.code = code → breach.pass = none)
    (strategy : Strategy) :
    strategy.reported code =
      (strategy.violationsAcross.filter fun violation => violation.breach.code = code).map
        Violation.diagnostic := by
  rw [reported_eq, filter_violations_across fun breach same => only breach (of_decide_eq_true same)]

theorem mem_violationsAcross_of_pass {violation : Violation} (member : violation ∈ strategy.violations)
    (none : violation.breach.pass = none) : violation ∈ strategy.violationsAcross := by
  obtain across | ⟨pass, reported⟩ := mem_violations_iff.mp member
  · exact across
  · exact nomatch none.symm.trans (pass_of_mem_violationsIn reported)

/-- An entry with another code is not among those with this code. -/
theorem filter_reportUnless_of_ne {condition : Prop} [Decidable condition] {violation : Violation}
    (other : violation.breach.code ≠ code) :
    (reportUnless condition violation).filter (·.breach.code = code) = [] := by
  refine List.filter_eq_nil_iff.mpr fun found member => ?_
  obtain ⟨-, rfl⟩ := mem_reportUnless_iff.mp member
  simpa using other

/-- Of the triggers, the report on initial positions takes no notice. -/
theorem reported_positions (portfolio : List Instrument) (triggers others : List Trigger) :
    reported ⟨portfolio, triggers⟩ "V001" = reported ⟨portfolio, others⟩ "V001" := by
  have only (breach : Breach) (same : breach.code = "V001") : breach.pass = none := by
    cases breach <;> simp_all [Breach.code, Breach.pass]
  have repeats (strategy : Strategy) :
      strategy.repeatedKindViolations.filter (·.breach.code = "V001") = [] := by
    refine List.filter_eq_nil_iff.mpr fun violation member => ?_
    obtain ⟨kind, -, rfl⟩ := mem_repeatedKindViolations_iff.mp member
    simp [Breach.code]
  have size (triggers : List Trigger) :
      (reportUnless (triggers.length ≤ maxTriggers)
        ((Breach.tooManyTriggers triggers.length).at .triggers)).filter
          (·.breach.code = "V001") = [] :=
    filter_reportUnless_of_ne (by simp [Breach.at, Breach.code])
  rw [reported_across only, reported_across only, violationsAcross, violationsAcross]
  simp only [List.filter_append, repeats, size]

theorem reported_size_ne_nil_iff :
    strategy.reported "V002" ≠ [] ↔ maxTriggers < strategy.triggers.length := by
  rw [reported_ne_nil_iff]
  constructor
  · rintro ⟨violation, member, code⟩
    have broken : ∃ count, violation.breach = .tooManyTriggers count := by
      cases found : violation.breach <;> simp_all [Breach.code]
    obtain ⟨count, broken⟩ := broken
    have across := mem_violationsAcross_of_pass member (by rw [broken]; rfl)
    obtain ⟨-, rfl⟩ | ⟨many, -⟩ | ⟨kind, -, rfl⟩ := mem_violationsAcross_iff.mp across
    · cases broken
    · exact many
    · cases broken
  · intro many
    exact ⟨_, mem_violations_iff.mpr (.inl (mem_violationsAcross_iff.mpr (.inr (.inl ⟨many, rfl⟩)))),
      rfl⟩

theorem exists_namesRepeated_iff {kind : ActionKind} :
    (∃ entry ∈ strategy.reported "V009", entry.NamesRepeated kind) ↔
      1 < strategy.ownActionKinds.count kind := by
  rw [reported_eq]
  constructor
  · rintro ⟨entry, member, count, named⟩
    obtain ⟨violation, filtered, rfl⟩ := List.mem_map.mp member
    obtain ⟨member, code⟩ := List.mem_filter.mp filtered
    have broken : ∃ other count, violation.breach = .repeatedAction other count := by
      cases found : violation.breach <;> simp_all [Breach.code]
    obtain ⟨other, times, broken⟩ := broken
    have across := mem_violationsAcross_of_pass member (by rw [broken]; rfl)
    obtain ⟨-, rfl⟩ | ⟨-, rfl⟩ | ⟨found, often, rfl⟩ := mem_violationsAcross_iff.mp across
    · cases broken
    · cases broken
    · obtain rfl := Breach.repeatedAction_message_inj named
      exact often
  · intro often
    let found : Violation := ⟨.repeatedAction kind (strategy.ownActionKinds.count kind), none⟩
    have across : found ∈ strategy.violationsAcross :=
      mem_violationsAcross_iff.mpr (.inr (.inr ⟨kind, often, rfl⟩))
    refine ⟨found.diagnostic, List.mem_map_of_mem (List.mem_filter.mpr ⟨?_, ?_⟩), _, rfl⟩
    · exact mem_violations_iff.mpr (.inl across)
    · exact decide_eq_true rfl

/-! ### Triggers together -/

theorem ownActionKinds_append (portfolio : List Instrument) (first second : List Trigger) :
    ownActionKinds ⟨portfolio, first ++ second⟩ =
      ownActionKinds ⟨portfolio, first⟩ ++ ownActionKinds ⟨portfolio, second⟩ :=
  List.flatMap_append

/-- The entries of a pass about triggers that are put behind others are those about the first ones and
those about the others, renumbered. -/
theorem reported_append_of_pass {pass : Pass}
    (only : ∀ breach : Breach, breach.code = code → breach.pass = some pass)
    (portfolio : List Instrument) (first second : List Trigger) :
    ∃ moved,
      List.Forall₂ (Diagnostic.Renumbered first.length) (reported ⟨portfolio, second⟩ code) moved ∧
        reported ⟨portfolio, first ++ second⟩ code = reported ⟨portfolio, first⟩ code ++ moved := by
  let behind := (violationsIn ⟨portfolio, second⟩ pass).filter (·.breach.code = code)
  refine ⟨(behind.map (Violation.shift first.length)).map Violation.diagnostic, ?_, ?_⟩
  · rw [reported_of_pass only, List.map_map, List.forall₂_map_left_iff, List.forall₂_map_right_iff,
      List.forall₂_same]
    intro violation member
    obtain ⟨index, trigger, -, inside⟩ :=
      mem_violationsIn_iff.mp (List.mem_of_mem_filter member)
    obtain ⟨-, location, placed, ofTrigger⟩ := Trigger.pass_of_mem_violationsIn inside
    exact Violation.renumbered placed ofTrigger first.length
  · rw [reported_of_pass only, reported_of_pass only, violationsIn_append, List.filter_append,
      List.map_append, List.filter_map]
    rfl

/-- More triggers break every rule that some of them break. -/
theorem exists_violation_of_sublist {portfolio : List Instrument} {kept triggers : List Trigger}
    (part : kept.Sublist triggers) {violation : Violation}
    (broken : violation ∈ violations ⟨portfolio, kept⟩) :
    ∃ found ∈ violations ⟨portfolio, triggers⟩, found.breach.code = violation.breach.code := by
  obtain across | ⟨pass, inside⟩ := mem_violations_iff.mp broken
  · have found {entry : Violation} (member : entry ∈ violationsAcross ⟨portfolio, triggers⟩)
        (same : entry.breach.code = violation.breach.code) :
        ∃ found ∈ violations ⟨portfolio, triggers⟩, found.breach.code = violation.breach.code :=
      ⟨entry, mem_violations_iff.mpr (.inl member), same⟩
    obtain ⟨positions, rfl⟩ | ⟨many, rfl⟩ | ⟨kind, often, rfl⟩ :=
      mem_violationsAcross_iff.mp across
    · exact found (mem_violationsAcross_iff.mpr (.inl ⟨positions, rfl⟩)) rfl
    · have more := Nat.lt_of_lt_of_le many part.length_le
      exact found (mem_violationsAcross_iff.mpr (.inr (.inl ⟨more, rfl⟩))) rfl
    · have more := Nat.lt_of_lt_of_le often ((part.flatMap _).count_le kind)
      exact found (mem_violationsAcross_iff.mpr (.inr (.inr ⟨kind, more, rfl⟩))) rfl
  · have breach := List.mem_map_of_mem (f := Violation.breach) inside
    rw [map_breach_violationsIn] at breach
    have among := (part.flatMap fun trigger => trigger.breachesIn pass).subset breach
    rw [← map_breach_violationsIn ⟨portfolio, triggers⟩] at among
    obtain ⟨found, member, same⟩ := List.mem_map.mp among
    exact ⟨found, mem_violations_iff.mpr (.inr ⟨pass, member⟩), by rw [same]⟩

theorem reported_ne_nil_of_sublist {portfolio : List Instrument} {kept triggers : List Trigger}
    (part : kept.Sublist triggers) (broken : reported ⟨portfolio, kept⟩ code ≠ []) :
    reported ⟨portfolio, triggers⟩ code ≠ [] := by
  obtain ⟨violation, member, same⟩ := reported_ne_nil_iff.mp broken
  obtain ⟨found, memberToo, sameToo⟩ := exists_violation_of_sublist part member
  exact reported_ne_nil_iff.mpr ⟨found, memberToo, sameToo.trans same⟩

theorem isSupported_of_sublist {portfolio : List Instrument} {kept triggers : List Trigger}
    (part : kept.Sublist triggers) (supported : isSupported ⟨portfolio, triggers⟩ = true) :
    isSupported ⟨portfolio, kept⟩ = true := by
  rw [isSupported, List.isEmpty_iff] at supported ⊢
  refine List.eq_nil_iff_forall_not_mem.mpr fun violation broken => ?_
  obtain ⟨found, member, -⟩ := exists_violation_of_sublist part broken
  rw [supported] at member
  cases member

/-- The report of two lists of triggers, one behind the other. Rules for single triggers say the same as of
each list alone; the rules for the whole see the triggers of both. So the report never loses a code by
triggers that are put in between, and what is left of a supported strategy is supported. -/
theorem report_append (portfolio : List Instrument) (first second : List Trigger) :
    let joined : Strategy := ⟨portfolio, first ++ second⟩
    (∀ code, code ≠ "V001" → code ≠ "V002" → code ≠ "V009" → ∃ moved,
      List.Forall₂ (Diagnostic.Renumbered first.length) (reported ⟨portfolio, second⟩ code) moved ∧
        joined.reported code = reported ⟨portfolio, first⟩ code ++ moved) ∧
      (joined.reported "V001" = reported ⟨portfolio, first⟩ "V001" ∧
        joined.reported "V001" = reported ⟨portfolio, second⟩ "V001") ∧
      (joined.reported "V002" ≠ [] ↔ 3 < first.length + second.length) ∧
      (∀ kind, (∃ entry ∈ joined.reported "V009", entry.NamesRepeated kind) ↔
        1 < (ownActionKinds ⟨portfolio, first⟩).count kind +
          (ownActionKinds ⟨portfolio, second⟩).count kind) ∧
      (∀ added code, joined.reported code ≠ [] →
        reported ⟨portfolio, first ++ added :: second⟩ code ≠ []) ∧
      (joined.isSupported = true →
        ∀ kept, kept.Sublist (first ++ second) → isSupported ⟨portfolio, kept⟩ = true) := by
  intro joined
  refine ⟨?single, ⟨?_, ?_⟩, ?size, ?repeats, ?inserted, ?kept⟩
  case single =>
    intro code notPositions notSize notRepeated
    obtain ⟨pass, only⟩ := exists_pass_of_code notPositions notSize notRepeated
    exact reported_append_of_pass only portfolio first second
  · exact reported_positions portfolio _ _
  · exact reported_positions portfolio _ _
  case size => rw [reported_size_ne_nil_iff, List.length_append, maxTriggers]
  case repeats =>
    intro kind
    rw [exists_namesRepeated_iff, ownActionKinds_append, List.count_append]
  case inserted =>
    intro added code broken
    exact reported_ne_nil_of_sublist
      (List.Sublist.append_left (List.sublist_cons_self added second) first) broken
  case kept =>
    intro supported kept part
    exact isSupported_of_sublist part supported

end Strategy

end VolBacktest
