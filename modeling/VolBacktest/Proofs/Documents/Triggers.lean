import VolBacktest.Proofs.Documents.Actions
import VolBacktest.Trigger.Document

/-!
# Triggers read back

The reader of triggers is built from itself, one level of nesting after the other, and each level opens
containers. So what a reader of some levels reads is restored by the reader of as many levels or more:
`Trigger.readerWithin_restores`, by induction on the levels, with the children of an aggregate read
one level further in.
-/

namespace VolBacktest

open Json

variable {mode : Mode} {budget index : Nat} {source : Source}

theorem Direction.reader_roundTrips : reader.RoundTrips json :=
  fun _ budget _ direction _ => Reader.oneOf_restores (by cases direction <;> rfl) budget

namespace Trigger

/-! ### Requirements -/

theorem datesReader_roundTrips :
    datesReader.RoundTrips fun dates => .object (datesMembers dates) := by
  intro mode budget tree dates read
  obtain ⟨rest, source, rfl, field⟩ := Fields.reader_ok read
  have encoded := Fields.Encodes.required (Reader.list_roundTrips Reader.date_roundTrips) field
  exact encoded.restores _ (by simp)

theorem levelReader_roundTrips (typeName : String) :
    (levelReader typeName).RoundTrips fun requirement => .object (levelMembers requirement) := by
  intro mode budget tree requirement read
  obtain ⟨rest, source, rfl, fields⟩ := Fields.reader_ok read
  obtain ⟨_, direction, two, readDirection, rfl⟩ := Fields.seq_ok fields
  obtain ⟨_, level, one, readLevel, rfl⟩ := Fields.seq_ok two
  obtain ⟨place, readSource, rfl⟩ := Fields.map_ok one
  have first := Fields.Encodes.required Reader.string_roundTrips readSource
  have second := Fields.Encodes.required Reader.number_roundTrips readLevel
  have third := Fields.Encodes.required Direction.reader_roundTrips readDirection
  exact (((first.map _).seq second).seq third).restores _ (by simp)

theorem frequencyReader_roundTrips :
    frequencyReader.RoundTrips fun frequency => .object [("frequency", .string frequency)] := by
  intro mode budget tree frequency read
  obtain ⟨rest, source, rfl, field⟩ := Fields.reader_ok read
  exact (Fields.Encodes.required Reader.string_roundTrips field).restores _ (by simp)

theorem riskReader_roundTrips :
    riskReader.RoundTrips fun requirement => .object (riskMembers requirement) := by
  intro mode budget tree requirement read
  obtain ⟨rest, source, rfl, fields⟩ := Fields.reader_ok read
  obtain ⟨_, direction, two, readDirection, rfl⟩ := Fields.seq_ok fields
  obtain ⟨_, level, one, readLevel, rfl⟩ := Fields.seq_ok two
  obtain ⟨risk, readRisk, rfl⟩ := Fields.map_ok one
  have first := Fields.Encodes.required RiskMeasure.reader_roundTrips readRisk
  have second := Fields.Encodes.required Reader.number_roundTrips readLevel
  have third := Fields.Encodes.required Direction.reader_roundTrips readDirection
  exact (((first.map _).seq second).seq third).restores _ (by simp)

theorem childrenReader_ok {child : Reader Trigger} {tree : Tree} {children : List Trigger}
    (read : childrenReader child mode budget tree = .ok children) :
    ∃ rest, budget = rest + 2 ∧ ∀ trigger ∈ children, ∃ tree, child mode rest tree = .ok trigger := by
  obtain ⟨outer, source, rfl, field⟩ := Fields.reader_ok read
  obtain ⟨tree, items⟩ := Fields.required_ok field
  obtain ⟨rest, rfl, each⟩ := Reader.list_ok items
  exact ⟨rest, rfl, each⟩

theorem childrenReader_restores {child : Reader Trigger} {children : List Trigger}
    (each : ∀ trigger ∈ children, child.Restores budget trigger.json trigger) :
    (childrenReader child).Restores (budget + 2)
      (.object [("triggers", .array (jsonList children))]) children := by
  rw [jsonList_eq_map]
  exact (Fields.Encodes.required_of "triggers" (Reader.list_restores each)).restores _ (by simp)

/-! ### Requirements and actions -/

theorem guardedFields_ok {ρ : Type} {requirement : Reader ρ} {make : ρ → List Action → Trigger}
    {trigger : Trigger}
    (read : (guardedFields requirement make).read mode budget source index = .ok trigger) :
    ∃ value actions, trigger = make value actions ∧
      (∃ tree, requirement mode budget tree = .ok value) ∧
      ((∃ tree, Reader.list Action.reader mode budget tree = .ok actions) ∨ actions = []) := by
  obtain ⟨_, actions, one, readActions, rfl⟩ := Fields.seq_ok read
  obtain ⟨value, readValue, rfl⟩ := Fields.map_ok one
  exact ⟨value, actions, rfl, Fields.required_ok readValue, Fields.defaulted_ok readActions⟩

/-- The requirement is a container, so there is room for the list of actions, even if they were left
out. -/
theorem guardedFields_encodes {ρ : Type} {requirement : Reader ρ}
    {make : ρ → List Action → Trigger} {value : ρ} {actions : List Action}
    {members : List (String × Json)} (positive : 0 < budget)
    (restored : requirement.Restores budget (.object members) value)
    (read : (∃ tree, Reader.list Action.reader mode budget tree = .ok actions) ∨ actions = []) :
    (guardedFields requirement make).Encodes budget (guardedMembers members actions)
      (make value actions) := by
  have actionsRestored : (Reader.list Action.reader).Restores budget
      (.array (actions.map Action.json)) actions := by
    obtain ⟨tree, read⟩ | rfl := read
    · exact Reader.list_roundTrips Action.reader_roundTrips read
    · exact Reader.list_restores_nil Action.reader positive
  have first := Fields.Encodes.required_of "trigger_requirements" restored
  have second := Fields.Encodes.single "actions" (fun _ _ => .ok []) actionsRestored
  exact (first.map make).seq second

/-! ### Levels of nesting -/

/-- The fields of a kind read triggers of this kind. They are encoded by their members for every reader
of children that restores what the children have been read as. -/
theorem fieldsOf_encodes {child restorer : Reader Trigger}
    (restores : ∀ ⦃mode budget tree trigger⦄, child mode budget tree = .ok trigger →
      restorer.Restores budget trigger.json trigger) {kind : TriggerKind} {trigger : Trigger}
    (read : (fieldsOf child kind).read mode budget source index = .ok trigger) :
    trigger.kind = kind ∧ (fieldsOf restorer kind).Encodes budget
      (guardedMembers trigger.requirementMembers trigger.actions) trigger := by
  cases kind with
  | date =>
    obtain ⟨_, _, rfl, ⟨_, requirement⟩, actions⟩ := guardedFields_ok read
    exact ⟨rfl, guardedFields_encodes (Fields.room_of_read requirement)
      (datesReader_roundTrips requirement) actions⟩
  | portfolio =>
    obtain ⟨_, _, rfl, ⟨_, requirement⟩, actions⟩ := guardedFields_ok read
    exact ⟨rfl, guardedFields_encodes (Fields.room_of_read requirement)
      (levelReader_roundTrips _ requirement) actions⟩
  | periodic =>
    obtain ⟨_, _, rfl, ⟨_, requirement⟩, actions⟩ := guardedFields_ok read
    exact ⟨rfl, guardedFields_encodes (Fields.room_of_read requirement)
      (frequencyReader_roundTrips requirement) actions⟩
  | aggregate =>
    obtain ⟨children, _, rfl, ⟨_, requirement⟩, actions⟩ := guardedFields_ok read
    obtain ⟨rest, rfl, each⟩ := childrenReader_ok requirement
    refine ⟨rfl, guardedFields_encodes (Nat.succ_pos _) (childrenReader_restores ?_) actions⟩
    intro trigger member
    obtain ⟨tree, read⟩ := each trigger member
    exact restores read
  | market =>
    obtain ⟨_, _, rfl, ⟨_, requirement⟩, actions⟩ := guardedFields_ok read
    exact ⟨rfl, guardedFields_encodes (Fields.room_of_read requirement)
      (levelReader_roundTrips _ requirement) actions⟩
  | risk =>
    obtain ⟨_, _, rfl, ⟨_, requirement⟩, actions⟩ := guardedFields_ok read
    exact ⟨rfl, guardedFields_encodes (Fields.room_of_read requirement)
      (riskReader_roundTrips requirement) actions⟩

theorem readerWithin_ok {levels : Nat} {tree : Tree} {trigger : Trigger}
    (read : readerWithin (levels + 1) mode budget tree = .ok trigger) :
    ∃ rest kind source, budget = rest + 1 ∧
      (fieldsOf (readerWithin levels) kind).read .kept rest source 0 = .ok trigger := by
  obtain ⟨rest, source, key, body, rfl, member, found⟩ := Reader.tagged_ok read
  obtain ⟨kind, -, same⟩ := List.mem_map.mp member
  cases same
  exact ⟨rest, kind, source, rfl, found⟩

/-- What is read within some levels is restored within as many or more. -/
theorem readerWithin_restores {levels more : Nat} (enough : levels ≤ more) {tree : Tree}
    {trigger : Trigger} (read : readerWithin levels mode budget tree = .ok trigger) :
    (readerWithin more).Restores budget trigger.json trigger := by
  induction levels generalizing more mode budget tree trigger with
  | zero => contradiction
  | succ levels ih =>
    obtain ⟨more, rfl⟩ := Nat.exists_eq_add_of_le' (Nat.le_of_add_left_le enough)
    obtain ⟨rest, kind, source, rfl, found⟩ := readerWithin_ok read
    obtain ⟨rfl, encoded⟩ := fieldsOf_encodes
      (fun _ _ _ _ read => ih (Nat.le_of_succ_le_succ enough) read) found
    have chosen : (bodies (readerWithin more)).lookup trigger.kind.name =
        some ⟨"TriggerBase", fieldsOf (readerWithin more) trigger.kind⟩ := by
      cases trigger <;> rfl
    exact Reader.tagged_restores chosen encoded (by simp [guardedMembers, tagName])

theorem reader_roundTrips : reader.RoundTrips json := by
  intro mode budget tree trigger read
  refine ⟨(readerWithin_restores (Nat.le_refl _) read).legible, ?_⟩
  intro mode room enough
  exact (readerWithin_restores (Nat.succ_le_succ enough) read).reads mode room enough

end Trigger

end VolBacktest
