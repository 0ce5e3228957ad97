import VolBacktest.Proofs.Compilation.Entries
import VolBacktest.Proofs.Documents.Configs
import VolBacktest.Proofs.Documents.Strategies
import VolBacktest.Proofs.Lowering.LastWrite
import VolBacktest.Proofs.Rules.Leaves

/-!
# Configurations compiled from a text

The only containers of any depth in a compiled configuration are its instruments, and they are those of
an enter action that stands in the text of the strategy, further in than they stand in the text of the
configuration. So the configuration can be written and read again within the nesting limit.
-/

namespace VolBacktest

open Json

variable {mode : Mode} {budget index : Nat} {source : Source}

/-! ### Instruments of a trigger that has been read -/

/-- All instruments that a position enters with can be restored. -/
def Action.EntersRestorable (budget : Nat) (action : Action) : Prop :=
  ∀ entry, action = .enter entry → ∀ instrument ∈ entry.instruments,
    Instrument.reader.Restores budget instrument.json instrument

theorem Action.entersRestorable_of_reader {tree : Tree} {action : Action}
    (read : reader mode budget tree = .ok action) : action.EntersRestorable (budget - 2) := by
  rintro entry rfl instrument member
  obtain ⟨outer, kind, source, rfl, fields⟩ := reader_ok read
  obtain ⟨rfl, -⟩ := fieldsOf_encodes fields
  obtain ⟨_, _, three, -, same⟩ := Fields.seq_ok fields
  obtain ⟨_, _, two, -, rfl⟩ := Fields.seq_ok three
  obtain ⟨_, _, one, -, rfl⟩ := Fields.seq_ok two
  obtain ⟨instruments, readInstruments, rfl⟩ := Fields.map_ok one
  cases same
  obtain ⟨tree, items⟩ := Fields.required_ok readInstruments
  obtain ⟨room, rfl, each⟩ := Reader.list_ok items
  obtain ⟨item, found⟩ := each instrument member
  exact Instrument.reader_roundTrips found

namespace Trigger

/-- The actions were read within the trigger, or there are none; the children were read within it. -/
theorem fieldsOf_ok {child : Reader Trigger} {kind : TriggerKind} {trigger : Trigger}
    (read : (fieldsOf child kind).read mode budget source index = .ok trigger) :
    ((∃ tree, Reader.list Action.reader mode budget tree = .ok trigger.actions) ∨
      trigger.actions = []) ∧
    ∀ own ∈ trigger.children, ∃ room tree, room ≤ budget ∧ child mode room tree = .ok own := by
  cases kind with
  | aggregate =>
    obtain ⟨children, _, rfl, ⟨_, requirement⟩, actions⟩ := guardedFields_ok read
    obtain ⟨room, rfl, each⟩ := childrenReader_ok requirement
    refine ⟨actions, ?_⟩
    intro own member
    obtain ⟨tree, found⟩ := each own member
    exact ⟨room, tree, by omega, found⟩
  | _ =>
    obtain ⟨_, _, rfl, -, actions⟩ := guardedFields_ok read
    exact ⟨actions, nofun⟩

theorem entersRestorable_of_readerWithin {levels : Nat} {tree : Tree} {trigger : Trigger}
    (read : readerWithin levels mode budget tree = .ok trigger) :
    ∀ action ∈ trigger.actions, action.EntersRestorable (budget - 2) := by
  cases levels with
  | zero => contradiction
  | succ levels =>
    obtain ⟨outer, kind, source, rfl, fields⟩ := readerWithin_ok read
    obtain ⟨⟨tree, items⟩ | empty, -⟩ := fieldsOf_ok fields
    · obtain ⟨room, rfl, each⟩ := Reader.list_ok items
      intro action member entry enters instrument among
      obtain ⟨item, found⟩ := each action member
      have restored := Action.entersRestorable_of_reader found entry enters instrument among
      exact restored.mono (by omega)
    · rw [empty]
      intro action member
      exact absurd member List.not_mem_nil

theorem children_entersRestorable {levels : Nat} {tree : Tree} {trigger : Trigger}
    (read : readerWithin levels mode budget tree = .ok trigger) :
    ∀ child ∈ trigger.children, ∀ action ∈ child.actions, action.EntersRestorable (budget - 2) := by
  cases levels with
  | zero => contradiction
  | succ levels =>
    obtain ⟨outer, kind, source, rfl, fields⟩ := readerWithin_ok read
    intro child member action owned entry enters instrument among
    obtain ⟨room, tree, bound, found⟩ := (fieldsOf_ok fields).2 child member
    have restored := entersRestorable_of_readerWithin found action owned entry enters instrument among
    exact restored.mono (by omega)

/-- A leaf is the trigger itself or one of its children. -/
theorem leaf_trigger {trigger : Trigger} {leaf : Leaf} (member : leaf ∈ trigger.leaves index) :
    leaf.trigger = trigger ∨ leaf.trigger ∈ trigger.children := by
  cases trigger with
  | aggregate children actions =>
    obtain ⟨position, child, placed, -, rfl⟩ := mem_leaves_aggregate_iff.mp member
    exact .inr (List.mem_of_getElem? placed)
  | _ =>
    obtain rfl := List.mem_singleton.mp member
    exact .inl rfl

end Trigger

namespace Strategy

theorem entersRestorable_of_parse {text : String} {strategy : Strategy}
    (accepted : parse text = .ok strategy) {leaf : Leaf} (member : leaf ∈ strategy.leaves) :
    ∀ action ∈ leaf.trigger.actions, action.EntersRestorable (depthLimit - 4) := by
  obtain ⟨outer, source, depth, fields⟩ :=
    Fields.reader_ok (reader_of_read (parse_eq_ok.mp accepted))
  obtain ⟨_, triggers, one, readTriggers, rfl⟩ := Fields.seq_ok fields
  obtain ⟨portfolio, -, rfl⟩ := Fields.map_ok one
  obtain ⟨tree, items⟩ := Fields.required_ok readTriggers
  obtain ⟨room, rfl, each⟩ := Reader.list_ok items
  have limit : depthLimit - 4 = room - 2 := by omega
  obtain ⟨position, trigger, placed, contributed⟩ := mem_leaves_iff.mp member
  obtain ⟨item, found⟩ := each trigger (List.mem_of_getElem? placed)
  rw [limit]
  obtain same | among := Trigger.leaf_trigger contributed
  · rw [same]
    exact Trigger.entersRestorable_of_readerWithin found
  · exact Trigger.children_entersRestorable found _ among

/-- The instruments of a configuration are those of the leaf that entered last. -/
theorem exists_entry_of_instruments {strategy : Strategy} {instruments : List Instrument}
    (given : strategy.configuration.instruments = some instruments) :
    ∃ leaf ∈ strategy.leaves, ∃ entry, .enter entry ∈ leaf.trigger.actions ∧
      entry.instruments = instruments := by
  rw [instruments_configuration, Option.map_eq_some_iff] at given
  obtain ⟨entry, last, same⟩ := given
  obtain ⟨leaf, member, entered⟩ := List.exists_of_findSome?_eq_some last
  refine ⟨leaf, List.mem_reverse.mp member, entry, ?_, same⟩
  rw [Leaf.entry] at entered
  split at entered
  next action first =>
    cases entered
    exact Leaf.mem_actions_of_action first
  next => contradiction

/-- What compiling a text leads to can be restored, with room for two more containers around it. -/
theorem compiled_restorable {text : String} {strategy : Strategy} {config : Config}
    (accepted : parse text = .ok strategy) (compiled : strategy.compile = .ok config) :
    config.Restorable (depthLimit - 3) := by
  obtain ⟨-, rfl⟩ := compile_eq_ok_iff.mp compiled
  refine Config.restorable_of_instruments ?_
  intro instruments given instrument member
  obtain ⟨leaf, leafy, entry, owned, rfl⟩ := exists_entry_of_instruments given
  exact entersRestorable_of_parse accepted leafy _ owned entry rfl instrument member

/-- Options are rolled every month. -/
def rolling : Strategy := ⟨[], [.periodic ⟨"1m", [.enter (.monthlyOptions 5 .nav)]⟩]⟩

/-- All structures but the instrument are written as lists. -/
def rollingText : String :=
  "[[],[[\"PeriodicTrigger\",[\"1m\"],[[\"EnterPositionQuantityScaledAction\"," ++
    "[\x7b\"type\":\"EqOption\"\x7d],\"1m\",5,\"NAV\"]]]]]"

theorem parse_rollingText : parse rollingText = .ok rolling :=
  toOption_eq_some.mp (by decide +kernel)

theorem compile_rolling : rolling.compile = .ok rolling.configuration := compile_eq_ok rfl

end Strategy

end VolBacktest
