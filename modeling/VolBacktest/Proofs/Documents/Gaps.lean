import VolBacktest.Proofs.Documents.Layout
import VolBacktest.Proofs.Json.Gaps
import VolBacktest.Proofs.Json.Modes

/-!
# Lists of parts in strategy documents

Lists of parts stand in a trigger, which has actions, in an aggregate, which has children, in an action,
which may have instruments, and in the strategy itself. A document that is accepted with one such list is
accepted with another one exactly if the items of that are accepted there, and then differs in it only.
Everything that a tagged value holds beside its tag has to be read through first, but that is no further
condition: what is accepted as an item can be read through.
-/

namespace VolBacktest

open Json

/-- The action with other instruments, if it has a list of them. -/
def Action.withInstruments : Action → List Instrument → Action
  | enter action, instruments => enter { action with instruments }
  | addTrade action, instruments => addTrade { action with instruments }
  | action, _ => action

variable {room size : Nat} {mode : Mode} {typeName : String}

/-- Each of the trees is read as the value in its place. -/
def ReadEach {α : Type} (reader : Reader α) (mode : Mode) (room : Nat) (trees : List Tree)
    (values : List α) : Prop :=
  List.Forall₂ (fun tree value => reader mode room tree = .ok value) trees values

/-- The list of the trees. -/
abbrev listed (trees : List Tree) : Tree := .array trees .closed

theorem list_eq_ok_iff {α : Type} {reader : Reader α} {trees : List Tree} {values : List α} :
    Reader.list reader mode (room + 1) (listed trees) = .ok values ↔
      ReadEach reader mode room trees values := by
  simp [Reader.list_eq_ok_iff, ReadEach]

/-- A list can be read through if each item is accepted by a reader of values that can. -/
theorem sound_listed {α : Type} {reader : Reader α} {trees : List Tree} {values : List α}
    (read : ReadEach reader mode room trees values)
    (sound : ∀ tree value, reader mode room tree = .ok value → tree.Sound room) :
    (listed trees).Sound (room + 1) := by
  refine Tree.sound_array_iff.mpr ⟨rfl, room, rfl, fun tree among => ?_⟩
  obtain ⟨value, accepted⟩ := exists_forall₂_iff.mp ⟨values, read⟩ tree among
  exact sound tree value accepted

namespace Trigger

section Fields

variable {gap : Gap Tree} {base : Tree} {trigger : Trigger}

/-- A gap at the actions of a trigger. -/
theorem exposes_actions_guarded {ρ : Type} {requirement : Reader ρ}
    {make : ρ → List Action → Trigger}
    (keeps : ∀ value actions others, (make value actions).withActions others = make value others)
    (field : gap.IsField "actions" 1)
    (read : (guardedFields requirement make).read mode room (gap.source typeName size base) 0 =
      .ok trigger) :
    gap.Exposes mode room typeName size (guardedFields requirement make) 0
      (Reader.list Action.reader) trigger.withActions := by
  simp only [guardedFields, Fields.seq_eq_ok_iff, Fields.map_eq_ok_iff] at read
  obtain ⟨_, ⟨value, first, rfl⟩, actions, second, rfl⟩ := read
  have settled := Gap.settles_required field (by decide) (by decide) first
  have exposed := (settled.map make).seq (Gap.exposes_defaulted field second)
  intro tree whole
  rw [funext (keeps value actions)]
  exact exposed tree whole

theorem exposes_actions {child : Reader Trigger} {kind : TriggerKind}
    (field : gap.IsField "actions" 1)
    (read : (fieldsOf child kind).read mode room (gap.source typeName size base) 0 = .ok trigger) :
    gap.Exposes mode room typeName size (fieldsOf child kind) 0 (Reader.list Action.reader)
      trigger.withActions := by
  cases kind <;> exact exposes_actions_guarded (fun _ _ _ => rfl) field read

/-- A gap at the requirement of an aggregate. -/
theorem exposes_children {child : Reader Trigger} {own : List Action} {children : List Trigger}
    (field : gap.IsField "trigger_requirements" 0)
    (read : (fieldsOf child .aggregate).read mode room (gap.source typeName size base) 0 =
      .ok (.aggregate children own)) :
    childrenReader child mode room base = .ok children ∧
      gap.Exposes mode room typeName size (fieldsOf child .aggregate) 0 (childrenReader child)
        fun children => .aggregate children own := by
  simp only [fieldsOf, guardedFields, Fields.seq_eq_ok_iff, Fields.map_eq_ok_iff] at read
  obtain ⟨_, ⟨value, first, rfl⟩, actions, second, ⟨⟩⟩ := read
  have exposed := Gap.exposes_required field first
  have places : 0 ≠ 0 + 1 := by decide
  have settled := Gap.settles_defaulted field (by decide) places second
  obtain ⟨_, found, rfl⟩ := (exposed base children).mp first
  exact ⟨found, (exposed.map _).seq settled⟩

theorem kind_of_fieldsOf {child : Reader Trigger} {kind : TriggerKind} {source : Source}
    (read : (fieldsOf child kind).read mode room source 0 = .ok trigger) : trigger.kind = kind := by
  cases kind <;>
    · obtain ⟨_, _, rfl, _⟩ := guardedFields_ok read
      rfl

theorem names_fieldsOf (child : Reader Trigger) (kind : TriggerKind) :
    (fieldsOf child kind).names = ["trigger_requirements", "actions"] := by
  cases kind <;> rfl

end Fields

theorem sound_of_readerWithin {levels : Nat} {tree : Tree} {trigger : Trigger}
    (read : readerWithin levels mode room tree = .ok trigger) : tree.Sound room := by
  cases levels with
  | zero => contradiction
  | succ levels => exact Reader.sound_of_tagged read

/-- The actions of a trigger are read from a kept part. -/
theorem readerWithin_actions_iff {levels : Nat} {gap : Gap Tree} (field : gap.IsField "actions" 2)
    {old : List Tree} {trigger : Trigger}
    (read : readerWithin levels mode room (gap.tree (listed old)) = .ok trigger) :
    ∃ rest, room = rest + 2 ∧ ∀ trees whole,
      readerWithin levels mode room (gap.tree (listed trees)) = .ok whole ↔
        ∃ actions, ReadEach Action.reader .kept rest trees actions ∧
          whole = trigger.withActions actions := by
  cases levels with
  | zero => contradiction
  | succ levels =>
      obtain ⟨_, kind, inner, rfl, innerField, sound, base, each⟩ :=
        Gap.exists_kind_of_tagged field (by decide) read
      obtain ⟨-, rest, rfl, -⟩ := Tree.sound_array_iff.mp sound
      have known : "actions" ∈ (fieldsOf (readerWithin levels) kind).names := by
        rw [names_fieldsOf]
        decide
      refine ⟨rest, rfl, fun trees whole => (each known _ _).trans ?_⟩
      rw [exposes_actions innerField base]
      simp only [list_eq_ok_iff]
      refine and_iff_right_of_imp ?_
      rintro ⟨actions, accepted, -⟩
      exact sound_listed accepted fun _ _ => Reader.sound_of_tagged

/-- The requirement of an aggregate holds nothing but its children. -/
theorem childrenReader_iff {child : Reader Trigger} {gap : Gap Tree}
    (field : gap.IsField "triggers" 0) {old : List Tree} {children : List Trigger}
    (read : childrenReader child mode room (gap.tree (listed old)) = .ok children) :
    ∃ rest, room = rest + 2 ∧ ∀ trees values,
      childrenReader child mode room (gap.tree (listed trees)) = .ok values ↔
        ReadEach child mode rest trees values := by
  obtain ⟨_, rfl, each⟩ := Gap.reader_eq_ok_iff field List.mem_cons_self read
  have found := (each _ _).mp read
  have exposed := Gap.exposes_required field found
  obtain ⟨_, nothing, -⟩ := (exposed _ _).mp found
  obtain ⟨rest, rfl, -⟩ := Reader.list_eq_ok_iff.mp nothing
  refine ⟨rest, rfl, fun trees values => (each _ _).trans ?_⟩
  rw [exposed]
  simp [list_eq_ok_iff]

/-- The children of an aggregate are read from a kept part, by the reader of one level less. -/
theorem readerWithin_children_iff {levels : Nat} {gap inner : Gap Tree}
    (field : gap.IsField "trigger_requirements" 1) (innerField : inner.IsField "triggers" 0)
    {old : List Tree} {children : List Trigger} {own : List Action}
    (read : readerWithin (levels + 1) mode room (gap.tree (inner.tree (listed old))) =
      .ok (.aggregate children own)) :
    ∃ rest, room = rest + 3 ∧ ∀ trees whole,
      readerWithin (levels + 1) mode room (gap.tree (inner.tree (listed trees))) = .ok whole ↔
        ∃ children, ReadEach (readerWithin levels) .kept rest trees children ∧
          whole = .aggregate children own := by
  obtain ⟨_, kind, place, rfl, placeField, sound, base, each⟩ :=
    Gap.exists_kind_of_tagged field (by decide) read
  have known : "trigger_requirements" ∈ (fieldsOf (readerWithin levels) kind).names := by
    rw [names_fieldsOf]
    decide
  obtain rfl : TriggerKind.aggregate = kind := kind_of_fieldsOf base
  obtain ⟨nothing, exposed⟩ := exposes_children placeField base
  obtain ⟨rest, rfl, eachChild⟩ := childrenReader_iff innerField nothing
  obtain ⟨_, ⟨⟩, soundInside⟩ := Gap.sound_tree_iff sound
  refine ⟨rest, rfl, fun trees whole => (each known _ _).trans ?_⟩
  rw [soundInside, exposed]
  simp only [eachChild]
  refine and_iff_right_of_imp ?_
  rintro ⟨children, accepted, -⟩
  exact sound_listed accepted fun _ _ => sound_of_readerWithin

end Trigger

namespace Instrument

/-- All members of an instrument beside its tag are read as any values. -/
theorem sound_of_reader {tree : Tree} {instrument : Instrument}
    (read : reader mode room tree = .ok instrument) : tree.Sound room := by
  cases tree with
  | object members stop =>
      obtain ⟨rest, rfl, closed, entries, rfl, inside⟩ := Fields.objectReader_eq_ok_iff.mp read
      obtain ⟨fields, -, -⟩ := Fields.readFrom_members_eq_ok_iff.mp inside
      obtain ⟨_, tagged, values, others, -⟩ := fieldsOf_eq_ok_iff.mp fields
      obtain ⟨position, tag, slot, tagRead⟩ := Fields.required_eq_ok_iff.mp tagged
      obtain ⟨-, unique⟩ := Slot.mem_and_unique slot
      refine Tree.sound_object_iff.mpr ⟨closed, rest, rfl, ?_⟩
      refine List.forall_mem_map.mpr fun entry among => ⟨⟨entry.1, rfl⟩, ?_⟩
      by_cases isTag : entry.1 = tagName
      · rw [unique entry among isTag]
        obtain ⟨text, string, -⟩ := map_eq_ok.mp tagRead
        exact Reader.sound_of_string string rest
      · have beside := Fields.exists_others_iff.mp ⟨values, others⟩
        exact beside entry among (by simpa using isTag)
  | scalar | array | broken =>
      rw [reader, Fields.objectReader.eq_def] at read
      exact absurd read not_mismatch_eq_ok

end Instrument

namespace Action

/-- A gap at the instruments of an action, for the kinds that know them. -/
theorem exposes_priceables {kind : ActionKind} {gap : Gap Tree}
    (field : gap.IsField "priceables" 0) (known : "priceables" ∈ (fieldsOf kind).names) {base : Tree}
    {action : Action}
    (read : (fieldsOf kind).read mode room (gap.source typeName size base) 0 = .ok action) :
    gap.Exposes mode room typeName size (fieldsOf kind) 0 (Reader.list Instrument.reader)
      action.withInstruments := by
  cases kind with
  | enter =>
      simp only [fieldsOf, Fields.seq_eq_ok_iff, Fields.map_eq_ok_iff] at read
      obtain ⟨_, ⟨_, ⟨_, ⟨instruments, first, rfl⟩, duration, second, rfl⟩, quantity, third, rfl⟩,
        quantityType, fourth, rfl⟩ := read
      have exposed := Gap.exposes_required field first
      have second := Gap.settles_defaulted field (by decide) (by decide) second
      have third := Gap.settles_defaulted field (by decide) (by decide) third
      have fourth := Gap.settles_defaulted field (by decide) (by decide) fourth
      exact (((exposed.map _).seq second).seq third).seq fourth
  | addTrade =>
      simp only [fieldsOf, Fields.seq_eq_ok_iff, Fields.map_eq_ok_iff] at read
      obtain ⟨_, ⟨instruments, first, rfl⟩, duration, second, rfl⟩ := read
      have exposed := Gap.exposes_required field first
      have second := Gap.settles_defaulted field (by decide) (by decide) second
      exact (exposed.map _).seq second
  | hedge => exact absurd known (by decide)
  | exit => exact absurd known (by decide)
  | rebalance => exact absurd known (by decide)

/-- The instruments of an action are read from a kept part. -/
theorem reader_priceables_iff {gap : Gap Tree} (field : gap.IsField "priceables" 1) {action : Action}
    {old : List Tree} (read : reader mode room (gap.tree (listed old)) = .ok action)
    (holds : action.kind = .enter ∨ action.kind = .addTrade) :
    ∃ rest, room = rest + 2 ∧ ∀ trees whole,
      reader mode room (gap.tree (listed trees)) = .ok whole ↔
        ∃ instruments, ReadEach Instrument.reader .kept rest trees instruments ∧
          whole = action.withInstruments instruments := by
  obtain ⟨_, kind, inner, rfl, innerField, sound, base, each⟩ :=
    Gap.exists_kind_of_tagged field (by decide) read
  obtain ⟨-, rest, rfl, -⟩ := Tree.sound_array_iff.mp sound
  obtain ⟨rfl, -⟩ := fieldsOf_encodes base
  have known : "priceables" ∈ (fieldsOf action.kind).names := by
    obtain same | same := holds <;> rw [same] <;> decide
  refine ⟨rest, rfl, fun trees whole => (each known _ _).trans ?_⟩
  rw [exposes_priceables innerField known base]
  simp only [list_eq_ok_iff]
  refine and_iff_right_of_imp ?_
  rintro ⟨instruments, accepted, -⟩
  exact sound_listed accepted fun _ _ => Instrument.sound_of_reader

end Action

namespace Strategy

theorem reader_triggers_iff {gap : Gap Tree} (field : gap.IsField "triggers" 1) {old : List Tree}
    {strategy : Strategy} (read : reader mode room (gap.tree (listed old)) = .ok strategy) :
    ∃ rest, room = rest + 2 ∧ ∀ trees whole,
      reader mode room (gap.tree (listed trees)) = .ok whole ↔
        ∃ triggers, ReadEach Trigger.reader mode rest trees triggers ∧
          whole = { strategy with triggers } := by
  obtain ⟨_, rfl, each⟩ := Gap.reader_eq_ok_iff field (by decide) read
  have found := (each _ _).mp read
  simp only [Fields.seq_eq_ok_iff, Fields.map_eq_ok_iff] at found
  obtain ⟨_, ⟨portfolio, first, rfl⟩, triggers, second, rfl⟩ := found
  have settled := Gap.settles_defaulted field (by decide) (by decide) first
  have exposed := Gap.exposes_required field second
  obtain ⟨_, nothing, -⟩ := (exposed _ _).mp second
  obtain ⟨rest, rfl, -⟩ := Reader.list_eq_ok_iff.mp nothing
  refine ⟨rest, rfl, fun trees whole => (each _ _).trans ?_⟩
  rw [(settled.map _).seq exposed]
  simp [list_eq_ok_iff]

theorem reader_portfolio_iff {gap : Gap Tree} (field : gap.IsField "initial_portfolio" 0)
    {old : List Tree} {strategy : Strategy}
    (read : reader mode room (gap.tree (listed old)) = .ok strategy) :
    ∃ rest, room = rest + 2 ∧ ∀ trees whole,
      reader mode room (gap.tree (listed trees)) = .ok whole ↔
        ∃ positions, ReadEach Instrument.reader mode rest trees positions ∧
          whole = { strategy with initialPortfolio := positions } := by
  obtain ⟨_, rfl, each⟩ := Gap.reader_eq_ok_iff field (by decide) read
  have found := (each _ _).mp read
  simp only [Fields.seq_eq_ok_iff, Fields.map_eq_ok_iff] at found
  obtain ⟨_, ⟨portfolio, first, rfl⟩, triggers, second, rfl⟩ := found
  have exposed := Gap.exposes_defaulted field first
  have settled := Gap.settles_required field (by decide) (by decide) second
  obtain ⟨_, nothing, -⟩ := (exposed _ _).mp first
  obtain ⟨rest, rfl, -⟩ := Reader.list_eq_ok_iff.mp nothing
  refine ⟨rest, rfl, fun trees whole => (each _ _).trans ?_⟩
  rw [(exposed.map _).seq settled]
  simp [list_eq_ok_iff]

end Strategy

end VolBacktest
