import VolBacktest.Browser
import VolBacktest.Proofs.Documents.Configs
import VolBacktest.Proofs.Documents.Instruments
import VolBacktest.Proofs.Json.Outline
import VolBacktest.Proofs.Json.Rearrangement

/-!
# Documents on a page

A page is given what a `Conversion` has made of a document. Neither the conversion nor what a page sees is
part of the engine, and `Conversion.Faithful` is all that is assumed of them. A browser has no numbers but
those of floating point. So an integer may be refused if it is beyond those that floating-point numbers
count through, and `1` may be seen where `1.0` has been converted. Nothing else is refused, and whatever
is not a number is seen as it was.
-/

namespace VolBacktest

open Json

/-! ### Keys of written documents -/

theorem Json.Canonical.noRepeatedKey {json : Json} {room : Nat} (canonical : json.Canonical room) :
    (Tree.ofJson json).NoRepeatedKey := by
  induction canonical with
  | null | bool | number | string => exact .scalar _
  | array each ih => exact .ofJson_array ih
  | object sorted each ih =>
      refine .ofJson_object (List.pairwise_map.mpr (sorted.imp ?_)) ih
      intro first second before same
      exact KeyOrder.irrefl first.1 (same ▸ before)

theorem Json.noRepeatedKey_ofOption {α : Type} {json : α → Json} {value : Option α}
    (each : ∀ content, value = some content → (Tree.ofJson (json content)).NoRepeatedKey) :
    (Tree.ofJson (.ofOption json value)).NoRepeatedKey := by
  cases value with
  | none => exact .scalar _
  | some content => exact each content rfl

theorem Json.noRepeatedKey_map {α : Type} {json : α → Json} {values : List α}
    (each : ∀ value ∈ values, (Tree.ofJson (json value)).NoRepeatedKey) :
    (Tree.ofJson (.array (values.map json))).NoRepeatedKey :=
  .ofJson_array (List.forall_mem_map.mpr each)

theorem Instrument.Readable.noRepeatedKey {instrument : Instrument} {budget : Nat}
    (h : instrument.Readable budget) : (Tree.ofJson instrument.json).NoRepeatedKey := by
  refine .ofJson_object h.distinct (List.forall_mem_cons.mpr ⟨.scalar _, ?fields⟩)
  intro entry member
  have read := (h.restored entry member).reads .direct budget le_rfl
  exact (canonical_of_read (liftFault_eq_ok.mp read)).noRepeatedKey

theorem SignalItem.noRepeatedKey (item : SignalItem) : (Tree.ofJson item.json).NoRepeatedKey := by
  refine .ofJson_object (by simp) ?_
  simp only [List.forall_mem_cons]
  exact ⟨.scalar _, .scalar _, List.forall_mem_nil _⟩

theorem DeltaHedge.noRepeatedKey (hedge : DeltaHedge) : (Tree.ofJson hedge.json).NoRepeatedKey :=
  .ofJson_object (by simp) (List.forall_mem_singleton.mpr (.scalar _))

theorem Config.Restorable.noRepeatedKey {config : Config} {budget : Nat}
    (h : config.Restorable budget) : (Tree.ofJson config.json).NoRepeatedKey := by
  refine .ofJson_object config.distinct_members ?_
  simp only [members, List.forall_mem_cons]
  refine ⟨noRepeatedKey_ofOption ?instruments, noRepeatedKey_ofOption fun _ _ => .scalar _,
    noRepeatedKey_ofOption fun _ _ => .scalar _, noRepeatedKey_ofOption fun _ _ => .scalar _,
    noRepeatedKey_map fun item _ => item.noRepeatedKey,
    noRepeatedKey_map fun item _ => item.noRepeatedKey,
    noRepeatedKey_ofOption fun hedge _ => hedge.noRepeatedKey, .scalar _, List.forall_mem_nil _⟩
  case instruments =>
    intro instruments given
    refine noRepeatedKey_map fun instrument member => ?_
    have read := h.instruments.reads .direct budget le_rfl
    rw [given] at read
    obtain absent | ⟨_, same, listed⟩ := Reader.nullable_ok read
    · contradiction
    · obtain rfl := Option.some.inj same
      obtain ⟨room, -, each⟩ := Reader.list_ok listed
      obtain ⟨item, found⟩ := each instrument member
      obtain ⟨rest, -, readable⟩ := Instrument.readable_of_reader found
      exact readable.noRepeatedKey

theorem Diagnostic.noRepeatedKey (diagnostic : Diagnostic) :
    (Tree.ofJson diagnostic.json).NoRepeatedKey := by
  refine .ofJson_object (by simp) ?_
  simp only [List.forall_mem_cons]
  refine ⟨.scalar _, .scalar _, .scalar _, ?path, List.forall_mem_nil _⟩
  exact noRepeatedKey_ofOption fun path _ => .scalar (.string (.ok path))

/-! ### Conversions -/

/-- Integers up to here are all different as binary64 numbers. -/
def maxSafeInteger : Nat := 2 ^ 53 - 1

/-- No integer that is too large. -/
def Number.Safe : Number → Prop
  | integer value => value.natAbs ≤ maxSafeInteger
  | float _ => True

instance (number : Number) : Decidable number.Safe :=
  match number with
  | .integer value => inferInstanceAs (Decidable (value.natAbs ≤ maxSafeInteger))
  | .float _ => .isTrue trivial

namespace Browser

namespace Conversion

variable {Value : Type} {conversion : Conversion Value} {sees : Value → Json → Prop}

/-- The document has a value. -/
def Takes (conversion : Conversion Value) (json : Json) : Prop := (conversion.convert json).isSome

instance (conversion : Conversion Value) (json : Json) : Decidable (conversion.Takes json) :=
  inferInstanceAs (Decidable (_ = true))

/-- What is assumed of a conversion and of a page, which `sees` a value as a document. It is a relation
since one value may be seen as several documents. Of a document with a key twice nothing is assumed but
that it has a value, because a member may hide another one there. -/
structure Faithful (conversion : Conversion Value) (sees : Value → Json → Prop) : Prop where
  null : conversion.Takes .null
  bool (value : Bool) : conversion.Takes (.bool value)
  string (value : String) : conversion.Takes (.string value)
  number (value : Number) (safe : value.Safe) : conversion.Takes (.number value)
  array (items : List Json) (each : ∀ item ∈ items, conversion.Takes item) :
    conversion.Takes (.array items)
  object (members : List (String × Json)) (each : ∀ member ∈ members, conversion.Takes member.2) :
    conversion.Takes (.object members)
  /-- What has been converted can be seen as it was. -/
  seen {json : Json} {value : Value} (distinct : (Tree.ofJson json).NoRepeatedKey)
    (converted : conversion.convert json = some value) : sees value json
  /-- It can be seen as nothing else but for its numbers. -/
  outline {json other : Json} {value : Value} (distinct : (Tree.ofJson json).NoRepeatedKey)
    (converted : conversion.convert json = some value) (seenAs : sees value other) :
    other.outline = json.outline

namespace Faithful

mutual

/-- Only integers can be the reason for a refusal. -/
theorem takes (faithful : conversion.Faithful sees) :
    ∀ json : Json, (∀ number ∈ json.numbers, number.Safe) → conversion.Takes json
  | .null, _ => faithful.null
  | .bool value, _ => faithful.bool value
  | .number value, safe => faithful.number value (List.forall_mem_singleton.mp safe)
  | .string value, _ => faithful.string value
  | .array items, safe => faithful.array items (takesItems faithful items safe)
  | .object members, safe => faithful.object members (takesMembers faithful members safe)

theorem takesItems (faithful : conversion.Faithful sees) :
    ∀ items : List Json, (∀ number ∈ numbersOfItems items, number.Safe) →
      ∀ item ∈ items, conversion.Takes item
  | [], _ => nofun
  | first :: rest, safe => by
    obtain ⟨ofFirst, ofRest⟩ := List.forall_mem_append.mp safe
    exact List.forall_mem_cons.mpr
      ⟨takes faithful first ofFirst, takesItems faithful rest ofRest⟩

theorem takesMembers (faithful : conversion.Faithful sees) :
    ∀ members : List (String × Json), (∀ number ∈ numbersOfMembers members, number.Safe) →
      ∀ member ∈ members, conversion.Takes member.2
  | [], _ => nofun
  | (_, first) :: rest, safe => by
    obtain ⟨ofFirst, ofRest⟩ := List.forall_mem_append.mp safe
    exact List.forall_mem_cons.mpr
      ⟨takes faithful first ofFirst, takesMembers faithful rest ofRest⟩

end

end Faithful

end Conversion

/-! ### Reports and configurations on a page -/

end Browser

end VolBacktest
