import VolBacktest.Action.Document
import VolBacktest.Proofs.Json.Structures

/-!
# Instruments and actions read back

An instrument is read with all members beside its tag, so the members that are written for it are
exactly its fields: none of them is another tag, and they stand in key order as they did before. The
fields of each kind of action read only actions of that kind, which is the kind that is written as
the tag.
-/

namespace VolBacktest

open Json

variable {mode : Mode} {budget index : Nat} {source : Source}

namespace Instrument

/-- An instrument that could be read: its tag is that of its kind, and its fields have other names. -/
structure Readable (budget : Nat) (instrument : Instrument) : Prop where
  kind : InstrumentKind.ofTag instrument.kind.tag = instrument.kind
  named : ∀ entry ∈ instrument.fields.entries, entry.1 ≠ tagName
  restored : ∀ entry ∈ instrument.fields.entries, Reader.any.Restores budget entry.2 entry.2

theorem fieldsOf_ok {instrument : Instrument}
    (read : fieldsOf.read mode budget source index = .ok instrument) :
    instrument.Readable budget := by
  obtain ⟨make, others, readFirst, readOthers, rfl⟩ := Fields.seq_ok read
  obtain ⟨kind, readTag, rfl⟩ := Fields.map_ok readFirst
  obtain ⟨tree, readKind⟩ := Fields.required_ok readTag
  obtain ⟨tag, -, rfl⟩ := map_eq_ok.mp readKind
  have beside := Fields.others_ok readOthers
  refine ⟨by rw [InstrumentKind.tag_ofTag], ?_, ?_⟩
  · intro entry member
    have other := (beside entry (SortedMap.mem_of_mem_ofList member)).1
    simpa using other
  · intro entry member
    obtain ⟨tree, read⟩ := (beside entry (SortedMap.mem_of_mem_ofList member)).2
    exact Reader.any_restores read

theorem Readable.distinct {instrument : Instrument} (h : instrument.Readable budget) :
    (tagName :: instrument.fields.entries.map (·.1)).Nodup := by
  refine List.nodup_cons.mpr ⟨?_, ?_⟩
  · intro among
    obtain ⟨entry, member, same⟩ := List.mem_map.mp among
    exact h.named entry member same
  · refine List.pairwise_map.mpr (instrument.fields.sorted.imp ?_)
    intro a b before same
    exact KeyOrder.irrefl a.1 (same ▸ before)

theorem Readable.restores {instrument : Instrument} (h : instrument.Readable budget) :
    reader.Restores (budget + 1) instrument.json instrument where
  legible := by
    refine legible_object ?_
    intro member mem
    obtain rfl | mem := List.mem_cons.mp mem
    · exact fun _ _ => ⟨.string instrument.kind.tag, rfl⟩
    · exact (h.restored member mem).legible
  reads mode room enough := by
    obtain ⟨room, rfl⟩ := Nat.exists_eq_add_of_le' (Nat.le_of_add_left_le enough)
    have bound : budget ≤ room := Nat.le_of_succ_le_succ enough
    have kindRead : InstrumentKind.reader.Restores budget instrument.kind.json instrument.kind := by
      have restored := Reader.map_restores InstrumentKind.ofTag
        (Reader.string_restores instrument.kind.tag budget)
      rwa [h.kind] at restored
    have read := Fields.beside_tag_read (fun kind others => (⟨kind, .ofList others⟩ : Instrument))
      kindRead h.distinct bound (f := id)
      (fun member mem => liftFault_eq_ok.mp ((h.restored member mem).reads mode room bound))
      mode "Priceable" 1
    simp only [id, Prod.mk.eta, List.map_id', SortedMap.ofList_entries] at read
    exact Fields.objectReader_written read

theorem reader_roundTrips : reader.RoundTrips json := by
  intro mode budget tree instrument read
  obtain ⟨rest, source, rfl, found⟩ := Fields.objectReader_ok read
  exact (fieldsOf_ok found).restores

theorem list_roundTrips : (Reader.list reader).RoundTrips fun instruments =>
    .array (instruments.map json) :=
  Reader.list_roundTrips reader_roundTrips

end Instrument

theorem QuantityType.restores (type : QuantityType) (budget : Nat) :
    reader.Restores budget type.json type :=
  Reader.oneOf_restores (by cases type <;> rfl) budget

theorem QuantityType.reader_roundTrips : reader.RoundTrips json :=
  fun _ budget _ type _ => type.restores budget

theorem RiskMeasure.reader_roundTrips : reader.RoundTrips json := by
  intro _ budget _ measure _
  refine Reader.plainVariant_restores ?_ budget
  rw [ofName_name]

namespace Action

theorem durationField_encodes {duration : Option String}
    (read : durationField.read mode budget source index = .ok duration) :
    durationField.Encodes budget [("trade_duration", .ofOption .string duration)] duration :=
  .defaulted (Reader.nullable_roundTrips Reader.string_roundTrips nofun)
    (Reader.nullable_restores_none _ budget) read

/-- What the fields of a kind read is an action of this kind, encoded by its members. -/
theorem fieldsOf_encodes {kind : ActionKind} {action : Action}
    (read : (fieldsOf kind).read mode budget source index = .ok action) :
    action.kind = kind ∧ (fieldsOf kind).Encodes budget action.members action := by
  cases kind with
  | enter =>
    obtain ⟨_, type, three, readType, rfl⟩ := Fields.seq_ok read
    obtain ⟨_, quantity, two, readQuantity, rfl⟩ := Fields.seq_ok three
    obtain ⟨_, duration, one, readDuration, rfl⟩ := Fields.seq_ok two
    obtain ⟨instruments, readInstruments, rfl⟩ := Fields.map_ok one
    have first := Fields.Encodes.required Instrument.list_roundTrips readInstruments
    have second := durationField_encodes readDuration
    have third := Fields.Encodes.defaulted
      (Reader.nullable_roundTrips Reader.number_roundTrips Reader.float_ne_null)
      (Reader.nullable_restores_none _ budget) readQuantity
    have fourth := Fields.Encodes.defaulted
      (Reader.nullable_roundTrips QuantityType.reader_roundTrips nofun)
      (Reader.nullable_restores_none _ budget) readType
    exact ⟨rfl, (((first.map _).seq second).seq third).seq fourth⟩
  | hedge =>
    obtain ⟨_, duration, one, readDuration, rfl⟩ := Fields.seq_ok read
    obtain ⟨risk, readRisk, rfl⟩ := Fields.map_ok one
    have first := Fields.Encodes.required RiskMeasure.reader_roundTrips readRisk
    exact ⟨rfl, (first.map _).seq (durationField_encodes readDuration)⟩
  | exit =>
    rw [Fields.pure_ok read]
    exact ⟨rfl, .pure exit⟩
  | addTrade =>
    obtain ⟨_, duration, one, readDuration, rfl⟩ := Fields.seq_ok read
    obtain ⟨instruments, readInstruments, rfl⟩ := Fields.map_ok one
    have first := Fields.Encodes.required Instrument.list_roundTrips readInstruments
    exact ⟨rfl, (first.map _).seq (durationField_encodes readDuration)⟩
  | rebalance =>
    obtain ⟨_, parameter, one, readParameter, rfl⟩ := Fields.seq_ok read
    obtain ⟨instrument, readInstrument, rfl⟩ := Fields.map_ok one
    have first := Fields.Encodes.required Instrument.reader_roundTrips readInstrument
    have second := Fields.Encodes.required Reader.string_roundTrips readParameter
    exact ⟨rfl, (first.map _).seq second⟩

theorem distinct_members (action : Action) :
    (tagName :: action.members.map (·.1)).Nodup := by
  cases action <;> simp [members, tagName]

/-- An action is read by the fields of some kind. -/
theorem reader_ok {tree : Tree} {action : Action} (read : reader mode budget tree = .ok action) :
    ∃ rest kind source, budget = rest + 1 ∧
      (fieldsOf kind).read .kept rest source 0 = .ok action := by
  obtain ⟨rest, source, key, body, rfl, member, found⟩ := Reader.tagged_ok read
  obtain ⟨kind, -, same⟩ := List.mem_map.mp member
  cases same
  exact ⟨rest, kind, source, rfl, found⟩

theorem reader_roundTrips : reader.RoundTrips json := by
  intro mode budget tree action read
  obtain ⟨rest, kind, source, rfl, found⟩ := reader_ok read
  obtain ⟨rfl, encoded⟩ := fieldsOf_encodes found
  have chosen : bodies.lookup action.kind.name =
      some ⟨action.kind.name, fieldsOf action.kind⟩ := by
    cases action <;> rfl
  exact Reader.tagged_restores chosen encoded action.distinct_members

end Action

end VolBacktest
