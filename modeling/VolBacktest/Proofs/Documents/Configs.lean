import VolBacktest.Config.Document
import VolBacktest.Proofs.Documents.Actions

/-!
# Configurations read back

The members of a configuration encode it whenever its instruments are restored: everything else about
it is a value of one token or a list of shallow objects. For a configuration that has been read that
is so because reading round-trips, and for a compiled one because the instruments come from the text
of the strategy.
-/

namespace VolBacktest

open Json

theorem SignalItem.restores (item : SignalItem) (budget : Nat) :
    reader.Restores (budget + 1) item.json item := by
  have first := Fields.Encodes.required_of "date" (Reader.date_restores item.date budget)
  have second := Fields.Encodes.required_of "value" (Reader.bool_restores item.value budget)
  exact ((first.map _).seq second).restores _ (by simp)

theorem SignalItem.reader_roundTrips : reader.RoundTrips json := by
  intro mode budget tree item read
  obtain ⟨rest, -, rfl, -⟩ := Fields.reader_ok read
  exact item.restores rest

theorem HedgeFrequency.restores (frequency : HedgeFrequency) (budget : Nat) :
    reader.Restores budget frequency.json frequency :=
  Reader.oneOf_restores (by cases frequency; rfl) budget

theorem DeltaHedge.restores (hedge : DeltaHedge) (budget : Nat) :
    reader.Restores (budget + 1) hedge.json hedge := by
  have first := Fields.Encodes.required_of "frequency" (hedge.frequency.restores budget)
  exact (first.map _).restores _ (by simp)

theorem DeltaHedge.reader_roundTrips : reader.RoundTrips json := by
  intro mode budget tree hedge read
  obtain ⟨rest, -, rfl, -⟩ := Fields.reader_ok read
  exact hedge.restores rest

namespace Config

theorem distinct_members (config : Config) : (config.members.map (·.1)).Nodup := by
  simp [members]

/-- The containers inside a configuration that are restored. -/
structure Restorable (budget : Nat) (config : Config) : Prop where
  instruments : (Reader.list Instrument.reader).nullable.Restores budget
    (.ofOption instrumentsJson config.instruments) config.instruments
  tradeIn : (Reader.list SignalItem.reader).Restores budget
    (.array (config.tradeIn.map SignalItem.json)) config.tradeIn
  tradeOut : (Reader.list SignalItem.reader).Restores budget
    (.array (config.tradeOut.map SignalItem.json)) config.tradeOut
  hedge : DeltaHedge.reader.nullable.Restores budget
    (.ofOption DeltaHedge.json config.hedge) config.hedge

theorem Restorable.mono {budget room : Nat} {config : Config} (h : config.Restorable budget)
    (enough : budget ≤ room) : config.Restorable room where
  instruments := h.instruments.mono enough
  tradeIn := h.tradeIn.mono enough
  tradeOut := h.tradeOut.mono enough
  hedge := h.hedge.mono enough

theorem Restorable.encodes {budget : Nat} {config : Config} (h : config.Restorable budget) :
    fieldsOf.Encodes budget config.members config := by
  have roll := Fields.Encodes.optional_of "roll_frequency" (Reader.nullable_restores nofun
    fun text (_ : config.rollFrequency = some text) => Reader.string_restores text budget)
  have quantity := Fields.Encodes.optional_of "trade_quantity"
    (Reader.nullable_restores Reader.float_ne_null
      fun x (_ : config.quantity = some x) => Reader.number_restores x budget)
  have type := Fields.Encodes.optional_of "trade_quantity_type"
    (Reader.nullable_restores nofun
      fun type (_ : config.quantityType = some type) => type.restores budget)
  have tradeIn := Fields.Encodes.required_of "trade_in_signals" h.tradeIn
  have tradeOut := Fields.Encodes.required_of "trade_out_signals" h.tradeOut
  have hedge := Fields.Encodes.optional_of "hedge" h.hedge
  have initial := Fields.Encodes.required_of "index_initial_value"
    (Reader.number_restores config.initialValue budget)
  have instruments := Fields.Encodes.optional_of "underlier_list" h.instruments
  exact (((((((instruments.map _).seq roll).seq quantity).seq type).seq tradeIn).seq tradeOut).seq
    hedge).seq initial

theorem Restorable.restores {budget : Nat} {config : Config} (h : config.Restorable budget) :
    reader.Restores (budget + 1) config.json config :=
  h.encodes.restores _ config.distinct_members

/-- Whatever the fields of a configuration read can be restored. -/
theorem fieldsOf_restorable {mode : Mode} {budget index : Nat} {source : Source} {config : Config}
    (read : fieldsOf.read mode budget source index = .ok config) : config.Restorable budget := by
  obtain ⟨_, initial, seven, -, rfl⟩ := Fields.seq_ok read
  obtain ⟨_, hedge, six, readHedge, rfl⟩ := Fields.seq_ok seven
  obtain ⟨_, tradeOut, five, readOut, rfl⟩ := Fields.seq_ok six
  obtain ⟨_, tradeIn, four, readIn, rfl⟩ := Fields.seq_ok five
  obtain ⟨_, type, three, -, rfl⟩ := Fields.seq_ok four
  obtain ⟨_, quantity, two, -, rfl⟩ := Fields.seq_ok three
  obtain ⟨_, roll, one, -, rfl⟩ := Fields.seq_ok two
  obtain ⟨instruments, readInstruments, rfl⟩ := Fields.map_ok one
  have signals := Reader.list_roundTrips SignalItem.reader_roundTrips
  exact {
    instruments := Fields.optional_restores Instrument.list_roundTrips nofun readInstruments
    tradeIn := Fields.required_restores signals readIn
    tradeOut := Fields.required_restores signals readOut
    hedge := Fields.optional_restores DeltaHedge.reader_roundTrips nofun readHedge }

theorem reader_roundTrips : reader.RoundTrips json := by
  intro mode budget tree config read
  obtain ⟨rest, source, rfl, fields⟩ := Fields.reader_ok read
  exact (fieldsOf_restorable fields).restores

/-- A configuration of instruments that are restored, whatever else it holds. -/
theorem restorable_of_instruments {budget : Nat} {config : Config}
    (each : ∀ instruments, config.instruments = some instruments →
      ∀ instrument ∈ instruments,
        Instrument.reader.Restores (budget + 1) instrument.json instrument) :
    config.Restorable (budget + 2) where
  instruments := Reader.nullable_restores nofun fun instruments given =>
    Reader.list_restores (each instruments given)
  tradeIn := Reader.list_restores fun item _ => item.restores budget
  tradeOut := Reader.list_restores fun item _ => item.restores budget
  hedge := Reader.nullable_restores nofun fun hedge _ => (hedge.restores (budget + 1))

end Config

end VolBacktest
