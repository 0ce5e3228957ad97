import VolBacktest.Instrument.Basic
import VolBacktest.Json.Variant

/-!
# Instruments in documents

An instrument is an object with its kind under `type` and its other fields beside it, in key order.
-/

namespace VolBacktest

open Json

def InstrumentKind.json (kind : InstrumentKind) : Json := .string kind.tag

/-- Any tag is the tag of some kind. -/
def InstrumentKind.reader : Reader InstrumentKind := Reader.string.map ofTag

namespace Instrument

def json (instrument : Instrument) : Json :=
  .object ((tagName, instrument.kind.json) :: instrument.fields.entries)

def fieldsOf : Fields Instrument :=
  (fun kind others => ⟨kind, .ofList others⟩)
    <$> .required tagName InstrumentKind.reader <*> .others [tagName]

def reader : Reader Instrument := fieldsOf.objectReader "Priceable"

end Instrument

end VolBacktest
