import VolBacktest.Proofs.Documents.Actions
import VolBacktest.Proofs.Json.Containers
import VolBacktest.Proofs.SortedMap
import VolBacktest.Proofs.Text.ByteOrder

/-!
# Instruments that are built

An instrument is built from a tag and one field after the other. Its tag and its fields share one object in
its text, so a field can be called what the tag is called. Such an instrument is written, but its text is
not read: the name stands there twice. Every other instrument that is built of values that a text can give is
read back as it is, and nothing else is ever read.
-/

namespace VolBacktest

open Json

/-- What is made of a tag: the known ones have kinds of their own, any other is kept as it is. -/
inductive InstrumentKind.Tagged : InstrumentKind → String → Prop where
  | eqOption : Tagged .eqOption "EqOption"
  | eqVarianceSwap : Tagged .eqVarianceSwap "EqVarianceSwap"
  | eqForward : Tagged .eqForward "EqForward"
  | irSwap : Tagged .irSwap "IRSwap"
  | fxOption : Tagged .fxOption "FXOption"
  | other {tag : String}
      (unknown : tag ∉ ["EqOption", "EqVarianceSwap", "EqForward", "IRSwap", "FXOption"]) :
      Tagged (.other tag) tag

theorem InstrumentKind.tagged_ofTag (tag : String) : (ofTag tag).Tagged tag := by
  unfold ofTag
  split_ifs with option swap forward rates currency
  · exact option ▸ .eqOption
  · exact swap ▸ .eqVarianceSwap
  · exact forward ▸ .eqForward
  · exact rates ▸ .irSwap
  · exact currency ▸ .fxOption
  · exact .other (by simp [option, swap, forward, rates, currency])

/-- A name that occurs among the later members too is found twice. -/
theorem Json.Slot.ofMembers_repeated {name : String} {rest : List (String × Tree)}
    (again : name ∈ rest.map (·.1)) (value : Tree) (position : Nat) :
    ∃ second, ofMembers name position ((name, value) :: rest) = repeated position value second := by
  obtain ⟨entry, among, named⟩ := List.mem_map.mp again
  rw [ofMembers, if_pos rfl]
  cases found : rest.findIdx? (·.1 = name) with
  | none =>
      have fresh := List.findIdx?_eq_none_iff.mp found entry among
      exact absurd named (of_decide_eq_false fresh)
  | some distance => exact ⟨_, rfl⟩

namespace Instrument

/-- The instrument with these fields, set one after the other. -/
def build (tag : String) (fields : List (String × Json)) : Instrument :=
  fields.foldl (fun instrument field => instrument.withField field.1 field.2) (ofKind (.ofTag tag))

variable {tag : String} {fields : List (String × Json)}

theorem build_eq : build tag fields = ⟨.ofTag tag, .ofList fields⟩ := by
  have set (instrument : Instrument) :
      fields.foldl (fun instrument field => instrument.withField field.1 field.2) instrument =
        ⟨instrument.kind, instrument.fields.insertAll fields⟩ := by
    induction fields generalizing instrument with
    | nil => rfl
    | cons field rest ih =>
        rw [List.foldl_cons, ih]
        rfl
  exact set _

/-- The texts of the members of an instrument, the tag first. -/
def memberTexts (tag : String) (entries : List (String × Json)) : List (String × String) :=
  ((tagName, Json.string tag) :: entries).map fun member => ((Json.string member.1).text, member.2.text)

/-- Each field that is set stands there once, in the order of the bytes of the names, with the value that it
was last given. -/
structure Lists (fields entries : List (String × Json)) : Prop where
  ordered : entries.Pairwise fun first second => Text.bytes first.1 < Text.bytes second.1
  named : ∀ key, key ∈ entries.map (·.1) ↔ key ∈ fields.map (·.1)
  valued : ∀ key value, (key, value) ∈ entries ↔ SortedMap.GivenLast fields key value

theorem lists_build : Lists fields (build tag fields).fields.entries where
  ordered := by
    refine (build tag fields).fields.sorted.imp ?_
    intro first second before
    exact Text.lt_iff_bytes_lt.mp before
  named key := by
    rw [build_eq, List.mem_map (l := fields)]
    change key ∈ (SortedMap.ofList fields).keys ↔ _
    exact SortedMap.mem_keys_ofList_iff
  valued key value := by
    rw [build_eq, SortedMap.mem_entries_iff]
    exact SortedMap.get?_ofList_eq_some_iff

theorem text_build : (build tag fields).json.text =
    objectText (memberTexts tag (build tag fields).fields.entries) := by
  have tagged : (build tag fields).kind.json = .string tag := by
    rw [build_eq, InstrumentKind.json, InstrumentKind.tag_ofTag]
  rw [json, text_object, tagged]
  rfl

/-! ### Reading -/

theorem readable_of_reader {mode : Mode} {budget : Nat} {tree : Tree} {instrument : Instrument}
    (read : reader mode budget tree = .ok instrument) :
    ∃ rest, budget = rest + 1 ∧ instrument.Readable rest := by
  obtain ⟨rest, source, rfl, found⟩ := Fields.objectReader_ok read
  exact ⟨rest, rfl, fieldsOf_ok found⟩

theorem readable_build {room : Nat} (unnamed : tagName ∉ fields.map (·.1))
    (canonical : ∀ field ∈ fields, field.2.Canonical room) :
    (build tag fields).Readable room where
  kind := by rw [build_eq, InstrumentKind.tag_ofTag]
  named entry member := by
    rw [build_eq] at member
    rintro same
    exact unnamed (List.mem_map.mpr ⟨entry, SortedMap.mem_of_mem_ofList member, same⟩)
  restored entry member := by
    rw [build_eq] at member
    exact (canonical entry (SortedMap.mem_of_mem_ofList member)).restores

/-- A field that is called like the tag makes the text of an instrument unreadable. -/
theorem not_reads_of_named {mode : Mode} {budget : Nat} {instrument other : Instrument}
    (named : tagName ∈ instrument.fields.keys) :
    reader mode budget (.ofJson instrument.json) ≠ .ok other := by
  intro read
  rw [json, Tree.ofJson, reader, Fields.objectReader, opened_eq_ok] at read
  obtain ⟨rest, -, read⟩ := read
  rw [Fields.objectContent_closed] at read
  obtain ⟨_, _, first, -⟩ := Fields.seq_ok (Fields.readFrom_ok read)
  obtain ⟨kind, readTag, -⟩ := Fields.map_ok first
  obtain ⟨position, tree, present, -⟩ := Fields.required_eq_ok_iff.mp readTag
  have again : tagName ∈ (written instrument.fields.entries).map (·.1) := by
    rw [written, List.map_map]
    exact named
  obtain ⟨second, found⟩ := Slot.ofMembers_repeated again (.ofJson instrument.kind.json) 0
  have twice : Slot.ofMembers tagName 0 _ = .present position tree := present
  rw [written, List.map_cons, ← written, found] at twice
  contradiction

/-- The text of an instrument that is built of values that a text can give has the tag first and then its
fields. It can be read exactly if no field is called like the tag, and is then read as what was built, with
a kind of its own for each known tag. Whatever is read has no such field and is of the kind that its tag
stands for. This rests on the assumption `Number.ReadsBack` for the numbers in the fields. -/
theorem built_reads_back (tag : String) (fields : List (String × Json))
    (canonical : ∀ field ∈ fields, field.2.Canonical (depthLimit - 1)) :
    (∃ entries, (build tag fields).json.text = objectText (memberTexts tag entries) ∧
      Lists fields entries) ∧
    ((∃ instrument, read reader (build tag fields).json.text = .ok instrument) ↔
      tagName ∉ fields.map (·.1)) ∧
    (tagName ∉ fields.map (·.1) →
      read reader (build tag fields).json.text = .ok (build tag fields)) ∧
    (build tag fields).kind.Tagged tag ∧
    (∀ text instrument, read reader text = .ok instrument →
      tagName ∉ instrument.fields.keys ∧ InstrumentKind.ofTag instrument.kind.tag = instrument.kind) ∧
    ∀ mode budget tree instrument, reader mode budget tree = .ok instrument →
      tagName ∉ instrument.fields.keys ∧ InstrumentKind.ofTag instrument.kind.tag = instrument.kind := by
  have restored (unnamed : tagName ∉ fields.map (·.1)) :
      read reader (build tag fields).json.text = .ok (build tag fields) :=
    read_text (readable_build unnamed canonical).restores
  have everywhere (mode : Mode) (budget : Nat) (tree : Tree) (instrument : Instrument)
      (found : reader mode budget tree = .ok instrument) :
      tagName ∉ instrument.fields.keys ∧ InstrumentKind.ofTag instrument.kind.tag = instrument.kind := by
    obtain ⟨rest, -, readable⟩ := readable_of_reader found
    refine ⟨fun named => ?_, readable.kind⟩
    obtain ⟨entry, member, same⟩ := List.mem_map.mp named
    exact readable.named entry member same
  refine ⟨⟨_, text_build, lists_build⟩, ⟨?unnamed, fun unnamed => ⟨_, restored unnamed⟩⟩, restored,
    ?tagged, fun text instrument found => everywhere _ _ _ _ (reader_of_read found), everywhere⟩
  case unnamed =>
    rintro ⟨instrument, found⟩ named
    have root := reader_of_read found
    rw [Document.ofText_text] at root
    refine not_reads_of_named ?_ root
    rw [build_eq]
    exact SortedMap.mem_keys_ofList_iff.mpr (List.mem_map.mp named)
  case tagged =>
    rw [build_eq]
    exact InstrumentKind.tagged_ofTag tag

/-- A field that is set twice, beside one that holds an object. -/
def swapFields : List (String × Json) :=
  [("x", .number (.integer 1)), ("leg", .object [("rate", .null)]), ("x", .string "\n")]

/-- The other value of the field is lost. -/
example : (build "CommodSwap" swapFields).json.text =
    "\x7b\"type\":\"CommodSwap\",\"leg\":\x7b\"rate\":null\x7d,\"x\":\"\\n\"\x7d" := by
  decide

/-- Fields of an unknown instrument are kept, and a field that is called like the tag is refused. -/
theorem swap_reads_back :
    (∀ field ∈ swapFields, field.2.Canonical (depthLimit - 1)) ∧
    read reader (build "CommodSwap" swapFields).json.text = .ok (build "CommodSwap" swapFields) ∧
    (build "CommodSwap" swapFields).kind = .other "CommodSwap" ∧
    ¬∃ instrument, read reader (build "EqOption" [(tagName, .null)]).json.text = .ok instrument := by
  have canonical : ∀ field ∈ swapFields, field.2.Canonical (depthLimit - 1) := by
    intro field member
    obtain rfl | rfl | rfl : field = _ ∨ field = _ ∨ field = _ := by simpa [swapFields] using member
    · exact .number _ ⟨by decide, by decide⟩
    · exact .object (List.pairwise_singleton _ _) fun member among =>
        List.mem_singleton.mp among ▸ .null _
    · exact .string _ _
  have alone : ∀ field ∈ [(tagName, Json.null)], field.2.Canonical (depthLimit - 1) :=
    fun field member => List.mem_singleton.mp member ▸ .null _
  obtain ⟨-, -, restored, -⟩ := built_reads_back "CommodSwap" swapFields canonical
  obtain ⟨-, readable, -⟩ := built_reads_back "EqOption" [(tagName, .null)] alone
  exact ⟨canonical, restored (by decide), rfl, fun found => readable.mp found List.mem_cons_self⟩

end Instrument

end VolBacktest
