import Mathlib.Data.Set.List
import VolBacktest.Proofs.Json.Soundness
import VolBacktest.Proofs.Json.Structures

/-!
# When a structure is accepted

Problems are reported by their position in the text, but whether there is any does not depend on it. What
a structure is accepted as is said here without positions: an object has to close, its keys have to be
read, the fields are read from the values under their names, and what nobody asks for has to be passed
over. For a tagged value everything beside the tag has to be accepted as a value, because it is read
through before it is known what it is for.
-/

namespace VolBacktest

variable {α β ε : Type}

theorem mapM_eq_ok_iff {f : α → Except ε β} {items : List α} {values : List β} :
    items.mapM f = .ok values ↔ List.Forall₂ (fun a b => f a = .ok b) items values := by
  induction items generalizing values with
  | nil => simp [pure, Except.pure, eq_comm]
  | cons a rest ih =>
      rw [List.mapM_cons, List.forall₂_cons_left_iff]
      simp only [bind_eq_ok, ih]
      constructor
      · rintro ⟨value, first, values, others, ⟨⟩⟩
        exact ⟨value, values, first, others, rfl⟩
      · rintro ⟨value, values, first, others, rfl⟩
        exact ⟨value, first, values, others, rfl⟩

namespace Json

variable {room : Nat}

/-! ### Members and the slots of fields -/

/-- Members whose keys can be read. -/
def keyed (entries : List (String × Tree)) : List (Literal × Tree) :=
  entries.map fun entry => (.ok entry.1, entry.2)

theorem exists_keyed_iff {members : List (Literal × Tree)} :
    (∃ entries, members = keyed entries) ↔ ∀ member ∈ members, ∃ name, member.1 = .ok name := by
  constructor
  · rintro ⟨entries, rfl⟩ member inside
    obtain ⟨entry, -, rfl⟩ := List.mem_map.mp inside
    exact ⟨entry.1, rfl⟩
  · intro readable
    have images : members ∈ Set.range (List.map fun entry : String × Tree =>
        ((.ok entry.1, entry.2) : Literal × Tree)) := by
      rw [Set.range_list_map]
      intro member inside
      obtain ⟨name, named⟩ := readable member inside
      exact ⟨(name, member.2), Prod.ext named.symm rfl⟩
    obtain ⟨entries, same⟩ := images
    exact ⟨entries, same.symm⟩

theorem keyed_perm_iff {entries others : List (String × Tree)} :
    (keyed entries).Perm (keyed others) ↔ entries.Perm others := by
  refine List.map_perm_map_iff ?_
  rintro ⟨name, tree⟩ ⟨_, _⟩ ⟨⟩
  rfl

theorem keyed_inj {entries others : List (String × Tree)} :
    keyed entries = keyed others ↔ entries = others := by
  refine (List.map_injective_iff.mpr ?_).eq_iff
  rintro ⟨name, tree⟩ ⟨_, _⟩ ⟨⟩
  rfl

theorem keyed_append (entries others : List (String × Tree)) :
    keyed (entries ++ others) = keyed entries ++ keyed others :=
  List.map_append

namespace Slot

variable {name : String} {entries : List (String × Tree)}

theorem ofMembers_eq_absent (none : entries.filter (·.1 = name) = []) (position : Nat) :
    ofMembers name position entries = absent := by
  induction entries generalizing position with
  | nil => rfl
  | cons entry rest ih =>
      obtain ⟨key, value⟩ := entry
      by_cases same : key = name
      · simp [same] at none
      · rw [List.filter_cons_of_neg (by simpa using same)] at none
        rw [ofMembers, if_neg same]
        exact ih none (position + 1)

theorem ofMembers_eq_present {key : String} {value : Tree}
    (one : entries.filter (·.1 = name) = [(key, value)]) (position : Nat) :
    ∃ found, ofMembers name position entries = present found value := by
  induction entries generalizing position with
  | nil => contradiction
  | cons entry rest ih =>
      obtain ⟨first, tree⟩ := entry
      by_cases same : first = name
      · rw [List.filter_cons_of_pos (by simpa using same)] at one
        obtain ⟨⟨⟩, none⟩ := List.cons.inj one
        have last : rest.findIdx? (·.1 = name) = Option.none := by
          rw [List.findIdx?_eq_none_iff]
          intro other among
          exact Bool.eq_false_iff.mpr (List.filter_eq_nil_iff.mp none other among)
        exact ⟨position, by rw [ofMembers, if_pos same, last]⟩
      · rw [List.filter_cons_of_neg (by simpa using same)] at one
        obtain ⟨found, slot⟩ := ih one (position + 1)
        exact ⟨found, by rw [ofMembers, if_neg same, slot]⟩

/-- The value of the first member under this name. -/
theorem find?_of_ofMembers {position found : Nat} {value : Tree}
    (slot : ofMembers name position entries = present found value) :
    (entries.find? (·.1 = name)).map (·.2) = some value := by
  induction entries generalizing position with
  | nil => contradiction
  | cons entry rest ih =>
      obtain ⟨key, tree⟩ := entry
      rw [ofMembers] at slot
      by_cases same : key = name
      · rw [if_pos same] at slot
        rw [List.find?_cons_of_pos (by simpa using same)]
        split at slot
        · cases slot
          rfl
        · contradiction
      · rw [if_neg same] at slot
        rw [List.find?_cons_of_neg (by simpa using same)]
        exact ih slot

end Slot

/-- Of entries with different names at most one has this name. -/
theorem filter_named {name : String} {entries : List (String × Tree)}
    (distinct : (entries.map (·.1)).Nodup) :
    entries.filter (·.1 = name) = [] ∨ ∃ entry, entries.filter (·.1 = name) = [entry] := by
  have named : ((entries.filter (·.1 = name)).map (·.1)) =
      List.replicate (entries.filter (·.1 = name)).length name := by
    refine List.eq_replicate_iff.mpr ⟨List.length_map _, fun key among => ?_⟩
    obtain ⟨entry, inside, rfl⟩ := List.mem_map.mp among
    simpa using (List.mem_filter.mp inside).2
  have once := distinct.sublist ((List.filter_sublist (p := (·.1 = name))).map _)
  rw [named, List.nodup_replicate] at once
  cases filtered : entries.filter (·.1 = name) with
  | nil => exact .inl rfl
  | cons entry rest =>
      rw [filtered, List.length_cons] at once
      obtain rfl := List.length_eq_zero_iff.mp (Nat.le_zero.mp (Nat.le_of_succ_le_succ once))
      exact .inr ⟨entry, rfl⟩

namespace Fields

/-! ### Fields -/

theorem seq_eq_ok_iff {f : Fields (α → β)} {x : Fields α} {mode : Mode} {source : Source}
    {index : Nat} {result : β} :
    (f <*> x).read mode room source index = .ok result ↔
      ∃ g, f.read mode room source index = .ok g ∧
        ∃ value, x.read mode room source (index + f.names.length) = .ok value ∧
          result = g value := by
  constructor
  · intro read
    obtain ⟨g, value, first, second, same⟩ := seq_ok read
    exact ⟨g, first, value, second, same⟩
  · rintro ⟨g, first, value, second, rfl⟩
    exact seq_read first second

theorem map_eq_ok_iff {f : α → β} {x : Fields α} {mode : Mode} {source : Source} {index : Nat}
    {result : β} :
    (f <$> x).read mode room source index = .ok result ↔
      ∃ value, x.read mode room source index = .ok value ∧ result = f value := by
  constructor
  · exact map_ok
  · rintro ⟨value, read, rfl⟩
    exact seq_read (f := pure f) rfl read

theorem required_eq_ok_iff {name : String} {reader : Reader α} {mode : Mode} {source : Source}
    {index : Nat} {value : α} :
    (required name reader).read mode room source index = .ok value ↔
      ∃ position tree, source.slot index name = .present position tree ∧
        reader mode room tree = .ok value := by
  simp only [required, single]
  cases source.slot index name with
  | absent => simp
  | present position tree => cases found : reader mode room tree <;> simp [found]
  | repeated position tree again =>
      cases found : reader mode room tree <;> simp [bind, Except.bind, found]

theorem defaulted_eq_ok_iff {name : String} {reader : Reader α} {mode : Mode} {source : Source}
    {index : Nat} {absent value : α} :
    (defaulted name reader absent).read mode room source index = .ok value ↔
      source.slot index name = .absent ∧ value = absent ∨
        ∃ position tree, source.slot index name = .present position tree ∧
          reader mode room tree = .ok value := by
  simp only [defaulted, single]
  cases source.slot index name with
  | absent => simp [eq_comm]
  | present position tree => cases found : reader mode room tree <;> simp [found]
  | repeated position tree again => simp [bind_eq_ok]

/-- The other members are read as any values, each with its own name. -/
theorem others_eq_ok_iff {known : List String} {mode : Mode} {typeName : String} {size index : Nat}
    {entries : List (String × Tree)} {values : List (String × Json)} :
    (others known).read mode room ⟨typeName, size, .members entries⟩ index = .ok values ↔
      List.Forall₂ (fun entry value => entry.1 = value.1 ∧ entry.2.json room = .ok value.2)
        (entries.filter fun entry => !known.contains entry.1) values := by
  change List.mapM _ ((entries.zipIdx).filter _) = _ ↔ _
  rw [mapM_eq_ok_iff]
  generalize 0 = position
  induction entries generalizing position values with
  | nil => simp
  | cons entry rest ih =>
      obtain ⟨key, tree⟩ := entry
      rw [List.zipIdx_cons, List.filter_cons, List.filter_cons]
      cases found : known.contains key with
      | true => exact ih (position + 1)
      | false =>
          simp only [Bool.not_false, if_true, List.forall₂_cons_left_iff, ih]
          refine exists_congr fun value => exists_congr fun later => and_congr_left fun _ => ?_
          cases read : tree.json room <;> simp [Prod.ext_iff]

theorem exists_others_iff {known : List String} {mode : Mode} {typeName : String} {size index : Nat}
    {entries : List (String × Tree)} :
    (∃ values, (others known).read mode room ⟨typeName, size, .members entries⟩ index = .ok values) ↔
      ∀ entry ∈ entries, entry.1 ∉ known → entry.2.Sound room := by
  simp only [others_eq_ok_iff, exists_forall₂_iff]
  constructor
  · intro each entry among unknown
    obtain ⟨value, -, read⟩ := each entry (List.mem_filter.mpr ⟨among, by simpa using unknown⟩)
    exact ⟨value.2, read⟩
  · intro each entry among
    obtain ⟨inside, unknown⟩ := List.mem_filter.mp among
    obtain ⟨json, read⟩ := each entry inside (by simpa using unknown)
    exact ⟨(entry.1, json), rfl, read⟩

/-! ### Containers -/

theorem readableMembers_eq_iff {members : List (Literal × Tree)} {entries : List (String × Tree)} :
    readableMembers members = (entries, none) ↔ members = keyed entries := by
  constructor
  · intro all
    induction members generalizing entries with
    | nil =>
        cases all
        rfl
    | cons member rest ih =>
        obtain ⟨key, value⟩ := member
        cases key with
        | error fault => cases all
        | ok name =>
            rw [readableMembers] at all
            generalize tail : readableMembers rest = readable at all
            obtain ⟨named, fault⟩ := readable
            cases all
            rw [ih tail]
            rfl
  · rintro rfl
    induction entries with
    | nil => rfl
    | cons entry rest ih =>
        rw [keyed] at ih
        rw [keyed, List.map_cons, readableMembers, ih]

/-- The members of an object can all be looked at if it closes and their keys can be read. -/
theorem objectContent_eq_iff {members : List (Literal × Tree)} {stop : Stop}
    {entries : List (String × Tree)} :
    objectContent members stop = (entries, none) ↔ members = keyed entries ∧ stop = .closed := by
  rw [← readableMembers_eq_iff, ← @fault_eq_none_iff stop .curly .reading]
  rw [objectContent]
  generalize readableMembers members = readable
  obtain ⟨named, fault⟩ := readable
  cases fault <;> cases stop.fault .curly .reading <;> simp

theorem skipUnknown_eq_none_iff {names : List String} {entries : List (String × Tree)}
    {position : Nat} :
    skipUnknown names position entries = none ↔
      ∀ entry ∈ entries, entry.1 ∉ names → entry.2.skip = .ok () := by
  induction entries generalizing position with
  | nil => exact iff_of_true rfl nofun
  | cons entry rest ih =>
      obtain ⟨key, value⟩ := entry
      rw [skipUnknown, List.forall_mem_cons]
      by_cases known : key ∈ names
      · simp [known, ih]
      · cases skipped : value.skip <;> simp [known, ih]

section Containers

variable {fields : Fields α} {typeName : String} {mode : Mode} {ending : Option Problem}
  {value : α}

theorem readFrom_members_eq_ok_iff {entries : List (String × Tree)} :
    fields.readFrom typeName mode room (.members entries) ending = .ok value ↔
      fields.read mode room ⟨typeName, fields.names.length, .members entries⟩ 0 = .ok value ∧
        (∀ entry ∈ entries, entry.1 ∉ fields.names → entry.2.skip = .ok ()) ∧ ending = none := by
  rw [readFrom, ← @skipUnknown_eq_none_iff fields.names entries 0]
  generalize fields.read mode room _ 0 = result
  cases result <;> cases skipUnknown fields.names 0 entries <;> cases ending <;> simp

theorem readFrom_items_eq_ok_iff {items : List Tree} :
    fields.readFrom typeName mode room (.items items) ending = .ok value ↔
      fields.read mode room ⟨typeName, fields.names.length, .items items⟩ 0 = .ok value ∧
        ending = none := by
  rw [readFrom]
  generalize fields.read mode room _ 0 = result
  cases result <;> cases ending <;> simp

/-- A list must not have more items than there are fields; that it has fewer shows when a field is
missed. -/
theorem listProblem_eq_none_iff {size : Nat} {items : List Tree} {stop : Stop} :
    listProblem mode size items stop = none ↔ items.length ≤ size ∧ stop = .closed := by
  rw [listProblem.eq_def]
  by_cases more : size < items.length
  · cases mode <;> simp [more]
  · rw [if_neg more, Option.map_eq_none_iff]
    have few := Nat.le_of_not_lt more
    by_cases full : items.length = size
    · cases stop <;> simp [full]
    · rw [if_neg full, fault_eq_none_iff]
      exact (and_iff_right few).symm

theorem objectReader_eq_ok_iff {members : List (Literal × Tree)} {stop : Stop} :
    fields.objectReader typeName mode room (.object members stop) = .ok value ↔
      ∃ rest, room = rest + 1 ∧ stop = .closed ∧ ∃ entries, members = keyed entries ∧
        fields.readFrom typeName mode rest (.members entries) none = .ok value := by
  rw [objectReader, opened_eq_ok]
  refine exists_congr fun rest => and_congr_right fun _ => ?_
  generalize content : objectContent members stop = found
  obtain ⟨entries, ending⟩ := found
  constructor
  · intro read
    obtain ⟨fieldsRead, skipped, rfl⟩ := readFrom_members_eq_ok_iff.mp read
    obtain ⟨named, closed⟩ := objectContent_eq_iff.mp content
    exact ⟨closed, entries, named, readFrom_members_eq_ok_iff.mpr ⟨fieldsRead, skipped, rfl⟩⟩
  · rintro ⟨closed, others, named, read⟩
    rw [objectContent_eq_iff.mpr ⟨named, closed⟩] at content
    cases content
    exact read

theorem reader_object {members : List (Literal × Tree)} {stop : Stop} :
    fields.reader typeName mode room (.object members stop) =
      fields.objectReader typeName mode room (.object members stop) := rfl

end Containers

end Fields

/-! ### Lists -/

/-- A list that closes is read item by item. -/
theorem Reader.list_eq_ok_iff {reader : Reader α} {mode : Mode} {room : Nat} {items : List Tree}
    {values : List α} :
    Reader.list reader mode room (.array items .closed) = .ok values ↔
      ∃ rest, room = rest + 1 ∧
        List.Forall₂ (fun item value => reader mode rest item = .ok value) items values := by
  rw [Reader.list, opened_eq_ok]
  refine exists_congr fun rest => and_congr_right fun _ => ?_
  simp only [bind_eq_ok, mapM_eq_ok_iff, liftFault_eq_ok, check_closed, Except.ok.injEq]
  constructor
  · rintro ⟨_, each, -, -, rfl⟩
    exact each
  · intro each
    exact ⟨values, each, (), trivial, rfl⟩

/-! ### Plain variants -/

namespace Reader

variable {pick : String → Read α} {members : List (Literal × Tree)} {stop : Stop} {value : α}

theorem unit_eq_ok_iff {tree : Tree} {nothing : Unit} :
    unit tree = .ok nothing ↔ tree = .scalar .null := by
  constructor
  · intro read
    rw [unit.eq_def] at read
    split at read
    next => rfl
    next => exact absurd read not_mismatch_eq_ok
  · rintro rfl
    rfl

theorem directMember_eq_ok_iff :
    directMember pick members stop = .ok value ↔ stop = .closed ∧
      ∃ entries, members = keyed entries ∧ ∃ name tree, entries = [(name, tree)] ∧
        tree = .scalar .null ∧ pick name = .ok value := by
  constructor
  · intro read
    rw [directMember.eq_def] at read
    split at read
    next => contradiction
    next key tree more =>
      simp only [bind_eq_ok, liftFault_eq_ok, unit_eq_ok_iff] at read
      obtain ⟨name, rfl, variant, picked, _, isNull, read⟩ := read
      split at read
      next =>
        cases read
        exact ⟨rfl, [(name, tree)], rfl, name, tree, rfl, isNull, picked⟩
      all_goals contradiction
  · rintro ⟨rfl, _, rfl, name, _, rfl, rfl, picked⟩
    simp only [keyed, List.map_cons, List.map_nil, directMember, liftFault, bind_eq_ok]
    exact ⟨name, rfl, value, picked, (), rfl, rfl⟩

theorem keptMember_eq_ok_iff :
    keptMember pick members = .ok value ↔
      ∃ entries, members = keyed entries ∧ ∃ name tree, entries = [(name, tree)] ∧
        (tree = .scalar .null ∨ ∃ stop, tree = .object [] stop) ∧ pick name = .ok value := by
  constructor
  · intro read
    rw [keptMember.eq_def] at read
    split at read
    next key tree =>
      simp only [bind_eq_ok, liftFault_eq_ok] at read
      obtain ⟨name, rfl, variant, picked, read⟩ := read
      refine ⟨[(name, tree)], rfl, name, tree, rfl, ?_⟩
      split at read
      next =>
        cases read
        exact ⟨.inr ⟨_, rfl⟩, picked⟩
      next =>
        obtain ⟨_, isNull, read⟩ := bind_eq_ok.mp read
        cases read
        exact ⟨.inl (unit_eq_ok_iff.mp isNull), picked⟩
    next => contradiction
  · rintro ⟨_, rfl, name, _, rfl, rfl | ⟨stop, rfl⟩, picked⟩ <;>
      simp only [keyed, List.map_cons, List.map_nil, keptMember, liftFault, bind_eq_ok]
    · exact ⟨name, rfl, value, picked, (), rfl, rfl⟩
    · exact ⟨name, rfl, value, picked, rfl⟩

end Reader

/-! ### Tagged values -/

theorem lookup_map_eq {κ : Type} (name : κ → String) (make : κ → α) (kinds : List κ) (key : String) :
    (kinds.map fun kind => (name kind, make kind)).lookup key =
      ((kinds.map fun kind => (name kind, kind)).lookup key).map make := by
  induction kinds with
  | nil => rfl
  | cons kind rest ih =>
      rw [List.map_cons, List.map_cons, List.lookup_cons, List.lookup_cons, ih]
      cases key == name kind <;> rfl

namespace Reader

/-- A tag is the name of a variant, or in a kept part its index. -/
theorem tag_eq_ok_iff {variants : List (String × α)} {mode : Mode} {room : Nat} {tree : Tree}
    {value : α} :
    tag variants mode room tree = .ok value ↔
      (∃ name, tree = .scalar (.string (.ok name)) ∧ variants.lookup name = some value) ∨
        mode = .kept ∧ ∃ n index, tree = .scalar (.number n) ∧
          n.toNumber = .ok (.integer (.ofNat index)) ∧ (variants.map (·.2))[index]? = some value := by
  constructor
  · intro read
    rw [tag.eq_def] at read
    split at read
    next literal =>
      obtain ⟨name, named, chosen⟩ := bind_eq_ok.mp read
      obtain rfl := liftFault_eq_ok.mp named
      rw [choose] at chosen
      split at chosen
      next found =>
        cases chosen
        exact .inl ⟨name, rfl, found⟩
      next => contradiction
    next n =>
      obtain ⟨number, numbered, read⟩ := bind_eq_ok.mp read
      split at read
      next index =>
        split at read
        next found =>
          cases read
          exact .inr ⟨rfl, n, index, rfl, liftFault_eq_ok.mp numbered, by simp [found]⟩
        next => contradiction
      next => contradiction
    next => exact absurd read not_mismatch_eq_ok
  · rintro (⟨name, rfl, found⟩ | ⟨rfl, n, index, rfl, numbered, found⟩)
    · refine bind_eq_ok.mpr ⟨name, rfl, ?_⟩
      rw [choose, found]
    · refine bind_eq_ok.mpr ⟨_, liftFault_eq_ok.mpr numbered, ?_⟩
      rw [List.getElem?_map, Option.map_eq_some_iff] at found
      obtain ⟨⟨name, _⟩, found, rfl⟩ := found
      simp [found]

/-- In a kept part a tag names no less than in the text. -/
theorem tag_kept {variants : List (String × α)} {mode : Mode} {tree : Tree} {value : α}
    (read : tag variants mode room tree = .ok value) : tag variants .kept room tree = .ok value := by
  rw [tag_eq_ok_iff] at read ⊢
  obtain named | ⟨-, index⟩ := read
  · exact .inl named
  · exact .inr ⟨rfl, index⟩

variable {κ : Type} {name : κ → String} {kinds : List κ}

/-- A tag names a variant by its kind. -/
theorem tag_map_eq_ok_iff {make : κ → α} {mode : Mode} {room : Nat} {tree : Tree} {value : α}
    (other : Nat) :
    tag (kinds.map fun kind => (name kind, make kind)) mode room tree = .ok value ↔
      ∃ kind, tag (kinds.map fun kind => (name kind, kind)) mode other tree = .ok kind ∧
        make kind = value := by
  simp only [tag_eq_ok_iff, lookup_map_eq name make kinds, List.map_map, List.getElem?_map,
    Function.comp_def, Option.map_id', Option.map_eq_some_iff]
  constructor
  · rintro (⟨key, rfl, kind, found, rfl⟩ | ⟨rfl, n, index, rfl, numbered, kind, found, rfl⟩)
    · exact ⟨kind, .inl ⟨key, rfl, found⟩, rfl⟩
    · exact ⟨kind, .inr ⟨rfl, n, index, rfl, numbered, found⟩, rfl⟩
  · rintro ⟨kind, ⟨key, rfl, found⟩ | ⟨rfl, n, index, rfl, numbered, found⟩, rfl⟩
    · exact .inl ⟨key, rfl, kind, found, rfl⟩
    · exact .inr ⟨rfl, n, index, rfl, numbered, kind, found, rfl⟩

end Reader

/-- In a kept part a tag names no fewer kinds than in the text. -/
theorem exists_kind_of_tag {κ : Type} {name : κ → String} {make : κ → α} {kinds : List κ}
    {mode : Mode} {tag : Tree} {value : α}
    (read : Reader.tag (kinds.map fun kind => (name kind, make kind)) mode room tag = .ok value) :
    ∃ kind, Reader.tag (kinds.map fun kind => (name kind, kind)) .kept 0 tag = .ok kind ∧
      make kind = value := by
  obtain ⟨kind, named, same⟩ := (Reader.tag_map_eq_ok_iff 0).mp read
  exact ⟨kind, Reader.tag_kept named, same⟩

section Tagged

variable {variants : List (String × TaggedBody α)} {typeName : String} {mode : Mode}

/-- Beside the tag everything has to be accepted as a value. -/
theorem Fields.readFrom_tagged_eq_ok_iff {variants : List (String × β)} {ending : Option Problem}
    {entries : List (String × Tree)} {body : β} :
    (Fields.tagged variants).readFrom typeName mode room (.members entries) ending = .ok body ↔
      (∃ position tag, Slot.ofMembers tagName 0 entries = .present position tag ∧
        Reader.tag variants mode room tag = .ok body) ∧
      (∀ entry ∈ entries, entry.1 ≠ tagName → entry.2.Sound room) ∧ ending = none := by
  rw [Fields.readFrom_members_eq_ok_iff, Fields.tagged, Fields.seq_eq_ok_iff]
  simp only [Fields.map_eq_ok_iff, Fields.required_eq_ok_iff]
  constructor
  · rintro ⟨⟨_, ⟨_, slot, rfl⟩, values, others, rfl⟩, -, ended⟩
    refine ⟨slot, fun entry among other => ?_, ended⟩
    exact Fields.exists_others_iff.mp ⟨values, others⟩ entry among (by simpa using other)
  · rintro ⟨slot, sound, ended⟩
    have beside : ∀ entry ∈ entries, entry.1 ∉ [tagName] → entry.2.Sound room :=
      fun entry among other => sound entry among fun same => other (List.mem_singleton.mpr same)
    obtain ⟨values, others⟩ := Fields.exists_others_iff.mpr beside
    refine ⟨⟨_, ⟨body, slot, rfl⟩, values, others, rfl⟩, fun entry among other => ?_, ended⟩
    exact Tree.skip_of_sound (beside entry among other)

theorem Reader.tagged_object_eq_ok_iff {members : List (Literal × Tree)} {stop : Stop} {value : α} :
    Reader.tagged typeName variants mode room (.object members stop) = .ok value ↔
      ∃ rest, room = rest + 1 ∧ stop = .closed ∧ ∃ entries, members = keyed entries ∧
        (∀ entry ∈ entries, entry.1 ≠ tagName → entry.2.Sound rest) ∧
        ∃ position tag body, Slot.ofMembers tagName 0 entries = .present position tag ∧
          Reader.tag variants mode rest tag = .ok body ∧
          body.read rest (.members (entries.filter fun entry => entry.1 != tagName)) = .ok value := by
  rw [Reader.tagged, opened_eq_ok]
  refine exists_congr fun rest => and_congr_right fun _ => ?_
  generalize content : Fields.objectContent members stop = found
  obtain ⟨entries, ending⟩ := found
  simp only [bind_eq_ok, Fields.readFrom_tagged_eq_ok_iff]
  constructor
  · rintro ⟨body, ⟨⟨position, tag, slot, chosen⟩, sound, rfl⟩, read⟩
    obtain ⟨named, closed⟩ := Fields.objectContent_eq_iff.mp content
    exact ⟨closed, entries, named, sound, position, tag, body, slot, chosen, read⟩
  · rintro ⟨closed, others, named, sound, position, tag, body, slot, chosen, read⟩
    rw [Fields.objectContent_eq_iff.mpr ⟨named, closed⟩] at content
    cases content
    exact ⟨body, ⟨⟨position, tag, slot, chosen⟩, sound, rfl⟩, read⟩

theorem Reader.tagged_array_eq_ok_iff {tag : Tree} {others : List Tree} {stop : Stop} {value : α} :
    Reader.tagged typeName variants mode room (.array (tag :: others) stop) = .ok value ↔
      ∃ rest, room = rest + 1 ∧ stop = .closed ∧ (∀ item ∈ others, item.Sound rest) ∧
        ∃ body, Reader.tag variants mode rest tag = .ok body ∧
          body.read rest (.items others) = .ok value := by
  rw [Reader.tagged, opened_eq_ok]
  refine exists_congr fun rest => and_congr_right fun _ => ?_
  simp only [bind_eq_ok, liftFault_eq_ok, check_eq_ok_iff, jsonItems_eq_ok_iff, Tree.Sound,
    ← exists_forall₂_iff]
  constructor
  · rintro ⟨body, chosen, values, sound, _, closed, read⟩
    exact ⟨closed, ⟨values, sound⟩, body, chosen, read⟩
  · rintro ⟨closed, ⟨values, sound⟩, body, chosen, read⟩
    exact ⟨body, chosen, values, sound, (), closed, read⟩

end Tagged

end Json

end VolBacktest
