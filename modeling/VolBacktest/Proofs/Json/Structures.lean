import VolBacktest.Json.Variant
import VolBacktest.Proofs.Json.Restoring

/-!
# Structures read back

The fields of a structure encode a value by some members if they read the value from every object that
has these members, whatever else the object holds. So a structure can be read from an object that is
also read as another one. Fields are built up applicatively, and so are the members that encode a
value: the members of both parts, one behind the other.

The other direction is inversion. If fields have been read from anything, an object or a list, then each
of them has been read from some tree or has the value of an absent one.
-/

namespace VolBacktest.Json

variable {α β : Type}

/-- The members as they are found when a written object has been opened. -/
def written (members : List (String × Json)) : List (String × Tree) :=
  members.map fun (key, value) => (key, .ofJson value)

/-- Members are chosen by their keys alone. -/
theorem filter_written (keep : String → Bool) (all : List (String × Json)) :
    (written all).filter (fun entry => keep entry.1) =
      written (all.filter fun member => keep member.1) := by
  rw [written, List.filter_map]
  rfl

theorem Slot.ofMembers_written {name : String} {json : Json} {all : List (String × Json)}
    (distinct : (all.map (·.1)).Nodup) (member : (name, json) ∈ all) (position : Nat) :
    ∃ found, ofMembers name position (written all) = present found (.ofJson json) := by
  induction all generalizing position with
  | nil => contradiction
  | cons head rest ih =>
    obtain ⟨key, value⟩ := head
    rw [List.map_cons, List.nodup_cons] at distinct
    obtain ⟨fresh, distinct⟩ := distinct
    rw [written, List.map_cons, ofMembers]
    obtain same | later := List.mem_cons.mp member
    · cases same
      have once : (written rest).findIdx? (·.1 = name) = none := by
        rw [List.findIdx?_eq_none_iff]
        intro entry mem
        obtain ⟨other, found, rfl⟩ := List.mem_map.mp mem
        refine decide_eq_false fun same => fresh ?_
        exact List.mem_map.mpr ⟨other, found, same⟩
      rw [written] at once
      rw [if_pos rfl, once]
      exact ⟨position, rfl⟩
    · have differs : key ≠ name := by
        rintro rfl
        exact fresh (List.mem_map.mpr ⟨_, later, rfl⟩)
      rw [if_neg differs]
      exact ih distinct later (position + 1)

mutual

theorem skip_ofJson (json : Json) : Tree.skip (.ofJson json) = .ok () := by
  match json with
  | .null | .bool _ | .number _ | .string _ => rfl
  | .array items =>
    rw [Tree.ofJson, Tree.skip, skipItems_ofItems items, check_closed]
    rfl
  | .object members =>
    rw [Tree.ofJson, Tree.skip, skipMembers_ofMembers members, check_closed]
    rfl

theorem skipItems_ofItems (items : List Json) : Tree.skipItems (Tree.ofItems items) = .ok () := by
  match items with
  | [] => rfl
  | item :: rest =>
    rw [Tree.ofItems, Tree.skipItems, skip_ofJson item, skipItems_ofItems rest]
    rfl

theorem skipMembers_ofMembers (members : List (String × Json)) :
    Tree.skipMembers (Tree.ofMembers members) = .ok () := by
  match members with
  | [] => rfl
  | (key, value) :: rest =>
    rw [Tree.ofMembers, Tree.skipMembers, skip_ofJson value, skipMembers_ofMembers rest]
    rfl

end

namespace Fields

/-! ### What has been read -/

section Inversion

variable {mode : Mode} {budget index : Nat} {source : Source}

theorem pure_ok {value result : α}
    (read : (pure value : Fields α).read mode budget source index = .ok result) :
    result = value :=
  (Except.ok.inj read).symm

theorem seq_ok {f : Fields (α → β)} {x : Fields α} {result : β}
    (read : (f <*> x).read mode budget source index = .ok result) :
    ∃ g value, f.read mode budget source index = .ok g ∧
      x.read mode budget source (index + f.names.length) = .ok value ∧ result = g value := by
  change (Fields.seq f x).read mode budget source index = .ok result at read
  simp only [Fields.seq] at read
  split at read
  next g value first second => exact ⟨g, value, first, second, (Except.ok.inj read).symm⟩
  all_goals contradiction

theorem map_ok {f : α → β} {x : Fields α} {result : β}
    (read : (f <$> x).read mode budget source index = .ok result) :
    ∃ value, x.read mode budget source index = .ok value ∧ result = f value := by
  obtain ⟨g, value, first, second, rfl⟩ := seq_ok (f := pure f) read
  rw [pure_ok first]
  exact ⟨value, second, rfl⟩

theorem single_ok {name : String} {reader : Reader α}
    {absent : Source → Nat → Except Problem α} {result : α}
    (read : (single name reader absent).read mode budget source index = .ok result) :
    (∃ tree, reader mode budget tree = .ok result) ∨ absent source index = .ok result := by
  simp only [single] at read
  split at read
  next => exact .inr read
  next position tree _ =>
    cases found : reader mode budget tree with
    | error => simp [found] at read
    | ok value =>
      rw [found] at read
      cases read
      exact .inl ⟨tree, found⟩
  next =>
    obtain ⟨_, -, read⟩ := bind_eq_ok.mp read
    contradiction

theorem required_ok {name : String} {reader : Reader α} {result : α}
    (read : (required name reader).read mode budget source index = .ok result) :
    ∃ tree, reader mode budget tree = .ok result :=
  (single_ok read).resolve_right nofun

theorem optional_ok {name : String} {reader : Reader α} {result : Option α}
    (read : (optional name reader).read mode budget source index = .ok result) :
    (∃ tree, reader.nullable mode budget tree = .ok result) ∨ result = none := by
  obtain found | absent := single_ok read
  · exact .inl found
  · refine .inr ?_
    split at absent
    next => exact (Except.ok.inj absent).symm
    next => contradiction

theorem defaulted_ok {name : String} {reader : Reader α} {value result : α}
    (read : (defaulted name reader value).read mode budget source index = .ok result) :
    (∃ tree, reader mode budget tree = .ok result) ∨ result = value := by
  obtain found | absent := single_ok read
  · exact .inl found
  · exact .inr (Except.ok.inj absent).symm

/-- The other members are read as any value, and none of them has a known name. -/
theorem others_ok {known : List String} {result : List (String × Json)}
    (read : (others known).read mode budget source index = .ok result) :
    ∀ member ∈ result, known.contains member.1 = false ∧
      ∃ tree : Tree, tree.json budget = .ok member.2 := by
  rw [others] at read
  simp only at read
  split at read
  next entries _ =>
    intro member mem
    obtain ⟨⟨⟨key, tree⟩, position⟩, among, same⟩ := exists_of_mapM_eq_ok read member mem
    simp only at same
    split at same
    next value found =>
      cases same
      have unknown := (List.mem_filter.mp among).2
      exact ⟨by simpa using unknown, tree, found⟩
    next => contradiction
  next =>
    cases read
    intro member mem
    contradiction

theorem readFrom_ok {fields : Fields α} {typeName : String} {content : Content}
    {ending : Option Problem} {result : α}
    (read : fields.readFrom typeName mode budget content ending = .ok result) :
    fields.read mode budget ⟨typeName, fields.names.length, content⟩ 0 = .ok result := by
  simp only [readFrom] at read
  split at read
  next => contradiction
  next value found =>
    split at read
    next =>
      cases read
      exact found
    next => contradiction

theorem objectReader_ok {fields : Fields α} {typeName : String} {tree : Tree} {result : α}
    (read : fields.objectReader typeName mode budget tree = .ok result) :
    ∃ rest source, budget = rest + 1 ∧ fields.read mode rest source 0 = .ok result := by
  rw [objectReader.eq_def] at read
  split at read
  next =>
    obtain ⟨rest, rfl, read⟩ := opened_eq_ok.mp read
    exact ⟨rest, _, rfl, readFrom_ok read⟩
  next => exact absurd read not_mismatch_eq_ok

theorem reader_ok {fields : Fields α} {typeName : String} {tree : Tree} {result : α}
    (read : fields.reader typeName mode budget tree = .ok result) :
    ∃ rest source, budget = rest + 1 ∧ fields.read mode rest source 0 = .ok result := by
  rw [reader.eq_def] at read
  split at read
  next =>
    obtain ⟨rest, rfl, read⟩ := opened_eq_ok.mp read
    exact ⟨rest, _, rfl, readFrom_ok read⟩
  next => exact objectReader_ok read

/-- A structure is a container, so there was room for it. -/
theorem room_of_read {fields : Fields α} {typeName : String} {tree : Tree} {result : α}
    (read : fields.reader typeName mode budget tree = .ok result) : 0 < budget := by
  obtain ⟨rest, -, rfl, -⟩ := reader_ok read
  exact rest.succ_pos

end Inversion

/-! ### What is written -/

theorem seq_read {mode : Mode} {budget index : Nat} {source : Source} {f : Fields (α → β)}
    {x : Fields α} {g : α → β} {value : α} (first : f.read mode budget source index = .ok g)
    (second : x.read mode budget source (index + f.names.length) = .ok value) :
    (f <*> x).read mode budget source index = .ok (g value) := by
  change (Fields.seq f x).read mode budget source index = _
  simp only [Fields.seq, first, second]

structure Encodes (fields : Fields α) (budget : Nat) (members : List (String × Json)) (value : α) :
    Prop where
  legible : ∀ member ∈ members, member.2.Legible budget
  reads : ∀ all : List (String × Json), (all.map (·.1)).Nodup → members ⊆ all →
    ∀ mode room typeName size index, budget ≤ room →
      fields.read mode room ⟨typeName, size, .members (written all)⟩ index = .ok value

namespace Encodes

variable {budget : Nat}

theorem pure (value : α) : (Pure.pure value : Fields α).Encodes budget [] value where
  legible := nofun
  reads _ _ _ _ _ _ _ _ _ := rfl

theorem seq {f : Fields (α → β)} {x : Fields α} {first second : List (String × Json)} {g : α → β}
    {value : α} (left : f.Encodes budget first g) (right : x.Encodes budget second value) :
    (f <*> x).Encodes budget (first ++ second) (g value) where
  legible member mem := by
    obtain mem | mem := List.mem_append.mp mem
    · exact left.legible member mem
    · exact right.legible member mem
  reads all distinct within mode room typeName size index enough := by
    obtain ⟨inFirst, inSecond⟩ := List.append_subset.mp within
    exact seq_read (left.reads all distinct inFirst mode room typeName size index enough)
      (right.reads all distinct inSecond mode room typeName size _ enough)

theorem map {x : Fields α} {members : List (String × Json)} {value : α} (f : α → β)
    (h : x.Encodes budget members value) : (f <$> x).Encodes budget members (f value) :=
  seq (pure f) h

theorem single (name : String) {reader : Reader α} (absent : Source → Nat → Except Problem α)
    {json : Json} {value : α} (h : reader.Restores budget json value) :
    (Fields.single name reader absent).Encodes budget [(name, json)] value where
  legible member mem := by
    obtain rfl := List.mem_singleton.mp mem
    exact h.legible
  reads all distinct within mode room typeName size index enough := by
    obtain ⟨position, found⟩ := Slot.ofMembers_written distinct
      (within (List.mem_singleton_self _)) 0
    simp only [Fields.single, Source.slot, found, h.reads mode room enough]

theorem required_of (name : String) {reader : Reader α} {json : Json} {value : α}
    (h : reader.Restores budget json value) :
    (Fields.required name reader).Encodes budget [(name, json)] value :=
  single name _ h

theorem optional_of (name : String) {reader : Reader α} {json : Json} {value : Option α}
    (h : reader.nullable.Restores budget json value) :
    (Fields.optional name reader).Encodes budget [(name, json)] value :=
  single name _ h

end Encodes

/-! A field that has been read is restored from the one member that is written for it. -/

section Single

variable {mode : Mode} {budget index : Nat} {source : Source} {name : String} {reader : Reader α}
  {json : α → Json}

theorem required_restores {value : α} (h : reader.RoundTrips json)
    (read : (required name reader).read mode budget source index = .ok value) :
    reader.Restores budget (json value) value := by
  obtain ⟨tree, read⟩ := required_ok read
  exact h read

theorem optional_restores {value : Option α} (h : reader.RoundTrips json)
    (notNull : ∀ value, json value ≠ .null)
    (read : (optional name reader).read mode budget source index = .ok value) :
    reader.nullable.Restores budget (.ofOption json value) value := by
  obtain ⟨tree, read⟩ | rfl := optional_ok read
  · exact Reader.nullable_roundTrips h notNull read
  · exact Reader.nullable_restores_none reader budget

theorem defaulted_restores {value absent : α} (h : reader.RoundTrips json)
    (default : reader.Restores budget (json absent) absent)
    (read : (defaulted name reader absent).read mode budget source index = .ok value) :
    reader.Restores budget (json value) value := by
  obtain ⟨tree, read⟩ | rfl := defaulted_ok read
  · exact h read
  · exact default

theorem Encodes.required {value : α} (h : reader.RoundTrips json)
    (read : (Fields.required name reader).read mode budget source index = .ok value) :
    (Fields.required name reader).Encodes budget [(name, json value)] value :=
  required_of name (required_restores h read)

theorem Encodes.defaulted {value absent : α} (h : reader.RoundTrips json)
    (default : reader.Restores budget (json absent) absent)
    (read : (Fields.defaulted name reader absent).read mode budget source index = .ok value) :
    (Fields.defaulted name reader absent).Encodes budget [(name, json value)] value :=
  single name _ (defaulted_restores h default read)

end Single

/-- The other members are read as they are, if each is restored as any value. -/
theorem others_written (known : List String) (f : Json → Json) (all : List (String × Json))
    {room : Nat}
    (each : ∀ member ∈ all, known.contains member.1 = false →
      Tree.json room (.ofJson member.2) = .ok (f member.2))
    (mode : Mode) (typeName : String) (size index : Nat) :
    (others known).read mode room ⟨typeName, size, .members (written all)⟩ index =
      .ok ((all.filter fun member => !known.contains member.1).map fun member =>
        (member.1, f member.2)) := by
  change List.mapM _ (((written all).zipIdx).filter _) = _
  generalize 0 = position
  induction all generalizing position with
  | nil => rfl
  | cons member rest ih =>
    obtain ⟨key, value⟩ := member
    have tail := ih (fun other mem => each other (List.mem_cons_of_mem _ mem)) (position + 1)
    rw [written, List.map_cons, List.zipIdx_cons, List.filter_cons, List.filter_cons]
    cases kept : known.contains key with
    | true => exact tail
    | false =>
      simp only [Bool.not_false, if_true, List.mapM_cons, each (key, value) List.mem_cons_self kept]
      rw [written] at tail
      rw [tail]
      rfl

theorem objectContent_closed (all : List (String × Json)) :
    objectContent (Tree.ofMembers all) .closed = (written all, none) := by
  have readable : readableMembers (Tree.ofMembers all) = (written all, none) := by
    induction all with
    | nil => rfl
    | cons member rest ih =>
      obtain ⟨key, value⟩ := member
      rw [Tree.ofMembers, readableMembers, ih]
      rfl
  rw [objectContent, readable, Stop.fault_closed]
  rfl

theorem skipUnknown_written (names : List String) (all : List (String × Json)) (position : Nat) :
    skipUnknown names position (written all) = none := by
  induction all generalizing position with
  | nil => rfl
  | cons member rest ih =>
    obtain ⟨key, value⟩ := member
    rw [written, List.map_cons, skipUnknown, skip_ofJson]
    split <;> exact ih _

theorem readFrom_written {fields : Fields α} {mode : Mode} {room : Nat} {typeName : String}
    {all : List (String × Json)} {value : α}
    (read : fields.read mode room ⟨typeName, fields.names.length, .members (written all)⟩ 0 =
      .ok value) :
    fields.readFrom typeName mode room (.members (written all)) none = .ok value := by
  rw [readFrom, read, skipUnknown_written]
  rfl

theorem objectReader_written {fields : Fields α} {mode : Mode} {room : Nat} {typeName : String}
    {all : List (String × Json)} {value : α}
    (read : fields.read mode room ⟨typeName, fields.names.length, .members (written all)⟩ 0 =
      .ok value) :
    fields.objectReader typeName mode (room + 1) (.ofJson (.object all)) = .ok value := by
  rw [Tree.ofJson, objectReader, opened, objectContent_closed]
  exact readFrom_written read

/-- A structure is restored from an object with its members among others. -/
theorem Encodes.restores_among {fields : Fields α} {budget : Nat}
    {members all : List (String × Json)} {value : α} (h : fields.Encodes budget members value)
    (typeName : String) (distinct : (all.map (·.1)).Nodup) (within : members ⊆ all)
    (legible : ∀ member ∈ all, member.2.Legible budget) :
    (fields.reader typeName).Restores (budget + 1) (.object all) value where
  legible := legible_object legible
  reads mode room enough := by
    obtain ⟨room, rfl⟩ := Nat.exists_eq_add_of_le' (Nat.le_of_add_left_le enough)
    exact objectReader_written
      (h.reads all distinct within mode room _ _ _ (Nat.le_of_succ_le_succ enough))

theorem Encodes.restores {fields : Fields α} {budget : Nat} {members : List (String × Json)}
    {value : α} (h : fields.Encodes budget members value) (typeName : String)
    (distinct : (members.map (·.1)).Nodup) :
    (fields.reader typeName).Restores (budget + 1) (.object members) value :=
  h.restores_among typeName distinct (List.Subset.refl _) h.legible

end Fields

/-! ### Tagged values -/

/-- A tag that no other member has. -/
theorem filter_beside_tag {tag : Json} {members : List (String × Json)}
    (distinct : (tagName :: members.map (·.1)).Nodup) :
    ((tagName, tag) :: members).filter (fun member => !([tagName].contains member.1)) =
      members := by
  rw [List.filter_cons_of_neg (by simp), List.filter_eq_self]
  intro member mem
  have other : member.1 ≠ tagName := fun same =>
    (List.nodup_cons.mp distinct).1 (List.mem_map.mpr ⟨member, mem, same⟩)
  simpa using other

/-- A tag is read, and the members beside it are read as any value. -/
theorem Fields.beside_tag_read {reader : Reader α} {budget room : Nat} {tag : Json} {value : α}
    {members : List (String × Json)} {f : Json → Json}
    (make : α → List (String × Json) → β) (restored : reader.Restores budget tag value)
    (distinct : (tagName :: members.map (·.1)).Nodup) (enough : budget ≤ room)
    (each : ∀ member ∈ members, Tree.json room (.ofJson member.2) = .ok (f member.2))
    (mode : Mode) (typeName : String) (size : Nat) :
    (make <$> required tagName reader <*> others [tagName]).read mode room
        ⟨typeName, size, .members (written ((tagName, tag) :: members))⟩ 0 =
      .ok (make value (members.map fun member => (member.1, f member.2))) := by
  have tagRead := ((Encodes.required_of tagName restored).map make).reads
    ((tagName, tag) :: members) distinct (by simp) mode room typeName size 0 enough
  have legible : ∀ member ∈ (tagName, tag) :: members, [tagName].contains member.1 = false →
      Tree.json room (.ofJson member.2) = .ok (f member.2) := by
    intro member mem unknown
    obtain rfl | mem := List.mem_cons.mp mem
    · simp at unknown
    · exact each member mem
  have othersRead := others_written [tagName] f _ legible mode typeName size 1
  rw [filter_beside_tag distinct] at othersRead
  exact seq_read tagRead othersRead

namespace Reader

/-- The bodies among the variants are all that a tag can choose. -/
theorem choose_ok {variants : List (String × α)} {name : String} {value : α}
    (chosen : choose variants name = .ok value) : ∃ key, (key, value) ∈ variants := by
  rw [choose] at chosen
  split at chosen
  next found =>
    cases chosen
    obtain ⟨before, after, same, -⟩ := List.lookup_eq_some_iff.mp found
    exact ⟨name, same ▸ List.mem_append_right before List.mem_cons_self⟩
  next => contradiction

theorem tag_ok {variants : List (String × α)} {mode : Mode} {budget : Nat} {tree : Tree}
    {value : α} (read : tag variants mode budget tree = .ok value) :
    ∃ key, (key, value) ∈ variants := by
  rw [tag.eq_def] at read
  split at read
  next =>
    obtain ⟨name, -, read⟩ := bind_eq_ok.mp read
    exact choose_ok read
  next =>
    obtain ⟨number, -, read⟩ := bind_eq_ok.mp read
    split at read
    next =>
      split at read
      next key _ found =>
        cases read
        exact ⟨key, List.mem_of_getElem? found⟩
      next => contradiction
    next => contradiction
  next => exact absurd read not_mismatch_eq_ok

theorem tagged_ok {typeName : String} {variants : List (String × TaggedBody α)} {mode : Mode}
    {budget : Nat} {tree : Tree} {value : α}
    (read : tagged typeName variants mode budget tree = .ok value) :
    ∃ rest source key body, budget = rest + 1 ∧ (key, body) ∈ variants ∧
      body.fields.read .kept rest source 0 = .ok value := by
  rw [tagged.eq_def] at read
  split at read
  next =>
    obtain ⟨rest, rfl, read⟩ := opened_eq_ok.mp read
    obtain ⟨body, readBeside, read⟩ := bind_eq_ok.mp read
    obtain ⟨_, _, first, -, rfl⟩ := Fields.seq_ok (Fields.readFrom_ok readBeside)
    obtain ⟨chosen, readMember, rfl⟩ := Fields.map_ok first
    obtain ⟨tree, readTag⟩ := Fields.required_ok readMember
    obtain ⟨key, member⟩ := tag_ok readTag
    exact ⟨rest, _, key, chosen, rfl, member, Fields.readFrom_ok read⟩
  next =>
    obtain ⟨rest, rfl, read⟩ := opened_eq_ok.mp read
    split at read
    next =>
      obtain ⟨_, -, read⟩ := bind_eq_ok.mp read
      contradiction
    next =>
      obtain ⟨body, readTag, read⟩ := bind_eq_ok.mp read
      obtain ⟨_, -, read⟩ := bind_eq_ok.mp read
      obtain ⟨_, -, read⟩ := bind_eq_ok.mp read
      obtain ⟨key, member⟩ := tag_ok readTag
      exact ⟨rest, _, key, body, rfl, member, Fields.readFrom_ok read⟩
  next => exact absurd read not_mismatch_eq_ok

theorem tag_restores {variants : List (String × α)} {name : String} {value : α}
    (chosen : variants.lookup name = some value) (budget : Nat) :
    (tag variants).Restores budget (.string name) value where
  legible _ _ := ⟨.string name, rfl⟩
  reads _ _ _ := by
    change choose variants name = .ok value
    rw [choose, chosen]

/-- The tag stands before the members of its body, none of which is another tag. -/
theorem tagged_restores {typeName : String} {variants : List (String × TaggedBody α)}
    {name : String} {body : TaggedBody α} {budget : Nat} {members : List (String × Json)}
    {value : α} (chosen : variants.lookup name = some body)
    (h : body.fields.Encodes budget members value)
    (distinct : (tagName :: members.map (·.1)).Nodup) :
    (tagged typeName variants).Restores (budget + 1)
      (.object ((tagName, .string name) :: members)) value where
  legible := by
    refine legible_object ?_
    intro member mem
    obtain rfl | mem := List.mem_cons.mp mem
    · exact (tag_restores chosen budget).legible
    · exact h.legible member mem
  reads mode room enough := by
    obtain ⟨room, rfl⟩ := Nat.exists_eq_add_of_le' (Nat.le_of_add_left_le enough)
    have bound : budget ≤ room := Nat.le_of_succ_le_succ enough
    have tagRead := Fields.beside_tag_read (fun tag _ => tag) (tag_restores chosen budget) distinct
      bound (fun member mem => (h.legible member mem).json_eq bound) mode typeName 1
    have isTag (key : String) : (key != tagName) = !([tagName].contains key) := by
      rw [List.contains_cons, List.contains_nil, Bool.or_false]
      rfl
    have body_eq : (written ((tagName, .string name) :: members)).filter
        (fun entry => entry.1 != tagName) = written members := by
      simp only [isTag]
      rw [filter_written (fun key => !([tagName].contains key)), filter_beside_tag distinct]
    rw [Tree.ofJson, tagged, opened, Fields.objectContent_closed]
    refine bind_eq_ok.mpr ⟨body, Fields.readFrom_written tagRead, ?_⟩
    rw [body_eq]
    exact Fields.readFrom_written
      (h.reads members (List.nodup_cons.mp distinct).2 (List.Subset.refl _) .kept room _ _ 0 bound)

end Reader

end VolBacktest.Json
