import VolBacktest.Proofs.Json.Layout

/-!
# Structures and layout

The fields of a structure are looked up by their names, so it does not matter in which order they stand,
and members under unknown names are passed over. `Fields.Respects` says of fields that what they read
depends only on the values they find. It is established field by field, as structures are put together,
and carries over to the structures: `Fields.respects_reader`.

A tagged value reads its tag first, wherever that stands. From then on the structure of the variant
decides what is known: `Reader.respects_tagged`.
-/

namespace VolBacktest.Json

variable {α β P : Type} {schema : Schema P} {place : Place P} {room : Nat}

/-! ### Where the fields stand -/

/-- Two slots hold relaid values, or none. -/
inductive SlotRelaid (schema : Schema P) (place : Place P) (room : Nat) : Slot → Slot → Prop where
  | absent : SlotRelaid schema place room .absent .absent
  | present {position other : Nat} {value otherValue : Tree}
      (relaid : Relaid schema place room value otherValue) :
      SlotRelaid schema place room (.present position value) (.present other otherValue)

/-- A field that is known is found in the one object as in the other. -/
theorem EntriesRelaid.slot {inside : String → Place P} {free : String → Prop}
    {entries others : List (String × Tree)} {name : String}
    (h : EntriesRelaid schema inside free room entries others) (known : ¬free name) :
    SlotRelaid schema (inside name) room (.ofMembers name 0 entries) (.ofMembers name 0 others) := by
  -- A known name is not added, and it stands at most once in the first object.
  have here := h.filter fun key => key = name
  obtain ⟨kept, related, order⟩ := here.perm_of_not_free fun other among => by
    have named : other.1 = name := by simpa using (List.mem_filter.mp among).2
    rw [named]
    exact known
  obtain none | ⟨⟨key, value⟩, one⟩ := @filter_named name entries h.distinct
  · rw [none, List.forall₂_nil_left_iff] at related
    obtain rfl := related
    rw [Slot.ofMembers_eq_absent none, Slot.ofMembers_eq_absent order.eq_nil]
    exact .absent
  · rw [one] at related
    obtain ⟨⟨_, other⟩, _, ⟨⟨⟩, relaid⟩, ⟨⟩, rfl⟩ := List.forall₂_cons_left_iff.mp related
    obtain ⟨first, found⟩ := Slot.ofMembers_eq_present one 0
    obtain ⟨second, foundToo⟩ := Slot.ofMembers_eq_present (List.perm_singleton.mp order) 0
    have named : key = name := by
      have among : (key, value) ∈ entries.filter (·.1 = name) := one ▸ List.mem_singleton_self _
      simpa using (List.mem_filter.mp among).2
    rw [found, foundToo]
    exact .present (named ▸ relaid)

theorem ItemsRelaid.slot {inside : Nat → Place P} {items others : List Tree}
    (h : ItemsRelaid schema inside room items others) (typeName name : String) (size index : Nat) :
    SlotRelaid schema (inside index) room ((⟨typeName, size, .items items⟩ : Source).slot index name)
      ((⟨typeName, size, .items others⟩ : Source).slot index name) := by
  simp only [Source.slot]
  cases here : items[index]? with
  | none =>
      rw [List.getElem?_eq_none_iff, h.length, ← List.getElem?_eq_none_iff] at here
      rw [here]
      exact .absent
  | some item =>
      obtain ⟨inRange, -⟩ := List.getElem?_eq_some_iff.mp here
      have there := List.getElem?_eq_getElem (h.length ▸ inRange)
      rw [there]
      exact .present (h.each index here there)

namespace Fields

/-! ### Fields that respect the layout -/

/-- What the fields read depends only on the values they find. -/
def Respects (fields : Fields α) (schema : Schema P) (inside : String → Place P) : Prop :=
  ∀ ⦃mode room index source other⦄,
    (∀ (i : Nat) (name : String), fields.names[i]? = some name →
      SlotRelaid schema (inside name) room (source.slot (index + i) name)
        (other.slot (index + i) name)) →
    Alike (fields.read mode room source index) (fields.read mode room other index)

variable {inside : String → Place P}

theorem respects_pure (value : α) : (pure value : Fields α).Respects schema inside :=
  fun _ _ _ _ _ _ => .refl _

theorem Respects.seq {f : Fields (α → β)} {x : Fields α} (first : f.Respects schema inside)
    (second : x.Respects schema inside) : (f <*> x).Respects schema inside := by
  intro mode room index source other slots result
  have names : (f <*> x).names = f.names ++ x.names := rfl
  have firstSlots := @first mode room index source other fun i name here => by
    refine slots i name ?_
    rw [names, List.getElem?_append_left (List.getElem?_eq_some_iff.mp here).1, here]
  have secondSlots := @second mode room (index + f.names.length) source other fun i name here => by
    rw [Nat.add_assoc]
    refine slots (f.names.length + i) name ?_
    rw [names, List.getElem?_append_right (Nat.le_add_right _ _), Nat.add_sub_cancel_left, here]
  rw [seq_eq_ok_iff, seq_eq_ok_iff]
  refine exists_congr fun g => and_congr (firstSlots g) (exists_congr fun value => ?_)
  exact and_congr_left fun _ => secondSlots value

theorem Respects.map {x : Fields α} (h : x.Respects schema inside) (f : α → β) :
    (f <$> x).Respects schema inside :=
  (respects_pure f).seq h

theorem respects_single {name : String} {reader : Reader α}
    (h : reader.Respects schema (inside name)) {missing : Source → Nat → Except Problem α}
    (alike : ∀ source other index, Alike (missing source index) (missing other index)) :
    (single name reader missing).Respects schema inside := by
  intro mode room index source other slots
  have slot := slots 0 name rfl
  simp only [single, Nat.add_zero] at slot ⊢
  generalize source.slot index name = here, other.slot index name = there at slot
  cases slot with
  | absent => exact alike source other index
  | @present _ _ value otherValue relaid =>
      intro result
      have same := @h mode _ _ _ relaid result
      cases first : reader mode room value <;> cases second : reader mode room otherValue <;>
        simp_all

theorem respects_required {name : String} {reader : Reader α}
    (h : reader.Respects schema (inside name)) : (required name reader).Respects schema inside :=
  respects_single h fun _ _ _ => .of_refused nofun nofun

theorem respects_defaulted {name : String} {reader : Reader α}
    (h : reader.Respects schema (inside name)) (value : α) :
    (defaulted name reader value).Respects schema inside :=
  respects_single h fun _ _ _ => .refl _

namespace Respects

variable {fields : Fields α}

/-- The fields are read from relaid members. -/
theorem members (h : fields.Respects schema inside) {free : String → Prop}
    {entries others : List (String × Tree)}
    (relaid : EntriesRelaid schema inside free room entries others)
    (known : ∀ name ∈ fields.names, ¬free name) (typeName : String) (mode : Mode) :
    Alike (fields.readFrom typeName mode room (.members entries) none)
      (fields.readFrom typeName mode room (.members others) none) := by
  intro value
  rw [readFrom_members_eq_ok_iff, readFrom_members_eq_ok_iff]
  refine and_congr (h (fun i name here => ?_) value) (and_congr_left fun _ => ?_)
  · exact relaid.slot (known name (List.mem_of_getElem? here))
  · exact relaid.skip_iff fields.names

/-- The fields are read from relaid items. -/
theorem items (h : fields.Respects schema inside) {placed : Nat → Place P}
    {items others : List Tree} (relaid : ItemsRelaid schema placed room items others)
    (same : ∀ (i : Nat) (name : String), fields.names[i]? = some name → placed i = inside name)
    (typeName : String) (mode : Mode) (stop : Stop) :
    Alike
      (fields.readFrom typeName mode room (.items items)
        (listProblem mode fields.names.length items stop))
      (fields.readFrom typeName mode room (.items others)
        (listProblem mode fields.names.length others stop)) := by
  intro value
  rw [readFrom_items_eq_ok_iff, readFrom_items_eq_ok_iff, listProblem_eq_none_iff,
    listProblem_eq_none_iff, relaid.length]
  refine and_congr_left fun _ => h (fun i name here => ?_) value
  rw [Nat.zero_add, ← same i name here]
  exact relaid.slot typeName name _ i

end Respects

/-- The members beside the known ones make up the same map, where nothing stands that can be added to. -/
theorem exists_others_ofList_iff {free : String → Prop} {entries others : List (String × Tree)}
    (h : EntriesRelaid schema inside free room entries others) (closed : ∀ name, ¬free name)
    (plain : ∀ name, inside name = .value) (known : List String) (mode : Mode) (typeName : String)
    (size index : Nat) (p : SortedMap String Json → Prop) :
    (∃ values, (Fields.others known).read mode room ⟨typeName, size, .members entries⟩ index =
        .ok values ∧ p (.ofList values)) ↔
      ∃ values, (Fields.others known).read mode room ⟨typeName, size, .members others⟩ index =
        .ok values ∧ p (.ofList values) := by
  have beside := h.filter fun key => !known.contains key
  obtain ⟨kept, related, order⟩ := beside.perm_of_not_free fun other _ => closed other.1
  simp only [others_eq_ok_iff]
  refine SortedMap.exists_ofList_iff (related.imp ?_) order (fun values read => ?_) p
  · rintro ⟨name, tree⟩ ⟨_, other⟩ ⟨⟨⟩, relaid⟩ value
    exact and_congr_right fun _ =>
      relaid.rearranged.json_eq_ok_iff (plain name) relaid.distinct value.2
  · rw [map_eq_of_forall₂ (fun _ _ one => one.1.symm) read]
    exact beside.distinct

/-- The part of a document that the fields make up: it knows their names and nothing else. -/
theorem respects_reader {fields : Fields α} {part : P}
    (names : ∀ tag, schema.names part tag = fields.names)
    (h : ∀ tag, fields.Respects schema (schema.member part tag)) (typeName : String) :
    (fields.reader typeName).Respects schema (.part part) := by
  refine Reader.respects_of_containers ?_ ?_
  · intro mode room items others stop relaid
    refine alike_opened fun rest same => ?_
    have each := relaid.itemsRelaid
    rw [same, Nat.add_sub_cancel] at each
    refine (h items.head?).items each (fun i name here => ?_) typeName mode stop
    rw [Schema.itemAt, names, here]
    rfl
  · intro mode room members others stop relaid value
    rw [reader_object, reader_object, objectReader_eq_ok_iff, objectReader_eq_ok_iff]
    refine exists_congr fun rest => and_congr_right ?_
    rintro rfl
    refine and_congr_right fun _ => relaid.object_iff fun entries values _ each => ?_
    refine (h (tagOf members)).members each (fun name member => ?_) typeName mode value
    rintro ⟨_, ⟨⟩, unknown⟩
    rw [names] at unknown
    exact unknown member

end Fields

/-! ### Variants -/

theorem Relaid.empty_iff {tree other : Tree} (h : Relaid schema place room tree other)
    (closed : place = .value) :
    (∃ stop, tree = .object [] stop) ↔ ∃ stop, other = .object [] stop := by
  subst closed
  constructor
  · rintro ⟨stop, rfl⟩
    obtain ⟨others, rfl, shuffled⟩ := rearranged_object_iff.mp h.rearranged
    obtain ⟨_, ⟨⟩, order⟩ := shuffled.perm_of_not_fresh (by rintro _ _ ⟨_, _, ⟨_, ⟨⟩, _⟩, _⟩)
    exact ⟨stop, by rw [order.eq_nil]⟩
  · rintro ⟨stop, rfl⟩
    cases h.rearranged with
    | object keys _ _ order =>
        obtain ⟨rfl, -⟩ := List.append_eq_nil_iff.mp order.symm.eq_nil
        exact ⟨stop, by rw [List.map_eq_nil_iff.mp keys]⟩

/-- An object with a single entry is one in every layout, if nothing can be added to it. -/
theorem EntriesRelaid.single_iff {inside : String → Place P} {free : String → Prop}
    {entries others : List (String × Tree)}
    (h : EntriesRelaid schema inside free room entries others) (closed : ∀ name, ¬free name)
    {p : String → Tree → Prop}
    (each : ∀ name tree other, Relaid schema (inside name) room tree other →
      (p name tree ↔ p name other)) :
    (∃ name tree, entries = [(name, tree)] ∧ p name tree) ↔
      ∃ name tree, others = [(name, tree)] ∧ p name tree := by
  obtain ⟨kept, related, order⟩ := h.perm_of_not_free fun other _ => closed other.1
  constructor
  · rintro ⟨name, tree, rfl, holds⟩
    obtain ⟨⟨_, other⟩, _, ⟨⟨⟩, relaid⟩, ⟨⟩, rfl⟩ := List.forall₂_cons_left_iff.mp related
    exact ⟨name, other, List.perm_singleton.mp order, (each name tree other relaid).mp holds⟩
  · rintro ⟨name, other, rfl, holds⟩
    rw [← List.singleton_perm.mp order] at related
    obtain ⟨⟨_, tree⟩, _, ⟨⟨⟩, relaid⟩, ⟨⟩, rfl⟩ := List.forall₂_cons_right_iff.mp related
    exact ⟨name, tree, rfl, (each name tree other relaid).mpr holds⟩

namespace Reader

/-- Which plain variant it is does not depend on the layout, whichever way it is written. -/
theorem respects_plainVariant (pick : String → Read α) :
    (plainVariant pick).Respects schema .value := by
  refine respects_of_containers ?_ ?_
  · intro mode room items others stop _
    cases mode with
    | direct => exact .of_refused nofun nofun
    | kept =>
        exact .of_refused (@not_mismatch_eq_ok _ "string or map" (.array items stop))
          (@not_mismatch_eq_ok _ "string or map" (.array others stop))
  · intro mode room members others stop relaid
    cases mode with
    | direct =>
        refine alike_opened fun rest _ value => ?_
        rw [directMember_eq_ok_iff, directMember_eq_ok_iff]
        refine and_congr_right fun _ => relaid.object_iff fun entries values _ each => ?_
        refine each.single_iff (by rintro _ ⟨_, ⟨⟩, _⟩) fun name tree other same => ?_
        exact and_congr_left fun _ => same.scalar_iff .null
    | kept =>
        refine alike_opened fun rest _ value => ?_
        rw [keptMember_eq_ok_iff, keptMember_eq_ok_iff]
        refine relaid.object_iff fun entries values _ each => ?_
        refine each.single_iff (by rintro _ ⟨_, ⟨⟩, _⟩) fun name tree other same => ?_
        refine and_congr_left fun _ => or_congr (same.scalar_iff .null) ?_
        exact same.empty_iff (schema.memberAt_value _ _)

end Reader

/-! ### Tagged values -/

section Tagged

variable {variants : List (String × TaggedBody α)} {typeName : String} {mode : Mode}

theorem tagOf_keyed (entries : List (String × Tree)) :
    tagOf (keyed entries) = (entries.find? (·.1 = tagName)).map (·.2) := by
  induction entries with
  | nil => rfl
  | cons entry rest ih =>
      simp only [tagOf, keyed, List.map_cons, List.find?_cons] at ih ⊢
      by_cases same : entry.1 = tagName
      · simp [same, Except.toOption]
      · simpa [same, Except.toOption] using ih

/-- The part begins with a tag, and the variant that the tag names decides what else it knows. -/
structure Schema.Describes (schema : Schema P) (part : P)
    (variants : List (String × TaggedBody α)) : Prop where
  tagged (tag : Option Tree) : tagName ∈ schema.names part tag
  names {mode : Mode} {room : Nat} {tag : Tree} {body : TaggedBody α}
    (chosen : Reader.tag variants mode room tag = .ok body) :
    schema.names part (some tag) = tagName :: body.fields.names
  fields {mode : Mode} {room : Nat} {tag : Tree} {body : TaggedBody α}
    (chosen : Reader.tag variants mode room tag = .ok body) :
    body.fields.Respects schema (schema.member part (some tag))

namespace Schema.Describes

variable {part : P} {tag : Tree} {body : TaggedBody α}

/-- The variant is read from the items behind the tag. -/
theorem items (h : schema.Describes part variants)
    (chosen : Reader.tag variants mode room tag = .ok body) {items others : List Tree}
    (relaid : ItemsRelaid schema (fun index => schema.itemAt (some tag) (index + 1) (.part part))
      room items others) :
    Alike (body.read room (.items items)) (body.read room (.items others)) := by
  refine (h.fields chosen).items relaid (fun i name here => ?_) body.typeName .kept .closed
  rw [Schema.itemAt, h.names chosen, List.getElem?_cons_succ, here]
  rfl

/-- The variant is read from the entries beside the tag. -/
theorem entries (h : schema.Describes part variants)
    (chosen : Reader.tag variants mode room tag = .ok body) {entries others : List (String × Tree)}
    (relaid : EntriesRelaid schema (fun name => schema.memberAt (some tag) (.ok name) (.part part))
      (schema.Unknown (some tag) (.part part)) room entries others) :
    Alike (body.read room (.members (entries.filter fun entry => entry.1 != tagName)))
      (body.read room (.members (others.filter fun entry => entry.1 != tagName))) := by
  refine (h.fields chosen).members (relaid.filter (· != tagName)) ?_ body.typeName .kept
  rintro name known ⟨_, ⟨⟩, unknown⟩
  rw [h.names chosen] at unknown
  exact unknown (List.mem_cons_of_mem _ known)

/-- A tagged value written as a list. -/
theorem array (h : schema.Describes part variants) {items others : List Tree} {stop : Stop}
    (relaid : Relaid schema (.part part) room (.array items stop) (.array others stop)) :
    Alike (Reader.tagged typeName variants mode room (.array items stop))
      (Reader.tagged typeName variants mode room (.array others stop)) := by
  have each := relaid.itemsRelaid
  cases items with
  | nil =>
      rw [List.eq_nil_of_length_eq_zero each.length.symm]
      exact .refl _
  | cons tag items =>
      cases others with
      | nil => exact absurd each.length nofun
      | cons otherTag others =>
          intro value
          rw [Reader.tagged_array_eq_ok_iff, Reader.tagged_array_eq_ok_iff]
          refine exists_congr fun rest => and_congr_right ?_
          rintro rfl
          have beside := each.tail
          have sameTag : Alike (Reader.tag variants mode rest tag)
              (Reader.tag variants mode rest otherTag) :=
            (Reader.scalar_tag variants).respects schema _ (each.each 0 rfl rfl)
          refine and_congr_right fun _ => and_congr ?_ (exists_congr fun body => ?_)
          · exact beside.sound_iff
          · rw [← sameTag body]
            exact and_congr_right fun chosen => h.items chosen beside value

/-- A tagged value written as an object, with its tag anywhere. -/
theorem object (h : schema.Describes part variants) {members others : List (Literal × Tree)}
    {stop : Stop}
    (relaid : Relaid schema (.part part) room (.object members stop) (.object others stop)) :
    Alike (Reader.tagged typeName variants mode room (.object members stop))
      (Reader.tagged typeName variants mode room (.object others stop)) := by
  intro value
  rw [Reader.tagged_object_eq_ok_iff, Reader.tagged_object_eq_ok_iff]
  refine exists_congr fun rest => and_congr_right ?_
  rintro rfl
  refine and_congr_right fun _ => relaid.object_iff fun entries values named each => ?_
  have known : ¬schema.Unknown (tagOf members) (.part part) tagName := by
    rintro ⟨_, ⟨⟩, unknown⟩
    exact unknown (h.tagged _)
  have slot := each.slot known
  refine and_congr ?_ ?_
  · exact each.sound_iff tagName
  · generalize here : Slot.ofMembers tagName 0 entries = first,
      Slot.ofMembers tagName 0 values = second at slot ⊢
    cases slot with
    | absent => exact iff_of_false nofun nofun
    | @present position other tag otherTag relaidTag =>
        -- A tag is a scalar, so both objects have the same one, and the same variant is read.
        have sameTag : Alike (Reader.tag variants mode rest tag)
            (Reader.tag variants mode rest otherTag) :=
          (Reader.scalar_tag variants).respects schema _ relaidTag
        have tagHere : tagOf members = some tag := by
          rw [named, tagOf_keyed, Slot.find?_of_ofMembers here]
        rw [tagHere] at each
        constructor
        · rintro ⟨_, _, body, ⟨⟩, chosen, read⟩
          exact ⟨other, otherTag, body, rfl, (sameTag body).mp chosen,
            (h.entries chosen each value).mp read⟩
        · rintro ⟨_, _, body, ⟨⟩, chosenOther, read⟩
          have chosen := (sameTag body).mpr chosenOther
          exact ⟨position, tag, body, rfl, chosen, (h.entries chosen each value).mpr read⟩

end Schema.Describes

theorem Reader.respects_tagged {part : P} (h : schema.Describes part variants) (typeName : String) :
    (Reader.tagged typeName variants).Respects schema (.part part) :=
  respects_of_containers (fun _ _ _ _ _ relaid => h.array relaid)
    fun _ _ _ _ _ relaid => h.object relaid

end Tagged

end VolBacktest.Json
