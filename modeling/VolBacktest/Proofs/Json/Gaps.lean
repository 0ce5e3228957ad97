import VolBacktest.Proofs.Json.Containers

/-!
# Structures with a gap

What is read from a structure with something in the gap, if it is accepted with something else there. The
fields elsewhere find the same values, so they read the same; the field at the gap finds what has been put
there. Of a tagged value nothing else is asked than that this can be read through.
-/

namespace VolBacktest.Json

variable {α : Type}

namespace Gap

/-- The opened container with this tree in the gap. -/
def content : Gap Tree → Tree → Content
  | member before name after, value => .members (before ++ (name, value) :: after)
  | item before after, value => .items (before ++ value :: after)

/-- The opened structure with this tree in the gap. -/
def source (gap : Gap Tree) (typeName : String) (size : Nat) (tree : Tree) : Source :=
  ⟨typeName, size, gap.content tree⟩

/-- The gap is where the field with this name and index stands. -/
def IsField (name : String) (index : Nat) : Gap Tree → Prop
  | member _ key _ => key = name
  | item before _ => before.length = index

/-! ### Slots -/

theorem ofMembers_other {before after : List (String × Tree)} {key name : String} (other : key ≠ name)
    (first second : Tree) (position : Nat) :
    Slot.ofMembers name position (before ++ (key, first) :: after) =
      Slot.ofMembers name position (before ++ (key, second) :: after) := by
  induction before generalizing position with
  | nil =>
      rw [List.nil_append, List.nil_append, Slot.ofMembers, Slot.ofMembers, if_neg other, if_neg other]
  | cons entry before ih =>
      have again : (before ++ (key, first) :: after).findIdx? (·.1 = name) =
          (before ++ (key, second) :: after).findIdx? (·.1 = name) := by
        simp [List.findIdx?_append, List.findIdx?_cons, other]
      rw [List.cons_append, List.cons_append, Slot.ofMembers, Slot.ofMembers, again, ih]

/-- The slots of other fields are the same, whatever is in the gap. -/
theorem slot_other {gap : Gap Tree} {name other : String} {index place : Nat}
    (field : gap.IsField name index) (names : name ≠ other) (places : index ≠ place) (typeName : String)
    (size : Nat) (first second : Tree) :
    (gap.source typeName size first).slot place other =
      (gap.source typeName size second).slot place other := by
  cases gap with
  | member before key after =>
      cases field
      exact ofMembers_other names first second 0
  | item before after =>
      cases field
      have same : (before ++ first :: after)[place]? = (before ++ second :: after)[place]? := by
        simp only [List.getElem?_append, List.getElem?_cons]
        grind
      simp only [source, content, Source.slot, same]

theorem ofMembers_field (before after : List (String × Tree)) (name : String) (position : Nat) :
    (∃ found, ∀ tree,
      Slot.ofMembers name position (before ++ (name, tree) :: after) = .present found tree) ∨
    ∀ tree, ∃ found value again,
      Slot.ofMembers name position (before ++ (name, tree) :: after) = .repeated found value again := by
  induction before generalizing position with
  | nil =>
      simp only [List.nil_append, Slot.ofMembers, if_true]
      cases after.findIdx? (·.1 = name) with
      | none => exact .inl ⟨position, fun _ => rfl⟩
      | some distance => exact .inr fun tree => ⟨position, tree, position + 1 + distance, rfl⟩
  | cons entry before ih =>
      obtain ⟨first, value⟩ := entry
      by_cases same : first = name
      · refine .inr fun tree => ?_
        have again : ((before ++ (name, tree) :: after).findIdx? (·.1 = name)).isSome := by
          simp [List.findIdx?_isSome]
        obtain ⟨distance, found⟩ := Option.isSome_iff_exists.mp again
        refine ⟨position, value, position + 1 + distance, ?_⟩
        rw [List.cons_append, Slot.ofMembers, if_pos same, found]
      · simp only [List.cons_append, Slot.ofMembers, if_neg same]
        exact ih (position + 1)

/-- At the gap stands what has been put there, unless the field is there more than once. -/
theorem slot_field {gap : Gap Tree} {name : String} {index : Nat} (field : gap.IsField name index)
    (typeName : String) (size : Nat) :
    (∃ position, ∀ tree,
      (gap.source typeName size tree).slot index name = .present position tree) ∨
    ∀ tree, ∃ position value again,
      (gap.source typeName size tree).slot index name = .repeated position value again := by
  cases gap with
  | member before key after =>
      cases field
      exact ofMembers_field before after name 0
  | item before after =>
      cases field
      exact .inl ⟨before.length, fun tree => by simp [source, content, Source.slot]⟩

/-! ### Fields -/

section Fields

variable {β γ : Type} (gap : Gap Tree) (mode : Mode) (room : Nat) (typeName : String) (size : Nat)

/-- The fields, of which the first has the given index, are read as this value whatever is in the gap. -/
def Settles (fields : Fields α) (index : Nat) (value : α) : Prop :=
  ∀ tree result, fields.read mode room (gap.source typeName size tree) index = .ok result ↔
    result = value

/-- The fields read what this reader reads in the gap, and make something of it. -/
def Exposes (fields : Fields α) (index : Nat) (reader : Reader γ) (make : γ → α) : Prop :=
  ∀ tree result, fields.read mode room (gap.source typeName size tree) index = .ok result ↔
    ∃ part, reader mode room tree = .ok part ∧ result = make part

variable {gap mode room typeName size} {index place : Nat} {name other : String} {base : Tree}

theorem settles_required (field : gap.IsField name index) (names : name ≠ other)
    (places : index ≠ place) {reader : Reader α} {value : α}
    (read : (Fields.required other reader).read mode room (gap.source typeName size base) place =
      .ok value) :
    gap.Settles mode room typeName size (.required other reader) place value := by
  intro tree result
  rw [Fields.required_eq_ok_iff, slot_other field names places typeName size tree base,
    ← Fields.required_eq_ok_iff, read]
  simp [eq_comm]

theorem settles_defaulted (field : gap.IsField name index) (names : name ≠ other)
    (places : index ≠ place) {reader : Reader α} {absent value : α}
    (read : (Fields.defaulted other reader absent).read mode room (gap.source typeName size base)
      place = .ok value) :
    gap.Settles mode room typeName size (.defaulted other reader absent) place value := by
  intro tree result
  rw [Fields.defaulted_eq_ok_iff, slot_other field names places typeName size tree base,
    ← Fields.defaulted_eq_ok_iff, read]
  simp [eq_comm]

/-- If the field at the gap is read from one tree there, then it is read from any. -/
theorem exposes_required (field : gap.IsField name index) {reader : Reader γ} {value : γ}
    (read : (Fields.required name reader).read mode room (gap.source typeName size base) index =
      .ok value) :
    gap.Exposes mode room typeName size (.required name reader) index reader id := by
  intro tree result
  rw [Fields.required_eq_ok_iff] at read ⊢
  obtain ⟨position, present⟩ | repeats := slot_field field typeName size
  · simp [present]
  · obtain ⟨_, _, _, found⟩ := repeats base
    simp [found] at read

theorem exposes_defaulted (field : gap.IsField name index) {reader : Reader γ} {absent value : γ}
    (read : (Fields.defaulted name reader absent).read mode room (gap.source typeName size base)
      index = .ok value) :
    gap.Exposes mode room typeName size (.defaulted name reader absent) index reader id := by
  intro tree result
  rw [Fields.defaulted_eq_ok_iff] at read ⊢
  obtain ⟨position, present⟩ | repeats := slot_field field typeName size
  · simp [present]
  · obtain ⟨_, _, _, found⟩ := repeats base
    simp [found] at read

/-- What is made of what has been made of a part is made of the part. -/
theorem exists_made_iff {P : γ → Prop} {make : γ → α} {f : α → β} {result : β} :
    (∃ made, (∃ part, P part ∧ made = make part) ∧ result = f made) ↔
      ∃ part, P part ∧ result = f (make part) := by
  constructor
  · rintro ⟨_, ⟨part, holds, rfl⟩, rfl⟩
    exact ⟨part, holds, rfl⟩
  · rintro ⟨part, holds, rfl⟩
    exact ⟨make part, ⟨part, holds, rfl⟩, rfl⟩

theorem Settles.map {fields : Fields α} {value : α}
    (h : gap.Settles mode room typeName size fields index value) (f : α → β) :
    gap.Settles mode room typeName size (f <$> fields) index (f value) := by
  intro tree result
  rw [Fields.map_eq_ok_iff]
  simp [h tree]

theorem Exposes.map {fields : Fields α} {reader : Reader γ} {make : γ → α}
    (h : gap.Exposes mode room typeName size fields index reader make) (f : α → β) :
    gap.Exposes mode room typeName size (f <$> fields) index reader fun part => f (make part) := by
  intro tree result
  rw [Fields.map_eq_ok_iff]
  simp only [h tree]
  exact exists_made_iff

/-- The gap is at one of the earlier fields. -/
theorem Exposes.seq {f : Fields (α → β)} {x : Fields α} {reader : Reader γ} {make : γ → α → β}
    {value : α} (h : gap.Exposes mode room typeName size f index reader make)
    (later : gap.Settles mode room typeName size x (index + f.names.length) value) :
    gap.Exposes mode room typeName size (f <*> x) index reader fun part => make part value := by
  intro tree result
  rw [Fields.seq_eq_ok_iff]
  simp only [h tree, later tree, exists_eq_left]
  exact exists_made_iff

/-- The gap is at one of the later fields. -/
theorem Settles.seq {f : Fields (α → β)} {x : Fields α} {reader : Reader γ} {make : γ → α}
    {g : α → β} (h : gap.Settles mode room typeName size f index g)
    (later : gap.Exposes mode room typeName size x (index + f.names.length) reader make) :
    gap.Exposes mode room typeName size (f <*> x) index reader fun part => g (make part) := by
  intro tree result
  rw [Fields.seq_eq_ok_iff]
  simp only [h tree, later tree, exists_eq_left]
  exact exists_made_iff

end Fields

variable {gap : Gap Tree} {name typeName : String} {index room : Nat} {mode : Mode} {value : α}

/-! ### Structures -/

theorem length_items (before after : List Tree) (first second : Tree) :
    (before ++ first :: after).length = (before ++ second :: after).length := by simp

/-- What holds of all parts with something in the gap holds of those beside it. -/
theorem forall_parts_iff {τ : Type} {before after : List τ} {p : τ → Prop} {base inside : τ}
    (all : ∀ part ∈ before ++ base :: after, p part) :
    (∀ part ∈ before ++ inside :: after, p part) ↔ p inside := by
  simp only [List.forall_mem_append, List.forall_mem_cons] at all ⊢
  exact ⟨fun each => each.2.1, fun inside => ⟨all.1, inside, all.2.2⟩⟩

section Structures

variable {fields : Fields α} {base : Tree} {accepted : α}

/-- Nothing but the fields depends on what is in the gap of a known field. -/
theorem readFrom_eq_ok_iff (field : gap.IsField name index) (known : name ∈ fields.names)
    (read : fields.readFrom typeName mode room (gap.content base) none = .ok accepted) (tree : Tree) :
    fields.readFrom typeName mode room (gap.content tree) none = .ok value ↔
      fields.read mode room (gap.source typeName fields.names.length tree) 0 = .ok value := by
  cases gap with
  | member before key after =>
      cases field
      rw [content, Fields.readFrom_members_eq_ok_iff] at read ⊢
      rw [forall_parts_iff read.2.1]
      simp [known, source, content]
  | item before after =>
      rw [content, Fields.readFrom_items_eq_ok_iff]
      simp [source, content]

theorem reader_eq_ok_iff (field : gap.IsField name index) (known : name ∈ fields.names)
    (read : fields.reader typeName mode room (gap.tree base) = .ok accepted) :
    ∃ rest, room = rest + 1 ∧ ∀ tree value,
      fields.reader typeName mode room (gap.tree tree) = .ok value ↔
        fields.read mode rest (gap.source typeName fields.names.length tree) 0 = .ok value := by
  cases gap with
  | member before key after =>
      simp only [Gap.tree, Fields.reader_object, Fields.objectReader_eq_ok_iff, keyed_inj,
        true_and] at read ⊢
      obtain ⟨rest, rfl, _, rfl, read⟩ := read
      refine ⟨rest, rfl, fun tree value => ?_⟩
      simp only [Nat.add_right_cancel_iff, exists_eq_left']
      exact readFrom_eq_ok_iff field known read tree
  | item before after =>
      simp only [Gap.tree, Fields.reader, opened_eq_ok, Fields.readFrom_items_eq_ok_iff,
        Fields.listProblem_eq_none_iff] at read ⊢
      obtain ⟨rest, rfl, -, few, closed⟩ := read
      refine ⟨rest, rfl, fun tree value => ?_⟩
      simp only [Nat.add_right_cancel_iff, exists_eq_left', length_items before after tree base]
      exact and_iff_left ⟨few, closed⟩

/-- The body of a tagged value, read from a container with something in the gap. -/
theorem body_eq_ok_iff {body : TaggedBody α} (field : gap.IsField name index)
    (known : name ∈ body.fields.names)
    (read : body.read room (gap.content base) = .ok accepted) (tree : Tree) :
    body.read room (gap.content tree) = .ok value ↔
      body.fields.read .kept room (gap.source body.typeName body.fields.names.length tree) 0 =
        .ok value := by
  cases gap with
  | member before key after => exact readFrom_eq_ok_iff field known read tree
  | item before after =>
      simp only [content, TaggedBody.read, Fields.readFrom_items_eq_ok_iff,
        Fields.listProblem_eq_none_iff] at read ⊢
      rw [length_items before after tree base]
      exact and_iff_left read.2

theorem fields_of_body {body : TaggedBody α} {content : Content}
    (read : body.read room content = .ok value) :
    body.fields.read .kept room ⟨body.typeName, body.fields.names.length, content⟩ 0 = .ok value := by
  cases content with
  | members entries => exact (Fields.readFrom_members_eq_ok_iff.mp read).1
  | items items => exact (Fields.readFrom_items_eq_ok_iff.mp read).1

/-- A tagged value with a gap beside its tag: the same variant is chosen whatever is in the gap, as long as
that can be read through. -/
theorem tagged_eq_ok_iff {variants : List (String × TaggedBody α)}
    (field : gap.IsField name (index + 1)) (beside : name ≠ tagName)
    (read : Reader.tagged typeName variants mode room (gap.tree base) = .ok accepted) :
    ∃ (rest : Nat) (tag : Tree) (body : TaggedBody α) (inner : Gap Tree), room = rest + 1 ∧
      Reader.tag variants mode rest tag = .ok body ∧ inner.IsField name index ∧
      ∀ tree value, Reader.tagged typeName variants mode room (gap.tree tree) = .ok value ↔
        tree.Sound rest ∧ body.read rest (inner.content tree) = .ok value := by
  cases gap with
  | member before key after =>
      cases field
      simp only [Gap.tree, Reader.tagged_object_eq_ok_iff, keyed_inj, true_and] at read ⊢
      obtain ⟨rest, rfl, _, rfl, sound, position, tag, body, slot, chosen, -⟩ := read
      refine ⟨rest, tag, body,
        .member (before.filter (·.1 != tagName)) name (after.filter (·.1 != tagName)), rfl, chosen,
        rfl, fun tree value => ?_⟩
      have others : (before ++ (name, tree) :: after).filter (·.1 != tagName) =
          before.filter (·.1 != tagName) ++ (name, tree) :: after.filter (·.1 != tagName) := by
        simp [beside]
      simp only [Nat.add_right_cancel_iff, exists_eq_left', content, others,
        ofMembers_other beside tree base 0, slot, forall_parts_iff sound]
      constructor
      · rintro ⟨inside, _, _, other, ⟨⟩, again, read⟩
        obtain rfl := Except.ok.inj (chosen.symm.trans again)
        exact ⟨inside beside, read⟩
      · rintro ⟨inside, read⟩
        exact ⟨fun _ => inside, position, tag, body, rfl, chosen, read⟩
  | item before after =>
      obtain ⟨tag, before, rfl⟩ := List.exists_cons_of_length_eq_add_one field
      simp only [Gap.tree, List.cons_append, Reader.tagged_array_eq_ok_iff, true_and] at read ⊢
      obtain ⟨rest, rfl, sound, body, chosen, -⟩ := read
      refine ⟨rest, tag, body, .item before after, rfl, chosen, Nat.succ.inj field,
        fun tree value => ?_⟩
      simp only [Nat.add_right_cancel_iff, exists_eq_left', content, forall_parts_iff sound]
      constructor
      · rintro ⟨inside, other, again, read⟩
        obtain rfl := Except.ok.inj (chosen.symm.trans again)
        exact ⟨inside, read⟩
      · rintro ⟨inside, read⟩
        exact ⟨inside, body, chosen, read⟩

/-- The same where the variants are given by their kinds: what is read depends on the fields of one kind
only, and so does what is read from the tree that was accepted. -/
theorem exists_kind_of_tagged {κ : Type} {label structName : κ → String} {fields : κ → Fields α}
    {kinds : List κ} (field : gap.IsField name (index + 1)) (beside : name ≠ tagName)
    (read : Reader.tagged typeName
      (kinds.map fun kind => (label kind, ⟨structName kind, fields kind⟩)) mode room (gap.tree base) =
        .ok accepted) :
    ∃ (rest : Nat) (kind : κ) (inner : Gap Tree), room = rest + 1 ∧ inner.IsField name index ∧
      base.Sound rest ∧ (fields kind).read .kept rest
        (inner.source (structName kind) (fields kind).names.length base) 0 = .ok accepted ∧
      (name ∈ (fields kind).names → ∀ tree value, Reader.tagged typeName
          (kinds.map fun kind => (label kind, ⟨structName kind, fields kind⟩)) mode room
          (gap.tree tree) = .ok value ↔
        tree.Sound rest ∧ (fields kind).read .kept rest
          (inner.source (structName kind) (fields kind).names.length tree) 0 = .ok value) := by
  obtain ⟨rest, tag, body, inner, rfl, chosen, innerField, each⟩ := tagged_eq_ok_iff field beside read
  obtain ⟨kind, -, rfl⟩ := (Reader.tag_map_eq_ok_iff 0).mp chosen
  obtain ⟨sound, bodyRead⟩ := (each base accepted).mp read
  refine ⟨rest, kind, inner, rfl, innerField, sound, fields_of_body bodyRead, fun known tree value => ?_⟩
  rw [each tree value, body_eq_ok_iff innerField known bodyRead tree]

/-- A container with a gap is accepted as a value if what is put there is, and the rest has been. -/
theorem sound_tree_iff (read : (gap.tree base).Sound room) :
    ∃ rest, room = rest + 1 ∧ ∀ tree, (gap.tree tree).Sound room ↔ tree.Sound rest := by
  cases gap with
  | member before key after =>
      simp only [Gap.tree, keyed, Tree.sound_object_iff, List.forall_mem_map] at read ⊢
      obtain ⟨-, rest, rfl, each⟩ := read
      refine ⟨rest, rfl, fun tree => ?_⟩
      simp only [Nat.add_right_cancel_iff, exists_eq_left', true_and]
      rw [forall_parts_iff each]
      exact and_iff_right ⟨key, rfl⟩
  | item before after =>
      obtain ⟨-, rest, rfl, each⟩ := Tree.sound_array_iff.mp read
      refine ⟨rest, rfl, fun tree => ?_⟩
      simp only [Gap.tree, Tree.sound_array_iff, Nat.add_right_cancel_iff, exists_eq_left',
        forall_parts_iff each, true_and]

end Structures

end Gap

end VolBacktest.Json
