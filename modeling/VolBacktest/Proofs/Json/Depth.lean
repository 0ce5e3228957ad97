import VolBacktest.Proofs.Json.Layout

/-!
# Room for containers

A reader is told how many containers may still be opened. Where a tree has room enough, it makes no
difference how much more there is: `Reader.Agree` says so of two readers at once, because a reader of
nested values is built from readers for less and less nesting. It is established reader by reader and field
by field, as the readers are put together.
-/

namespace VolBacktest.Json

variable {α β : Type}

/-- What is left of a room that holds a container, once it has been opened. -/
theorem exists_room {room more : Nat} (enough : room + 1 ≤ more) :
    ∃ rest, more = rest + 1 ∧ room ≤ rest :=
  ⟨more - 1, by omega, by omega⟩

/-- No more containers than that are open at once in the tree. -/
inductive Tree.Fits : Nat → Tree → Prop where
  | scalar (room : Nat) (value : Scalar) : Fits room (.scalar value)
  | broken (room : Nat) (cause : Break) : Fits room (.broken cause)
  | array {room : Nat} {items : List Tree} {stop : Stop} (each : ∀ item ∈ items, Fits room item) :
      Fits (room + 1) (.array items stop)
  | object {room : Nat} {members : List (Literal × Tree)} {stop : Stop}
      (each : ∀ member ∈ members, Fits room member.2) : Fits (room + 1) (.object members stop)

namespace Tree

variable {room more further : Nat}

theorem jsonItems_congr {items : List Tree} (each : ∀ item ∈ items, item.json more = item.json further) :
    jsonItems more items = jsonItems further items := by
  induction items with
  | nil => rfl
  | cons item rest ih =>
      obtain ⟨first, others⟩ := List.forall_mem_cons.mp each
      rw [jsonItems, jsonItems, first, ih others]

theorem jsonMembers_congr {members : List (Literal × Tree)}
    (each : ∀ member ∈ members, member.2.json more = member.2.json further) :
    jsonMembers more members = jsonMembers further members := by
  induction members with
  | nil => rfl
  | cons member rest ih =>
      obtain ⟨key, value⟩ := member
      obtain ⟨first, others⟩ := List.forall_mem_cons.mp each
      rw [jsonMembers, jsonMembers, first, ih others]

/-- A tree is the same value in any room in which it fits. -/
theorem Fits.json_eq {tree : Tree} (fits : tree.Fits room) (enough : room ≤ more)
    (alsoEnough : room ≤ further) : tree.json more = tree.json further := by
  induction fits generalizing more further with
  | scalar | broken => rfl
  | @array room items stop _ ih =>
      obtain ⟨more, rfl, left⟩ := exists_room enough
      obtain ⟨further, rfl, alsoLeft⟩ := exists_room alsoEnough
      rw [Tree.json, Tree.json, jsonItems_congr fun item among =>
        ih item among left alsoLeft]
  | @object room members stop _ ih =>
      obtain ⟨more, rfl, left⟩ := exists_room enough
      obtain ⟨further, rfl, alsoLeft⟩ := exists_room alsoEnough
      rw [Tree.json, Tree.json, jsonMembers_congr fun member among =>
        ih member among left alsoLeft]

theorem Fits.sound_iff {tree : Tree} (fits : tree.Fits room) (enough : room ≤ more)
    (alsoEnough : room ≤ further) : tree.Sound more ↔ tree.Sound further := by
  rw [Sound, Sound, fits.json_eq enough alsoEnough]

end Tree

/-! ### Readers -/

/-- Of what fits in that many containers the two readers accept the same, in any room in which it fits. -/
def Reader.Agree (depth : Nat) (reader other : Reader α) : Prop :=
  ∀ (mode : Mode) ⦃tree : Tree⦄ ⦃room more further : Nat⦄, room ≤ depth → tree.Fits room →
    room ≤ more → room ≤ further → Alike (reader mode more tree) (other mode further tree)

namespace Reader

variable {depth : Nat} {reader other : Reader α}

theorem Agree.mono (h : reader.Agree depth other) {less : Nat} (le : less ≤ depth) :
    reader.Agree less other :=
  fun mode _ _ _ _ within => h mode (within.trans le)

/-- A reader that accepts no containers takes no notice of the room. -/
theorem Scalar.agree (h : reader.Scalar) (same : ∀ mode more further value,
    reader mode more (.scalar value) = reader mode further (.scalar value)) (depth : Nat) :
    reader.Agree depth reader := by
  intro mode tree room more further _ _ _ _ value
  constructor
  · intro read
    obtain ⟨scalar, rfl⟩ := h read
    rwa [← same mode more further scalar]
  · intro read
    obtain ⟨scalar, rfl⟩ := h read
    rwa [same mode more further scalar]

theorem agree_string (depth : Nat) : string.Agree depth string :=
  scalar_string.agree (fun _ _ _ value => by cases value <;> rfl) depth

theorem agree_number (depth : Nat) : number.Agree depth number :=
  scalar_number.agree (fun _ _ _ value => by cases value <;> rfl) depth

theorem agree_date (depth : Nat) : date.Agree depth date :=
  scalar_date.agree (fun _ _ _ value => by cases value <;> rfl) depth

theorem Agree.map (h : reader.Agree depth other) (f : α → β) :
    (reader.map f).Agree depth (other.map f) :=
  fun mode _ _ _ _ within fits enough alsoEnough => (h mode within fits enough alsoEnough).map f

theorem Agree.nullable (h : reader.Agree depth other) :
    reader.nullable.Agree depth other.nullable := by
  intro mode tree room more further within fits enough alsoEnough
  have some := (h mode within fits enough alsoEnough).map Option.some
  cases tree with
  | scalar value =>
      cases value with
      | null => exact .refl _
      | _ => exact some
  | broken cause =>
      cases cause with
      | word isNull ended =>
          cases isNull with
          | true => exact .refl _
          | false => exact some
      | _ => exact some
  | _ => exact some

theorem Agree.list (h : reader.Agree depth other) : (list reader).Agree depth (list other) := by
  intro mode tree room more further within fits enough alsoEnough
  cases fits with
  | @array room items stop each =>
      obtain ⟨more, rfl, left⟩ := exists_room enough
      obtain ⟨further, rfl, alsoLeft⟩ := exists_room alsoEnough
      have items : List.Forall₂ (fun item same =>
          Alike (reader mode more item) (other mode further same)) items items :=
        List.forall₂_same.mpr fun item among =>
          h mode (Nat.le_of_succ_le within) (each item among) left alsoLeft
      exact (Alike.mapM items).bind fun _ _ => .refl _
  | scalar | broken | object => exact .refl _

theorem agree_plainVariant (pick : String → Read α) (depth : Nat) :
    (plainVariant pick).Agree depth (plainVariant pick) := by
  intro mode tree room more further _ fits enough alsoEnough
  cases fits with
  | scalar room value => cases value <;> cases mode <;> exact .refl _
  | broken room cause => cases cause <;> cases mode <;> exact .refl _
  | array => cases mode <;> exact .refl _
  | object =>
      obtain ⟨more, rfl, -⟩ := exists_room enough
      obtain ⟨further, rfl, -⟩ := exists_room alsoEnough
      cases mode <;> exact .refl _

end Reader

/-! ### Fields -/

/-- Each value in an opened container fits. -/
def Content.Fits (room : Nat) : Content → Prop
  | .members entries => ∀ entry ∈ entries, entry.2.Fits room
  | .items values => ∀ value ∈ values, value.Fits room

/-- The value of a field fits, if there is one. -/
def Slot.Fits (room : Nat) : Slot → Prop
  | .absent => True
  | .present _ value => value.Fits room
  | .repeated _ value _ => value.Fits room

theorem Slot.fits_ofMembers {room : Nat} {entries : List (String × Tree)}
    (fits : ∀ entry ∈ entries, entry.2.Fits room) (name : String) (position : Nat) :
    (ofMembers name position entries).Fits room := by
  induction entries generalizing position with
  | nil => trivial
  | cons entry rest ih =>
      obtain ⟨first, others⟩ := List.forall_mem_cons.mp fits
      rw [ofMembers]
      split
      · split <;> exact first
      · exact ih others (position + 1)

theorem Content.Fits.slot {room : Nat} {source : Source} (fits : source.content.Fits room)
    (index : Nat) (name : String) : (source.slot index name).Fits room := by
  obtain ⟨typeName, size, content⟩ := source
  cases content with
  | members entries => exact Slot.fits_ofMembers fits name 0
  | items values =>
      simp only [Source.slot]
      cases found : values[index]? with
      | none => trivial
      | some value => exact fits value (List.mem_of_getElem? found)

namespace Fields

/-- The same fields, read alike from what fits in that many containers. -/
structure Agree (depth : Nat) (fields other : Fields α) : Prop where
  names : fields.names = other.names
  read : ∀ ⦃mode : Mode⦄ ⦃source : Source⦄ (index : Nat) ⦃room more further : Nat⦄, room ≤ depth →
    source.content.Fits room → room ≤ more → room ≤ further →
      Alike (fields.read mode more source index) (other.read mode further source index)

variable {depth : Nat} {fields other : Fields α}

theorem agree_pure (value : α) (depth : Nat) : (pure value : Fields α).Agree depth (pure value) :=
  ⟨rfl, fun _ _ _ _ _ _ _ _ _ _ => .refl _⟩

theorem Agree.seq {f g : Fields (α → β)} {x y : Fields α} (first : f.Agree depth g)
    (second : x.Agree depth y) : (f <*> x).Agree depth (g <*> y) where
  names := congrArg₂ (· ++ ·) first.names second.names
  read mode source index room more further within fits enough alsoEnough result := by
    rw [seq_eq_ok_iff, seq_eq_ok_iff, ← first.names]
    refine exists_congr fun make => and_congr ?_ (exists_congr fun value => ?_)
    · exact first.read index within fits enough alsoEnough make
    · exact and_congr_left fun _ => second.read _ within fits enough alsoEnough value

theorem Agree.map (h : fields.Agree depth other) (f : α → β) :
    (f <$> fields).Agree depth (f <$> other) :=
  (agree_pure f depth).seq h

theorem agree_single (name : String) {reader other : Reader α} (h : reader.Agree depth other)
    (absent : Source → Nat → Except Problem α) :
    (single name reader absent).Agree depth (single name other absent) where
  names := rfl
  read mode source index room more further within fits enough alsoEnough result := by
    have slot := fits.slot index name
    simp only [single]
    cases found : source.slot index name with
    | absent => exact Iff.rfl
    | present position tree =>
        rw [found] at slot
        have same := h mode within slot enough alsoEnough result
        cases first : reader mode more tree <;> cases second : other mode further tree <;>
          simp_all
    | repeated position tree again =>
        -- A field that is there twice is refused, whatever its first value is.
        simp only [bind_eq_ok, reduceCtorEq, and_false, exists_false]

theorem agree_required (name : String) {reader other : Reader α} (h : reader.Agree depth other) :
    (required name reader).Agree depth (required name other) :=
  agree_single name h _

theorem agree_defaulted (name : String) {reader other : Reader α} (h : reader.Agree depth other)
    (value : α) : (defaulted name reader value).Agree depth (defaulted name other value) :=
  agree_single name h _

theorem agree_others (known : List String) (depth : Nat) :
    (others known).Agree depth (others known) where
  names := rfl
  read mode source index room more further _ fits enough alsoEnough values := by
    obtain ⟨typeName, size, content⟩ := source
    cases content with
    | members entries =>
        rw [others_eq_ok_iff, others_eq_ok_iff]
        refine forall₂_congr_left (List.forall₂_same.mpr fun entry among value => ?_)
        have held : entry.2.Fits room := fits entry (List.mem_of_mem_filter among)
        rw [held.json_eq enough alsoEnough]
    | items values => exact Iff.rfl

/-! ### Structures -/

theorem Agree.readFrom (h : fields.Agree depth other) {mode : Mode} {content : Content}
    {room more further : Nat} (within : room ≤ depth) (fits : content.Fits room)
    (enough : room ≤ more) (alsoEnough : room ≤ further) (typeName : String)
    (ending : Option Problem) :
    Alike (fields.readFrom typeName mode more content ending)
      (other.readFrom typeName mode further content ending) := by
  intro value
  cases content with
  | members entries =>
      rw [readFrom_members_eq_ok_iff, readFrom_members_eq_ok_iff, h.names]
      exact and_congr_left fun _ => h.read 0 within fits enough alsoEnough value
  | items items =>
      rw [readFrom_items_eq_ok_iff, readFrom_items_eq_ok_iff, h.names]
      exact and_congr_left fun _ => h.read 0 within fits enough alsoEnough value

theorem fits_members {room : Nat} {entries : List (String × Tree)}
    (each : ∀ member ∈ keyed entries, member.2.Fits room) : (Content.members entries).Fits room :=
  fun entry among => each (.ok entry.1, entry.2) (List.mem_map_of_mem among)

theorem Agree.objectReader (h : fields.Agree depth other) (typeName : String) :
    (fields.objectReader typeName).Agree depth (other.objectReader typeName) := by
  intro mode tree room more further within fits enough alsoEnough
  cases fits with
  | scalar | broken | array => exact .refl _
  | object each =>
      obtain ⟨more, rfl, left⟩ := exists_room enough
      obtain ⟨further, rfl, alsoLeft⟩ := exists_room alsoEnough
      intro value
      simp only [objectReader_eq_ok_iff, Nat.add_right_cancel_iff, exists_eq_left']
      refine and_congr_right fun _ => exists_congr fun entries => and_congr_right ?_
      rintro rfl
      exact h.readFrom (Nat.le_of_succ_le within) (fits_members each) left alsoLeft typeName none value

theorem Agree.reader (h : fields.Agree depth other) (typeName : String) :
    (fields.reader typeName).Agree depth (other.reader typeName) := by
  intro mode tree room more further within fits enough alsoEnough
  have object := h.objectReader typeName mode within fits enough alsoEnough
  cases fits with
  | @array room items stop each =>
      obtain ⟨more, rfl, left⟩ := exists_room enough
      obtain ⟨further, rfl, alsoLeft⟩ := exists_room alsoEnough
      have content : (Content.items items).Fits room := each
      simp only [Fields.reader, opened, h.names]
      exact h.readFrom (Nat.le_of_succ_le within) content left alsoLeft typeName _
  | scalar | broken | object => exact object

end Fields

/-! ### Tagged values -/

theorem TaggedBody.read_agree {depth : Nat} {fields other : Fields α}
    (h : fields.Agree depth other) {content : Content} {room more further : Nat}
    (within : room ≤ depth) (fits : content.Fits room) (enough : room ≤ more)
    (alsoEnough : room ≤ further) (typeName : String) :
    Alike (TaggedBody.read ⟨typeName, fields⟩ more content)
      (TaggedBody.read ⟨typeName, other⟩ further content) := by
  simp only [TaggedBody.read, h.names]
  exact h.readFrom within fits enough alsoEnough typeName _

namespace Reader

variable {κ : Type}

section Tagged

variable (name structName : κ → String) {fields others : κ → Fields α} {depth : Nat}

theorem exists_body_iff (h : ∀ kind, (fields kind).Agree depth (others kind)) (kinds : List κ)
    {mode : Mode} {tag : Tree} {content : Content} {room more further : Nat} (within : room ≤ depth)
    (fits : content.Fits room) (enough : room ≤ more) (alsoEnough : room ≤ further) (value : α) :
    (∃ body, Reader.tag (kinds.map fun kind => (name kind, (⟨structName kind, fields kind⟩ :
        TaggedBody α))) mode more tag = .ok body ∧ body.read more content = .ok value) ↔
      ∃ body, Reader.tag (kinds.map fun kind => (name kind, (⟨structName kind, others kind⟩ :
        TaggedBody α))) mode further tag = .ok body ∧ body.read further content = .ok value := by
  have same (kind : κ) :=
    TaggedBody.read_agree (h kind) within fits enough alsoEnough (structName kind) value
  constructor
  · rintro ⟨body, chosen, read⟩
    obtain ⟨kind, named, rfl⟩ := (tag_map_eq_ok_iff 0).mp chosen
    exact ⟨_, (tag_map_eq_ok_iff 0).mpr ⟨kind, named, rfl⟩, (same kind).mp read⟩
  · rintro ⟨body, chosen, read⟩
    obtain ⟨kind, named, rfl⟩ := (tag_map_eq_ok_iff 0).mp chosen
    exact ⟨_, (tag_map_eq_ok_iff 0).mpr ⟨kind, named, rfl⟩, (same kind).mpr read⟩

/-- Tagged values of the same kinds, with fields that are read alike. Their own container is opened
first, so that there is one more container than in the fields. -/
theorem agree_tagged (typeName : String) (h : ∀ kind, (fields kind).Agree depth (others kind))
    (kinds : List κ) :
    (tagged typeName (kinds.map fun kind => (name kind, ⟨structName kind, fields kind⟩))).Agree
      (depth + 1)
      (tagged typeName (kinds.map fun kind => (name kind, ⟨structName kind, others kind⟩))) := by
  intro mode tree room more further within fits enough alsoEnough
  cases fits with
  | scalar | broken => exact .refl _
  | @array room items stop each =>
      obtain ⟨more, rfl, left⟩ := exists_room enough
      obtain ⟨further, rfl, alsoLeft⟩ := exists_room alsoEnough
      cases items with
      | nil => exact .refl _
      | cons first rest =>
          obtain ⟨-, inside⟩ := List.forall_mem_cons.mp each
          have content : (Content.items rest).Fits room := inside
          intro value
          simp only [tagged_array_eq_ok_iff, Nat.add_right_cancel_iff, exists_eq_left']
          refine and_congr_right fun _ => and_congr (forall₂_congr fun item among => ?_) ?_
          · exact (inside item among).sound_iff left alsoLeft
          · exact exists_body_iff name structName h kinds (Nat.le_of_succ_le_succ within) content
              left alsoLeft value
  | @object room members stop each =>
      obtain ⟨more, rfl, left⟩ := exists_room enough
      obtain ⟨further, rfl, alsoLeft⟩ := exists_room alsoEnough
      intro value
      simp only [tagged_object_eq_ok_iff, Nat.add_right_cancel_iff, exists_eq_left']
      refine and_congr_right fun _ => exists_congr fun entries => and_congr_right ?_
      rintro rfl
      have inside := Fields.fits_members each
      have content : (Content.members (entries.filter fun entry => entry.1 != tagName)).Fits room :=
        fun entry among => inside entry (List.mem_of_mem_filter among)
      refine and_congr ?_ (exists_congr fun position => exists_congr fun tag => ?_)
      · exact forall₂_congr fun entry among => imp_congr_right fun _ =>
          (inside entry among).sound_iff left alsoLeft
      · simp only [exists_and_left]
        refine and_congr_right fun _ => ?_
        exact exists_body_iff name structName h kinds (Nat.le_of_succ_le_succ within) content
          left alsoLeft value

end Tagged

end Reader

end VolBacktest.Json
