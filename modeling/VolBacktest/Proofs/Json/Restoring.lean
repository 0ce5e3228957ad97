import VolBacktest.Json.Variant
import VolBacktest.Proofs.Calendar.DateText
import VolBacktest.Proofs.Json.Written

/-!
# Values read back

A reader restores a value from JSON if it reads the value from the written text wherever that stands:
straight or from a part that has been kept, and whatever room for containers is left, as long as it is
at least the room given. It round-trips if what it reads is restored from what is written for it, with
the room that reading had. That makes the nesting limit harmless: writing never nests deeper than the
text that was read.

Inside a tagged value everything beside the tag is first read through as any value, so a restored value
has to be legible in that way too, and `Reader.Restores` says both.
-/

namespace VolBacktest

variable {α β ε : Type}

theorem bind_eq_ok {x : Except ε α} {f : α → Except ε β} {b : β} :
    x >>= f = .ok b ↔ ∃ a, x = .ok a ∧ f a = .ok b := by
  cases x with
  | error fault => exact ⟨nofun, nofun⟩
  | ok a =>
    refine ⟨fun h => ⟨a, rfl, h⟩, ?_⟩
    rintro ⟨_, ⟨⟩, h⟩
    exact h

theorem map_eq_ok {x : Except ε α} {f : α → β} {b : β} :
    x.map f = .ok b ↔ ∃ a, x = .ok a ∧ f a = b := by
  cases x with
  | error fault => exact ⟨nofun, nofun⟩
  | ok a =>
    refine ⟨fun h => ⟨a, rfl, Except.ok.inj h⟩, ?_⟩
    rintro ⟨_, ⟨⟩, h⟩
    exact congrArg _ h

theorem toOption_eq_some {x : Except ε α} {a : α} : x.toOption = some a ↔ x = .ok a := by
  cases x with
  | error fault => exact ⟨nofun, nofun⟩
  | ok b => exact ⟨fun h => congrArg _ (Option.some.inj h), fun h => congrArg _ (Except.ok.inj h)⟩

theorem mapM_eq_ok_map {xs : List α} {f : α → Except ε β} {g : α → β}
    (each : ∀ x ∈ xs, f x = .ok (g x)) : xs.mapM f = .ok (xs.map g) := by
  induction xs with
  | nil => rfl
  | cons x xs ih =>
    have rest := ih fun y mem => each y (List.mem_cons_of_mem x mem)
    rw [List.mapM_cons, each x List.mem_cons_self, rest]
    rfl

/-- What has been written for each value is read again, one after the other. -/
theorem mapM_map_eq_ok {γ : Type} {xs : List α} {write : α → γ} {read : γ → Except ε α}
    (each : ∀ x ∈ xs, read (write x) = .ok x) : (xs.map write).mapM read = .ok xs := by
  have all := mapM_eq_ok_map (g := id) each
  rw [List.map_id] at all
  rw [List.mapM_map]
  exact all

theorem exists_of_mapM_eq_ok {xs : List α} {f : α → Except ε β} {ys : List β}
    (h : xs.mapM f = .ok ys) : ∀ y ∈ ys, ∃ x ∈ xs, f x = .ok y := by
  induction xs generalizing ys with
  | nil =>
    cases h
    nofun
  | cons x xs ih =>
    rw [List.mapM_cons] at h
    obtain ⟨first, read, h⟩ := bind_eq_ok.mp h
    obtain ⟨rest, readRest, h⟩ := bind_eq_ok.mp h
    cases h
    intro y member
    obtain rfl | member := List.mem_cons.mp member
    · exact ⟨x, List.mem_cons_self, read⟩
    · obtain ⟨z, found, same⟩ := ih readRest y member
      exact ⟨z, List.mem_cons_of_mem x found, same⟩

namespace Json

theorem liftFault_eq_ok {result : Except Fault α} {value : α} :
    liftFault result = .ok value ↔ result = .ok value := by
  cases result <;> simp [liftFault]

theorem opened_eq_ok {budget : Nat} {inside : Nat → Read α} {value : α} :
    opened budget inside = .ok value ↔ ∃ rest, budget = rest + 1 ∧ inside rest = .ok value := by
  cases budget with
  | zero => exact ⟨nofun, nofun⟩
  | succ rest =>
    refine ⟨fun h => ⟨rest, rfl, h⟩, ?_⟩
    rintro ⟨_, ⟨⟩, h⟩
    exact h

@[simp] theorem check_closed (bracket : Bracket) (care : Care) :
    Stop.closed.check bracket care = .ok () := by
  rw [Stop.check, Stop.fault_closed]

theorem not_mismatch_eq_ok {expected : String} {tree : Tree} {value : α} :
    tree.mismatch expected ≠ .ok value := by
  rw [Tree.mismatch]
  split <;> nofun

/-! ### Restoring and round-tripping -/

/-- Any value is read from what is written, with this room for containers. -/
def Legible (json : Json) (budget : Nat) : Prop :=
  ∀ room, budget ≤ room → ∃ value, Tree.json room (.ofJson json) = .ok value

namespace Reader

structure Restores (reader : Reader α) (budget : Nat) (json : Json) (value : α) : Prop where
  legible : json.Legible budget
  reads : ∀ mode room, budget ≤ room → reader mode room (.ofJson json) = .ok value

def RoundTrips (reader : Reader α) (json : α → Json) : Prop :=
  ∀ ⦃mode : Mode⦄ ⦃budget : Nat⦄ ⦃tree : Tree⦄ ⦃value : α⦄, reader mode budget tree = .ok value →
    reader.Restores budget (json value) value

theorem Restores.mono {reader : Reader α} {budget room : Nat} {json : Json} {value : α}
    (h : reader.Restores budget json value) (enough : budget ≤ room) :
    reader.Restores room json value where
  legible more bound := h.legible more (enough.trans bound)
  reads mode more bound := h.reads mode more (enough.trans bound)

end Reader

theorem read_text {reader : Reader α} {json : Json} {value : α}
    (h : reader.Restores depthLimit json value) : read reader json.text = .ok value := by
  rw [read, Document.ofText_text, Document.read, h.reads .direct depthLimit (Nat.le_refl _)]
  rfl

theorem reader_of_read {reader : Reader α} {text : String} {value : α}
    (h : read reader text = .ok value) :
    reader .direct depthLimit (Document.ofText text).root = .ok value := by
  obtain ⟨first, root, h⟩ := bind_eq_ok.mp h
  split at h
  next => contradiction
  next =>
    cases h
    exact root

/-- What is read from a text is restored from what is written for it. -/
theorem Reader.RoundTrips.restores {reader : Reader α} {json : α → Json} {text : String} {value : α}
    (h : reader.RoundTrips json) (accepted : read reader text = .ok value) :
    reader.Restores depthLimit (json value) value :=
  h (reader_of_read accepted)

/-! ### Any value -/

/-- The value that is read from what is written for a legible one. -/
def reread (room : Nat) (json : Json) : Json :=
  match Tree.json room (.ofJson json) with
  | .ok value => value
  | .error _ => .null

theorem Legible.json_eq {json : Json} {budget room : Nat} (h : json.Legible budget)
    (enough : budget ≤ room) : Tree.json room (.ofJson json) = .ok (json.reread room) := by
  obtain ⟨value, read⟩ := h room enough
  rw [reread, read]

theorem jsonItems_ofItems {room : Nat} {f : Json → Json} {items : List Json}
    (each : ∀ item ∈ items, Tree.json room (.ofJson item) = .ok (f item)) :
    Tree.jsonItems room (Tree.ofItems items) = .ok (items.map f) := by
  induction items with
  | nil => rfl
  | cons item rest ih =>
    rw [Tree.ofItems, Tree.jsonItems, each item List.mem_cons_self,
      ih fun other mem => each other (List.mem_cons_of_mem _ mem)]
    rfl

theorem jsonMembers_ofMembers {room : Nat} {f : Json → Json} {members : List (String × Json)}
    (each : ∀ member ∈ members, Tree.json room (.ofJson member.2) = .ok (f member.2)) :
    Tree.jsonMembers room (Tree.ofMembers members) =
      .ok (members.map fun member => (member.1, f member.2)) := by
  induction members with
  | nil => rfl
  | cons member rest ih =>
    obtain ⟨key, value⟩ := member
    rw [Tree.ofMembers, Tree.jsonMembers, each _ List.mem_cons_self,
      ih fun other mem => each other (List.mem_cons_of_mem _ mem)]
    rfl

theorem legible_array {items : List Json} {budget : Nat}
    (each : ∀ item ∈ items, item.Legible budget) : (array items).Legible (budget + 1) := by
  intro room enough
  obtain ⟨room, rfl⟩ := Nat.exists_eq_add_of_le' (Nat.le_of_add_left_le enough)
  have items := jsonItems_ofItems fun item mem =>
    (each item mem).json_eq (Nat.le_of_succ_le_succ enough)
  rw [Tree.ofJson, Tree.json, items]
  exact ⟨_, by rw [check_closed]; rfl⟩

theorem legible_object {members : List (String × Json)} {budget : Nat}
    (each : ∀ member ∈ members, member.2.Legible budget) :
    (object members).Legible (budget + 1) := by
  intro room enough
  obtain ⟨room, rfl⟩ := Nat.exists_eq_add_of_le' (Nat.le_of_add_left_le enough)
  have members := jsonMembers_ofMembers fun member mem =>
    (each member mem).json_eq (Nat.le_of_succ_le_succ enough)
  rw [Tree.ofJson, Tree.json, members]
  exact ⟨_, by rw [check_closed]; rfl⟩

/-- A value that a text can give: the integers fit into 64 bits, the members of each object stand in key order, one for each key, and no
more containers than that are open at once. -/
inductive Canonical : Nat → Json → Prop where
  | null (room : Nat) : Canonical room .null
  | bool (room : Nat) (value : Bool) : Canonical room (.bool value)
  | number (room : Nat) {value : Number} (fits : value.Fits) : Canonical room (.number value)
  | string (room : Nat) (text : String) : Canonical room (.string text)
  | array {room : Nat} {items : List Json} (each : ∀ item ∈ items, Canonical room item) :
      Canonical (room + 1) (.array items)
  | object {room : Nat} {members : List (String × Json)}
      (sorted : members.Pairwise (·.1 < ·.1)) (each : ∀ member ∈ members, Canonical room member.2) :
      Canonical (room + 1) (.object members)

/-- A canonical value is read from its own text. -/
theorem Canonical.json_eq {json : Json} {room more : Nat} (canonical : json.Canonical room)
    (enough : room ≤ more) : Tree.json more (.ofJson json) = .ok json := by
  induction canonical generalizing more with
  | null | bool | string => rfl
  | number _ fits => exact map_eq_ok.mpr ⟨_, (Number.readsBack _).toNumber fits, rfl⟩
  | @array room items each ih =>
      obtain ⟨more, rfl⟩ := Nat.exists_eq_add_of_le' (Nat.le_of_add_left_le enough)
      have left : room ≤ more := Nat.le_of_succ_le_succ enough
      have itemsRead := jsonItems_ofItems (f := id) fun item among => ih item among left
      rw [Tree.ofJson, Tree.json, itemsRead, check_closed, List.map_id]
      rfl
  | @object room members sorted each ih =>
      obtain ⟨more, rfl⟩ := Nat.exists_eq_add_of_le' (Nat.le_of_add_left_le enough)
      have left : room ≤ more := Nat.le_of_succ_le_succ enough
      have membersRead := jsonMembers_ofMembers (f := id) fun member among => ih member among left
      have kept : SortedMap.ofList members = ⟨members, sorted⟩ := SortedMap.ofList_entries ⟨_, sorted⟩
      simp only [id, Prod.mk.eta, List.map_id'] at membersRead
      rw [Tree.ofJson, Tree.json, membersRead, check_closed]
      simp only [bind, Except.bind, ofMembers, kept]

mutual

/-- Whatever is read is canonical, since members are sorted as they are read. -/
theorem canonical_of_read {tree : Tree} {room : Nat} {json : Json} (read : tree.json room = .ok json) :
    json.Canonical room := by
  match tree with
  | .scalar .null =>
    cases read
    exact .null room
  | .scalar (.bool value) =>
    cases read
    exact .bool room value
  | .scalar (.number n) =>
    obtain ⟨number, spelled, rfl⟩ := map_eq_ok.mp read
    exact .number room (Number.fits_of_toNumber spelled)
  | .scalar (.string literal) =>
    obtain ⟨text, rfl, rfl⟩ := map_eq_ok.mp read
    exact .string room text
  | .broken cause => contradiction
  | .array items stop =>
    cases room with
    | zero => contradiction
    | succ room =>
      rw [Tree.json] at read
      obtain ⟨values, readItems, read⟩ := bind_eq_ok.mp read
      obtain ⟨-, -, read⟩ := bind_eq_ok.mp read
      cases read
      exact .array (canonicalItems_of_read readItems)
  | .object members stop =>
    cases room with
    | zero => contradiction
    | succ room =>
      rw [Tree.json] at read
      obtain ⟨values, readMembers, read⟩ := bind_eq_ok.mp read
      obtain ⟨-, -, read⟩ := bind_eq_ok.mp read
      cases read
      refine .object (SortedMap.sorted _) fun member among => ?_
      exact canonicalMembers_of_read readMembers member (SortedMap.mem_of_mem_ofList among)

theorem canonicalItems_of_read {trees : List Tree} {room : Nat} {items : List Json}
    (read : Tree.jsonItems room trees = .ok items) : ∀ item ∈ items, item.Canonical room := by
  match trees with
  | [] =>
    cases read
    nofun
  | tree :: trees =>
    rw [Tree.jsonItems] at read
    obtain ⟨first, readFirst, read⟩ := bind_eq_ok.mp read
    obtain ⟨rest, readRest, read⟩ := bind_eq_ok.mp read
    cases read
    exact List.forall_mem_cons.mpr ⟨canonical_of_read readFirst, canonicalItems_of_read readRest⟩

theorem canonicalMembers_of_read {trees : List (Literal × Tree)} {room : Nat}
    {members : List (String × Json)} (read : Tree.jsonMembers room trees = .ok members) :
    ∀ member ∈ members, member.2.Canonical room := by
  match trees with
  | [] =>
    cases read
    nofun
  | (key, tree) :: trees =>
    rw [Tree.jsonMembers] at read
    obtain ⟨name, -, read⟩ := bind_eq_ok.mp read
    obtain ⟨first, readFirst, read⟩ := bind_eq_ok.mp read
    obtain ⟨rest, readRest, read⟩ := bind_eq_ok.mp read
    cases read
    exact List.forall_mem_cons.mpr ⟨canonical_of_read readFirst, canonicalMembers_of_read readRest⟩

end

/-- A value that has been read is its own canonical form, so reading it again changes nothing. -/
theorem rereads {tree : Tree} {budget room : Nat} {json : Json} (read : tree.json budget = .ok json)
    (enough : budget ≤ room) : Tree.json room (.ofJson json) = .ok json :=
  (canonical_of_read read).json_eq enough

/-- The canonical values are those that can be read. -/
theorem canonical_iff {json : Json} {room : Nat} : json.Canonical room ↔ ∃ tree : Tree, tree.json room = .ok json := by
  constructor
  · intro canonical
    exact ⟨_, canonical.json_eq (Nat.le_refl room)⟩
  · rintro ⟨tree, read⟩
    exact canonical_of_read read

theorem Reader.any_restores {tree : Tree} {budget : Nat} {json : Json}
    (read : tree.json budget = .ok json) : any.Restores budget json json where
  legible _ enough := ⟨json, rereads read enough⟩
  reads _ _ enough := liftFault_eq_ok.mpr (rereads read enough)

theorem Canonical.restores {json : Json} {room : Nat} (canonical : json.Canonical room) :
    Reader.any.Restores room json json :=
  Reader.any_restores (canonical.json_eq (Nat.le_refl room))

theorem Reader.any_roundTrips : any.RoundTrips id :=
  fun _ _ _ _ read => any_restores (liftFault_eq_ok.mp read)

namespace Reader

/-! ### Values of one token -/

theorem string_restores (text : String) (budget : Nat) :
    string.Restores budget (.string text) text where
  legible _ _ := ⟨.string text, rfl⟩
  reads _ _ _ := rfl

theorem string_roundTrips : string.RoundTrips .string :=
  fun _ budget _ text _ => string_restores text budget

theorem bool_restores (value : Bool) (budget : Nat) : bool.Restores budget (.bool value) value where
  legible _ _ := ⟨.bool value, rfl⟩
  reads _ _ _ := rfl

theorem number_restores (x : Binary64) (budget : Nat) :
    number.Restores budget (.float x) x where
  legible _ _ :=
    ⟨.float x, map_eq_ok.mpr ⟨.float x, (Number.readsBack (.float x)).toNumber trivial, rfl⟩⟩
  reads _ _ _ := liftFault_eq_ok.mpr ((Number.readsBack (.float x)).toBinary64 x rfl)

theorem float_ne_null (x : Binary64) : float x ≠ .null := fun same => Json.noConfusion same

theorem number_roundTrips : number.RoundTrips .float :=
  fun _ budget _ x _ => number_restores x budget

theorem date_restores (day : Date) (budget : Nat) :
    Reader.date.Restores budget (Json.date day) day := by
  refine ⟨fun _ _ => ⟨.string day.text, rfl⟩, fun _ _ _ => ?_⟩
  rw [Json.date, Tree.ofJson, Reader.date]
  refine bind_eq_ok.mpr ⟨day.text, rfl, ?_⟩
  rw [Date.parse_text]

theorem date_roundTrips : Reader.date.RoundTrips Json.date :=
  fun _ budget _ day _ => date_restores day budget

/-- A plain variant is written as its name. -/
theorem plainVariant_restores {pick : String → Read α} {name : String} {value : α}
    (picked : pick name = .ok value) (budget : Nat) :
    (plainVariant pick).Restores budget (.string name) value where
  legible _ _ := ⟨.string name, rfl⟩
  reads mode _ _ := by
    cases mode <;> exact picked

/-- A value is restored from its name if no other value before it has that name. -/
theorem oneOf_restores {name : α → String} {values : List α} {value : α}
    (named : (values.map fun value => (name value, value)).lookup (name value) = some value)
    (budget : Nat) : (oneOf name values).Restores budget (.string (name value)) value := by
  refine plainVariant_restores ?_ budget
  rw [choose, named]

theorem map_restores {reader : Reader α} (f : α → β) {budget : Nat} {json : Json} {value : α}
    (h : reader.Restores budget json value) : (reader.map f).Restores budget json (f value) where
  legible := h.legible
  reads mode room enough := map_eq_ok.mpr ⟨value, h.reads mode room enough, rfl⟩

/-! ### Values that may be null -/

theorem nullable_ok {reader : Reader α} {mode : Mode} {budget : Nat} {tree : Tree}
    {value : Option α} (read : reader.nullable mode budget tree = .ok value) :
    value = none ∨ ∃ content, value = some content ∧ reader mode budget tree = .ok content := by
  rw [nullable.eq_def] at read
  split at read
  next =>
    cases read
    exact .inl rfl
  next => contradiction
  next =>
    obtain ⟨content, inside, rfl⟩ := map_eq_ok.mp read
    exact .inr ⟨content, rfl, inside⟩

theorem nullable_restores_none (reader : Reader α) (budget : Nat) :
    reader.nullable.Restores budget .null none where
  legible _ _ := ⟨.null, rfl⟩
  reads _ _ _ := rfl

/-- A value that may be null is restored if the value is, unless it is written as null itself. -/
theorem nullable_restores {reader : Reader α} {json : α → Json} {budget : Nat} {value : Option α}
    (notNull : ∀ content, json content ≠ .null)
    (h : ∀ content, value = some content → reader.Restores budget (json content) content) :
    reader.nullable.Restores budget (.ofOption json value) value := by
  cases value with
  | none => exact nullable_restores_none reader budget
  | some content =>
    refine ⟨(h content rfl).legible, ?_⟩
    intro mode room enough
    have read := (h content rfl).reads mode room enough
    have visible := notNull content
    rw [ofOption]
    cases written : json content with
    | null => exact absurd written visible
    | _ =>
      rw [written] at read
      exact map_eq_ok.mpr ⟨content, read, rfl⟩

theorem nullable_roundTrips {reader : Reader α} {json : α → Json} (h : reader.RoundTrips json)
    (notNull : ∀ value, json value ≠ .null) : reader.nullable.RoundTrips (.ofOption json) := by
  intro mode budget tree value read
  refine nullable_restores notNull ?_
  obtain rfl | ⟨content, rfl, inside⟩ := nullable_ok read
  · nofun
  · rintro _ ⟨⟩
    exact h inside

/-! ### Lists and maps -/

theorem list_ok {reader : Reader α} {mode : Mode} {budget : Nat} {tree : Tree} {values : List α}
    (read : list reader mode budget tree = .ok values) :
    ∃ rest, budget = rest + 1 ∧ ∀ value ∈ values, ∃ item, reader mode rest item = .ok value := by
  rw [list.eq_def] at read
  split at read
  next items stop =>
    obtain ⟨rest, rfl, read⟩ := opened_eq_ok.mp read
    obtain ⟨found, readItems, read⟩ := bind_eq_ok.mp read
    obtain ⟨-, -, read⟩ := bind_eq_ok.mp read
    cases read
    refine ⟨rest, rfl, ?_⟩
    intro value member
    obtain ⟨item, -, same⟩ := exists_of_mapM_eq_ok readItems value member
    exact ⟨item, same⟩
  next => exact absurd read not_mismatch_eq_ok

theorem list_restores {reader : Reader α} {budget : Nat} {json : α → Json} {values : List α}
    (each : ∀ value ∈ values, reader.Restores budget (json value) value) :
    (list reader).Restores (budget + 1) (.array (values.map json)) values where
  legible := by
    refine legible_array ?_
    intro item member
    obtain ⟨value, mem, rfl⟩ := List.mem_map.mp member
    exact (each value mem).legible
  reads mode room enough := by
    obtain ⟨room, rfl⟩ := Nat.exists_eq_add_of_le' (Nat.le_of_add_left_le enough)
    have items : ((values.map json).map Tree.ofJson).mapM (reader mode room) = .ok values := by
      rw [List.map_map]
      exact mapM_map_eq_ok fun value mem =>
        (each value mem).reads mode room (Nat.le_of_succ_le_succ enough)
    rw [Tree.ofJson, Tree.ofItems_eq_map, list, opened, items, check_closed]
    rfl

theorem list_restores_nil (reader : Reader α) {budget : Nat} (positive : 0 < budget) :
    (list reader).Restores budget (.array []) [] := by
  have none : ∀ value ∈ ([] : List α), reader.Restores 0 .null value := nofun
  exact (list_restores none).mono positive

theorem list_roundTrips {reader : Reader α} {json : α → Json} (h : reader.RoundTrips json) :
    (list reader).RoundTrips fun values => .array (values.map json) := by
  intro mode budget tree values read
  obtain ⟨rest, rfl, each⟩ := list_ok read
  refine list_restores ?_
  intro value member
  obtain ⟨item, inside⟩ := each value member
  exact h inside

theorem sortedMap_ok {reader : Reader α} {mode : Mode} {budget : Nat} {tree : Tree}
    {map : SortedMap String α} (read : sortedMap reader mode budget tree = .ok map) :
    ∃ rest, budget = rest + 1 ∧
      ∀ entry ∈ map.entries, ∃ item, reader mode rest item = .ok entry.2 := by
  rw [sortedMap.eq_def] at read
  split at read
  next members stop =>
    obtain ⟨rest, rfl, read⟩ := opened_eq_ok.mp read
    obtain ⟨found, readMembers, read⟩ := bind_eq_ok.mp read
    obtain ⟨-, -, read⟩ := bind_eq_ok.mp read
    cases read
    refine ⟨rest, rfl, ?_⟩
    intro entry member
    obtain ⟨⟨key, item⟩, -, read⟩ :=
      exists_of_mapM_eq_ok readMembers entry (SortedMap.mem_of_mem_ofList member)
    obtain ⟨name, -, read⟩ := bind_eq_ok.mp read
    obtain ⟨value, inside, same⟩ := bind_eq_ok.mp read
    cases same
    exact ⟨item, inside⟩
  next => exact absurd read not_mismatch_eq_ok

/-- The entries of an object that are written for a map. -/
def mapMembers (json : α → Json) (map : SortedMap String α) : List (String × Json) :=
  map.entries.map fun (key, value) => (key, json value)

theorem sortedMap_restores {reader : Reader α} {budget : Nat} {json : α → Json}
    {map : SortedMap String α}
    (each : ∀ entry ∈ map.entries, reader.Restores budget (json entry.2) entry.2) :
    (sortedMap reader).Restores (budget + 1) (.object (mapMembers json map)) map where
  legible := by
    refine legible_object ?_
    intro member mem
    obtain ⟨entry, found, rfl⟩ := List.mem_map.mp mem
    exact (each entry found).legible
  reads mode room enough := by
    obtain ⟨room, rfl⟩ := Nat.exists_eq_add_of_le' (Nat.le_of_add_left_le enough)
    rw [Tree.ofJson, Tree.ofMembers_eq_map, mapMembers, List.map_map, sortedMap, opened,
      mapM_map_eq_ok, check_closed]
    · exact congrArg Except.ok map.ofList_entries
    · intro entry mem
      have read := (each entry mem).reads mode room (Nat.le_of_succ_le_succ enough)
      change (reader mode room (.ofJson (json entry.2)) >>= fun value =>
        Except.ok (entry.1, value)) = _
      rw [read]
      rfl

theorem sortedMap_restores_empty (reader : Reader α) {budget : Nat} (positive : 0 < budget) :
    (sortedMap reader).Restores budget (.object []) .empty := by
  have empty : (sortedMap reader).Restores (0 + 1) (.object (mapMembers (fun _ => .null) .empty))
      .empty := sortedMap_restores nofun
  exact empty.mono positive

theorem sortedMap_roundTrips {reader : Reader α} {json : α → Json} (h : reader.RoundTrips json) :
    (sortedMap reader).RoundTrips fun map => .object (mapMembers json map) := by
  intro mode budget tree map read
  obtain ⟨rest, rfl, each⟩ := sortedMap_ok read
  refine sortedMap_restores ?_
  intro entry member
  obtain ⟨item, inside⟩ := each entry member
  exact h inside

/-- An object of any values is written as it is. -/
theorem object_roundTrips : (sortedMap any).RoundTrips fun map => .object map.entries := by
  intro mode budget tree map read
  have restored : (sortedMap any).Restores budget (.object (mapMembers id map)) map :=
    sortedMap_roundTrips any_roundTrips read
  have same : mapMembers id map = map.entries := map.entries.map_id
  rwa [same] at restored

end Reader

end Json

end VolBacktest
