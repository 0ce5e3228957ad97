import VolBacktest.Proofs.Json.Soundness
import VolBacktest.Proofs.Shuffling
import VolBacktest.Proofs.SortedMap
import VolBacktest.Proofs.Traversals

/-!
# Rearranged documents

The order in which the members of an object stand is layout, and so are members that nobody asks for.
Which members those are depends on what an object stands for: a `Schema` names the parts of a document
and tells which members they know. A tree is a rearrangement of another one if it differs in the order
of members and in members that were added to parts that do not know them.

Whether a value is accepted as any value, and whether it can be passed over, is not a matter of layout:
`Rearranged.sound_iff` and `Rearranged.skip_iff`. Nor is which value it is, where no part of the document
stands and no object repeats a key: `Rearranged.json_eq_ok_iff`.
-/

namespace VolBacktest.Json

/-- What stands at a place of a document: one of its parts, a list of them, or a value inside which
there are none. -/
inductive Place (P : Type) where
  | part (part : P)
  | list (part : P)
  | value

/-- The parts of a document, written as objects or as lists. What a tagged part knows may depend on
the tag. -/
structure Schema (P : Type) where
  /-- The names that the part knows, in the order in which a list gives their values. -/
  names (part : P) (tag : Option Tree) : List String
  /-- What stands under this name. -/
  member (part : P) (tag : Option Tree) (name : String) : Place P

/-- The tag among the members of an object. -/
def tagOf (members : List (Literal × Tree)) : Option Tree :=
  (members.find? fun member => member.1.toOption = some tagName).map (·.2)

namespace Schema

variable {P : Type} (schema : Schema P) (tag : Option Tree)

/-- What stands at this index of the list at a place. -/
def itemAt (index : Nat) : Place P → Place P
  | .part part => ((schema.names part tag)[index]?.map (schema.member part tag)).getD .value
  | .list part => .part part
  | .value => .value

/-- What stands under this key of the object at a place. -/
def memberAt : Literal → Place P → Place P
  | .ok name, .part part => schema.member part tag name
  | _, _ => .value

@[simp] theorem memberAt_value (key : Literal) : schema.memberAt tag key .value = .value := by
  cases key <;> rfl

/-- At the place stands a part that does not know the name. -/
def Unknown (place : Place P) (name : String) : Prop :=
  ∃ part, place = .part part ∧ name ∉ schema.names part tag

/-- A member that may be added to the object at a place, with a value that is accepted there. -/
def Addable (place : Place P) (room : Nat) (entry : Literal × Tree) : Prop :=
  ∃ name, entry.1 = .ok name ∧ schema.Unknown tag place name ∧ entry.2.Sound room

end Schema

/-- The second tree is laid out differently: in each object the members may stand in any order, and
members may have been added. What has been added is accepted with the room there is for containers. -/
inductive Rearranged {P : Type} (schema : Schema P) : Place P → Nat → Tree → Tree → Prop where
  | scalar {place : Place P} {room : Nat} (value : Scalar) :
      Rearranged schema place room (.scalar value) (.scalar value)
  | broken {place : Place P} {room : Nat} (cause : Break) :
      Rearranged schema place room (.broken cause) (.broken cause)
  | array {place : Place P} {room : Nat} {items others : List Tree} {stop : Stop}
      (length : items.length = others.length)
      (each : ∀ (i : Nat) (item other : Tree), items[i]? = some item → others[i]? = some other →
        Rearranged schema (schema.itemAt items.head? i place) (room - 1) item other) :
      Rearranged schema place room (.array items stop) (.array others stop)
  | object {place : Place P} {room : Nat} {members kept added others : List (Literal × Tree)}
      {stop : Stop} (keys : members.map (·.1) = kept.map (·.1))
      (each : ∀ (i : Nat) (member other : Literal × Tree), members[i]? = some member →
        kept[i]? = some other →
          Rearranged schema (schema.memberAt (tagOf members) member.1 place) (room - 1) member.2
            other.2)
      (fresh : ∀ entry ∈ added, schema.Addable (tagOf members) place (room - 1) entry)
      (order : others.Perm (kept ++ added)) :
      Rearranged schema place room (.object members stop) (.object others stop)

/-- The two keys differ, as far as these can be read. -/
def KeysDiffer (first second : Literal) : Prop := ∀ name, first = .ok name → second ≠ .ok name

/-- No object in the tree has a key twice. -/
inductive Tree.NoRepeatedKey : Tree → Prop where
  | scalar (value : Scalar) : NoRepeatedKey (.scalar value)
  | broken (cause : Break) : NoRepeatedKey (.broken cause)
  | array {items : List Tree} {stop : Stop} (each : ∀ item ∈ items, NoRepeatedKey item) :
      NoRepeatedKey (.array items stop)
  | object {members : List (Literal × Tree)} {stop : Stop}
      (distinct : (members.map (·.1)).Pairwise KeysDiffer)
      (each : ∀ member ∈ members, NoRepeatedKey member.2) : NoRepeatedKey (.object members stop)

namespace Tree.NoRepeatedKey

theorem ofJson_array {items : List Json} (each : ∀ item ∈ items, NoRepeatedKey (.ofJson item)) :
    NoRepeatedKey (.ofJson (.array items)) := by
  refine .array fun tree inside => ?_
  rw [ofItems_eq_map] at inside
  obtain ⟨item, among, rfl⟩ := List.mem_map.mp inside
  exact each item among

theorem ofJson_object {members : List (String × Json)} (distinct : (members.map (·.1)).Nodup)
    (each : ∀ member ∈ members, NoRepeatedKey (.ofJson member.2)) :
    NoRepeatedKey (.ofJson (.object members)) := by
  rw [ofJson, ofMembers_eq_map]
  refine .object ?_ fun member inside => ?_
  · rw [List.map_map, List.pairwise_map]
    refine (List.pairwise_map.mp distinct).imp fun differ name first second => ?_
    exact differ (Except.ok.inj (first.trans second.symm))
  · obtain ⟨entry, among, rfl⟩ := List.mem_map.mp inside
    exact each entry among

end Tree.NoRepeatedKey

/-! ### What a rearranged container holds -/

/-- Members with the same keys in the same places. -/
theorem forall₂_of_keys {members kept : List (Literal × Tree)}
    {holds : Literal × Tree → Literal × Tree → Prop} (keys : members.map (·.1) = kept.map (·.1))
    (each : ∀ (i : Nat) (member other : Literal × Tree), members[i]? = some member →
      kept[i]? = some other → holds member other) :
    List.Forall₂ (fun member other => member.1 = other.1 ∧ holds member other) members kept := by
  have length : members.length = kept.length := by simpa using congrArg List.length keys
  refine forall₂_of_getElem? length fun i member other here there => ?_
  refine ⟨?_, each i member other here there⟩
  have key := congrArg (·[i]?) keys
  simpa [List.getElem?_map, here, there] using key

section Containers

variable {P : Type} {schema : Schema P} {place : Place P} {tag : Option Tree} {room : Nat}

/-- The other members of an object, each with its own key. -/
def MemberRearranged (schema : Schema P) (place : Place P) (tag : Option Tree) (room : Nat)
    (member other : Literal × Tree) : Prop :=
  member.1 = other.1 ∧
    Rearranged schema (schema.memberAt tag member.1 place) room member.2 other.2

theorem rearranged_array_iff {items : List Tree} {stop : Stop} {tree : Tree} :
    Rearranged schema place room (.array items stop) tree ↔
      ∃ others, tree = .array others stop ∧ items.length = others.length ∧
        ∀ (i : Nat) (item other : Tree), items[i]? = some item → others[i]? = some other →
          Rearranged schema (schema.itemAt items.head? i place) (room - 1) item other := by
  constructor
  · intro h
    cases h with
    | array length each => exact ⟨_, rfl, length, each⟩
  · rintro ⟨others, rfl, length, each⟩
    exact .array length each

theorem rearranged_object_iff {members : List (Literal × Tree)} {stop : Stop} {tree : Tree} :
    Rearranged schema place room (.object members stop) tree ↔
      ∃ others, tree = .object others stop ∧
        Shuffled (MemberRearranged schema place (tagOf members) (room - 1))
          (schema.Addable (tagOf members) place (room - 1)) members others := by
  constructor
  · intro h
    cases h with
    | @object _ _ _ kept added others _ keys each fresh order =>
        exact ⟨others, rfl, kept, added, forall₂_of_keys keys each, fresh, order⟩
  · rintro ⟨others, rfl, kept, added, related, fresh, order⟩
    refine .object ?_ ?_ fresh order
    · exact (map_eq_of_forall₂ (fun _ _ same => same.1.symm) related).symm
    · intro i member other found foundToo
      obtain ⟨here, rfl⟩ := List.getElem?_eq_some_iff.mp found
      obtain ⟨there, rfl⟩ := List.getElem?_eq_some_iff.mp foundToo
      exact ((List.forall₂_iff_get.mp related).2 i here there).2

end Containers

/-- The entries that are read from members without a repeated key have different names. -/
theorem nodup_of_memberReads {members : List (Literal × Tree)} {room : Nat}
    {entries : List (String × Json)} (distinct : (members.map (·.1)).Pairwise KeysDiffer)
    (read : List.Forall₂ (MemberReads room) members entries) : (entries.map (·.1)).Nodup := by
  have keys : entries.map (fun entry => Except.ok entry.1) = members.map (·.1) :=
    map_eq_of_forall₂ (fun _ _ one => one.1.symm) read
  rw [← keys, List.pairwise_map] at distinct
  refine List.pairwise_map.mpr (distinct.imp ?_)
  intro first second differ same
  exact differ first.1 rfl (congrArg _ same.symm)

namespace Rearranged

variable {P : Type} {schema : Schema P} {place : Place P} {room : Nat} {tree other : Tree}

theorem refl (schema : Schema P) (place : Place P) (room : Nat) (tree : Tree) :
    Rearranged schema place room tree tree := by
  match tree with
  | .scalar value => exact .scalar value
  | .broken cause => exact .broken cause
  | .array items stop =>
      refine .array rfl fun i item other found foundToo => ?_
      obtain rfl := Option.some.inj (found.symm.trans foundToo)
      have inside := List.mem_of_getElem? found
      exact refl schema _ _ item
  | .object members stop =>
      refine .object rfl (fun i member other found foundToo => ?_)
        (fun _ added => absurd added List.not_mem_nil) (by rw [List.append_nil])
      obtain rfl := Option.some.inj (found.symm.trans foundToo)
      have smaller : sizeOf member.2 < sizeOf members := by
        have inside := List.sizeOf_lt_of_mem (List.mem_of_getElem? found)
        rw [← Prod.mk.eta (p := member), Prod.mk.sizeOf_spec] at inside
        omega
      exact refl schema _ _ member.2
termination_by sizeOf tree

/-- Members in another order, with others among them. -/
theorem of_perm {members others : List (Literal × Tree)} {stop : Stop}
    (added : List (Literal × Tree))
    (fresh : ∀ entry ∈ added, schema.Addable (tagOf members) place (room - 1) entry)
    (order : others.Perm (members ++ added)) :
    Rearranged schema place room (.object members stop) (.object others stop) :=
  rearranged_object_iff.mpr
    ⟨others, rfl, members, added, List.forall₂_same.mpr fun _ _ => ⟨rfl, refl _ _ _ _⟩, fresh, order⟩

/-- Layout does not matter for what is accepted as a value. -/
theorem sound_iff (h : Rearranged schema place room tree other) :
    tree.Sound room ↔ other.Sound room := by
  induction h with
  | scalar => rfl
  | broken => rfl
  | array length _ ih =>
      rw [Tree.sound_array_iff, Tree.sound_array_iff]
      refine and_congr_right fun _ => exists_congr fun rest => and_congr_right ?_
      rintro rfl
      exact forall_mem_iff_of_forall₂ (forall₂_of_getElem? length ih)
  | object keys _ fresh order ih =>
      rw [Tree.sound_object_iff, Tree.sound_object_iff]
      refine and_congr_right fun _ => exists_congr fun rest => and_congr_right ?_
      rintro rfl
      have related := forall₂_of_keys keys ih
      refine Shuffled.forall_iff ⟨_, _, related, fresh, order⟩ ?_ ?_
      · rintro member other ⟨key, same⟩
        rw [key]
        exact and_congr_right fun _ => same
      · rintro entry ⟨name, named, -, sound⟩
        exact ⟨⟨name, named⟩, sound⟩

/-- Nor does it for what can be passed over. -/
theorem skip_iff (h : Rearranged schema place room tree other) :
    tree.skip = .ok () ↔ other.skip = .ok () := by
  induction h with
  | scalar => rfl
  | broken => rfl
  | array length _ ih =>
      rw [Tree.skip_array_iff, Tree.skip_array_iff]
      exact and_congr_right fun _ =>
        forall_mem_iff_of_forall₂ (forall₂_of_getElem? length ih)
  | object keys _ fresh order ih =>
      rw [Tree.skip_object_iff, Tree.skip_object_iff]
      have related := forall₂_of_keys keys ih
      refine and_congr_right fun _ => Shuffled.forall_iff ⟨_, _, related, fresh, order⟩ ?_ ?_
      · intro member other same
        exact same.2
      · rintro entry ⟨_, -, -, sound⟩
        exact Tree.skip_of_sound sound

/-- Nor, where there are no parts to add to and no key comes twice, for the value itself. -/
theorem json_eq_ok_iff (h : Rearranged schema place room tree other) (plain : place = .value)
    (distinct : tree.NoRepeatedKey) (json : Json) :
    tree.json room = .ok json ↔ other.json room = .ok json := by
  induction h generalizing json with
  | scalar => rfl
  | broken => rfl
  | @array place room items others stop length _ ih =>
      subst plain
      cases distinct with
      | array distinct =>
          rw [Tree.json_array_eq_ok_iff, Tree.json_array_eq_ok_iff]
          refine exists_congr fun rest => exists_congr fun values => and_congr_right ?_
          rintro rfl
          refine and_congr_right fun _ => and_congr_left fun _ => ?_
          rw [jsonItems_eq_ok_iff, jsonItems_eq_ok_iff]
          have related := forall₂_of_getElem? length fun i item other found foundToo =>
            ih i item other found foundToo rfl (distinct item (List.mem_of_getElem? found))
          exact forall₂_congr_left related
  | @object place room members kept added others stop keys _ fresh order ih =>
      subst plain
      obtain rfl : added = [] := by
        rw [List.eq_nil_iff_forall_not_mem]
        intro entry member
        obtain ⟨_, -, ⟨_, isPart, -⟩, -⟩ := fresh entry member
        contradiction
      rw [List.append_nil] at order
      cases distinct with
      | object distinct eachDistinct =>
          have values := forall₂_of_keys keys fun i member other here there =>
            ih i member other here there (schema.memberAt_value _ _)
              (eachDistinct member (List.mem_of_getElem? here))
          have related : List.Forall₂ (fun member other => ∀ entry,
              MemberReads (room - 1) member entry ↔ MemberReads (room - 1) other entry)
              members kept := by
            refine values.imp fun member other ⟨key, same⟩ entry => ?_
            rw [MemberReads, MemberReads, key, same]
          rw [Tree.json_object_eq_ok_iff, Tree.json_object_eq_ok_iff]
          simp only [jsonMembers_eq_ok_iff, exists_and_left]
          refine exists_congr fun rest => and_congr_right ?_
          rintro rfl
          refine and_congr_right fun _ => ?_
          refine SortedMap.exists_ofList_iff related order (fun entries read => ?_)
            (json = .object ·.entries)
          exact nodup_of_memberReads distinct read

end Rearranged

end VolBacktest.Json
