import Mathlib.Data.List.Forall2
import VolBacktest.Proofs.Json.Restoring

/-!
# Trees as values

When a tree is accepted as a value of any kind and when it can be passed over, said container by
container. An object is accepted if it closes and each of its members is, whatever their order; which
value it is depends on its entries. What is accepted can be passed over, but not the other way round:
nothing that is passed over is looked at closely.
-/

namespace VolBacktest.Json

/-- The tree is accepted as a value of any kind, with this room for containers. -/
def Tree.Sound (room : Nat) (tree : Tree) : Prop := ∃ json, tree.json room = .ok json

theorem fault_eq_none_iff {stop : Stop} {bracket : Bracket} {care : Care} :
    stop.fault bracket care = none ↔ stop = .closed := by
  cases stop with
  | closed => simp
  | badKey seen =>
      rw [Stop.fault.eq_def]
      split <;> simp_all
  | _ => cases bracket <;> cases care <;> simp [Stop.fault]

theorem check_eq_ok_iff {stop : Stop} {bracket : Bracket} {care : Care} {nothing : Unit} :
    stop.check bracket care = .ok nothing ↔ stop = .closed := by
  have sound := @fault_eq_none_iff stop bracket care
  rw [← sound, Stop.check]
  cases stop.fault bracket care <;> simp

/-- Every element has an image if there is a list of images. -/
theorem exists_forall₂_iff {α β : Type} {R : α → β → Prop} {items : List α} :
    (∃ images, List.Forall₂ R items images) ↔ ∀ a ∈ items, ∃ b, R a b := by
  induction items with
  | nil => exact iff_of_true ⟨[], .nil⟩ nofun
  | cons a rest ih =>
      rw [List.forall_mem_cons, ← ih]
      constructor
      · rintro ⟨images, all⟩
        obtain ⟨b, others, first, rest, -⟩ := List.forall₂_cons_left_iff.mp all
        exact ⟨⟨b, first⟩, others, rest⟩
      · rintro ⟨⟨b, first⟩, images, others⟩
        exact ⟨b :: images, .cons first others⟩

theorem jsonItems_eq_ok_iff {room : Nat} {items : List Tree} {values : List Json} :
    Tree.jsonItems room items = .ok values ↔
      List.Forall₂ (fun item value => item.json room = .ok value) items values := by
  induction items generalizing values with
  | nil => simp [Tree.jsonItems, eq_comm]
  | cons item rest ih =>
      rw [Tree.jsonItems, List.forall₂_cons_left_iff]
      simp only [bind_eq_ok, ih, Except.ok.injEq]
      constructor
      · rintro ⟨value, first, values, others, rfl⟩
        exact ⟨value, values, first, others, rfl⟩
      · rintro ⟨value, values, first, others, rfl⟩
        exact ⟨value, first, values, others, rfl⟩

/-- The key and the value of a member are read as those of an entry. -/
def MemberReads (room : Nat) (member : Literal × Tree) (entry : String × Json) : Prop :=
  member.1 = .ok entry.1 ∧ member.2.json room = .ok entry.2

theorem jsonMembers_eq_ok_iff {room : Nat} {members : List (Literal × Tree)}
    {entries : List (String × Json)} :
    Tree.jsonMembers room members = .ok entries ↔
      List.Forall₂ (MemberReads room) members entries := by
  induction members generalizing entries with
  | nil => simp [Tree.jsonMembers, eq_comm]
  | cons member rest ih =>
      obtain ⟨key, value⟩ := member
      rw [Tree.jsonMembers, List.forall₂_cons_left_iff]
      simp only [bind_eq_ok, ih, Except.ok.injEq]
      constructor
      · rintro ⟨name, named, json, read, entries, others, rfl⟩
        exact ⟨(name, json), entries, ⟨named, read⟩, others, rfl⟩
      · rintro ⟨⟨name, json⟩, entries, ⟨named, read⟩, others, rfl⟩
        exact ⟨name, named, json, read, entries, others, rfl⟩

namespace Tree

variable {room : Nat} {items : List Tree} {members : List (Literal × Tree)} {stop : Stop}

theorem json_array_eq_ok_iff {json : Json} :
    (array items stop).json room = .ok json ↔ ∃ rest values, room = rest + 1 ∧ stop = .closed ∧
      jsonItems rest items = .ok values ∧ json = .array values := by
  cases room with
  | zero => simp [Tree.json]
  | succ rest =>
      simp only [Tree.json, bind_eq_ok, check_eq_ok_iff, Except.ok.injEq]
      constructor
      · rintro ⟨values, read, -, closed, rfl⟩
        exact ⟨rest, values, rfl, closed, read, rfl⟩
      · rintro ⟨_, values, ⟨⟩, closed, read, rfl⟩
        exact ⟨values, read, (), closed, rfl⟩

theorem json_object_eq_ok_iff {json : Json} :
    (object members stop).json room = .ok json ↔ ∃ rest entries, room = rest + 1 ∧
      stop = .closed ∧ jsonMembers rest members = .ok entries ∧ json = .ofMembers entries := by
  cases room with
  | zero => simp [Tree.json]
  | succ rest =>
      simp only [Tree.json, bind_eq_ok, check_eq_ok_iff, Except.ok.injEq]
      constructor
      · rintro ⟨entries, read, -, closed, rfl⟩
        exact ⟨rest, entries, rfl, closed, read, rfl⟩
      · rintro ⟨_, entries, ⟨⟩, closed, read, rfl⟩
        exact ⟨entries, read, (), closed, rfl⟩

theorem sound_array_iff :
    (array items stop).Sound room ↔ stop = .closed ∧ ∃ rest, room = rest + 1 ∧
      ∀ item ∈ items, item.Sound rest := by
  simp only [Sound, json_array_eq_ok_iff, jsonItems_eq_ok_iff, ← exists_forall₂_iff]
  constructor
  · rintro ⟨_, rest, values, rfl, closed, read, -⟩
    exact ⟨closed, rest, rfl, values, read⟩
  · rintro ⟨closed, rest, rfl, values, read⟩
    exact ⟨_, rest, values, rfl, closed, read, rfl⟩

theorem sound_object_iff :
    (object members stop).Sound room ↔ stop = .closed ∧ ∃ rest, room = rest + 1 ∧
      ∀ member ∈ members, (∃ name, member.1 = .ok name) ∧ member.2.Sound rest := by
  have entry (rest : Nat) (member : Literal × Tree) :
      ((∃ name, member.1 = .ok name) ∧ member.2.Sound rest) ↔
        ∃ entry, MemberReads rest member entry := by
    constructor
    · rintro ⟨⟨name, named⟩, json, read⟩
      exact ⟨(name, json), named, read⟩
    · rintro ⟨entry, named, read⟩
      exact ⟨⟨_, named⟩, _, read⟩
  simp only [entry, ← exists_forall₂_iff]
  simp only [Sound, json_object_eq_ok_iff, jsonMembers_eq_ok_iff]
  constructor
  · rintro ⟨_, rest, entries, rfl, closed, read, -⟩
    exact ⟨closed, rest, rfl, entries, read⟩
  · rintro ⟨closed, rest, rfl, entries, read⟩
    exact ⟨_, rest, entries, rfl, closed, read, rfl⟩

theorem skipItems_eq_ok_iff : skipItems items = .ok () ↔ ∀ item ∈ items, item.skip = .ok () := by
  induction items with
  | nil => exact iff_of_true rfl nofun
  | cons item rest ih =>
      rw [skipItems, List.forall_mem_cons, ← ih]
      simp only [bind_eq_ok]
      exact ⟨fun ⟨_, first, others⟩ => ⟨first, others⟩, fun ⟨first, others⟩ => ⟨(), first, others⟩⟩

theorem skipMembers_eq_ok_iff :
    skipMembers members = .ok () ↔ ∀ member ∈ members, member.2.skip = .ok () := by
  induction members with
  | nil => exact iff_of_true rfl nofun
  | cons member rest ih =>
      rw [skipMembers, List.forall_mem_cons, ← ih]
      simp only [bind_eq_ok]
      exact ⟨fun ⟨_, first, others⟩ => ⟨first, others⟩, fun ⟨first, others⟩ => ⟨(), first, others⟩⟩

theorem skip_array_iff :
    (array items stop).skip = .ok () ↔ stop = .closed ∧ ∀ item ∈ items, item.skip = .ok () := by
  rw [Tree.skip, ← skipItems_eq_ok_iff]
  simp only [bind_eq_ok, check_eq_ok_iff]
  exact ⟨fun ⟨_, read, closed⟩ => ⟨closed, read⟩, fun ⟨closed, read⟩ => ⟨(), read, closed⟩⟩

theorem skip_object_iff :
    (object members stop).skip = .ok () ↔
      stop = .closed ∧ ∀ member ∈ members, member.2.skip = .ok () := by
  rw [Tree.skip, ← skipMembers_eq_ok_iff]
  simp only [bind_eq_ok, check_eq_ok_iff]
  exact ⟨fun ⟨_, read, closed⟩ => ⟨closed, read⟩, fun ⟨closed, read⟩ => ⟨(), read, closed⟩⟩

/-- What is accepted as a value can be passed over. -/
theorem skip_of_sound {tree : Tree} {room : Nat} (sound : tree.Sound room) :
    tree.skip = .ok () := by
  match tree with
  | .scalar _ => rfl
  | .broken _ =>
      obtain ⟨_, read⟩ := sound
      contradiction
  | .array items stop =>
      obtain ⟨closed, rest, rfl, each⟩ := sound_array_iff.mp sound
      exact skip_array_iff.mpr ⟨closed, fun item member => skip_of_sound (each item member)⟩
  | .object members stop =>
      obtain ⟨closed, rest, rfl, each⟩ := sound_object_iff.mp sound
      exact skip_object_iff.mpr
        ⟨closed, fun ⟨key, value⟩ member => skip_of_sound (each (key, value) member).2⟩

end Tree

end VolBacktest.Json
