import VolBacktest.Proofs.Json.Acceptance
import VolBacktest.Proofs.Json.Rearrangement

/-!
# Readers and layout

A reader respects the layout if it accepts a tree exactly if it accepts a rearrangement of it, and then
reads the same value. Which problem it reports otherwise may well depend on the layout, so results are
compared up to that: `Alike`.

Trees without containers have no layout, and a container is accepted only if it closes and all its keys
can be read. So whether a reader respects the layout is decided on the lists of items and on the lists of
named entries: `Relaid.array_iff` and `Relaid.object_iff`.
-/

namespace VolBacktest

variable {α β γ ε : Type}

/-- One computation accepts what the other accepts, with the same result. They may refuse for different
reasons. -/
def Alike (x y : Except ε α) : Prop := ∀ a, x = .ok a ↔ y = .ok a

namespace Alike

theorem refl (x : Except ε α) : Alike x x := fun _ => Iff.rfl

theorem of_refused {x y : Except ε α} (first : ∀ a, x ≠ .ok a) (second : ∀ a, y ≠ .ok a) :
    Alike x y :=
  fun a => iff_of_false (first a) (second a)

theorem bind {x y : Except ε α} {f g : α → Except ε β} (h : Alike x y)
    (each : ∀ a, x = .ok a → Alike (f a) (g a)) : Alike (x >>= f) (y >>= g) := by
  intro b
  rw [bind_eq_ok, bind_eq_ok]
  refine exists_congr fun a => ?_
  rw [← h a]
  exact and_congr_right fun accepted => each a accepted b

theorem map {x y : Except ε α} (f : α → β) (h : Alike x y) : Alike (x.map f) (y.map f) := by
  intro b
  rw [map_eq_ok, map_eq_ok]
  exact exists_congr fun a => and_congr_left fun _ => h a

end Alike

/-- One computation after the other over related lists. -/
theorem Alike.mapM {f : α → Except ε γ} {g : β → Except ε γ} {items : List α} {others : List β}
    (related : List.Forall₂ (fun a b => Alike (f a) (g b)) items others) :
    Alike (items.mapM f) (others.mapM g) := by
  intro values
  rw [mapM_eq_ok_iff, mapM_eq_ok_iff]
  exact forall₂_congr_left related

namespace Json

theorem alike_opened {room : Nat} {inside others : Nat → Read α}
    (each : ∀ rest, room = rest + 1 → Alike (inside rest) (others rest)) :
    Alike (opened room inside) (opened room others) := by
  intro value
  rw [opened_eq_ok, opened_eq_ok]
  exact exists_congr fun rest => and_congr_right fun same => each rest same value

/-! ### Relaid trees -/

variable {P : Type} {schema : Schema P} {place : Place P} {room : Nat}

/-- The second tree is a rearrangement of the first one, in which no object repeats a key. -/
structure Relaid (schema : Schema P) (place : Place P) (room : Nat) (tree other : Tree) : Prop where
  distinct : tree.NoRepeatedKey
  rearranged : Rearranged schema place room tree other

/-- Relaid trees in the same places of two lists. -/
structure ItemsRelaid (schema : Schema P) (place : Nat → Place P) (room : Nat)
    (items others : List Tree) : Prop where
  length : items.length = others.length
  each (index : Nat) {item other : Tree} (here : items[index]? = some item)
    (there : others[index]? = some other) : Relaid schema (place index) room item other

/-- Relaid trees under the same names, in any order, and more of them under names that are free. -/
structure EntriesRelaid (schema : Schema P) (place : String → Place P) (free : String → Prop)
    (room : Nat) (entries others : List (String × Tree)) : Prop where
  distinct : (entries.map (·.1)).Nodup
  shuffled : Shuffled
    (fun entry other => entry.1 = other.1 ∧ Relaid schema (place entry.1) room entry.2 other.2)
    (fun other => free other.1 ∧ other.2.Sound room) entries others

namespace Relaid

variable {items otherItems : List Tree} {members others : List (Literal × Tree)}
  {entries otherEntries : List (String × Tree)} {stop otherStop : Stop} {tree other : Tree}

/-- What is no container has no layout. -/
theorem scalar_iff (h : Relaid schema place room tree other) (value : Scalar) :
    tree = .scalar value ↔ other = .scalar value := by
  cases h.rearranged with
  | scalar | broken => exact Iff.rfl
  | array | object => exact ⟨nofun, nofun⟩

theorem itemsRelaid (h : Relaid schema place room (.array items stop) (.array otherItems otherStop)) :
    ItemsRelaid schema (schema.itemAt items.head? · place) (room - 1) items otherItems := by
  cases h.rearranged with
  | array length each =>
      cases h.distinct with
      | array distinct =>
          refine ⟨length, fun index item other here there => ?_⟩
          exact ⟨distinct item (List.mem_of_getElem? here), each index item other here there⟩

theorem members_shuffled
    (h : Relaid schema place room (.object members stop) (.object others otherStop)) :
    Shuffled (fun member other => member.1 = other.1 ∧
        Relaid schema (schema.memberAt (tagOf members) member.1 place) (room - 1) member.2 other.2)
      (schema.Addable (tagOf members) place (room - 1)) members others := by
  obtain ⟨_, ⟨⟩, kept, added, related, fresh, order⟩ := rearranged_object_iff.mp h.rearranged
  cases h.distinct with
  | object _ distinct =>
      refine ⟨kept, added, ?_, fresh, order⟩
      refine ((List.forall₂_and_left _ _).mpr ⟨distinct, related⟩).imp ?_
      rintro member other ⟨inside, key, rearranged⟩
      exact ⟨key, inside, rearranged⟩

theorem keyed_iff (h : Relaid schema place room (.object members stop) (.object others otherStop)) :
    (∃ entries, members = keyed entries) ↔ ∃ entries, others = keyed entries := by
  rw [exists_keyed_iff, exists_keyed_iff]
  refine h.members_shuffled.forall_iff ?_ ?_
  · rintro member other ⟨key, -⟩
    rw [key]
  · rintro member ⟨name, named, -⟩
    exact ⟨name, named⟩

theorem entriesRelaid
    (h : Relaid schema place room (.object (keyed entries) stop)
      (.object (keyed otherEntries) otherStop)) :
    EntriesRelaid schema (fun name => schema.memberAt (tagOf (keyed entries)) (.ok name) place)
      (schema.Unknown (tagOf (keyed entries)) place) (room - 1) entries otherEntries where
  distinct := by
    cases h.distinct with
    | object distinct =>
        rw [keyed, List.map_map, List.pairwise_map] at distinct
        refine List.pairwise_map.mpr (distinct.imp ?_)
        intro first second differ same
        exact differ first.1 rfl (congrArg Except.ok same.symm)
  shuffled := by
    -- What was kept has the old keys, and what was added can be read, so all of it has names.
    obtain ⟨kept, added, related, fresh, order⟩ := h.members_shuffled
    obtain ⟨kept, rfl⟩ : ∃ entries, kept = keyed entries := by
      refine exists_keyed_iff.mpr ((forall_mem_iff_of_forall₂ (related.imp ?_)).mp
        (exists_keyed_iff.mp ⟨entries, rfl⟩))
      rintro member other ⟨key, -⟩
      rw [key]
    obtain ⟨added, rfl⟩ : ∃ entries, added = keyed entries := by
      refine exists_keyed_iff.mpr fun member inside => ?_
      obtain ⟨name, named, -⟩ := fresh member inside
      exact ⟨name, named⟩
    rw [← keyed_append, keyed_perm_iff] at order
    refine ⟨kept, added, ?_, ?_, order⟩
    · rw [keyed, keyed, List.forall₂_map_left_iff, List.forall₂_map_right_iff] at related
      refine related.imp ?_
      rintro entry other ⟨key, relaid⟩
      exact ⟨Except.ok.inj key, relaid⟩
    · intro entry inside
      obtain ⟨name, ⟨⟩, unknown, sound⟩ := fresh _ (List.mem_map_of_mem inside)
      exact ⟨unknown, sound⟩

/-- What holds of the entries of one object holds of those of the other. -/
theorem object_iff (h : Relaid schema place room (.object members stop) (.object others otherStop))
    {p q : List (String × Tree) → Prop}
    (each : ∀ entries values, members = keyed entries →
      EntriesRelaid schema (fun name => schema.memberAt (tagOf members) (.ok name) place)
        (schema.Unknown (tagOf members) place) (room - 1) entries values → (p entries ↔ q values)) :
    (∃ entries, members = keyed entries ∧ p entries) ↔ ∃ values, others = keyed values ∧ q values := by
  constructor
  · rintro ⟨entries, rfl, holds⟩
    obtain ⟨values, rfl⟩ := h.keyed_iff.mp ⟨entries, rfl⟩
    exact ⟨values, rfl, (each entries values rfl h.entriesRelaid).mp holds⟩
  · rintro ⟨values, rfl, holds⟩
    obtain ⟨entries, rfl⟩ := h.keyed_iff.mpr ⟨values, rfl⟩
    exact ⟨entries, rfl, (each entries values rfl h.entriesRelaid).mpr holds⟩

end Relaid

/-! ### Relaid items and entries -/

theorem ItemsRelaid.tail {inside : Nat → Place P} {item other : Tree} {items others : List Tree}
    (h : ItemsRelaid schema inside room (item :: items) (other :: others)) :
    ItemsRelaid schema (fun index => inside (index + 1)) room items others where
  length := Nat.succ.inj h.length
  each index _ _ here there := h.each (index + 1) here there

theorem ItemsRelaid.forall₂ {items others : List Tree}
    (h : ItemsRelaid schema (fun _ => place) room items others) :
    List.Forall₂ (Relaid schema place room) items others :=
  forall₂_of_getElem? h.length fun index _ _ here there => h.each index here there

theorem ItemsRelaid.sound_iff {inside : Nat → Place P} {items others : List Tree}
    (h : ItemsRelaid schema inside room items others) :
    (∀ item ∈ items, item.Sound room) ↔ ∀ other ∈ others, other.Sound room :=
  forall_mem_iff_of_forall₂ (forall₂_of_getElem? h.length
    fun index _ _ here there => (h.each index here there).rearranged.sound_iff)

namespace EntriesRelaid

variable {inside : String → Place P} {free : String → Prop} {entries others : List (String × Tree)}

theorem filter (h : EntriesRelaid schema inside free room entries others) (keep : String → Bool) :
    EntriesRelaid schema inside free room (entries.filter fun entry => keep entry.1)
      (others.filter fun entry => keep entry.1) where
  distinct := h.distinct.sublist ((List.filter_sublist).map _)
  shuffled := by
    refine h.shuffled.filter ?_
    rintro entry other ⟨key, -⟩
    rw [key]

/-- What holds of any value that may be added, and does not depend on layout, holds of all entries or
of none. -/
theorem forall_iff (h : EntriesRelaid schema inside free room entries others)
    {p : String → Tree → Prop}
    (each : ∀ name tree other, Relaid schema (inside name) room tree other →
      (p name tree ↔ p name other))
    (added : ∀ name tree, Tree.Sound room tree → p name tree) :
    (∀ entry ∈ entries, p entry.1 entry.2) ↔ ∀ other ∈ others, p other.1 other.2 := by
  refine h.shuffled.forall_iff ?_ ?_
  · rintro ⟨name, tree⟩ ⟨_, other⟩ ⟨⟨⟩, relaid⟩
    exact each name tree other relaid
  · rintro ⟨name, tree⟩ ⟨-, sound⟩
    exact added name tree sound

theorem sound_iff (h : EntriesRelaid schema inside free room entries others) (except : String) :
    (∀ entry ∈ entries, entry.1 ≠ except → entry.2.Sound room) ↔
      ∀ other ∈ others, other.1 ≠ except → other.2.Sound room := by
  refine h.forall_iff (p := fun name tree => name ≠ except → tree.Sound room) ?_ ?_
  · intro name tree other relaid
    exact imp_congr_right fun _ => relaid.rearranged.sound_iff
  · intro name tree sound _
    exact sound

theorem skip_iff (h : EntriesRelaid schema inside free room entries others) (names : List String) :
    (∀ entry ∈ entries, entry.1 ∉ names → entry.2.skip = .ok ()) ↔
      ∀ other ∈ others, other.1 ∉ names → other.2.skip = .ok () := by
  refine h.forall_iff (p := fun name tree => name ∉ names → tree.skip = .ok ()) ?_ ?_
  · intro name tree other relaid
    exact imp_congr_right fun _ => relaid.rearranged.skip_iff
  · intro name tree sound _
    exact Tree.skip_of_sound sound

/-- Where no name is free nothing has been added. -/
theorem perm_of_not_free (h : EntriesRelaid schema inside free room entries others)
    (none : ∀ other ∈ others, ¬free other.1) :
    ∃ kept, List.Forall₂ (fun entry other => entry.1 = other.1 ∧
      Relaid schema (inside entry.1) room entry.2 other.2) entries kept ∧ others.Perm kept :=
  h.shuffled.perm_of_not_fresh fun other among fresh => none other among fresh.1

end EntriesRelaid

/-! ### Readers that respect the layout -/

/-- The reader accepts a tree exactly if it accepts a rearrangement of it, with the same result. -/
def Reader.Respects (reader : Reader α) (schema : Schema P) (place : Place P) : Prop :=
  ∀ ⦃mode room tree other⦄, Relaid schema place room tree other →
    Alike (reader mode room tree) (reader mode room other)

/-- The reader accepts no containers. -/
def Reader.Scalar (reader : Reader α) : Prop :=
  ∀ ⦃mode room tree value⦄, reader mode room tree = .ok value → ∃ scalar, tree = .scalar scalar

namespace Reader

theorem Scalar.respects {reader : Reader α} (h : reader.Scalar) (schema : Schema P)
    (place : Place P) : reader.Respects schema place := by
  intro mode room tree other relaid value
  constructor
  · intro read
    obtain ⟨scalar, rfl⟩ := h read
    obtain rfl := (relaid.scalar_iff scalar).mp rfl
    exact read
  · intro read
    obtain ⟨scalar, rfl⟩ := h read
    obtain rfl := (relaid.scalar_iff scalar).mpr rfl
    exact read

theorem scalar_string : string.Scalar := by
  intro mode room tree value read
  rw [string.eq_def] at read
  split at read
  next => exact ⟨_, rfl⟩
  next => exact absurd read not_mismatch_eq_ok

theorem scalar_number : number.Scalar := by
  intro mode room tree value read
  rw [number.eq_def] at read
  split at read
  next => exact ⟨_, rfl⟩
  next => exact absurd read not_mismatch_eq_ok

theorem scalar_date : date.Scalar := by
  intro mode room tree value read
  rw [date.eq_def] at read
  split at read
  next => exact ⟨_, rfl⟩
  next => exact absurd read not_mismatch_eq_ok

theorem scalar_tag (variants : List (String × α)) : (tag variants).Scalar := by
  intro mode room tree value read
  rw [tag.eq_def] at read
  split at read
  next => exact ⟨_, rfl⟩
  next => exact ⟨_, rfl⟩
  next => exact absurd read not_mismatch_eq_ok

theorem Scalar.map {reader : Reader α} (h : reader.Scalar) (f : α → β) : (reader.map f).Scalar := by
  intro mode room tree value read
  obtain ⟨_, read, -⟩ := map_eq_ok.mp read
  exact h read

/-- A reader respects the layout if it does so for containers. -/
theorem respects_of_containers {reader : Reader α}
    (arrays : ∀ mode room items others stop,
      Relaid schema place room (.array items stop) (.array others stop) →
        Alike (reader mode room (.array items stop)) (reader mode room (.array others stop)))
    (objects : ∀ mode room members others stop,
      Relaid schema place room (.object members stop) (.object others stop) →
        Alike (reader mode room (.object members stop)) (reader mode room (.object others stop))) :
    reader.Respects schema place := by
  rintro mode room tree other ⟨distinct, rearranged⟩
  cases rearranged with
  | scalar | broken => exact .refl _
  | array length each => exact arrays _ _ _ _ _ ⟨distinct, .array length each⟩
  | object keys each fresh order => exact objects _ _ _ _ _ ⟨distinct, .object keys each fresh order⟩

theorem Respects.nullable {reader : Reader α} (h : reader.Respects schema place) :
    reader.nullable.Respects schema place :=
  respects_of_containers (fun _ _ _ _ _ relaid => (h relaid).map some)
    fun _ _ _ _ _ relaid => (h relaid).map some

/-- A list respects the layout if its items do, which all stand at the same place. -/
theorem Respects.list {reader : Reader α} {item : Place P} (h : reader.Respects schema item)
    (inside : ∀ tag index, schema.itemAt tag index place = item) :
    (list reader).Respects schema place := by
  refine respects_of_containers ?_ ?_
  · intro mode room items others stop relaid
    refine alike_opened fun rest same => ?_
    have each := relaid.itemsRelaid
    simp only [inside, same, Nat.add_sub_cancel] at each
    exact (Alike.mapM (each.forall₂.imp fun _ _ one => h one)).bind fun _ _ => .refl _
  · intro mode room members others stop relaid
    exact .of_refused (@not_mismatch_eq_ok _ "a sequence" (.object members stop))
      (@not_mismatch_eq_ok _ "a sequence" (.object others stop))

end Reader

end Json

end VolBacktest
