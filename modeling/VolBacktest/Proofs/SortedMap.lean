import Mathlib.Data.List.Nodup
import VolBacktest.Proofs.Folds
import VolBacktest.Proofs.Shuffling
import VolBacktest.SortedMap

/-!
# The order in which a map is filled

A map is given by the values under its keys. Of the values inserted under one key the last one stays, and
values inserted under different keys do not meet. So the map of a list of entries depends only on the order
of the entries under each key; without a repeated key it is the same in every order.
-/

namespace VolBacktest.SortedMap

variable {κ α : Type} [LT κ] [DecidableEq κ] [DecidableLT κ] [KeyOrder κ]

omit [DecidableLT κ] in
theorem mem_entries_iff {m : SortedMap κ α} {key : κ} {value : α} :
    (key, value) ∈ m.entries ↔ m.get? key = some value := by
  obtain ⟨entries, sorted⟩ := m
  simp only [get?]
  induction entries with
  | nil => simp
  | cons head rest ih =>
      obtain ⟨k, v⟩ := head
      obtain ⟨below, sorted⟩ := List.pairwise_cons.mp sorted
      rw [List.mem_cons, ih sorted]
      by_cases same : k = key
      · -- No other entry has the key of the first.
        have fresh : (rest.find? (·.1 = key)) = none := by
          rw [List.find?_eq_none]
          intro entry member isKey
          have after := below entry member
          rw [of_decide_eq_true isKey, ← same] at after
          exact KeyOrder.irrefl k after
        subst same
        simp only [Prod.mk.injEq, true_and, List.find?_cons, fresh, decide_true, Option.map_none,
          Option.map_some, Option.some.injEq, reduceCtorEq, or_false]
        exact eq_comm
      · simp [same, Ne.symm same]

omit [DecidableLT κ] in
theorem ext_get? {a b : SortedMap κ α} (same : ∀ key, a.get? key = b.get? key) : a = b := by
  have once (m : SortedMap κ α) : m.entries.Nodup := by
    refine List.Pairwise.imp ?_ m.sorted
    rintro first _ before rfl
    exact KeyOrder.irrefl first.1 before
  have order : a.entries.Perm b.entries := by
    rw [List.perm_ext_iff_of_nodup (once a) (once b)]
    rintro ⟨key, value⟩
    rw [mem_entries_iff, mem_entries_iff, same]
  refine ext (order.eq_of_pairwise (fun first second _ _ less greater => ?_) a.sorted b.sorted)
  exact absurd (KeyOrder.trans less greater) (KeyOrder.irrefl _)

omit [DecidableLT κ] in
theorem mem_keys_iff {m : SortedMap κ α} {key : κ} :
    key ∈ m.keys ↔ ∃ value, m.get? key = some value := by
  simp [keys, mem_entries_iff]

omit [DecidableEq κ] [DecidableLT κ] [KeyOrder κ] in
theorem sorted_keys (m : SortedMap κ α) : m.keys.Pairwise (· < ·) :=
  List.pairwise_map.mpr m.sorted

/-! ### Filling from a list -/

/-- The value that an entry gives for a key. -/
def valueFor (key : κ) (entry : κ × α) : Option α :=
  if entry.1 = key then some entry.2 else none

omit [LT κ] [DecidableLT κ] [KeyOrder κ] in
theorem valueFor_eq_some_iff {key : κ} {value : α} {entry : κ × α} :
    valueFor key entry = some value ↔ entry.1 = key ∧ entry.2 = value := by
  simp [valueFor]

omit [LT κ] [DecidableLT κ] [KeyOrder κ] in
theorem valueFor_eq_none_iff {key : κ} {entry : κ × α} :
    valueFor key entry = none ↔ entry.1 ≠ key := by
  simp [valueFor]

/-- Of the values that the entries give for the key this is the last. -/
def GivenLast (entries : List (κ × α)) (key : κ) (value : α) : Prop :=
  ∃ before after, entries = before ++ (key, value) :: after ∧ ∀ later ∈ after, later.1 ≠ key

/-- The last entry with a key decides what is under it. -/
theorem get?_ofList (entries : List (κ × α)) (key : κ) :
    (ofList entries).get? key = entries.reverse.findSome? (valueFor key) := by
  have written (m : SortedMap κ α) (entry : κ × α) : (m.insert entry.1 entry.2).get? key =
      ((valueFor key entry).map some).getD (m.get? key) := by
    rw [get?_insert, valueFor]
    split <;> rfl
  have last := observe_foldl (fun m : SortedMap κ α => m.get? key) written entries empty
  change (ofList entries).get? key =
    (entries.reverse.findSome? (Option.map some ∘ valueFor key)).getD none at last
  rw [last, ← List.map_findSome?]
  cases entries.reverse.findSome? (valueFor key) <;> rfl

theorem get?_ofList_eq_some_iff {entries : List (κ × α)} {key : κ} {value : α} :
    (ofList entries).get? key = some value ↔ GivenLast entries key value := by
  rw [get?_ofList, findSome?_reverse_eq_some_iff]
  simp [valueFor, GivenLast, and_assoc]

/-- The map has the keys of the entries, and no others. -/
theorem mem_keys_ofList_iff {entries : List (κ × α)} {key : κ} :
    key ∈ (ofList entries).keys ↔ ∃ entry ∈ entries, entry.1 = key := by
  have given : (∃ value, (ofList entries).get? key = some value) ↔
      ∃ entry ∈ entries, (valueFor key entry).isSome := by
    rw [get?_ofList, ← Option.isSome_iff_exists, List.findSome?_isSome_iff]
    simp only [List.mem_reverse]
  rw [mem_keys_iff, given]
  simp [valueFor]

/-- What is under a key depends on the entries with this key alone. -/
theorem ofList_congr {entries others : List (κ × α)}
    (same : ∀ key, entries.filter (·.1 = key) = others.filter (·.1 = key)) :
    ofList entries = ofList others := by
  have among (key : κ) (items : List (κ × α)) :
      items.filterMap (valueFor key) = (items.filter (·.1 = key)).map (·.2) := by
    rw [← List.filterMap_eq_map, List.filterMap_filter]
    refine List.filterMap_congr fun entry _ => ?_
    simp [valueFor]
  refine ext_get? fun key => ?_
  rw [get?_ofList, get?_ofList, ← List.getLast?_filterMap, ← List.getLast?_filterMap, among, among,
    same]

theorem insert_comm (m : SortedMap κ α) {first second : κ} (apart : first ≠ second) (a b : α) :
    (m.insert first a).insert second b = (m.insert second b).insert first a := by
  refine ext_get? fun key => ?_
  simp only [get?_insert]
  by_cases isFirst : first = key
  · have other : second ≠ key := fun same => apart (isFirst.trans same.symm)
    simp [isFirst, other]
  · simp [isFirst]

/-- Entries with different keys may be inserted in any order. -/
theorem ofList_eq_of_perm {entries others : List (κ × α)} (order : entries.Perm others)
    (distinct : (entries.map (·.1)).Nodup) : ofList entries = ofList others := by
  refine order.foldl_eq' ?_ empty
  intro first atFirst second atSecond m
  by_cases same : first.1 = second.1
  · rw [List.inj_on_of_nodup_map distinct atFirst atSecond same]
  · exact m.insert_comm same first.2 second.2

/-- What is said of the map of the entries that some items stand for does not depend on the order of
the items. -/
theorem exists_ofList_iff {β γ : Type} {T : β → κ × α → Prop} {U : γ → κ × α → Prop}
    {items : List β} {kept others : List γ}
    (related : List.Forall₂ (fun a b => ∀ entry, T a entry ↔ U b entry) items kept)
    (order : others.Perm kept)
    (distinct : ∀ entries, List.Forall₂ T items entries → (entries.map (·.1)).Nodup)
    (p : SortedMap κ α → Prop) :
    (∃ entries, List.Forall₂ T items entries ∧ p (ofList entries)) ↔
      ∃ entries, List.Forall₂ U others entries ∧ p (ofList entries) := by
  constructor
  · rintro ⟨entries, each, holds⟩
    obtain ⟨shuffled, eachOther, same⟩ :=
      List.perm_comp_forall₂ order ((forall₂_congr_left related).mp each)
    rw [ofList_eq_of_perm same.symm (distinct entries each)] at holds
    exact ⟨shuffled, eachOther, holds⟩
  · rintro ⟨entries, eachOther, holds⟩
    obtain ⟨shuffled, eachKept, same⟩ := List.perm_comp_forall₂ order.symm eachOther
    have each := (forall₂_congr_left related).mpr eachKept
    rw [← ofList_eq_of_perm same (distinct shuffled each)] at holds
    exact ⟨shuffled, each, holds⟩

end VolBacktest.SortedMap
