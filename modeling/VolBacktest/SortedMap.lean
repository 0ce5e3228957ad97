/-!
# Maps in key order

Free-form fields, reported measures and date series are all kept in the order of their keys, and a
value given for a key replaces an earlier one. `SortedMap` is that map, as a list whose keys
strictly increase. Its view is the list of entries; `get?` is the value under a key.
-/

namespace VolBacktest

/-- A strict order that tells any two keys apart. -/
class KeyOrder (κ : Type) [LT κ] : Prop where
  irrefl (a : κ) : ¬a < a
  trans {a b c : κ} : a < b → b < c → a < c
  eq_of_not_lt {a b : κ} : ¬a < b → ¬b < a → a = b

/-- Texts are ordered as sequences of characters, which is also the order of their UTF-8 bytes. -/
instance : KeyOrder String where
  irrefl := String.lt_irrefl
  trans := String.lt_trans
  eq_of_not_lt h₁ h₂ := Std.Trichotomous.trichotomous _ _ h₁ h₂

/-- Entries whose keys strictly increase. -/
structure SortedMap (κ α : Type) [LT κ] where
  entries : List (κ × α)
  sorted : entries.Pairwise (·.1 < ·.1)

namespace SortedMap

variable {κ α β : Type} [LT κ]

instance [DecidableEq κ] [DecidableEq α] : DecidableEq (SortedMap κ α) := fun a b =>
  if h : a.entries = b.entries then
    isTrue (by cases a; cases b; cases h; rfl)
  else
    isFalse fun e => h (congrArg entries e)

@[ext] theorem ext {a b : SortedMap κ α} (h : a.entries = b.entries) : a = b := by
  cases a; cases b; cases h; rfl

def empty : SortedMap κ α := ⟨[], .nil⟩

instance : Inhabited (SortedMap κ α) := ⟨empty⟩

@[simp] theorem entries_empty : (empty : SortedMap κ α).entries = [] := rfl

def keys (m : SortedMap κ α) : List κ := m.entries.map (·.1)

def size (m : SortedMap κ α) : Nat := m.entries.length

/-- Puts the entry at its place, instead of one with the same key. -/
def insertEntry [DecidableLT κ] (key : κ) (value : α) : List (κ × α) → List (κ × α)
  | [] => [(key, value)]
  | (k, v) :: rest =>
    if key < k then (key, value) :: (k, v) :: rest
    else if k < key then (k, v) :: insertEntry key value rest
    else (key, value) :: rest

theorem mem_of_mem_insertEntry [DecidableLT κ] {key : κ} {value : α} {entries : List (κ × α)}
    {entry : κ × α} (h : entry ∈ insertEntry key value entries) :
    entry = (key, value) ∨ entry ∈ entries := by
  induction entries with
  | nil => simpa [insertEntry] using h
  | cons head rest ih =>
    obtain ⟨k, v⟩ := head
    rw [insertEntry] at h
    split at h
    · simpa using h
    · split at h
      · rcases List.mem_cons.1 h with rfl | h
        · simp
        · rcases ih h with h | h <;> simp [h]
      · rcases List.mem_cons.1 h with rfl | h <;> simp_all

theorem sorted_insertEntry [DecidableLT κ] [KeyOrder κ] (key : κ) (value : α)
    {entries : List (κ × α)} (h : entries.Pairwise (·.1 < ·.1)) :
    (insertEntry key value entries).Pairwise (·.1 < ·.1) := by
  induction entries with
  | nil => simp [insertEntry]
  | cons head rest ih =>
    obtain ⟨k, v⟩ := head
    obtain ⟨below, tail⟩ := List.pairwise_cons.1 h
    rw [insertEntry]
    split
    next before =>
      refine List.pairwise_cons.2 ⟨?_, h⟩
      intro entry mem
      rcases List.mem_cons.1 mem with rfl | mem
      · exact before
      · exact KeyOrder.trans before (below entry mem)
    next notBefore =>
      split
      next after =>
        refine List.pairwise_cons.2 ⟨?_, ih tail⟩
        intro entry mem
        rcases mem_of_mem_insertEntry mem with rfl | mem
        · exact after
        · exact below entry mem
      next notAfter =>
        have same : key = k := KeyOrder.eq_of_not_lt notBefore notAfter
        subst same
        exact List.pairwise_cons.2 ⟨below, tail⟩

def insert [DecidableLT κ] [KeyOrder κ] (m : SortedMap κ α) (key : κ) (value : α) :
    SortedMap κ α :=
  ⟨insertEntry key value m.entries, sorted_insertEntry key value m.sorted⟩

@[simp] theorem entries_insert [DecidableLT κ] [KeyOrder κ] (m : SortedMap κ α) (key : κ)
    (value : α) : (m.insert key value).entries = insertEntry key value m.entries := rfl

def get? [DecidableEq κ] (m : SortedMap κ α) (key : κ) : Option α :=
  (m.entries.find? (·.1 = key)).map (·.2)

@[simp] theorem get?_empty [DecidableEq κ] (key : κ) :
    (empty : SortedMap κ α).get? key = none := rfl

theorem find?_insertEntry [DecidableEq κ] [DecidableLT κ] [KeyOrder κ] (key wanted : κ) (value : α)
    (entries : List (κ × α)) :
    (insertEntry key value entries).find? (·.1 = wanted) =
      if key = wanted then some (key, value) else entries.find? (·.1 = wanted) := by
  induction entries with
  | nil => by_cases h : key = wanted <;> simp [insertEntry, h]
  | cons head rest ih =>
    obtain ⟨k, v⟩ := head
    rw [insertEntry]
    split
    next => by_cases h : key = wanted <;> simp [h]
    next notBefore =>
      split
      next after =>
        have differs : k ≠ key := fun same => KeyOrder.irrefl key (same ▸ after)
        by_cases h : key = wanted
        · subst h
          simp [differs, ih]
        · by_cases hk : k = wanted <;> simp [h, hk, ih]
      next notAfter =>
        have same : key = k := KeyOrder.eq_of_not_lt notBefore notAfter
        subst same
        by_cases h : key = wanted <;> simp [h]

/-- The value under a key is the one that was last inserted for it. -/
@[simp] theorem get?_insert [DecidableEq κ] [DecidableLT κ] [KeyOrder κ] (m : SortedMap κ α)
    (key wanted : κ) (value : α) :
    (m.insert key value).get? wanted = if key = wanted then some value else m.get? wanted := by
  simp only [get?, entries_insert, find?_insertEntry]
  split <;> rfl

/-- Inserts the entries one after the other, so the last value of a key stays. -/
def insertAll [DecidableLT κ] [KeyOrder κ] (m : SortedMap κ α) (entries : List (κ × α)) :
    SortedMap κ α :=
  entries.foldl (fun m entry => m.insert entry.1 entry.2) m

def ofList [DecidableLT κ] [KeyOrder κ] (entries : List (κ × α)) : SortedMap κ α :=
  empty.insertAll entries

@[simp] theorem ofList_nil [DecidableLT κ] [KeyOrder κ] :
    (ofList [] : SortedMap κ α) = empty := rfl

theorem mem_of_mem_insertAll [DecidableLT κ] [KeyOrder κ] {m : SortedMap κ α}
    {entries : List (κ × α)} {entry : κ × α} (h : entry ∈ (m.insertAll entries).entries) :
    entry ∈ m.entries ∨ entry ∈ entries := by
  induction entries generalizing m with
  | nil => exact .inl h
  | cons head rest ih =>
    obtain before | after := ih h
    · obtain rfl | before := mem_of_mem_insertEntry before
      · exact .inr List.mem_cons_self
      · exact .inl before
    · exact .inr (List.mem_cons_of_mem head after)

theorem mem_of_mem_ofList [DecidableLT κ] [KeyOrder κ] {entries : List (κ × α)} {entry : κ × α}
    (h : entry ∈ (ofList entries).entries) : entry ∈ entries :=
  (mem_of_mem_insertAll h).resolve_left List.not_mem_nil

/-- A key above all others goes to the end. -/
theorem insertEntry_append [DecidableLT κ] [KeyOrder κ] {key : κ} (value : α)
    {entries : List (κ × α)} (above : ∀ entry ∈ entries, entry.1 < key) :
    insertEntry key value entries = entries ++ [(key, value)] := by
  induction entries with
  | nil => rfl
  | cons head rest ih =>
    obtain ⟨k, v⟩ := head
    have after : k < key := above (k, v) List.mem_cons_self
    have notBefore : ¬key < k := fun before => KeyOrder.irrefl key (KeyOrder.trans before after)
    rw [insertEntry, if_neg notBefore, if_pos after,
      ih fun entry mem => above entry (List.mem_cons_of_mem _ mem), List.cons_append]

/-- Entries in key order stay as they are. -/
@[simp] theorem ofList_entries [DecidableLT κ] [KeyOrder κ] (m : SortedMap κ α) :
    ofList m.entries = m := by
  have appended (entries : List (κ × α)) (before : SortedMap κ α)
      (sorted : (before.entries ++ entries).Pairwise (·.1 < ·.1)) :
      (before.insertAll entries).entries = before.entries ++ entries := by
    induction entries generalizing before with
    | nil => exact (List.append_nil _).symm
    | cons head rest ih =>
      have above : ∀ entry ∈ before.entries, entry.1 < head.1 := fun entry mem =>
        (List.pairwise_append.1 sorted).2.2 entry mem head List.mem_cons_self
      have inserted : (before.insert head.1 head.2).entries = before.entries ++ [head] :=
        insertEntry_append head.2 above
      rw [insertAll, List.foldl_cons]
      change ((before.insert head.1 head.2).insertAll rest).entries = _
      rw [ih, inserted, List.append_assoc, List.singleton_append]
      rwa [inserted, List.append_assoc, List.singleton_append]
  exact ext (appended m.entries empty m.sorted)

end SortedMap

end VolBacktest
