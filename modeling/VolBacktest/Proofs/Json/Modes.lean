import VolBacktest.Proofs.Json.Acceptance

/-!
# Tagged values in the text and in kept parts

A tagged value is read in the same way from the text and from a part that has been kept, but for its own
tag: in a kept part, this may also be the index of a variant. What is accepted of tagged values can be
read through, which is what a tagged value around it asks for.
-/

namespace VolBacktest.Json

variable {α : Type}

/-- The tree is the index of one of that many variants. -/
def Tree.IsIndex (variants : Nat) (tree : Tree) : Prop :=
  ∃ n index, tree = .scalar (.number n) ∧ n.toNumber = .ok (.integer (.ofNat index)) ∧
    index < variants

/-- The tag of the tree is the index of one of that many variants. It is a member or the first item. -/
def Tree.IndexTagged (variants : Nat) : Tree → Prop
  | .object members _ => ∃ tag, (.ok tagName, tag) ∈ members ∧ tag.IsIndex variants
  | .array items _ => ∃ tag, items.head? = some tag ∧ tag.IsIndex variants
  | _ => False

/-- Under this name stands this value and no other. -/
theorem Slot.mem_and_unique {name : String} {entries : List (String × Tree)} {position found : Nat}
    {value : Tree} (slot : ofMembers name position entries = present found value) :
    (name, value) ∈ entries ∧ ∀ entry ∈ entries, entry.1 = name → entry.2 = value := by
  induction entries generalizing position with
  | nil => contradiction
  | cons entry rest ih =>
      obtain ⟨key, tree⟩ := entry
      rw [ofMembers] at slot
      by_cases same : key = name
      · rw [if_pos same] at slot
        split at slot
        next none =>
          cases slot
          have others := List.findIdx?_eq_none_iff.mp none
          refine ⟨same ▸ List.mem_cons_self, List.forall_mem_cons.mpr ⟨fun _ => rfl, ?_⟩⟩
          intro other among again
          exact absurd (others other among) (by simpa using again)
        next => contradiction
      · rw [if_neg same] at slot
        obtain ⟨among, unique⟩ := ih slot
        refine ⟨List.mem_cons_of_mem _ among, List.forall_mem_cons.mpr ⟨fun again => ?_, unique⟩⟩
        exact absurd again same

namespace Reader

variable {typeName : String} {variants : List (String × TaggedBody α)} {room : Nat} {tree : Tree}
  {value : α}

theorem tag_direct {τ : Type} {variants : List (String × τ)} {tag : Tree} {chosen : τ}
    (read : Reader.tag variants .kept room tag = .ok chosen)
    (named : ¬tag.IsIndex variants.length) : Reader.tag variants .direct room tag = .ok chosen := by
  rw [tag_eq_ok_iff] at read ⊢
  obtain name | ⟨-, n, index, rfl, numbered, found⟩ := read
  · exact .inl name
  · obtain ⟨inRange, -⟩ := List.getElem?_eq_some_iff.mp found
    rw [List.length_map] at inRange
    exact absurd ⟨n, index, rfl, numbered, inRange⟩ named

/-- In the text, an index is not accepted as a tag. -/
theorem not_isIndex_of_tag {τ : Type} {variants : List (String × τ)} {tag : Tree} {chosen : τ}
    (read : Reader.tag variants .direct room tag = .ok chosen) (bound : Nat) :
    ¬tag.IsIndex bound := by
  rintro ⟨n, index, rfl, -⟩
  exact not_mismatch_eq_ok read

theorem sound_of_tag {τ : Type} {variants : List (String × τ)} {mode : Mode} {tag : Tree} {chosen : τ}
    (read : Reader.tag variants mode room tag = .ok chosen) (more : Nat) : tag.Sound more := by
  obtain ⟨name, rfl, -⟩ | ⟨-, n, index, rfl, numbered, -⟩ := tag_eq_ok_iff.mp read
  · exact ⟨.string name, rfl⟩
  · exact ⟨.number (.integer (.ofNat index)), map_eq_ok.mpr ⟨_, numbered, rfl⟩⟩

theorem sound_of_string {mode : Mode} {text : String} (read : string mode room tree = .ok text)
    (more : Nat) : tree.Sound more := by
  rw [string.eq_def] at read
  split at read
  next literal => exact ⟨.string text, map_eq_ok.mpr ⟨text, liftFault_eq_ok.mp read, rfl⟩⟩
  next => exact absurd read not_mismatch_eq_ok

/-- What is accepted in the text is accepted in a kept part, as the same value. -/
theorem tagged_kept (read : tagged typeName variants .direct room tree = .ok value) :
    tagged typeName variants .kept room tree = .ok value := by
  match tree with
  | .scalar _ | .broken _ => exact read
  | .array [] _ => exact read
  | .array (first :: others) _ =>
      obtain ⟨rest, rfl, closed, sound, body, chosen, read⟩ := tagged_array_eq_ok_iff.mp read
      exact tagged_array_eq_ok_iff.mpr ⟨rest, rfl, closed, sound, body, tag_kept chosen, read⟩
  | .object _ _ =>
      obtain ⟨rest, rfl, closed, entries, named, sound, position, tag, body, slot, chosen, read⟩ :=
        tagged_object_eq_ok_iff.mp read
      exact tagged_object_eq_ok_iff.mpr
        ⟨rest, rfl, closed, entries, named, sound, position, tag, body, slot, tag_kept chosen, read⟩

/-- The converse holds but for indices as tags. -/
theorem tagged_direct (read : tagged typeName variants .kept room tree = .ok value)
    (named : ¬tree.IndexTagged variants.length) :
    tagged typeName variants .direct room tree = .ok value := by
  match tree with
  | .scalar _ | .broken _ => exact read
  | .array [] _ => exact read
  | .array (first :: others) _ =>
      obtain ⟨rest, rfl, closed, sound, body, chosen, read⟩ := tagged_array_eq_ok_iff.mp read
      refine tagged_array_eq_ok_iff.mpr ⟨rest, rfl, closed, sound, body, ?_, read⟩
      exact tag_direct chosen fun index => named ⟨first, rfl, index⟩
  | .object _ _ =>
      obtain ⟨rest, rfl, closed, entries, rfl, sound, position, tag, body, slot, chosen, read⟩ :=
        tagged_object_eq_ok_iff.mp read
      refine tagged_object_eq_ok_iff.mpr
        ⟨rest, rfl, closed, entries, rfl, sound, position, tag, body, slot, ?_, read⟩
      obtain ⟨among, -⟩ := Slot.mem_and_unique slot
      exact tag_direct chosen fun index => named ⟨tag, List.mem_map_of_mem among, index⟩

theorem not_indexTagged (read : tagged typeName variants .direct room tree = .ok value)
    (bound : Nat) : ¬tree.IndexTagged bound := by
  match tree with
  | .scalar _ | .broken _ => exact id
  | .array [] _ =>
      rintro ⟨_, ⟨⟩, _⟩
  | .array (first :: others) _ =>
      rintro ⟨_, ⟨⟩, index⟩
      obtain ⟨rest, -, -, -, body, chosen, -⟩ := tagged_array_eq_ok_iff.mp read
      exact not_isIndex_of_tag chosen bound index
  | .object _ _ =>
      rintro ⟨tag, among, index⟩
      obtain ⟨rest, -, -, entries, rfl, -, position, found, body, slot, chosen, -⟩ :=
        tagged_object_eq_ok_iff.mp read
      obtain ⟨entry, inside, same⟩ := List.mem_map.mp among
      obtain ⟨named, held⟩ := Prod.mk.inj same
      obtain ⟨-, unique⟩ := Slot.mem_and_unique slot
      rw [← unique entry inside (Except.ok.inj named), held] at chosen
      exact not_isIndex_of_tag chosen bound index

/-- What is accepted as a tagged value is accepted as a value of any kind. -/
theorem sound_of_tagged {mode : Mode} (read : tagged typeName variants mode room tree = .ok value) :
    tree.Sound room := by
  match tree with
  | .scalar _ | .broken _ =>
      rw [tagged.eq_def] at read
      exact absurd read not_mismatch_eq_ok
  | .array [] stop =>
      rw [tagged, opened_eq_ok] at read
      obtain ⟨_, -, read⟩ := read
      obtain ⟨_, -, read⟩ := bind_eq_ok.mp read
      contradiction
  | .array (first :: others) _ =>
      obtain ⟨rest, rfl, closed, sound, body, chosen, -⟩ := tagged_array_eq_ok_iff.mp read
      refine Tree.sound_array_iff.mpr ⟨closed, rest, rfl, List.forall_mem_cons.mpr ⟨?_, sound⟩⟩
      exact sound_of_tag chosen rest
  | .object _ _ =>
      obtain ⟨rest, rfl, closed, entries, rfl, sound, position, tag, body, slot, chosen, -⟩ :=
        tagged_object_eq_ok_iff.mp read
      obtain ⟨-, unique⟩ := Slot.mem_and_unique slot
      refine Tree.sound_object_iff.mpr ⟨closed, rest, rfl, ?_⟩
      refine List.forall_mem_map.mpr fun entry among => ⟨⟨entry.1, rfl⟩, ?_⟩
      by_cases isTag : entry.1 = tagName
      · exact unique entry among isTag ▸ sound_of_tag chosen rest
      · exact sound entry among isTag

end Reader

end VolBacktest.Json
