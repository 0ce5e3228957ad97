import VolBacktest.Proofs.Json.Acceptance
import VolBacktest.Proofs.Json.Juxtaposition

/-!
# Texts put into containers

Texts of values, each laid out in its own way, are put into a list or into an object. A `Gap` is a
container that lacks one of its values: what its other parts are as texts, or which trees these hold. A
text put into the gap of a text gives a text that holds the one tree in the gap of the other.
-/

namespace VolBacktest.Json

/-- The list of the items that the texts hold. -/
def listText (items : List String) : String := "[" ++ ",".intercalate items ++ "]"

/-- A member of an object, from the text of its key and that of its value. -/
def memberText (member : String × String) : String := member.1 ++ ":" ++ member.2

/-- The object of the members that the texts hold. -/
def objectText (members : List (String × String)) : String :=
  "\x7b" ++ ",".intercalate (members.map memberText) ++ "\x7d"

/-- The text is a string with this content, and nothing else. -/
def Spells (text name : String) : Prop := Token.ofText text.toList = [.scalar (.string (.ok name))]

/-- The texts of a key and a value, and what they hold. -/
def MemberHolds (member : String × String) (entry : String × Tree) : Prop :=
  Spells member.1 entry.1 ∧ Holds member.2 entry.2

/-! ### The trees of lists and objects -/

/-- Texts that each follow a comma. -/
def moreChars (texts : List String) : List Char := texts.flatMap fun text => ',' :: text.toList

theorem toList_intercalate_cons (text : String) (more : List String) :
    (",".intercalate (text :: more)).toList = text.toList ++ moreChars more := by
  induction more generalizing text with
  | nil => simp [moreChars]
  | cons next more ih =>
      rw [String.intercalate_cons_cons, String.toList_append, String.toList_append, ih]
      simp [moreChars]

/-- A numeral ends where more items or members follow, or else the closing bracket. -/
theorem ends_moreChars (texts : List String) {rest : List Char} (closes : Numeral.Ends rest) :
    Numeral.Ends (moreChars texts ++ rest) := by
  cases texts with
  | nil => exact closes
  | cons text texts => exact Growth.ends_cons (by simp)

namespace Growth

/-- The items that are still to come, behind those of an open list. -/
theorem run_moreItems {items : List String} {trees : List Tree}
    (holds : List.Forall₂ Holds items trees) (done : List Tree) (rest : List Char) :
    (afterItem done []).run (moreChars items ++ ']' :: rest) =
      (deliver (.array (done.reverse ++ trees) .closed) []).run rest := by
  induction holds generalizing done with
  | nil =>
      rw [moreChars, List.flatMap_nil, List.nil_append, run_mark rfl rfl, List.append_nil]
      rfl
  | @cons item tree items trees first _ ih =>
      have layout : moreChars (item :: items) ++ ']' :: rest =
          ',' :: (item.toList ++ (moreChars items ++ ']' :: rest)) := by simp [moreChars]
      rw [layout, run_mark rfl rfl]
      have closes : Numeral.Ends (']' :: rest) := ends_cons (by simp)
      have next := first.run (awaits_afterListComma done []) (ends_moreChars items closes)
      refine next.trans ((ih (tree :: done)).trans ?_)
      rw [List.reverse_cons, List.append_assoc]
      rfl

/-- A key and its colon are read, so a value is due. -/
theorem run_spelled {growth : Growth} {done : List (Literal × Tree)} {key name : String}
    (spells : Spells key name) (keyDue : ∀ literal, growth.step (.scalar (.string literal)) =
      afterKey done literal []) (rest : List Char) :
    growth.run (key.toList ++ ':' :: rest) = (value [.object done (.ok name)]).run rest := by
  have whole : ∀ token ∈ Token.ofText key.toList, token.IsWhole := by
    rw [spells]
    simp [Token.IsWhole]
  have ends : Numeral.Ends (':' :: rest) := by
    rintro first ⟨⟩
    decide
  rw [run, Token.ofText_behind whole ends, spells, List.singleton_append, List.foldl_cons, keyDue,
    ← run, run_mark rfl rfl]
  rfl

/-- The members that are still to come, behind those of an open object. -/
theorem run_moreMembers {members : List (String × String)} {entries : List (String × Tree)}
    (holds : List.Forall₂ MemberHolds members entries) (done : List (Literal × Tree))
    (rest : List Char) :
    (afterMember done []).run (moreChars (members.map memberText) ++ '\x7d' :: rest) =
      (deliver (.object (done.reverse ++ keyed entries) .closed) []).run rest := by
  induction holds generalizing done with
  | nil =>
      rw [moreChars, List.map_nil, List.flatMap_nil, List.nil_append, run_mark rfl rfl, keyed,
        List.map_nil, List.append_nil]
      rfl
  | @cons member entry members entries first _ ih =>
      have layout : moreChars ((member :: members).map memberText) ++ '\x7d' :: rest =
          ',' :: (member.1.toList ++ ':' :: (member.2.toList ++
            (moreChars (members.map memberText) ++ '\x7d' :: rest))) := by
        simp [moreChars, memberText]
      rw [layout, run_mark rfl rfl]
      refine (run_spelled first.1 (fun _ => rfl) _).trans ?_
      have closes : Numeral.Ends ('\x7d' :: rest) := ends_cons (by simp)
      have next := first.2.run (awaits_value [.object done (.ok entry.1)])
        (ends_moreChars (members.map memberText) closes)
      refine next.trans ((ih ((.ok entry.1, entry.2) :: done)).trans ?_)
      rw [List.reverse_cons, List.append_assoc]
      rfl

end Growth

/-- The list of some texts of values is the text of the list of these values. -/
theorem holds_listText {items : List String} {trees : List Tree}
    (holds : List.Forall₂ Holds items trees) : Holds (listText items) (.array trees .closed) where
  document := by
    cases holds with
    | nil => rfl
    | @cons item tree items trees first others =>
        have layout : (listText (item :: items)).toList =
            '[' :: (item.toList ++ (moreChars items ++ [']'])) := by
          rw [listText, String.toList_append, String.toList_append, toList_intercalate_cons]
          simp
        have grown : (Growth.value []).run (listText (item :: items)).toList =
            .finished ⟨.array (tree :: trees) .closed, false⟩ := by
          rw [layout, Growth.run_mark rfl rfl]
          have closes : Numeral.Ends [']'] := Growth.ends_cons (by simp)
          have begun := first.run (Growth.awaits_listStart []) (ends_moreChars items closes)
          exact begun.trans (Growth.run_moreItems others [tree] [])
        exact congrArg Growth.finish grown
  complete := Tree.skip_array_iff.mpr ⟨rfl, fun tree among => by
    obtain ⟨text, held⟩ := exists_forall₂_iff.mp ⟨items, holds.flip⟩ tree among
    exact held.complete⟩

/-- The object of some texts of keys and values is the text of the object of these members. -/
theorem holds_objectText {members : List (String × String)} {entries : List (String × Tree)}
    (holds : List.Forall₂ MemberHolds members entries) :
    Holds (objectText members) (.object (keyed entries) .closed) where
  document := by
    cases holds with
    | nil => rfl
    | @cons member entry members entries first others =>
        have layout : (objectText (member :: members)).toList =
            '\x7b' :: (member.1.toList ++ ':' :: (member.2.toList ++
              (moreChars (members.map memberText) ++ ['\x7d']))) := by
          rw [objectText, String.toList_append, String.toList_append, List.map_cons,
            toList_intercalate_cons]
          simp [memberText]
        have grown : (Growth.value []).run (objectText (member :: members)).toList =
            .finished ⟨.object (keyed (entry :: entries)) .closed, false⟩ := by
          rw [layout, Growth.run_mark rfl rfl]
          refine (Growth.run_spelled first.1 (fun _ => rfl) _).trans ?_
          have closes : Numeral.Ends ['\x7d'] := Growth.ends_cons (by simp)
          have begun := first.2.run (Growth.awaits_value [.object [] (.ok entry.1)])
            (ends_moreChars (members.map memberText) closes)
          exact begun.trans (Growth.run_moreMembers others [(.ok entry.1, entry.2)] [])
        exact congrArg Growth.finish grown
  complete := Tree.skip_object_iff.mpr ⟨rfl, fun member among => by
    obtain ⟨entry, inside, rfl⟩ := List.mem_map.mp among
    obtain ⟨text, held⟩ := exists_forall₂_iff.mp ⟨members, holds.flip⟩ entry inside
    exact held.2.complete⟩

theorem moreMemberChars_eq (members : List (String × Json)) :
    moreMemberChars members =
      moreChars (members.map fun member => memberText ((string member.1).text, member.2.text)) := by
  induction members with
  | nil => rfl
  | cons member rest ih =>
      rw [moreMemberChars, ih]
      simp [moreChars, memberText, text, chars]

/-- A written object consists of the texts of its members. -/
theorem text_object (members : List (String × Json)) : (object members).text =
    objectText (members.map fun member => ((string member.1).text, member.2.text)) := by
  rw [← String.toList_inj, objectText, String.toList_append, String.toList_append, text,
    String.toList_ofList, List.map_map, chars]
  cases members with
  | nil => rfl
  | cons member rest =>
      rw [List.map_cons, toList_intercalate_cons, memberChars, moreMemberChars_eq]
      simp [memberText, text, chars, Function.comp_def]

/-- The text of a written value holds the value. -/
theorem holds_text (json : Json) : Holds json.text (.ofJson json) where
  document := Document.ofText_text json
  complete := skip_ofJson json

/-- The text of a written string spells it. -/
theorem spells_text (name : String) : Spells (Json.string name).text name := by
  have token := Token.ofText_stringChars name []
  rw [List.append_nil] at token
  rw [Spells, Json.text, String.toList_ofList]
  exact token

/-! ### Containers with a gap -/

/-- A container without one of its values, and its other parts: as texts, or as the trees these hold. The
keys are texts in the one case and names in the other. -/
inductive Gap (τ : Type) where
  | member (before : List (String × τ)) (key : String) (after : List (String × τ))
  | item (before after : List τ)

namespace Gap

/-- The container with this text in the gap. -/
def text : Gap String → String → String
  | member before key after, value => objectText (before ++ (key, value) :: after)
  | item before after, value => listText (before ++ value :: after)

/-- The container with this tree in the gap. -/
def tree : Gap Tree → Tree → Tree
  | member before name after, value => .object (keyed (before ++ (name, value) :: after)) .closed
  | item before after, value => .array (before ++ value :: after) .closed

/-- The parts of the one gap are texts, and those of the other what the texts hold. -/
inductive Holds : Gap String → Gap Tree → Prop where
  | member {before after : List (String × String)} {key name : String}
      {entries others : List (String × Tree)} (first : List.Forall₂ MemberHolds before entries)
      (spells : Spells key name) (second : List.Forall₂ MemberHolds after others) :
      Holds (member before key after) (member entries name others)
  | item {before after : List String} {trees others : List Tree}
      (first : List.Forall₂ Json.Holds before trees) (second : List.Forall₂ Json.Holds after others) :
      Holds (item before after) (item trees others)

/-- What is put into the gap of the text stands in the gap of the tree. -/
theorem Holds.fill {gap : Gap String} {place : Gap Tree} (holds : gap.Holds place) {text : String}
    {tree : Tree} (inside : Json.Holds text tree) : Json.Holds (gap.text text) (place.tree tree) := by
  cases holds with
  | member first spells second =>
      exact holds_objectText (List.rel_append first (.cons ⟨spells, inside⟩ second))
  | item first second => exact holds_listText (List.rel_append first (.cons inside second))

end Gap

end VolBacktest.Json
