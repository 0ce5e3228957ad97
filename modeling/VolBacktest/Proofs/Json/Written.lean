import VolBacktest.Json.Tree
import VolBacktest.Proofs.Json.Tokens

/-!
# The tree of a written value

A text that has been written holds one tree and nothing behind it: every container closes, and every
numeral and every literal denotes what was written. The tree grows along the value. Wherever a value
is due, the tokens of a written one deliver its tree to the innermost open container, and that is the
statement the induction over the value carries.
-/

namespace VolBacktest.Json

namespace Tree

mutual

/-- The tree that the text of a value holds. -/
def ofJson : Json → Tree
  | .null => scalar .null
  | .bool value => scalar (.bool value)
  | .number value => scalar (.number value.numeral)
  | .string text => scalar (.string (.ok text))
  | .array items => array (ofItems items) .closed
  | .object members => object (ofMembers members) .closed

def ofItems : List Json → List Tree
  | [] => []
  | item :: rest => ofJson item :: ofItems rest

def ofMembers : List (String × Json) → List (Literal × Tree)
  | [] => []
  | (key, value) :: rest => (.ok key, ofJson value) :: ofMembers rest

end

@[simp] theorem ofItems_eq_map (items : List Json) : ofItems items = items.map ofJson := by
  induction items with
  | nil => rfl
  | cons item rest ih => rw [ofItems, ih, List.map_cons]

@[simp] theorem ofMembers_eq_map (members : List (String × Json)) :
    ofMembers members = members.map fun (key, value) => (.ok key, ofJson value) := by
  induction members with
  | nil => rfl
  | cons member rest ih =>
    obtain ⟨key, value⟩ := member
    rw [ofMembers, ih, List.map_cons]

end Tree

namespace Growth

/-- Takes in the tokens of a text. -/
def run (growth : Growth) (text : List Char) : Growth := (Token.ofText text).foldl step growth

theorem run_cons {growth : Growth} {token : Token} {text rest : List Char}
    (begins : Token.ofText text = token :: Token.ofText rest) :
    growth.run text = (growth.step token).run rest := by
  rw [run, begins, List.foldl_cons, run]

/-- A token of one character. -/
theorem run_mark {growth : Growth} {c : Char} {token : Token} {rest : List Char}
    (visible : Token.isSpace c = false) (scanned : Token.scan c rest = (token, rest)) :
    growth.run (c :: rest) = (growth.step token).run rest :=
  run_cons (Token.ofText_cons visible scanned)

/-- A value is due. Then only a closing bracket is not the beginning of one. -/
def Awaits (growth : Growth) (frames : List Frame) : Prop :=
  ∀ token, (∀ bracket, token ≠ .closing bracket) → growth.step token = begin frames token

theorem awaits_value (frames : List Frame) : (value frames).Awaits frames := fun _ _ => rfl

theorem awaits_listStart (frames : List Frame) : (listStart frames).Awaits (.list [] :: frames) := by
  intro token opens
  cases token with
  | closing bracket => exact absurd rfl (opens bracket)
  | _ => rfl

theorem awaits_afterListComma (items : List Tree) (frames : List Frame) :
    (afterListComma items frames).Awaits (.list items :: frames) := by
  intro token opens
  cases token with
  | closing bracket => exact absurd rfl (opens bracket)
  | _ => rfl

/-- A value of one token. -/
theorem run_scalar {growth : Growth} {frames : List Frame} {value : Scalar} {text rest : List Char}
    (awaits : growth.Awaits frames)
    (begins : Token.ofText text = .scalar value :: Token.ofText rest) :
    growth.run text = (deliver (.scalar value) frames).run rest := by
  rw [run_cons begins, awaits (.scalar value) nofun]
  rfl

/-- A key and its colon are read, so a value is due. -/
theorem run_key {growth : Growth} {done : List (Literal × Tree)} {frames : List Frame} {key : String}
    {rest : List Char} (keyDue : ∀ literal, growth.step (.scalar (.string literal)) =
      afterKey done literal frames) :
    growth.run (stringChars key ++ ':' :: rest) =
      (value (.object done (.ok key) :: frames)).run rest := by
  rw [run_cons (Token.ofText_stringChars key (':' :: rest)), keyDue, run_mark rfl rfl]
  rfl

/-- A numeral ends where another item or member, or the end of the container follows. -/
theorem ends_cons {c : Char} {rest : List Char} (mark : c ∈ [',', ']', '\x7d']) :
    Numeral.Ends (c :: rest) := by
  rintro first ⟨⟩
  simp only [List.mem_cons, List.not_mem_nil, or_false] at mark
  obtain rfl | rfl | rfl := mark <;> decide

theorem ends_moreItemChars (items : List Json) (rest : List Char) :
    Numeral.Ends (moreItemChars items ++ ']' :: rest) := by
  cases items with
  | nil => exact ends_cons (by simp)
  | cons item items => exact ends_cons (by simp)

theorem ends_moreMemberChars (members : List (String × Json)) (rest : List Char) :
    Numeral.Ends (moreMemberChars members ++ '\x7d' :: rest) := by
  cases members with
  | nil => exact ends_cons (by simp)
  | cons member members => exact ends_cons (by simp)

mutual

theorem run_chars (json : Json) {growth : Growth} {frames : List Frame} {rest : List Char}
    (awaits : growth.Awaits frames) (ends : Numeral.Ends rest) :
    growth.run (json.chars ++ rest) = (deliver (.ofJson json) frames).run rest := by
  match json with
  | .null => exact run_scalar awaits (Token.ofText_cons rfl rfl)
  | .bool true => exact run_scalar awaits (Token.ofText_cons rfl rfl)
  | .bool false => exact run_scalar awaits (Token.ofText_cons rfl rfl)
  | .number n => exact run_scalar awaits (Token.ofText_numberChars n ends)
  | .string text => exact run_scalar awaits (Token.ofText_stringChars text rest)
  | .array [] =>
    have layout : (array []).chars ++ rest = '[' :: ']' :: rest := rfl
    rw [layout, run_mark rfl rfl, awaits (.opening .square) nofun, run_mark rfl rfl]
    rfl
  | .array (item :: items) =>
    have layout : (array (item :: items)).chars ++ rest =
        '[' :: (item.chars ++ (moreItemChars items ++ ']' :: rest)) := by
      simp [chars, itemChars]
    rw [layout, run_mark rfl rfl, awaits (.opening .square) nofun]
    have first := run_chars item (awaits_listStart frames) (ends_moreItemChars items rest)
    exact first.trans (run_moreItemChars items)
  | .object [] =>
    have layout : (object []).chars ++ rest = '\x7b' :: '\x7d' :: rest := rfl
    rw [layout, run_mark rfl rfl, awaits (.opening .curly) nofun, run_mark rfl rfl]
    rfl
  | .object ((key, content) :: members) =>
    have layout : (object ((key, content) :: members)).chars ++ rest =
        '\x7b' :: (stringChars key ++ ':' :: (content.chars ++
          (moreMemberChars members ++ '\x7d' :: rest))) := by
      simp [chars, memberChars]
    rw [layout, run_mark rfl rfl, awaits (.opening .curly) nofun]
    refine (run_key fun _ => rfl).trans ?_
    have first := run_chars content (awaits_value (.object [] (.ok key) :: frames))
      (ends_moreMemberChars members rest)
    exact first.trans (run_moreMemberChars members)

/-- The items that are still to come, behind those of an open list. -/
theorem run_moreItemChars (items : List Json) {done : List Tree} {frames : List Frame}
    {rest : List Char} :
    (afterItem done frames).run (moreItemChars items ++ ']' :: rest) =
      (deliver (.array (done.reverse ++ Tree.ofItems items) .closed) frames).run rest := by
  match items with
  | [] =>
    rw [Tree.ofItems, List.append_nil, moreItemChars, List.nil_append, run_mark rfl rfl]
    rfl
  | item :: items =>
    have layout : moreItemChars (item :: items) ++ ']' :: rest =
        ',' :: (item.chars ++ (moreItemChars items ++ ']' :: rest)) := by
      simp [moreItemChars]
    rw [layout, run_mark rfl rfl]
    have next := run_chars item (awaits_afterListComma done frames)
      (ends_moreItemChars items rest)
    refine next.trans ((run_moreItemChars items).trans ?_)
    rw [Tree.ofItems, List.reverse_cons, List.append_assoc]
    rfl

theorem run_moreMemberChars (members : List (String × Json)) {done : List (Literal × Tree)}
    {frames : List Frame} {rest : List Char} :
    (afterMember done frames).run (moreMemberChars members ++ '\x7d' :: rest) =
      (deliver (.object (done.reverse ++ Tree.ofMembers members) .closed) frames).run rest := by
  match members with
  | [] =>
    rw [Tree.ofMembers, List.append_nil, moreMemberChars, List.nil_append, run_mark rfl rfl]
    rfl
  | (key, content) :: members =>
    have layout : moreMemberChars ((key, content) :: members) ++ '\x7d' :: rest =
        ',' :: (stringChars key ++ ':' :: (content.chars ++
          (moreMemberChars members ++ '\x7d' :: rest))) := by
      simp [moreMemberChars]
    rw [layout, run_mark rfl rfl]
    refine (run_key fun _ => rfl).trans ?_
    have next := run_chars content (awaits_value (.object done (.ok key) :: frames))
      (ends_moreMemberChars members rest)
    refine next.trans ((run_moreMemberChars members).trans ?_)
    rw [Tree.ofMembers, List.reverse_cons, List.append_assoc]
    rfl

end

end Growth

/-- The text of a value holds the value and nothing behind it. -/
theorem Document.ofText_text (json : Json) : ofText json.text = ⟨.ofJson json, false⟩ := by
  have ends : Numeral.Ends [] := nofun
  have grown := Growth.run_chars json (Growth.awaits_value []) ends
  rw [List.append_nil] at grown
  rw [ofText, Json.text, String.toList_ofList, ofTokens]
  exact congrArg Growth.finish grown

end VolBacktest.Json
