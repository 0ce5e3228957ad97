import VolBacktest.Json.Token

/-!
# What a JSON text holds

A `Tree` is the value that a text holds, as far as the text holds one. Each container says how it
stopped, and where a value is missing or broken the tree says why; nothing follows such a place.
What is reported about a faulty text can thus be decided on the tree, and depends on how much of
it a reader comes to see before the fault.

The tree grows from left to right. `Growth` is what has been recognised so far: the containers that
are still open, the latest first, and what may come next. One token is one `step`.
-/

namespace VolBacktest.Json

/-- How a container ends. -/
inductive Stop where
  | closed
  | endOfText
  /-- Something other than a comma or the closing bracket follows an element. -/
  | noComma
  /-- The closing bracket follows a comma. -/
  | commaClose
  /-- The text ends after a comma. -/
  | commaEnd
  /-- A token other than a string stands where a key is due. -/
  | badKey (seen : Token)

namespace Stop

/-- The fault of a container that does not close as it should. -/
def fault : Stop → Bracket → Care → Option Fault
  | closed, _, _ => none
  | endOfText, .square, _ => some .endInList
  | endOfText, .curly, _ => some .endInObject
  | noComma, .square, _ => some .expectedListEnd
  | noComma, .curly, _ => some .expectedObjectEnd
  | commaClose, _, .reading => some .trailingComma
  | commaClose, .square, .skipping => some .expectedValue
  | commaClose, .curly, .skipping => some .keyNotString
  | commaEnd, _, .reading => some .endInValue
  | commaEnd, .square, .skipping => some .endInValue
  | commaEnd, .curly, .skipping => some .endInObject
  | badKey (.broken (.literal read skipped)), _, care =>
    some ((Break.literal read skipped).fault care)
  | badKey _, _, _ => some .keyNotString

@[simp] theorem fault_closed (bracket : Bracket) (care : Care) :
    closed.fault bracket care = none := by
  cases bracket <;> cases care <;> rfl

end Stop

inductive Tree where
  | scalar (value : Scalar)
  | array (items : List Tree) (stop : Stop)
  | object (members : List (Literal × Tree)) (stop : Stop)
  | broken (cause : Break)

instance : Inhabited Tree := ⟨.broken .endOfText⟩

/-- A container that is still open, its latest element first. -/
inductive Frame where
  | list (items : List Tree)
  /-- The value of `key` is being recognised. -/
  | object (members : List (Literal × Tree)) (key : Literal)

/-- The tree that a text holds, and whether something stands after it. -/
structure Document where
  root : Tree
  trailing : Bool

inductive Growth where
  | value (frames : List Frame)
  | listStart (frames : List Frame)
  | afterItem (items : List Tree) (frames : List Frame)
  | afterListComma (items : List Tree) (frames : List Frame)
  | objectStart (frames : List Frame)
  | afterKey (members : List (Literal × Tree)) (key : Literal) (frames : List Frame)
  | afterMember (members : List (Literal × Tree)) (frames : List Frame)
  | afterObjectComma (members : List (Literal × Tree)) (frames : List Frame)
  | finished (document : Document)

namespace Growth

/-- Hands a complete value to the innermost open container. -/
def deliver (tree : Tree) : List Frame → Growth
  | [] => finished ⟨tree, false⟩
  | .list items :: frames => afterItem (tree :: items) frames
  | .object members key :: frames => afterMember ((key, tree) :: members) frames

/-- The root if nothing follows `tree`: the open containers end where they are. -/
def enclose (tree : Tree) : List Frame → Tree
  | [] => tree
  | .list items :: frames => enclose (.array (tree :: items).reverse .endOfText) frames
  | .object members key :: frames =>
    enclose (.object ((key, tree) :: members).reverse .endOfText) frames

def halt (tree : Tree) (frames : List Frame) : Growth := finished ⟨enclose tree frames, false⟩

def haltList (items : List Tree) (stop : Stop) (frames : List Frame) : Growth :=
  halt (.array items.reverse stop) frames

def haltObject (members : List (Literal × Tree)) (stop : Stop) (frames : List Frame) : Growth :=
  halt (.object members.reverse stop) frames

/-- A token where a value is due. -/
def begin (frames : List Frame) : Token → Growth
  | .opening .square => listStart frames
  | .opening .curly => objectStart frames
  | .scalar s => deliver (.scalar s) frames
  | .broken cause => halt (.broken cause) frames
  | .closing _ | .comma | .colon => halt (.broken .stray) frames

/-- A token where a key is due. -/
def beginKey (members : List (Literal × Tree)) (frames : List Frame) : Token → Growth
  | .scalar (.string key) => afterKey members key frames
  | token => haltObject members (.badKey token) frames

def step : Growth → Token → Growth
  | value frames, token => begin frames token
  | listStart frames, .closing .square => deliver (.array [] .closed) frames
  | listStart frames, token => begin (.list [] :: frames) token
  | afterItem items frames, .comma => afterListComma items frames
  | afterItem items frames, .closing .square => deliver (.array items.reverse .closed) frames
  | afterItem items frames, _ => haltList items .noComma frames
  | afterListComma items frames, .closing .square => haltList items .commaClose frames
  | afterListComma items frames, token => begin (.list items :: frames) token
  | objectStart frames, .closing .curly => deliver (.object [] .closed) frames
  | objectStart frames, token => beginKey [] frames token
  | afterKey members key frames, .colon => value (.object members key :: frames)
  | afterKey members key frames, _ =>
    haltObject ((key, .broken (.noColon false)) :: members) .endOfText frames
  | afterMember members frames, .comma => afterObjectComma members frames
  | afterMember members frames, .closing .curly =>
    deliver (.object members.reverse .closed) frames
  | afterMember members frames, _ => haltObject members .noComma frames
  | afterObjectComma members frames, .closing .curly => haltObject members .commaClose frames
  | afterObjectComma members frames, token => beginKey members frames token
  | finished document, _ => finished { document with trailing := true }

/-- The document if the text ends here. -/
def finish : Growth → Document
  | value frames => ⟨enclose (.broken .endOfText) frames, false⟩
  | listStart frames => ⟨enclose (.array [] .endOfText) frames, false⟩
  | afterItem items frames => ⟨enclose (.array items.reverse .endOfText) frames, false⟩
  | afterListComma items frames => ⟨enclose (.array items.reverse .commaEnd) frames, false⟩
  | objectStart frames => ⟨enclose (.object [] .endOfText) frames, false⟩
  | afterKey members key frames =>
    ⟨enclose (.object ((key, .broken (.noColon true)) :: members).reverse .endOfText) frames,
      false⟩
  | afterMember members frames => ⟨enclose (.object members.reverse .endOfText) frames, false⟩
  | afterObjectComma members frames =>
    ⟨enclose (.object members.reverse .commaEnd) frames, false⟩
  | finished document => document

end Growth

namespace Document

def ofTokens (tokens : List Token) : Document := (tokens.foldl Growth.step (.value [])).finish

def ofText (text : String) : Document := ofTokens (Token.ofText text.toList)

end Document

end VolBacktest.Json
