import VolBacktest.Json.Fields

/-!
# Variants

A plain variant is written as its name. A tagged value is a structure whose member `type` names the
variant; which structure that is is known only when the tag has been found, and the tag may stand
anywhere, so the other members are read through and kept first.
-/

namespace VolBacktest.Json

namespace Reader

/-- The value of the name in a list of named values. -/
def choose (variants : List (String × α)) (name : String) : Read α :=
  match variants.lookup name with
  | some value => .ok value
  | none => .error (.unknownVariant name (variants.map (·.1)))

/-- The error that an object without a key names no variant: an empty one is no value, and any other
does not begin as an object should. -/
def noName (stop : Stop) : Read α :=
  .error (.fault ((stop.fault .curly .reading).getD .expectedValue))

/-- The null that stands for the contents of a plain variant. -/
def unit : Tree → Read Unit
  | .scalar .null => .ok ()
  | tree => tree.mismatch "unit"

/-- A plain variant written as an object, read from the text: one key with null and nothing else. -/
def directMember (pick : String → Read α) (members : List (Literal × Tree)) (stop : Stop) :
    Read α :=
  match members with
  | [] => noName stop
  | (key, value) :: more => do
    let name ← liftFault key
    let variant ← pick name
    unit value
    match more, stop with
    | [], .closed => .ok variant
    | [], .endOfText => .error (.fault .endInObject)
    | _, _ => .error (.fault .expectedValue)

/-- The same in a part that has been kept, where an empty object may stand for the null. -/
def keptMember (pick : String → Read α) (members : List (Literal × Tree)) : Read α :=
  match members with
  | [(key, value)] => do
    let name ← liftFault key
    let variant ← pick name
    match value with
    | .object [] _ => .ok variant
    | value => do
      unit value
      .ok variant
  | _ => .error .notSingleKey

/-- A plain variant: its name, or an object with the name as its only key. Read from the text,
anything else is no value at all, whether or not it is complete. -/
def plainVariant (pick : String → Read α) : Reader α
  | _, _, .scalar (.string literal) => do pick (← liftFault literal)
  | .direct, budget, .object members stop => opened budget fun _ => directMember pick members stop
  | .direct, _, .broken (.word _ _) => .error (.fault .expectedValue)
  | .direct, _, .broken (.numeral _) => .error (.fault .expectedValue)
  | .direct, _, .broken cause => .error (.fault (cause.fault .reading))
  | .direct, _, _ => .error (.fault .expectedValue)
  | .kept, budget, .object members _ => opened budget fun _ => keptMember pick members
  | .kept, _, tree => tree.mismatch "string or map"

/-- One of the given values by its name. -/
def oneOf (name : α → String) (values : List α) : Reader α :=
  plainVariant (choose (values.map fun value => (name value, value)))

/-- The tag of a tagged value. In a kept part it may also be given by its index. -/
def tag (variants : List (String × α)) : Reader α
  | _, _, .scalar (.string literal) => do choose variants (← liftFault literal)
  | .kept, _, .scalar (.number n) => do
    match ← liftFault n.toNumber with
    | .integer (.ofNat index) =>
      match variants[index]? with
      | some (_, value) => .ok value
      | none => .error (.variantIndex index variants.length)
    | other => .error (.mismatch (.number other) "variant identifier")
  | _, _, tree => tree.mismatch "variant identifier"

end Reader

/-- The structure of one variant of a tagged value. -/
structure TaggedBody (α : Type) where
  typeName : String
  fields : Fields α

/-- Reads the fields of a variant from the kept part. -/
def TaggedBody.read (body : TaggedBody α) (budget : Nat) (content : Content) : Read α :=
  let ending :=
    match content with
    | .members _ => none
    | .items values => Fields.listProblem .kept body.fields.names.length values .closed
  body.fields.readFrom body.typeName .kept budget content ending

def tagName : String := "type"

/-- A tag and the members beside it, which are read through. -/
def Fields.tagged (variants : List (String × α)) : Fields α :=
  (fun tag _ => tag) <$> required tagName (.tag variants) <*> others [tagName]

/-- A tagged value: an object with a tag among its members, or a list that begins with the tag. -/
def Reader.tagged (typeName : String) (variants : List (String × TaggedBody α)) : Reader α
  | mode, budget, .object members stop => opened budget fun rest => do
    let (entries, ending) := Fields.objectContent members stop
    let body ← (Fields.tagged variants).readFrom typeName mode rest (.members entries) ending
    body.read rest (.members (entries.filter fun entry => entry.1 != tagName))
  | mode, budget, .array items stop => opened budget fun rest => do
    match items with
    | [] => do
      liftFault (stop.check .square .reading)
      .error (.missingField tagName)
    | first :: others => do
      let body ← Reader.tag variants mode rest first
      let _ ← liftFault (Tree.jsonItems rest others)
      liftFault (stop.check .square .reading)
      body.read rest (.items others)
  | _, _, tree => tree.mismatch ("internally tagged enum " ++ typeName)

end VolBacktest.Json
