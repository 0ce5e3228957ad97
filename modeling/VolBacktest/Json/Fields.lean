import VolBacktest.Json.Reader

/-!
# Structures

A structure is written as an object or, for most structures, as the list of its fields in their
order. `Fields α` says which fields make up an `α` and how each is read; it is built up
applicatively, one field after the other.

Every problem has a position in the text, and the earliest is reported: a bad value stands at its
member, a repeated field at the second member, and a missing field behind everything, where the
container closes. So the order in which fields are declared decides only between missing ones.
-/

namespace VolBacktest.Json

/-- Something wrong, and which element of the container shows it. -/
structure Problem where
  position : Nat
  error : ReadError

/-- What the opened container holds: its members, as far as their keys can be read, or its items. -/
inductive Content where
  | members (entries : List (String × Tree))
  | items (values : List Tree)

def Content.size : Content → Nat
  | members entries => entries.length
  | items values => values.length

/-- Where the value of a field stands. -/
inductive Slot where
  | absent
  | present (position : Nat) (value : Tree)
  /-- The key occurs once more, at `again`. -/
  | repeated (position : Nat) (value : Tree) (again : Nat)

namespace Slot

/-- Looks for a key among members of which the first stands at the given position. -/
def ofMembers (name : String) : (position : Nat) → List (String × Tree) → Slot
  | _, [] => absent
  | position, (key, value) :: rest =>
    if key = name then
      match rest.findIdx? (·.1 = name) with
      | none => present position value
      | some distance => repeated position value (position + 1 + distance)
    else ofMembers name (position + 1) rest

end Slot

/-- An opened structure. -/
structure Source where
  /-- The name of the structure in messages. -/
  typeName : String
  /-- The number of its fields. -/
  size : Nat
  content : Content

namespace Source

/-- Where the field with this index and name stands. -/
def slot (source : Source) (index : Nat) (name : String) : Slot :=
  match source.content with
  | .members entries => .ofMembers name 0 entries
  | .items values =>
    match values[index]? with
    | none => .absent
    | some value => .present index value

/-- The problem that a field is missing. -/
def missing (source : Source) (index : Nat) (name : String) : Problem where
  position := source.content.size + 1
  error :=
    match source.content with
    | .members _ => .missingField name
    | .items _ => .tooFewElements index source.typeName source.size

end Source

/-- The fields that make up an `α`. -/
structure Fields (α : Type) where
  names : List String
  /-- Reads the fields, of which the first has the given index. -/
  read : Mode → (budget : Nat) → Source → (index : Nat) → Except Problem α

namespace Fields

/-- Reads one field; `absent` is taken if the container does not have it. -/
def single (name : String) (reader : Reader α) (absent : Source → Nat → Except Problem α) :
    Fields α where
  names := [name]
  read mode budget source index :=
    let readAt (position : Nat) (value : Tree) : Except Problem α :=
      match reader mode budget value with
      | .ok value => .ok value
      | .error error => .error ⟨position, error⟩
    match source.slot index name with
    | .absent => absent source index
    | .present position value => readAt position value
    | .repeated position value again => do
      let _ ← readAt position value
      .error ⟨again, .duplicateField name⟩

/-- A field that has to be there. -/
def required (name : String) (reader : Reader α) : Fields α :=
  single name reader fun source index => .error (source.missing index name)

/-- A field that may be null, and that an object may leave out. -/
def optional (name : String) (reader : Reader α) : Fields (Option α) :=
  single name reader.nullable fun source index =>
    match source.content with
    | .members _ => .ok none
    | .items _ => .error (source.missing index name)

/-- A field that has a value of its own if it is left out. -/
def defaulted (name : String) (reader : Reader α) (value : α) : Fields α :=
  single name reader fun _ _ => .ok value

/-- All members under other names, read as free-form values. -/
def others (known : List String) : Fields (List (String × Json)) where
  names := []
  read _ budget source _ :=
    match source.content with
    | .members entries =>
      (entries.zipIdx.filter fun entry => !known.contains entry.1.1).mapM
        fun ((key, value), position) =>
          match value.json budget with
          | .ok value => .ok (key, value)
          | .error fault => .error ⟨position, .fault fault⟩
    | .items _ => .ok []

protected def pure (value : α) : Fields α where
  names := []
  read _ _ _ _ := .ok value

/-- Both kinds of fields; the earlier of two problems is reported. -/
protected def seq (f : Fields (α → β)) (x : Fields α) : Fields β where
  names := f.names ++ x.names
  read mode budget source index :=
    match f.read mode budget source index,
        x.read mode budget source (index + f.names.length) with
    | .ok f, .ok x => .ok (f x)
    | .error first, .ok _ => .error first
    | .ok _, .error second => .error second
    | .error first, .error second =>
      .error (if second.position < first.position then second else first)

instance : Applicative Fields where
  pure := Fields.pure
  seq f x := Fields.seq f (x ())

/-- A member that no field asks for is skipped. -/
def skipUnknown (names : List String) : (position : Nat) → List (String × Tree) → Option Problem
  | _, [] => none
  | position, (key, value) :: rest =>
    if names.contains key then skipUnknown names (position + 1) rest
    else
      match value.skip with
      | .ok () => skipUnknown names (position + 1) rest
      | .error fault => some ⟨position, .fault fault⟩

/-- Reads the fields from an opened container that may end with a problem. -/
def readFrom (fields : Fields α) (typeName : String) (mode : Mode) (budget : Nat)
    (content : Content) (ending : Option Problem) : Read α :=
  let skipped :=
    match content with
    | .members entries => skipUnknown fields.names 0 entries
    | .items _ => none
  let source : Source := ⟨typeName, fields.names.length, content⟩
  let faults := skipped.toList ++ ending.toList
  match fields.read mode budget source 0 with
  | .error problem =>
    .error (faults.foldl
      (fun first later => if later.position < first.position then later else first) problem).error
  | .ok value =>
    match faults with
    | [] => .ok value
    | first :: _ => .error first.error

/-- The members of an object up to the first key that cannot be read. -/
def readableMembers : List (Literal × Tree) → List (String × Tree) × Option Fault
  | [] => ([], none)
  | (.error fault, _) :: _ => ([], some fault)
  | (.ok key, value) :: rest =>
    let (entries, fault) := readableMembers rest
    ((key, value) :: entries, fault)

/-- The members of an object, and the problem it ends with. -/
def objectContent (members : List (Literal × Tree)) (stop : Stop) :
    List (String × Tree) × Option Problem :=
  let (entries, keyFault) := readableMembers members
  let fault := keyFault <|> stop.fault .curly .reading
  (entries, fault.map fun fault => ⟨entries.length, .fault fault⟩)

/-- The problem at the end of a structure written as a list. Once it has all its fields nothing but
the closing bracket may follow. -/
def listProblem (mode : Mode) (fields : Nat) (items : List Tree) (stop : Stop) : Option Problem :=
  if fields < items.length then
    match mode with
    | .direct => some ⟨fields, .fault .trailingText⟩
    | .kept => some ⟨fields, .tooManyElements items.length fields⟩
  else
    let fault :=
      if items.length = fields then
        match stop with
        | .closed => none
        | .endOfText => some .endInList
        | .commaClose => some .trailingComma
        | .noComma | .commaEnd | .badKey _ => some .trailingText
      else stop.fault .square .reading
    fault.map fun fault => ⟨items.length, .fault fault⟩

/-- A structure that is always written as an object. -/
def objectReader (fields : Fields α) (typeName : String) : Reader α
  | mode, budget, .object members stop => opened budget fun rest =>
    let (entries, ending) := objectContent members stop
    fields.readFrom typeName mode rest (.members entries) ending
  | _, _, tree => tree.mismatch ("struct " ++ typeName)

/-- A structure, written as an object or as a list. -/
def reader (fields : Fields α) (typeName : String) : Reader α
  | mode, budget, .array items stop => opened budget fun rest =>
    fields.readFrom typeName mode rest (.items items)
      (listProblem mode fields.names.length items stop)
  | mode, budget, tree => fields.objectReader typeName mode budget tree

end Fields

end VolBacktest.Json
