import VolBacktest.Calendar.DateText
import VolBacktest.Json.Tree
import VolBacktest.Json.Writer
import VolBacktest.Text.Quoted

/-!
# Readers

A `Reader` takes a value from a tree and reports the first problem that a pass over the text from
left to right meets. It never looks behind a problem, so what stands there has no influence.

A reader is told how many more containers may be opened, which bounds the depth of what is read
but not of what is skipped, and in which manner it reads. Values are read directly from the text
or, inside a tagged value, from a part of it that has been read through and kept: then the whole
part is known to be sound, and some forms of a value are accepted that are not accepted directly,
or the reverse.
-/

namespace VolBacktest.Json

/-- What stands in the text instead of what is expected. -/
inductive Found where
  | null
  | bool (value : Bool)
  | number (value : Number)
  | string (value : String)
  | sequence
  | map
deriving DecidableEq

def Found.describe : Found → String
  | null => "null"
  | bool value => "boolean `" ++ (if value then "true" else "false") ++ "`"
  | number (.integer value) =>
    "integer `" ++ String.ofList (Number.integer value).chars ++ "`"
  | number (.float value) =>
    "floating point `" ++ String.ofList (Number.float value).chars ++ "`"
  | string value => "string " ++ Text.quoted value
  | sequence => "sequence"
  | map => "map"

inductive ReadError where
  | fault (fault : Fault)
  | mismatch (found : Found) (expected : String)
  | unknownVariant (name : String) (known : List String)
  /-- A variant given by an index that none has. -/
  | variantIndex (index variants : Nat)
  /-- A variant given by a map with no or several members. -/
  | notSingleKey
  | missingField (name : String)
  | duplicateField (name : String)
  /-- A structure written as a list that ends before a field it needs. -/
  | tooFewElements (given : Nat) (typeName : String) (fields : Nat)
  | tooManyElements (given fields : Nat)
  | date (error : DateError)
deriving DecidableEq

namespace ReadError

/-- `1 element`, `2 elements`. -/
def elements (n : Nat) : String := toString n ++ (if n = 1 then " element" else " elements")

/-- The alternatives for an unknown variant. -/
def alternatives : List String → String
  | [] => "there are no variants"
  | [only] => "expected `" ++ only ++ "`"
  | [first, second] => "expected `" ++ first ++ "` or `" ++ second ++ "`"
  | many => "expected one of " ++ String.intercalate ", " (many.map fun name => "`" ++ name ++ "`")

/-- What is wrong, without where. Behind it there may stand a place, such as ` at line 3 column 14`, in
the messages of a parser that keeps track of one. -/
def message : ReadError → String
  | fault f => f.message
  | mismatch found expected => "invalid type: " ++ found.describe ++ ", expected " ++ expected
  | unknownVariant name known => "unknown variant `" ++ name ++ "`, " ++ alternatives known
  | variantIndex index variants =>
    "invalid value: integer `" ++ toString index ++ "`, expected variant index 0 <= i < " ++
      toString variants
  | notSingleKey => "invalid value: map, expected map with a single key"
  | missingField name => "missing field `" ++ name ++ "`"
  | duplicateField name => "duplicate field `" ++ name ++ "`"
  | tooFewElements given typeName fields =>
    "invalid length " ++ toString given ++ ", expected struct " ++ typeName ++ " with " ++
      elements fields
  | tooManyElements given fields =>
    "invalid length " ++ toString given ++ ", expected " ++ elements fields ++ " in sequence"
  | date error => error.message

end ReadError

abbrev Read (α : Type) := Except ReadError α

/-- Where a value is read from. -/
inductive Mode where
  /-- Straight from the text. -/
  | direct
  /-- From a part that has been read through and kept. -/
  | kept
deriving DecidableEq

/-- Containers that may be open at once. -/
def depthLimit : Nat := 127

/-- Reads a value, given how many more containers may be opened. -/
abbrev Reader (α : Type) := Mode → (budget : Nat) → Tree → Read α

def liftFault : Except Fault α → Read α
  | .ok value => .ok value
  | .error fault => .error (.fault fault)

/-- Opens one more container. -/
def opened (budget : Nat) (inside : Nat → Read α) : Read α :=
  match budget with
  | 0 => .error (.fault .tooDeep)
  | rest + 1 => inside rest

namespace Scalar

def found : Scalar → Except Fault Found
  | null => .ok .null
  | bool value => .ok (.bool value)
  | number n => n.toNumber.map .number
  | string literal => literal.map .string

def json : Scalar → Except Fault Json
  | null => .ok .null
  | bool value => .ok (.bool value)
  | number n => n.toNumber.map .number
  | string literal => literal.map .string

end Scalar

/-- Nothing, or the fault of a container that does not close. -/
def Stop.check (stop : Stop) (bracket : Bracket) (care : Care) : Except Fault Unit :=
  match stop.fault bracket care with
  | none => .ok ()
  | some fault => .error fault

namespace Tree

mutual

/-- Reads any value whatever. -/
def json (budget : Nat) : Tree → Except Fault Json
  | scalar s => s.json
  | broken cause => .error (cause.fault .reading)
  | array items stop =>
    match budget with
    | 0 => .error .tooDeep
    | rest + 1 => do
      let items ← jsonItems rest items
      stop.check .square .reading
      .ok (.array items)
  | object members stop =>
    match budget with
    | 0 => .error .tooDeep
    | rest + 1 => do
      let members ← jsonMembers rest members
      stop.check .curly .reading
      .ok (.ofMembers members)

def jsonItems (budget : Nat) : List Tree → Except Fault (List Json)
  | [] => .ok []
  | item :: rest => do
    let item ← json budget item
    let rest ← jsonItems budget rest
    .ok (item :: rest)

def jsonMembers (budget : Nat) : List (Literal × Tree) → Except Fault (List (String × Json))
  | [] => .ok []
  | (key, value) :: rest => do
    let key ← key
    let value ← json budget value
    let rest ← jsonMembers budget rest
    .ok ((key, value) :: rest)

end

mutual

/-- Passes over a value: only its grammar matters. -/
def skip : Tree → Except Fault Unit
  | scalar _ => .ok ()
  | broken cause => .error (cause.fault .skipping)
  | array items stop => do
    skipItems items
    stop.check .square .skipping
  | object members stop => do
    skipMembers members
    stop.check .curly .skipping

def skipItems : List Tree → Except Fault Unit
  | [] => .ok ()
  | item :: rest => do
    skip item
    skipItems rest

def skipMembers : List (Literal × Tree) → Except Fault Unit
  | [] => .ok ()
  | (_, value) :: rest => do
    skip value
    skipMembers rest

end

/-- What stands there; of a container only that it begins. -/
def found : Tree → Except Fault Found
  | scalar s => s.found
  | array _ _ => .ok .sequence
  | object _ _ => .ok .map
  | broken cause => .error (cause.fault .reading)

/-- The error that something else is expected here. -/
def mismatch (expected : String) (tree : Tree) : Read α :=
  match tree.found with
  | .ok found => .error (.mismatch found expected)
  | .error fault => .error (.fault fault)

end Tree

namespace Reader

def string : Reader String
  | _, _, .scalar (.string literal) => liftFault literal
  | _, _, tree => tree.mismatch "a string"

def bool : Reader Bool
  | _, _, .scalar (.bool value) => .ok value
  | _, _, tree => tree.mismatch "a boolean"

/-- A number, integral or not. -/
def number : Reader Binary64
  | _, _, .scalar (.number n) => liftFault n.toBinary64
  | _, _, tree => tree.mismatch "f64"

def date : Reader Date
  | _, _, .scalar (.string literal) => do
    let text ← liftFault literal
    match Date.parse text with
    | .ok date => .ok date
    | .error error => .error (.date error)
  | _, _, tree => tree.mismatch "a formatted date string"

/-- A value or null. Whatever begins like null is meant as null. -/
def nullable (reader : Reader α) : Reader (Option α)
  | _, _, .scalar .null => .ok none
  | _, _, .broken (.word true ended) => .error (.fault ((Break.word true ended).fault .reading))
  | mode, budget, tree => (reader mode budget tree).map some

def map (f : α → β) (reader : Reader α) : Reader β :=
  fun mode budget tree => (reader mode budget tree).map f

def list (reader : Reader α) : Reader (List α)
  | mode, budget, .array items stop => opened budget fun rest => do
    let values ← items.mapM (reader mode rest)
    liftFault (stop.check .square .reading)
    .ok values
  | _, _, tree => tree.mismatch "a sequence"

/-- A map with values of one kind; the last value of a key stays. -/
def sortedMap (reader : Reader α) : Reader (SortedMap String α)
  | mode, budget, .object members stop => opened budget fun rest => do
    let entries ← members.mapM fun (key, value) => do
      let key ← liftFault key
      let value ← reader mode rest value
      .ok (key, value)
    liftFault (stop.check .curly .reading)
    .ok (.ofList entries)
  | _, _, tree => tree.mismatch "a map"

/-- Any value. -/
def any : Reader Json := fun _ budget tree => liftFault (tree.json budget)

end Reader

/-- Reads a text that holds one value and nothing else. -/
def Document.read (reader : Reader α) (document : Document) : Read α := do
  let value ← reader .direct depthLimit document.root
  if document.trailing then .error (.fault .trailingText) else .ok value

def read (reader : Reader α) (text : String) : Read α := (Document.ofText text).read reader

end VolBacktest.Json
