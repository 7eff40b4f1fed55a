import ContainerStack.EnvPath
import ContainerStack.Json.Printer
import ContainerStack.Table
import ContainerStack.Text.Shown

/-!
Reading typed data from document values. Members are read in the order of the
document and the first that does not fit is the error; only then are missing
members reported. An absent option may also be given as null. A record without
extra members may also be given as the list of the values of its fields.
-/

namespace ContainerStack

/-- Why a value does not load as the expected type. -/
inductive LoadError where
  | missing (member : String)
  | wrongType (found : Json) (expected : String)
  | wrongValue (found : Json) (expected : String)
  | wrongLength (found : Nat) (expected : String)
  | noVariant (type : String)
  | badPath (fault : EnvPath.Fault)
deriving DecidableEq

namespace LoadError

def describe : Json → String
  | .null => "null"
  | .bool b => "boolean `" ++ (Json.bool b).compact ++ "`"
  | .num (.int n) => "integer `" ++ Json.numberText (.int n) ++ "`"
  | .num (.double d) => "floating point `" ++ Json.numberText (.double d) ++ "`"
  | .str s => "string " ++ Text.shown s
  | .arr _ => "sequence"
  | .obj _ => "map"

def message : LoadError → String
  | .missing member => "missing field `" ++ member ++ "`"
  | .wrongType found expected => "invalid type: " ++ describe found ++ ", expected " ++ expected
  | .wrongValue found expected => "invalid value: " ++ describe found ++ ", expected " ++ expected
  | .wrongLength found expected =>
    "invalid length " ++ String.ofList (Nat.toDigits 10 found) ++ ", expected " ++ expected
  | .noVariant type => "data did not match any variant of untagged enum " ++ type
  | .badPath fault => fault.message

end LoadError

namespace Loading

abbrev Result (α : Type u) := Except LoadError α

def text : Json → Result String
  | .str s => .ok s
  | x => .error (.wrongType x "a string")

def members (expected : String) : Json → Result (Entries Json)
  | .obj ms => .ok ms
  | x => .error (.wrongType x expected)

def items : Json → Result (List Json)
  | .arr xs => .ok xs
  | x => .error (.wrongType x "a sequence")

def optional (load : Json → Result α) : Json → Result (Option α)
  | .null => .ok none
  | x => (load x).map some

def list (load : Json → Result α) (x : Json) : Result (List α) := do
  let xs ← items x
  xs.mapM load

def table (load : Json → Result α) (x : Json) : Result (Table α) := do
  let ms ← members "a map" x
  let loaded ← Entries.traverse (fun _ x => load x) ms
  .ok (Table.ofEntries loaded)

def texts (x : Json) : Result (List String) :=
  list text x

def keyValues (x : Json) : Result (Table String) :=
  table text x

def envPath (x : Json) : Result EnvPath := do
  let raw ← text x
  match EnvPath.parse raw with
  | .ok p => .ok p
  | .error fault => .error (.badPath fault)

/-- Reads the members one by one into a draft, first to last. -/
def fill (step : α → String → Json → Result α) (draft : α) (ms : Entries Json) : Result α :=
  ms.foldlM (fun draft m => step draft m.1 m.2) draft

/-- Checks that the members are there, in the given order. -/
def require (names : List String) (ms : Entries Json) : Result Unit :=
  match names.find? fun name => (Entries.get? name ms).isNone with
  | some name => .error (.missing name)
  | none => .ok ()

/-- The fields of a record in order, those that an object must have, and how many of
the first ones a list must have. -/
structure RecordForm where
  title : String
  fields : List String
  required : List String
  leading : Nat

def requireLength (form : RecordForm) (found : Nat) : Result Unit :=
  if found < form.leading then
    .error (.wrongLength found
      (form.title ++ " with " ++ String.ofList (Nat.toDigits 10 form.fields.length) ++ " elements"))
  else if form.fields.length < found then .error (.wrongLength found "fewer elements in array")
  else .ok ()

/-- Reads a record from its members, or from a list of the values of its fields that
may end early. -/
def record (form : RecordForm) (step : α → String → Json → Result α) (draft : α) :
    Json → Result α
  | .obj ms => do
    let loaded ← fill step draft ms
    require form.required ms
    .ok loaded
  | .arr values => do
    let loaded ← fill step draft (form.fields.zip values)
    requireLength form values.length
    .ok loaded
  | x => .error (.wrongType x form.title)

end Loading

end ContainerStack
