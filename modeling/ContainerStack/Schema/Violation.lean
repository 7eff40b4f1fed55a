import ContainerStack.Json.Printer

/-!
What a schema can object to. A violation names the place of a value in its
document, innermost step first, and what is wrong there. The place is written
as a JSON Pointer, with `/` for the document itself.
-/

namespace ContainerStack.Schema

/-- The kinds of values, in the order in which messages list them. -/
inductive Kind where
  | array
  | boolean
  | integer
  | null
  | number
  | object
  | string
deriving DecidableEq

def Kind.name : Kind → String
  | .array => "array"
  | .boolean => "boolean"
  | .integer => "integer"
  | .null => "null"
  | .number => "number"
  | .object => "object"
  | .string => "string"

/-- Every integer is a number as well. -/
def Kind.holds : Kind → Json → Bool
  | .array, .arr _ => true
  | .boolean, .bool _ => true
  | .integer, .num n => n.isInteger
  | .null, .null => true
  | .number, .num _ => true
  | .object, .obj _ => true
  | .string, .str _ => true
  | _, _ => false

inductive TextFormat where
  | ports
  | expose
  | duration
  | subnet
deriving DecidableEq

def TextFormat.name : TextFormat → String
  | .ports => "ports"
  | .expose => "expose"
  | .duration => "duration"
  | .subnet => "subnet_ip_address"

inductive Step where
  | member (key : String)
  | item (index : Nat)
deriving DecidableEq

abbrev Path := List Step

inductive Problem where
  | wrongKind (allowed : List Kind) (found : Json)
  | notListed (allowed : List String) (found : Json)
  | missing (member : String)
  | unexpected (member : String)
  | badFormat (expected : TextFormat) (found : Json)
  | repeatedItems (found : Json)
  | below (least : Int) (found : Json)
  | above (greatest : Int) (found : Json)
  | noChoice (found : Json)
  | severalChoices (found : Json)
deriving DecidableEq

structure Violation where
  path : Path
  problem : Problem
deriving DecidableEq

def pointerChar (c : Char) : List Char :=
  if c = '~' then ['~', '0'] else if c = '/' then ['~', '1'] else [c]

def Step.text : Step → String
  | .member key => String.ofList (key.toList.flatMap pointerChar)
  | .item index => String.ofList (Nat.toDigits 10 index)

def pointer : Path → String
  | [] => "/"
  | path => path.foldl (fun text step => "/" ++ step.text ++ text) ""

def Problem.message : Problem → String
  | .wrongKind [kind] found =>
    found.compact ++ " is not of type " ++ Json.quoted kind.name
  | .wrongKind kinds found =>
    found.compact ++ " is not of types " ++
      Text.join ", " (kinds.map fun kind => Json.quoted kind.name)
  | .notListed allowed found =>
    found.compact ++ " is not one of " ++ (Json.arr (allowed.map Json.str)).compact
  | .missing member => Json.quoted member ++ " is a required property"
  | .unexpected member =>
    "Additional properties are not allowed ('" ++ member ++ "' was unexpected)"
  | .badFormat expected found => found.compact ++ " is not a " ++ Json.quoted expected.name
  | .repeatedItems found => found.compact ++ " has non-unique elements"
  | .below least found =>
    found.compact ++ " is less than the minimum of " ++ String.ofList (Number.intChars least)
  | .above greatest found =>
    found.compact ++ " is greater than the maximum of " ++
      String.ofList (Number.intChars greatest)
  | .noChoice found =>
    found.compact ++ " is not valid under any of the schemas listed in the 'oneOf' keyword"
  | .severalChoices found =>
    found.compact ++
      " is valid under more than one of the schemas listed in the 'oneOf' keyword"

def Violation.message (v : Violation) : String :=
  "schema validation failed at " ++ pointer v.path ++ ": " ++ v.problem.message

end ContainerStack.Schema
