import ContainerStack.Format.Duration
import ContainerStack.Format.Port
import ContainerStack.Format.Subnet
import ContainerStack.Schema.Violation

/-!
Schemas and the first violation of a schema in a value. The parts of `all` are
tried in order, items and members in the order of the value, and the first
violation is the answer. A part that speaks of another kind of value passes.
Alternatives fail as a whole, at the place of the value itself. A value is
valid when it has no violation.
-/

namespace ContainerStack

/-- The member names that a schema of named members is about. -/
inductive Schema.KeyPattern where
  | entityName
  | anyLetter
  | singleLine
  | lowercase
deriving DecidableEq

namespace Schema.KeyPattern

open Text

def isEntityNameChar (c : Char) : Bool :=
  isAsciiAlphanumeric c || c == '.' || c == '_' || c == '-'

def isLineChar (c : Char) : Bool :=
  c != '\n'

/-- A name is letters, digits, points, underscores and dashes; `anyLetter` asks
for some character other than a line feed, `singleLine` for nothing else. -/
def holds (pattern : KeyPattern) (key : String) : Bool :=
  let cs := key.toList
  match pattern with
  | .entityName => !cs.isEmpty && cs.all isEntityNameChar
  | .anyLetter => cs.any isLineChar
  | .singleLine => !cs.isEmpty && cs.all isLineChar
  | .lowercase => !cs.isEmpty && cs.all fun c => 'a' ≤ c && c ≤ 'z'

end Schema.KeyPattern

/-- A `record` is an object with exactly the named members allowed; a `dictionary`
applies one schema to the members that the pattern holds of and, when closed,
refuses the others. -/
inductive Schema where
  | all (parts : List Schema)
  | kinds (allowed : List Schema.Kind)
  | oneOfTexts (allowed : List String)
  | required (members : List String)
  | items (each : Schema)
  | uniqueItems
  | format (expected : Schema.TextFormat)
  | atLeast (least : Int)
  | atMost (greatest : Int)
  | oneOf (choices : List Schema)
  | record (members : List (String × Schema))
  | dictionary (pattern : Schema.KeyPattern) (each : Schema) (closed : Bool)

namespace Schema

def TextFormat.holds : TextFormat → String → Bool
  | .ports => Format.isPortMapping
  | .expose => Format.isExposedPort
  | .duration => Format.isDuration
  | .subnet => Format.isSubnet

def allDifferentBy (equal : Json → Json → Bool) : List Json → Bool
  | [] => true
  | x :: rest => !rest.any (equal x) && allDifferentBy equal rest

/-- A list up to this length is short. -/
def shortLength : Nat :=
  15

/-- No item equals a later one as data. A list that is not short may hold the
negative zero beside another zero. -/
def allDifferent (xs : List Json) : Bool :=
  if xs.length ≤ shortLength then allDifferentBy Json.equalData xs
  else allDifferentBy Json.equalSignedData xs

/-- Finds the first violation among items, the first of which has the given index. -/
def firstInItems (check : Nat → Json → Option Violation) : Nat → List Json → Option Violation
  | _, [] => none
  | index, x :: rest =>
    match check index x with
    | some v => some v
    | none => firstInItems check (index + 1) rest

def firstInMembers (check : String → Json → Option Violation) :
    Entries Json → Option Violation
  | [] => none
  | (key, x) :: rest =>
    match check key x with
    | some v => some v
    | none => firstInMembers check rest

mutual

/-- The first violation of the schema in a value that stands at `path`. -/
def violation? : Schema → Path → Json → Option Violation
  | .all parts, path, x => firstViolation? parts path x
  | .kinds allowed, path, x =>
    if allowed.any (Kind.holds · x) then none else some ⟨path, .wrongKind allowed x⟩
  | .oneOfTexts allowed, path, x =>
    if allowed.any fun text => x == .str text then none
    else some ⟨path, .notListed allowed x⟩
  | .required members, path, .obj ms =>
    match members.find? fun member => (Entries.get? member ms).isNone with
    | some member => some ⟨path, .missing member⟩
    | none => none
  | .items each, path, .arr xs =>
    firstInItems (fun index x => each.violation? (.item index :: path) x) 0 xs
  | .uniqueItems, path, .arr xs =>
    if allDifferent xs then none else some ⟨path, .repeatedItems (.arr xs)⟩
  | .format expected, path, .str s =>
    if expected.holds s then none else some ⟨path, .badFormat expected (.str s)⟩
  | .atLeast least, path, .num n =>
    if n.compareValue (.int least) == .lt then some ⟨path, .below least (.num n)⟩ else none
  | .atMost greatest, path, .num n =>
    if n.compareValue (.int greatest) == .gt then some ⟨path, .above greatest (.num n)⟩
    else none
  | .oneOf choices, path, x =>
    match validChoices choices x with
    | 0 => some ⟨path, .noChoice x⟩
    | 1 => none
    | _ => some ⟨path, .severalChoices x⟩
  | .record members, path, .obj ms =>
    firstInMembers (fun key x => memberViolation? members path key x) ms
  | .dictionary pattern each closed, path, .obj ms =>
    firstInMembers (fun key x =>
      if pattern.holds key then each.violation? (.member key :: path) x
      else if closed then some ⟨path, .unexpected key⟩
      else none) ms
  | .required _, _, _ => none
  | .items _, _, _ => none
  | .uniqueItems, _, _ => none
  | .format _, _, _ => none
  | .atLeast _, _, _ => none
  | .atMost _, _, _ => none
  | .record _, _, _ => none
  | .dictionary _ _ _, _, _ => none

def firstViolation? : List Schema → Path → Json → Option Violation
  | [], _, _ => none
  | part :: rest, path, x =>
    match part.violation? path x with
    | some v => some v
    | none => firstViolation? rest path x

/-- The number of alternatives that the value is valid under. -/
def validChoices : List Schema → Json → Nat
  | [], _ => 0
  | choice :: rest, x =>
    (if (choice.violation? [] x).isNone then 1 else 0) + validChoices rest x

/-- The first violation in a member of the object at `path`. -/
def memberViolation? : List (String × Schema) → Path → String → Json → Option Violation
  | [], path, key, _ => some ⟨path, .unexpected key⟩
  | (name, each) :: rest, path, key, x =>
    if name = key then each.violation? (.member key :: path) x
    else memberViolation? rest path key x

end

def Valid (schema : Schema) (x : Json) : Prop :=
  schema.violation? [] x = none

instance (schema : Schema) (x : Json) : Decidable (schema.Valid x) := by
  unfold Valid
  infer_instance

end Schema

end ContainerStack
