import ContainerStack.Error
import ContainerStack.Table
import ContainerStack.Text.Split

/-!
The encodings of single fields and the one form that each is brought to. Texts
under names may be given as a mapping of scalars or as a list of `key=value`
entries; hosts as a mapping or a list; ports as texts or numbers; a list of
texts, where a field allows it, as one text. Null stands for an empty field.
-/

namespace ContainerStack.Normal

open Text

/-- Key and value of an entry, cut at the first equals sign and trimmed. -/
def splitAssignment (entry : List Char) : String × String :=
  match splitFirst '=' entry with
  | some (key, value) => (String.ofList (trimChars key), String.ofList (trimChars value))
  | none => (String.ofList (trimChars entry), "")

/-- The text of a scalar; lists and objects have none. -/
def scalarText? : Json → Option String
  | .null => some ""
  | .str s => some s
  | .num n => some (Json.numberText n)
  | .bool b => some (if b then "true" else "false")
  | .arr _ => none
  | .obj _ => none

def assignmentsOfMembers (field : String) :
    Table String → Entries Json → Outcome (Table String)
  | done, [] => .ok done
  | done, (key, raw) :: rest =>
    match scalarText? raw with
    | none => reject (.scalarForm key field)
    | some text => assignmentsOfMembers field (done.insert key (trim text)) rest

/-- The text of a list entry, which must be a scalar other than null. -/
def entryText? : Json → Option String
  | .null => none
  | x => scalarText? x

def assignmentsOfItems (field : String) : Table String → List Json → Outcome (Table String)
  | done, [] => .ok done
  | done, item :: rest =>
    match entryText? item with
    | none => reject (.assignmentForm field item)
    | some entry =>
      let (key, value) := splitAssignment entry.toList
      if key = "" then reject (.missingKey entry field)
      else assignmentsOfItems field (done.insert key value) rest

/-- Texts under names. A name given again keeps its place and takes the later
value. -/
def assignments (field : String) : Json → Outcome (Table String)
  | .null => .ok .empty
  | .obj ms => assignmentsOfMembers field .empty ms
  | .arr items => assignmentsOfItems field .empty items
  | x => reject (.assignmentsForm field x)

def hostOfMember (m : String × Json) : Outcome String :=
  match scalarText? m.2 with
  | some address => .ok (m.1 ++ ":" ++ address)
  | none => reject (.addressForm m.1)

def hostOfItem : Json → Outcome String
  | .str s => .ok s
  | x => reject (.hostForm x)

/-- Hosts with their addresses, as `host:ip`. -/
def hosts : Json → Outcome (List String)
  | .null => .ok []
  | .obj ms => ms.mapM hostOfMember
  | .arr items => items.mapM hostOfItem
  | x => reject (.hostsForm x)

def listItems (field : String) : Json → Outcome (List Json)
  | .null => .ok []
  | .arr items => .ok items
  | x => reject (.listForm field x)

def port : Json → Outcome String
  | .str s => .ok s
  | .num n => .ok (Json.numberText n)
  | x => reject (.portForm x)

def ports (x : Json) : Outcome (List String) := do
  let items ← listItems "ports" x
  items.mapM port

def textItem (field : String) : Json → Outcome String
  | .str s => .ok s
  | x => reject (.itemForm field x)

def texts (field : String) (x : Json) : Outcome (List String) := do
  let items ← listItems field x
  items.mapM (textItem field)

def textOrTexts (field : String) : Json → Outcome (List String)
  | .str s => .ok [s]
  | x => texts field x

def optionalText (field : String) : Option Json → Outcome (Option String)
  | none => .ok none
  | some .null => .ok none
  | some (.str s) => .ok (some s)
  | some x => reject (.textForm field x)

end ContainerStack.Normal
