import ContainerStack.Error
import ContainerStack.Template.Reader

/-!
What templates stand for. References are replaced by the values of their
variables, an undefined one by nothing, unless a modifier gives a word or
requires a value. Words are inserted as written and never expanded again. The
first required variable without a value is the error.
-/

namespace ContainerStack.Template

abbrev Lookup := String → Option String

/-- Whether a modifier takes the value of the variable itself. -/
def Modifier.takes : Modifier → Option String → Bool
  | .orWord, value => value.isSome
  | .required, value => value.isSome
  | .orWordIfEmpty, value => value.isSome && value != some ""
  | .requiredNonempty, value => value.isSome && value != some ""

def valueChars (value : Option String) : List Char :=
  (value.getD "").toList

/-- What an item stands for. Only a required variable can fail. -/
def Item.value (lookup : Lookup) : Item → Outcome (List Char)
  | .plain chars => .ok chars
  | .dollar => .ok ['$']
  | .bare name => .ok (valueChars (lookup (String.ofList name)))
  | .braced name => .ok (valueChars (lookup (String.ofList name)))
  | .modified name modifier word =>
    let value := lookup (String.ofList name)
    if modifier.takes value then .ok (valueChars value)
    else
      match modifier with
      | .orWord | .orWordIfEmpty => .ok word
      | .required | .requiredNonempty =>
        .error (.missingVariable (String.ofList name) (String.ofList word))
  | .invalid body => .ok (inBraces body)
  | .lone => .ok ['$']

/-- The values of all items in order, or the first failure. -/
def render (lookup : Lookup) : List Item → Outcome (List Char)
  | [] => .ok []
  | item :: rest =>
    match item.value lookup with
    | .error e => .error e
    | .ok value =>
      match render lookup rest with
      | .error e => .error e
      | .ok values => .ok (value ++ values)

/-- The template with every reference replaced. -/
def expand (lookup : Lookup) (template : String) : Outcome String :=
  (render lookup (ofString template)).map String.ofList

/-- The variables that a template mentions, in order. -/
def names (template : String) : List String :=
  (ofString template).filterMap fun
    | .bare name => some (String.ofList name)
    | .braced name => some (String.ofList name)
    | .modified name _ _ => some (String.ofList name)
    | _ => none

end ContainerStack.Template
