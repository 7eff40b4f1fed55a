/-!
The items of a template: plain text, `$$` for a dollar, `$NAME`, and a dollar
with a body in braces. A body is a name, alone or with a modifier and a word;
an invalid body and a lone dollar stand for themselves. Printing writes an item
in the form in which templates hold it.
-/

namespace ContainerStack.Template

inductive Modifier where
  | orWord
  | orWordIfEmpty
  | required
  | requiredNonempty
deriving DecidableEq

def Modifier.chars : Modifier → List Char
  | .orWord => ['-']
  | .orWordIfEmpty => [':', '-']
  | .required => ['?']
  | .requiredNonempty => [':', '?']

inductive Item where
  | plain (chars : List Char)
  | dollar
  | bare (name : List Char)
  | braced (name : List Char)
  | modified (name : List Char) (modifier : Modifier) (word : List Char)
  | invalid (body : List Char)
  | lone
deriving DecidableEq

def inBraces (body : List Char) : List Char :=
  ['$', '{'] ++ body ++ ['}']

/-- The written form of an item. -/
def Item.print : Item → List Char
  | .plain chars => chars
  | .dollar => ['$', '$']
  | .bare name => '$' :: name
  | .braced name => inBraces name
  | .modified name modifier word => inBraces (name ++ modifier.chars ++ word)
  | .invalid body => inBraces body
  | .lone => ['$']

end ContainerStack.Template
