import ContainerStack.Json.Basic
import ContainerStack.Text.Split

/-!
Document values as text. The compact form has no blanks. The indented form
puts every item and member on a line of its own, two columns deeper than its
container, and leaves empty containers closed on one line. A string escapes the
quote, the backslash and the controls below U+0020; all else is written as is.
-/

namespace ContainerStack.Json

/-- A nonnegative exponent of a double carries a plus sign. -/
def layout : Number.Layout :=
  ⟨"+"⟩

def numberText (n : Number) : String :=
  String.ofList (n.chars layout)

def hexDigit (n : Nat) : Char :=
  if n < 10 then Char.ofNat (n + '0'.toNat) else Char.ofNat (n - 10 + 'a'.toNat)

def escapeChar (c : Char) : List Char :=
  if c = '"' then ['\\', '"']
  else if c = '\\' then ['\\', '\\']
  else if c = '\x08' then ['\\', 'b']
  else if c = '\t' then ['\\', 't']
  else if c = '\n' then ['\\', 'n']
  else if c = '\x0c' then ['\\', 'f']
  else if c = '\r' then ['\\', 'r']
  else if c.toNat < 0x20 then
    ['\\', 'u', '0', '0', hexDigit (c.toNat / 16), hexDigit (c.toNat % 16)]
  else [c]

def quoted (s : String) : String :=
  "\"" ++ String.ofList (s.toList.flatMap escapeChar) ++ "\""

mutual

def compact : Json → String
  | .null => "null"
  | .bool b => if b then "true" else "false"
  | .num n => numberText n
  | .str s => quoted s
  | .arr items => "[" ++ Text.join "," (compactItems items) ++ "]"
  | .obj members => "\x7b" ++ Text.join "," (compactMembers members) ++ "\x7d"

def compactItems : List Json → List String
  | [] => []
  | x :: rest => x.compact :: compactItems rest

def compactMembers : List (String × Json) → List String
  | [] => []
  | (k, x) :: rest => (quoted k ++ ":" ++ x.compact) :: compactMembers rest

end

def newline (depth : Nat) : String :=
  "\n" ++ String.ofList (List.replicate (2 * depth) ' ')

mutual

/-- The indented form of a value that stands in a container of the given depth. -/
def indentedAt (depth : Nat) : Json → String
  | .arr [] => "[]"
  | .arr items =>
    "[" ++ newline (depth + 1) ++
      Text.join ("," ++ newline (depth + 1)) (indentedItems (depth + 1) items) ++
      newline depth ++ "]"
  | .obj [] => "\x7b\x7d"
  | .obj members =>
    "\x7b" ++ newline (depth + 1) ++
      Text.join ("," ++ newline (depth + 1)) (indentedMembers (depth + 1) members) ++
      newline depth ++ "\x7d"
  | .null => "null"
  | .bool b => if b then "true" else "false"
  | .num n => numberText n
  | .str s => quoted s

def indentedItems (depth : Nat) : List Json → List String
  | [] => []
  | x :: rest => indentedAt depth x :: indentedItems depth rest

def indentedMembers (depth : Nat) : List (String × Json) → List String
  | [] => []
  | (k, x) :: rest =>
    (quoted k ++ ": " ++ indentedAt depth x) :: indentedMembers depth rest

end

def indented (x : Json) : String :=
  indentedAt 0 x

end ContainerStack.Json
