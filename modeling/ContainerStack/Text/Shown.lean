import ContainerStack.Text.Visible

/-!
Texts as they are shown in diagnostics: between quotes, with quotes, backslashes
and the characters that have no form of their own escaped. A line feed, a
carriage return, a tab and a null have escapes of their own; other characters
are given by number.
-/

namespace ContainerStack.Text

def shownChar (c : Char) : List Char :=
  if c = '"' then ['\\', '"']
  else if c = '\\' then ['\\', '\\']
  else if c = '\n' then ['\\', 'n']
  else if c = '\r' then ['\\', 'r']
  else if c = '\t' then ['\\', 't']
  else if c = '\x00' then ['\\', '0']
  else if hasOwnForm c then [c]
  else ['\\', 'u', '{'] ++ Nat.toDigits 16 c.toNat ++ ['}']

def shown (s : String) : String :=
  "\"" ++ String.ofList (s.toList.flatMap shownChar) ++ "\""

end ContainerStack.Text
