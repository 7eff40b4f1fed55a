/-!
Blank characters and the trimming of text. A blank is any character with the
Unicode property White_Space; the control characters U+001C to U+001F, the
zero-width space and the byte order mark are not blank. Trimming removes the
longest run of blanks at either end and nothing else.
-/

namespace ContainerStack.Text

def isBlank (c : Char) : Bool :=
  let n := c.toNat
  (0x9 ≤ n && n ≤ 0xD) || n == 0x20 || n == 0x85 || n == 0xA0 || n == 0x1680 ||
    (0x2000 ≤ n && n ≤ 0x200A) || n == 0x2028 || n == 0x2029 || n == 0x202F ||
    n == 0x205F || n == 0x3000

def trimStart (cs : List Char) : List Char :=
  cs.dropWhile isBlank

def trimEnd (cs : List Char) : List Char :=
  (cs.reverse.dropWhile isBlank).reverse

def trimChars (cs : List Char) : List Char :=
  trimEnd (trimStart cs)

/-- The text without its leading and trailing blanks. -/
def trim (s : String) : String :=
  String.ofList (trimChars s.toList)

/-- A text equal to its own trim. -/
def Trimmed (s : String) : Prop :=
  trim s = s

instance (s : String) : Decidable (Trimmed s) := by
  unfold Trimmed
  infer_instance

end ContainerStack.Text
