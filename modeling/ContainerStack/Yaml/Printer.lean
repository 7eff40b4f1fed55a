import ContainerStack.Yaml.Scalar

/-!
Document values as YAML in block style. A mapping indents its members by two
columns, and a list stands at the column of the key that holds it. A text is
plain where YAML reads it back as that text; otherwise it is quoted, or written
as a literal block if it has line feeds. Lines are never folded.
-/

namespace ContainerStack.Yaml

open Text

/-- A nonnegative exponent of a double has no sign. -/
def layout : Number.Layout :=
  ⟨""⟩

def isBreak (c : Char) : Bool :=
  c == '\n' || c == '\r' || c == '\x85' || c == '\u2028' || c == '\u2029'

def isBlankOrBreak (c : Char) : Bool :=
  c == ' ' || c == '\t' || isBreak c

/-- Whether a character may stand in a scalar other than a double-quoted one. -/
def isPrintable (c : Char) : Bool :=
  let n := c.toNat
  n == 0xA || (0x20 ≤ n && n ≤ 0x7E) || (0xA0 ≤ n && n ≤ 0xFFFD && n != 0xFEFF) || 0x10000 ≤ n

/-- The characters that no plain scalar begins with. -/
def isLeadingIndicator (c : Char) : Bool :=
  c ∈ ['#', ',', '[', ']', '{', '}', '&', '*', '!', '|', '>', '\'', '"', '%', '@', '\x60']

def endsOrBlank (cs : List Char) : Bool :=
  match cs with
  | [] => true
  | c :: _ => isBlankOrBreak c

/-- A colon before a blank, or a number sign after one. -/
def hasInnerIndicator : (previous : Char) → List Char → Bool
  | _, [] => false
  | previous, c :: rest =>
    (c == ':' && endsOrBlank rest) || (c == '#' && isBlankOrBreak previous) ||
      hasInnerIndicator c rest

def startsMarker (cs : List Char) : Bool :=
  ['-', '-', '-'].isPrefixOf cs || ['.', '.', '.'].isPrefixOf cs

def hasIndicator : List Char → Bool
  | [] => false
  | c :: rest =>
    startsMarker (c :: rest) || isLeadingIndicator c ||
      ((c == '?' || c == ':' || c == '-') && endsOrBlank rest) || hasInnerIndicator c rest

/-- Whether two neighbours satisfy the tests, the first one the first. -/
def hasPair (first second : Char → Bool) : List Char → Bool
  | c :: d :: rest => (first c && second d) || hasPair first second (d :: rest)
  | _ => false

def isSpace (c : Char) : Bool :=
  c == ' '

def endsWith (test : Char → Bool) (cs : List Char) : Bool :=
  match cs.getLast? with
  | some c => test c
  | none => false

def startsWith (test : Char → Bool) (cs : List Char) : Bool :=
  match cs.head? with
  | some c => test c
  | none => false

/-- Characters or blanks that only double quotes keep. -/
def needsEscapes (cs : List Char) : Bool :=
  cs.any (fun c => !isPrintable c) || hasPair isSpace isBreak cs

def plainAllowed (cs : List Char) : Bool :=
  !needsEscapes cs && !cs.any isBreak && !hasIndicator cs && !startsWith isSpace cs &&
    !endsWith isSpace cs

inductive Style where
  | plain
  | singleQuoted
  | doubleQuoted
  | literal
deriving DecidableEq

/-- The style of a text. -/
def Style.ofText (cs : List Char) : Style :=
  if '\n' ∈ cs then
    if needsEscapes cs || endsWith isSpace cs then .doubleQuoted else .literal
  else if Scalar.ofPlain cs = .text ∧ !isZeroLed cs ∧ plainAllowed cs then .plain
  else if needsEscapes cs || hasPair isBreak isSpace cs then .doubleQuoted
  else .singleQuoted

def upperHex (n : Nat) : Char :=
  if n < 10 then Char.ofNat (n + '0'.toNat) else Char.ofNat (n - 10 + 'A'.toNat)

/-- The last `width` hexadecimal digits. -/
def hexDigits : (width : Nat) → Nat → List Char
  | 0, _ => []
  | width + 1, n => hexDigits width (n / 16) ++ [upperHex (n % 16)]

def escapeLetter? (c : Char) : Option Char :=
  match c.toNat with
  | 0x0 => some '0'
  | 0x7 => some 'a'
  | 0x8 => some 'b'
  | 0x9 => some 't'
  | 0xA => some 'n'
  | 0xB => some 'v'
  | 0xC => some 'f'
  | 0xD => some 'r'
  | 0x1B => some 'e'
  | 0x22 => some '"'
  | 0x5C => some '\\'
  | 0x85 => some 'N'
  | 0xA0 => some '_'
  | 0x2028 => some 'L'
  | 0x2029 => some 'P'
  | _ => none

def escapeChar (c : Char) : List Char :=
  if isPrintable c && !isBreak c && c != '"' && c != '\\' then [c]
  else
    match escapeLetter? c with
    | some letter => ['\\', letter]
    | none =>
      if c.toNat ≤ 0xFF then ['\\', 'x'] ++ hexDigits 2 c.toNat
      else if c.toNat ≤ 0xFFFF then ['\\', 'u'] ++ hexDigits 4 c.toNat
      else ['\\', 'U'] ++ hexDigits 8 c.toNat

def spaces (n : Nat) : List Char :=
  List.replicate n ' '

/-- The lines of a text, each of its nonempty ones indented. -/
def indentLines (indent : Nat) : (fresh : Bool) → List Char → List Char
  | _, [] => []
  | fresh, c :: rest =>
    if isBreak c then c :: indentLines indent true rest
    else if fresh then spaces indent ++ c :: indentLines indent false rest
    else c :: indentLines indent false rest

def doubleQuote (c : Char) : List Char :=
  if c = '\'' then ['\'', '\''] else [c]

/-- A text in single quotes. The closing one is indented if it begins a line. -/
def singleQuotes (indent : Nat) (cs : List Char) : List Char :=
  let closing := if endsWith isBreak cs then spaces indent else []
  '\'' :: indentLines indent false (cs.flatMap doubleQuote) ++ closing ++ ['\'']

/-- The header of a literal block: a leading blank needs the indent to be stated,
and the end of the text decides which final line feeds belong to it. -/
def literalHeader (cs : List Char) : List Char :=
  let indentMark := if startsWith isSpace cs || startsWith isBreak cs then ['2'] else []
  let chompMark := match cs.reverse with
    | [] => ['-']
    | [last] => if isBreak last then ['+'] else ['-']
    | last :: before :: _ =>
      if !isBreak last then ['-'] else if isBreak before then ['+'] else []
  '|' :: indentMark ++ chompMark

/-- A text as a scalar whose further lines stand at the given column, with the
line feed after it. -/
def textLine (indent : Nat) (s : String) : String :=
  let cs := s.toList
  match Style.ofText cs with
  | .plain => s ++ "\n"
  | .singleQuoted => String.ofList (singleQuotes indent cs) ++ "\n"
  | .doubleQuoted => "\"" ++ String.ofList (cs.flatMap escapeChar) ++ "\"\n"
  | .literal =>
    let body := '\n' :: indentLines indent true cs
    String.ofList (literalHeader cs ++ if endsWith isBreak cs then body else body ++ ['\n'])

/-- The text of a key that stands on one line. -/
def keyText (s : String) : String :=
  let cs := s.toList
  match Style.ofText cs with
  | .plain => s
  | .singleQuoted => "'" ++ String.ofList (cs.flatMap doubleQuote) ++ "'"
  | _ => "\"" ++ String.ofList (cs.flatMap escapeChar) ++ "\""

/-- A key on one line has at most 128 bytes. -/
def isSimpleKey (s : String) : Bool :=
  !s.toList.any isBreak && s.utf8ByteSize ≤ 128

def pad (n : Nat) : String :=
  String.ofList (spaces n)

def scalarLine (indent : Nat) : Json → Option String
  | .null => some "null\n"
  | .bool b => some (if b then "true\n" else "false\n")
  | .num n => some (String.ofList (n.chars layout) ++ "\n")
  | .str s => some (textLine indent s)
  | .arr [] => some "[]\n"
  | .obj [] => some "\x7b\x7d\n"
  | _ => none

mutual

/-- What follows the colon of a key in a mapping at the given column. -/
def afterKey (column : Nat) : Json → String
  | .arr (x :: rest) => "\n" ++ pad column ++ itemsText column (x :: rest)
  | .obj (m :: rest) => "\n" ++ pad (column + 2) ++ membersText (column + 2) (m :: rest)
  | x => " " ++ (scalarLine (column + 2) x).getD "\n"

/-- What follows a dash or a mark at the given column. -/
def afterMark (column : Nat) : Json → String
  | .arr (x :: rest) => " " ++ itemsText (column + 2) (x :: rest)
  | .obj (m :: rest) => " " ++ membersText (column + 2) (m :: rest)
  | x => " " ++ (scalarLine (column + 2) x).getD "\n"

/-- Items at a column, from the first dash on. -/
def itemsText (column : Nat) : List Json → String
  | [] => ""
  | [x] => "-" ++ afterMark column x
  | x :: rest => "-" ++ afterMark column x ++ pad column ++ itemsText column rest

/-- Members at a column, from the first key on. -/
def membersText (column : Nat) : List (String × Json) → String
  | [] => ""
  | (key, x) :: rest =>
    (if isSimpleKey key then keyText key ++ ":" ++ afterKey column x
      else "? " ++ textLine (column + 2) key ++ pad column ++ ":" ++ afterMark column x) ++
      (if rest.isEmpty then "" else pad column) ++ membersText column rest

end

/-- A whole document. -/
def print (x : Json) : String :=
  match x with
  | .arr (y :: rest) => itemsText 0 (y :: rest)
  | .obj (m :: rest) => membersText 0 (m :: rest)
  | x => (scalarLine 2 x).getD "\n"

end ContainerStack.Yaml
