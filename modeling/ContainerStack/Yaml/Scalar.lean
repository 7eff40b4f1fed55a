import ContainerStack.Json.Basic
import ContainerStack.Text.Digit

/-!
What plain scalars of YAML stand for. Null, the booleans, integers in four bases
and decimal numbers have plain spellings; every other plain scalar is a text.
Digits after a leading zero make a text and no number. Integers may have up to
128 bits here, of which documents can hold 64.
-/

namespace ContainerStack.Yaml

open Text

inductive Scalar where
  | null
  | bool (value : Bool)
  | int (value : Int)
  | double (value : Double)
  | infinite
  | text
deriving DecidableEq

def isNullWord (cs : List Char) : Bool :=
  cs ∈ [[], ['n', 'u', 'l', 'l'], ['N', 'u', 'l', 'l'], ['N', 'U', 'L', 'L'], ['~']]

def boolOfWord? (cs : List Char) : Option Bool :=
  if cs ∈ [['t', 'r', 'u', 'e'], ['T', 'r', 'u', 'e'], ['T', 'R', 'U', 'E']] then some true
  else if cs ∈ [['f', 'a', 'l', 's', 'e'], ['F', 'a', 'l', 's', 'e'], ['F', 'A', 'L', 'S', 'E']]
  then some false
  else none

/-- A leading sign and the rest. -/
def splitSign : List Char → Option Char × List Char
  | '+' :: rest => (some '+', rest)
  | '-' :: rest => (some '-', rest)
  | cs => (none, cs)

/-- A run of digits that is no number because it begins with a zero. -/
def isZeroLed (cs : List Char) : Bool :=
  match (splitSign cs).2 with
  | '0' :: d :: rest => (d :: rest).all isAsciiDigit
  | _ => false

/-- Reads a nonempty run of digits in a base up to sixteen. -/
def digitsInBase? (base : Nat) (cs : List Char) : Option Nat :=
  if cs.isEmpty then none
  else cs.foldlM (fun n c => do
    let d ← hexValue? c
    if d < base then some (n * base + d) else none) 0

def magnitude? (cs : List Char) : Option Nat :=
  match cs with
  | '0' :: 'x' :: rest => digitsInBase? 16 rest
  | '0' :: 'o' :: rest => digitsInBase? 8 rest
  | '0' :: 'b' :: rest => digitsInBase? 2 rest
  | cs => digitsInBase? 10 cs

def intOfWord? (cs : List Char) : Option Int :=
  if isZeroLed cs then none
  else
    let (sign, rest) := splitSign cs
    match magnitude? rest with
    | none => none
    | some n =>
      if sign = some '-' then if n ≤ Nat.pow 2 127 then some (-(n : Int)) else none
      else if n < Nat.pow 2 128 then some n else none

def isInfiniteWord (cs : List Char) : Bool :=
  cs ∈ [['.', 'n', 'a', 'n'], ['.', 'N', 'a', 'N'], ['.', 'N', 'A', 'N']] ||
    (splitSign cs).2 ∈ [['.', 'i', 'n', 'f'], ['.', 'I', 'n', 'f'], ['.', 'I', 'N', 'F']]

/-- The exponent of a number, from its mark on; zero if there is none. -/
def exponentOf? (cs : List Char) : Option Int :=
  match cs with
  | [] => some 0
  | e :: rest =>
    let (sign, ds) := splitSign rest
    if (e = 'e' ∨ e = 'E') ∧ ¬ds.isEmpty ∧ ds.all isAsciiDigit then
      let n : Int := decimalValue ds
      some (if sign = some '-' then -n else n)
    else none

/-- A decimal number that a double can hold. -/
def doubleOfWord? (cs : List Char) : Option Double :=
  let (sign, rest) := splitSign cs
  let whole := rest.takeWhile isAsciiDigit
  let rest := rest.dropWhile isAsciiDigit
  let (fraction, rest) := match rest with
    | '.' :: rest => (rest.takeWhile isAsciiDigit, rest.dropWhile isAsciiDigit)
    | rest => ([], rest)
  if whole.isEmpty && fraction.isEmpty then none
  else
    match exponentOf? rest with
    | none => none
    | some exponent =>
      Double.nearestDecimal? (sign == some '-') (decimalValue (whole ++ fraction))
        (exponent - fraction.length)

def Scalar.ofPlain (cs : List Char) : Scalar :=
  if isNullWord cs then .null
  else
    match boolOfWord? cs with
    | some b => .bool b
    | none =>
      match intOfWord? cs with
      | some n => .int n
      | none =>
        if isZeroLed cs then .text
        else if isInfiniteWord cs then .infinite
        else
          match doubleOfWord? cs with
          | some d => .double d
          | none => .text

/-- The document value of a plain scalar; there is none for longer integers. -/
def Scalar.toJson? (cs : List Char) : Option Json :=
  match Scalar.ofPlain cs with
  | .null => some .null
  | .bool b => some (.bool b)
  | .int n =>
    if -Int.pow 2 63 ≤ n ∧ n < Int.pow 2 64 then some (.num (.int n)) else none
  | .double d => some (.num (.double d))
  | .infinite => some .null
  | .text => some (.str (String.ofList cs))

end ContainerStack.Yaml
