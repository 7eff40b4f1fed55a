import ContainerStack.Json.Basic

/-!
Reading document values from text. The grammar is strict: no comments, no
trailing commas, no leading zeros, no raw controls in strings and no escapes of
lone surrogates. A member named again overwrites the value of the first, in its
place. The readers take fuel above twice the length of the text; each call
consumes a character or leaves after one more call, so it never runs out.
-/

namespace ContainerStack.Json

open Text

def isJsonBlank (c : Char) : Bool :=
  c == ' ' || c == '\t' || c == '\n' || c == '\r'

def skipBlanks (cs : List Char) : List Char :=
  cs.dropWhile isJsonBlank

/-- Four hexadecimal digits. -/
def hexUnit? : List Char → Option (Nat × List Char)
  | a :: b :: c :: d :: rest => do
    let a ← hexValue? a
    let b ← hexValue? b
    let c ← hexValue? c
    let d ← hexValue? d
    some (((a * 16 + b) * 16 + c) * 16 + d, rest)
  | _ => none

/-- The character of an escape, after its backslash. -/
def escaped? : List Char → Option (Char × List Char)
  | '"' :: rest => some ('"', rest)
  | '\\' :: rest => some ('\\', rest)
  | '/' :: rest => some ('/', rest)
  | 'b' :: rest => some ('\x08', rest)
  | 'f' :: rest => some ('\x0c', rest)
  | 'n' :: rest => some ('\n', rest)
  | 'r' :: rest => some ('\r', rest)
  | 't' :: rest => some ('\t', rest)
  | 'u' :: rest => do
    let (unit, rest) ← hexUnit? rest
    if 0xD800 ≤ unit ∧ unit < 0xDC00 then
      match rest with
      | '\\' :: 'u' :: rest =>
        let (low, rest) ← hexUnit? rest
        if 0xDC00 ≤ low ∧ low < 0xE000 then
          some (Char.ofNat (0x10000 + (unit - 0xD800) * 0x400 + (low - 0xDC00)), rest)
        else none
      | _ => none
    else if 0xDC00 ≤ unit ∧ unit < 0xE000 then none
    else some (Char.ofNat unit, rest)
  | _ => none

/-- The rest of a string after its opening quote; `done` holds the characters
read so far, last first. -/
def stringBody? : (fuel : Nat) → (done : List Char) → List Char → Option (String × List Char)
  | 0, _, _ => none
  | fuel + 1, done, cs =>
    match cs with
    | [] => none
    | '"' :: rest => some (String.ofList done.reverse, rest)
    | '\\' :: rest =>
      match escaped? rest with
      | some (c, rest) => stringBody? fuel (c :: done) rest
      | none => none
    | c :: rest => if c.toNat < 0x20 then none else stringBody? fuel (c :: done) rest

/-- A run of at least one digit. -/
def digitRun? (cs : List Char) : Option (List Char × List Char) :=
  match cs.takeWhile isAsciiDigit with
  | [] => none
  | ds => some (ds, cs.dropWhile isAsciiDigit)

def exponent? (cs : List Char) : Option (Option Int × List Char) :=
  match cs with
  | e :: rest =>
    if e = 'e' ∨ e = 'E' then
      let (negative, rest) := match rest with
        | '+' :: rest => (false, rest)
        | '-' :: rest => (true, rest)
        | rest => (false, rest)
      match digitRun? rest with
      | none => none
      | some (ds, rest) =>
        let n : Int := decimalValue ds
        some (some (if negative then -n else n), rest)
    else some (none, cs)
  | [] => some (none, cs)

def number? (cs : List Char) : Option (Number × List Char) := do
  let (negative, cs) := match cs with
    | '-' :: rest => (true, rest)
    | cs => (false, cs)
  let (whole, cs) ← digitRun? cs
  if whole.head? = some '0' ∧ whole.length ≠ 1 then none
  else
    let (fraction, cs) ← match cs with
      | '.' :: rest => (digitRun? rest).map fun (ds, rest) => (some ds, rest)
      | cs => some (none, cs)
    let (exponent, cs) ← exponent? cs
    let n ← Number.ofLiteral? ⟨negative, whole, fraction, exponent⟩
    some (n, cs)

/-- Drops the given text from the front. -/
def keyword? (word : List Char) (cs : List Char) : Option (List Char) :=
  if word.isPrefixOf cs then some (cs.drop word.length) else none

mutual

def value? : (fuel : Nat) → List Char → Option (Json × List Char)
  | 0, _ => none
  | fuel + 1, cs =>
    match skipBlanks cs with
    | '"' :: rest => (stringBody? (rest.length + 1) [] rest).map fun (s, rest) => (.str s, rest)
    | '[' :: rest =>
      match skipBlanks rest with
      | ']' :: rest => some (.arr [], rest)
      | rest => (items? fuel rest).map fun (xs, rest) => (.arr xs, rest)
    | '{' :: rest =>
      match skipBlanks rest with
      | '}' :: rest => some (.obj [], rest)
      | rest => (members? fuel [] rest).map fun (ms, rest) => (.obj ms, rest)
    | 'n' :: rest => (keyword? ['u', 'l', 'l'] rest).map fun rest => (.null, rest)
    | 't' :: rest => (keyword? ['r', 'u', 'e'] rest).map fun rest => (.bool true, rest)
    | 'f' :: rest => (keyword? ['a', 'l', 's', 'e'] rest).map fun rest => (.bool false, rest)
    | cs => (number? cs).map fun (n, rest) => (.num n, rest)

/-- The items of a nonempty list, up to and with the closing bracket. -/
def items? : (fuel : Nat) → List Char → Option (List Json × List Char)
  | 0, _ => none
  | fuel + 1, cs => do
    let (x, rest) ← value? fuel cs
    match skipBlanks rest with
    | ',' :: rest =>
      let (xs, rest) ← items? fuel rest
      some (x :: xs, rest)
    | ']' :: rest => some ([x], rest)
    | _ => none

/-- The members of a nonempty object after those of `done`, up to and with the
closing brace. -/
def members? : (fuel : Nat) → (done : Entries Json) → List Char →
    Option (Entries Json × List Char)
  | 0, _, _ => none
  | fuel + 1, done, cs =>
    match skipBlanks cs with
    | '"' :: rest => do
      let (key, rest) ← stringBody? (rest.length + 1) [] rest
      match skipBlanks rest with
      | ':' :: rest =>
        let (x, rest) ← value? fuel rest
        match skipBlanks rest with
        | ',' :: rest => members? fuel (Entries.put key x done) rest
        | '}' :: rest => some (Entries.put key x done, rest)
        | _ => none
      | _ => none
    | _ => none

end

/-- Reads a text that holds one value and blanks. -/
def ofString? (s : String) : Option Json :=
  let cs := s.toList
  match value? (2 * cs.length + 2) cs with
  | some (x, rest) => if (skipBlanks rest).isEmpty then some x else none
  | none => none

end ContainerStack.Json
