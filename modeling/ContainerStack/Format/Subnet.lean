import ContainerStack.Text.Digit
import ContainerStack.Text.Split

/-!
Subnets in CIDR notation: an address, a slash and the number of network bits.
An IPv4 address is four decimal bytes without leading zeros. An IPv6 address is
eight groups of one to four hexadecimal digits; one double colon may stand for
one group or more, and an IPv4 address may stand for the last two groups. The
bit count may carry a plus sign and leading zeros.
-/

namespace ContainerStack.Format

open Text

/-- A decimal number below 256, without leading zeros. -/
def isByteText (cs : List Char) : Bool :=
  !cs.isEmpty && cs.length ≤ 3 && cs.all isAsciiDigit &&
    (cs.length == 1 || cs.head? != some '0') && decimalValue cs < 256

def isIPv4 (cs : List Char) : Bool :=
  let parts := pieces (· == '.') cs
  parts.length == 4 && parts.all isByteText

def isGroup (cs : List Char) : Bool :=
  !cs.isEmpty && cs.length ≤ 4 && cs.all isHexDigit

/-- The number of groups in a run of groups separated by single colons. -/
def groupCount? (cs : List Char) : Option Nat :=
  if cs.isEmpty then some 0
  else
    let parts := pieces (· == ':') cs
    if parts.all isGroup then some parts.length else none

/-- As `groupCount?`, where an IPv4 address may end the run and counts twice. -/
def groupCountWithTail? (cs : List Char) : Option Nat :=
  if cs.isEmpty then some 0
  else
    let parts := pieces (· == ':') cs
    if parts.dropLast.all isGroup then
      match parts.getLast? with
      | some last =>
        if isGroup last then some parts.length
        else if isIPv4 last then some (parts.length + 1)
        else none
      | none => none
    else none

/-- The text before and after the first double colon. -/
def splitDoubleColon : List Char → Option (List Char × List Char)
  | ':' :: ':' :: rest => some ([], rest)
  | c :: rest => (splitDoubleColon rest).map fun (before, after) => (c :: before, after)
  | [] => none

def isIPv6 (cs : List Char) : Bool :=
  match splitDoubleColon cs with
  | none => groupCountWithTail? cs == some 8
  | some (before, after) =>
    match groupCount? before, groupCountWithTail? after with
    | some m, some n => m + n ≤ 7
    | _, _ => false

/-- A bit count below 256. -/
def bitCount? (cs : List Char) : Option Nat :=
  let ds := match cs with
    | '+' :: rest => rest
    | cs => cs
  if !ds.isEmpty && ds.all isAsciiDigit && decimalValue ds < 256
  then some (decimalValue ds) else none

def isSubnet (s : String) : Bool :=
  match splitFirst '/' s.toList with
  | none => false
  | some (address, bits) =>
    match bitCount? bits with
    | none => false
    | some n =>
      if isIPv4 address then n ≤ 32
      else isIPv6 address && n ≤ 128

end ContainerStack.Format
