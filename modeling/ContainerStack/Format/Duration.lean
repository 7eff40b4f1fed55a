import ContainerStack.Format.Port

/-!
Durations. A duration is a single number, or a nonempty text of at most one
segment for each of the units h, m, s, ms, us and ns in that order, a segment
being a number followed by its unit. A number is a run of decimal digits with
an optional fraction.
-/

namespace ContainerStack.Format

open Text

def quantity : Pattern :=
  .both (.several digit) (.optional (.both (.char '.') (.several digit)))

def segment (unit : List Char) : Pattern :=
  .both quantity (.word unit)

/-- Each segment may be left out; the order is fixed. -/
def segments : List (List Char) → Pattern
  | [] => .nothing
  | unit :: rest => .both (.optional (segment unit)) (segments rest)

def units : List (List Char) :=
  [['h'], ['m'], ['s'], ['m', 's'], ['u', 's'], ['n', 's']]

def isDuration (s : String) : Bool :=
  !s.toList.isEmpty && ((segments units).accepts s.toList || quantity.accepts s.toList)

end ContainerStack.Format
