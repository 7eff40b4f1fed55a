import ContainerStack.Text.Digit
import ContainerStack.Text.Pattern

/-!
Port texts. A port mapping is `[[ip:]host[-host]:]port[-port][/udp or /tcp]`,
where a host port may be left empty; an exposed port is
`port[-port][/protocol]`. Ports are runs of decimal digits of any script, and
their values are not bounded.
-/

namespace ContainerStack.Format

open Text

def digit : Pattern :=
  .one isDecimalDigit

def isAddressChar (c : Char) : Bool :=
  ('a' ≤ c && c ≤ 'f') || ('A' ≤ c && c ≤ 'F') || isDecimalDigit c || c == '.' || c == ':'

/-- The upper end of a range of ports. -/
def rangeEnd : Pattern :=
  .optional (.both (.char '-') (.several digit))

def hostAddress : Pattern :=
  .both (.several (.one isAddressChar)) (.char ':')

def hostPorts : Pattern :=
  .both (.optional hostAddress) (.both (.many digit) (.both rangeEnd (.char ':')))

def transport : Pattern :=
  .both (.char '/') (.either (.word ['u', 'd', 'p']) (.word ['t', 'c', 'p']))

def portMapping : Pattern :=
  .both (.optional hostPorts)
    (.both (.several digit) (.both rangeEnd (.optional transport)))

def protocol : Pattern :=
  .both (.char '/') (.several (.one isAsciiLetter))

def exposedPort : Pattern :=
  .both (.several digit) (.both rangeEnd (.optional protocol))

def isPortMapping (s : String) : Bool :=
  portMapping.accepts s.toList

def isExposedPort (s : String) : Bool :=
  exposedPort.accepts s.toList

end ContainerStack.Format
