import ContainerStack.Text.Blank

/-!
The versions of the document format. They form a chain from the legacy format,
whose documents are maps of services, to the canonical one; `next?` is one step
of the chain. A version is written by its tag and read from any of the
spellings of that tag, with blanks around it ignored.
-/

namespace ContainerStack

inductive FormatVersion where
  | v1
  | v20
  | v21
deriving DecidableEq

namespace FormatVersion

def canonical : FormatVersion :=
  .v21

def tag : FormatVersion → String
  | .v1 => "1"
  | .v20 => "2.0"
  | .v21 => "2.1"

def ofTag? (text : String) : Option FormatVersion :=
  let tag := Text.trim text
  if tag = "1" ∨ tag = "1.0" then some .v1
  else if tag = "2" ∨ tag = "2.0" then some .v20
  else if tag = "2.1" then some .v21
  else none

def next? : FormatVersion → Option FormatVersion
  | .v1 => some .v20
  | .v20 => some .v21
  | .v21 => none

def isCanonical (v : FormatVersion) : Bool :=
  v == canonical

end FormatVersion

end ContainerStack
