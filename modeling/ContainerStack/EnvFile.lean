import ContainerStack.Composition.Basic
import ContainerStack.Error
import ContainerStack.Normal.Field

/-!
The content of env files. Every line that is neither blank nor a comment is an
assignment, read as an entry of a service's environment is. A variable assigned
again keeps its place and takes the later value. A line without a variable name
makes the whole file unusable and is reported by its number, from one on.
-/

namespace ContainerStack.EnvFile

open Text

def isComment (line : List Char) : Bool :=
  line.head? == some '#'

/-- Whether a trimmed line assigns a variable. -/
def isAssignment (line : List Char) : Bool :=
  !line.isEmpty && !isComment line

/-- Reads lines, the first of which has the given number, into the variables of
those before. -/
def readLines : (number : Nat) → (done : KeyValues) → List (List Char) →
    Except EnvFileProblem KeyValues
  | _, done, [] => .ok done
  | number, done, line :: rest =>
    let line := trimChars line
    if isAssignment line then
      let (key, value) := Normal.splitAssignment line
      if key = "" then .error (.namelessLine number)
      else readLines (number + 1) (done.insert key value) rest
    else readLines (number + 1) done rest

/-- The variables that a content assigns. -/
def assigned (content : String) : Except EnvFileProblem KeyValues :=
  readLines 1 .empty (lines content.toList)

/-- The variables of the file at a path. -/
def read (path : EnvPath) (content : String) : Outcome KeyValues :=
  match assigned content with
  | .ok vars => .ok vars
  | .error problem => .error (.envFile path problem)

end ContainerStack.EnvFile
