import ContainerStack.Error
import ContainerStack.Table
import ContainerStack.Text.Digit
import ContainerStack.Text.Split

/-!
Checks across entities. Label keys are nonempty and hold letters, digits, points
and dashes of ASCII. A volume of a service is cut at its first colon into a
source, which names a declared volume, and a target. Dependencies are distinct
and name declared services. Every check reports its first failure in order.
-/

namespace ContainerStack.Normal

open Text

/-- The names that a document declares. -/
structure Declarations where
  services : List String
  volumes : List String

def isLabelChar (c : Char) : Bool :=
  isAsciiAlphanumeric c || c == '.' || c == '-'

def isLabelKey (key : String) : Bool :=
  !key.toList.isEmpty && key.toList.all isLabelChar

def checkLabelKeys (owner : String) (keys : List String) : Outcome Unit :=
  match keys.find? fun key => !isLabelKey key with
  | some key => reject (.labelName key owner)
  | none => .ok ()

/-- A host path has a directory component. -/
def isHostPath (source : List Char) : Bool :=
  source.any fun c => c == '/' || c == '\\'

def checkMount (volumes : List String) (entry : String) : Outcome Unit :=
  match splitFirst ':' entry.toList with
  | none => reject (.mountText entry)
  | some (source, target) =>
    if source.isEmpty || target.isEmpty then reject (.mountText entry)
    else if isHostPath source then reject .bindMount
    else if String.ofList source ∈ volumes then .ok ()
    else reject (.undefinedVolume (String.ofList source))

def checkMounts (volumes : List String) : List String → Outcome Unit
  | [] => .ok ()
  | entry :: rest =>
    match checkMount volumes entry with
    | .error e => .error e
    | .ok () => checkMounts volumes rest

/-- Checks dependencies against those of `seen` and the declared services. -/
def checkDependenciesAfter (service : String) (declared : List String) :
    (seen : List String) → List String → Outcome Unit
  | _, [] => .ok ()
  | seen, dependency :: rest =>
    if dependency ∈ seen then reject (.repeatedDependency service dependency)
    else if dependency ∉ declared then reject (.undefinedDependency service dependency)
    else checkDependenciesAfter service declared (dependency :: seen) rest

def checkDependencies (service : String) (declared dependencies : List String) :
    Outcome Unit :=
  checkDependenciesAfter service declared [] dependencies

end ContainerStack.Normal
