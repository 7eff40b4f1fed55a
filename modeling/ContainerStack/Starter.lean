import ContainerStack.Composition.Json
import ContainerStack.Settings
import ContainerStack.Yaml.Printer

/-!
A composition for projects that have none: one service that always restarts and
keeps its data on a declared volume. The service runs a given image and is
otherwise built from the project directory.
-/

namespace ContainerStack.Starter

def serviceName : String :=
  "main"

def dataVolume : String :=
  "app-data"

def dataMount : String :=
  "/data"

/-- The only service. A dockerfile counts only when there is no image. -/
def service (image dockerfile : Option String) : Service where
  image := image
  build := match image with
    | some _ => none
    | none => some { context := ".", dockerfile }
  volumes := [dataVolume ++ ":" ++ dataMount]
  extra := Table.empty.insert "restart" (.str "always")

def composition (image dockerfile : Option String) : Composition where
  version := FormatVersion.canonical.tag
  services := Table.empty.insert serviceName (service image dockerfile)
  volumes := Table.empty.insert dataVolume {}

/-- The composition as a document that names the tool. -/
def text (image dockerfile : Option String) (settings : Settings) : String :=
  "# Generated by " ++ settings.banner ++ "\n" ++
    Yaml.print (composition image dockerfile).toJson

end ContainerStack.Starter
