import ContainerStack.Composition.Basic
import ContainerStack.Normal.Check
import ContainerStack.Normal.Field

/-!
Single entities in normal form. A null entity is an empty one and a null field
an absent one, except that `external` is kept as given. The fields of an entity
are read and checked in a fixed order and the first fault is the result; members
that the entity does not name are carried over in their order.
-/

namespace ContainerStack.Normal

def entityMembers (kind : EntityKind) (name : String) : Json → Outcome (Entries Json)
  | .null => .ok []
  | .obj ms => .ok ms
  | x => reject (.entityForm kind name x)

/-- A field that is there and not null. -/
def field? (key : String) (ms : Entries Json) : Option Json :=
  match Entries.get? key ms with
  | some .null => none
  | x => x

/-- Reads a field that is there, or takes the value of an absent one. -/
def readField (key : String) (ms : Entries Json) (absent : α) (read : Json → Outcome α) :
    Outcome α :=
  match field? key ms with
  | none => .ok absent
  | some x => read x

def readOption (key : String) (ms : Entries Json) (read : Json → Outcome α) :
    Outcome (Option α) :=
  readField key ms none fun x => (read x).map some

/-- The members that are not named. -/
def extraMembers (named : List String) (ms : Entries Json) : Table Json :=
  Table.ofEntries (ms.filter fun m => m.1 ∉ named)

def buildFields : List String :=
  ["context", "dockerfile", "args", "labels"]

def serviceFields : List String :=
  ["image", "build", "environment", "env_file", "depends_on", "labels", "ports", "volumes",
    "extra_hosts", "networks"]

def resourceFields : List String :=
  ["driver", "labels", "external"]

def buildOfMembers (ms : Entries Json) : Outcome Build := do
  let context ← optionalText "build.context" (Entries.get? "context" ms)
  let dockerfile ← optionalText "build.dockerfile" (Entries.get? "dockerfile" ms)
  let args ← readField "args" ms .empty (assignments "build.args")
  let labels ← readField "labels" ms .empty (assignments "build.labels")
  .ok {
    context := context.getD "."
    dockerfile, args, labels
    extra := extraMembers buildFields ms }

/-- An entity as messages about its labels name it. -/
def owner (kind : EntityKind) (name : String) : String :=
  kind.noun ++ " '" ++ name ++ "'"

/-- A text is short for a build of that context. -/
def build (service : String) (raw : Json) : Outcome Build := do
  let b ← match raw with
    | .str context => .ok { context }
    | .obj ms => buildOfMembers ms
    | x => reject (.buildForm service x)
  checkLabelKeys ("build of " ++ owner .service service) b.labels.keys
  .ok b

def envPath (raw : String) : Outcome EnvPath :=
  match EnvPath.parse raw with
  | .ok p => .ok p
  | .error fault => reject (.envPath fault)

def envFiles (raw : Json) : Outcome (List EnvPath) := do
  let entries ← textOrTexts "env_file" raw
  let paths ← entries.mapM envPath
  .ok (EnvPath.distinct paths)

def dependencies (service : String) : Json → Outcome (List String)
  | .arr items => texts "depends_on" (.arr items)
  | _ => reject (.dependenciesForm service)

def attachments (service : String) : Json → Outcome Attachments
  | .arr items => (texts "networks" (.arr items)).map .list
  | .obj ms => .ok (.table (Table.ofEntries ms))
  | x => reject (.attachmentsForm service x)

def service (declared : Declarations) (name : String) (raw : Json) : Outcome Service := do
  let ms ← entityMembers .service name raw
  let image ← optionalText "image" (Entries.get? "image" ms)
  let build ← readOption "build" ms (build name)
  let environment ← readField "environment" ms .empty (assignments "environment")
  let envFiles ← readOption "env_file" ms envFiles
  let dependsOn ← readField "depends_on" ms [] (dependencies name)
  checkDependencies name declared.services dependsOn
  let labels ← readField "labels" ms .empty (assignments "labels")
  checkLabelKeys (owner .service name) labels.keys
  let ports ← readField "ports" ms [] ports
  let volumes ← readField "volumes" ms [] (texts "volumes")
  checkMounts declared.volumes volumes
  let extraHosts ← readField "extra_hosts" ms [] hosts
  let networks ← readOption "networks" ms (attachments name)
  if image.isNone && build.isNone then reject .noSource
  else .ok {
    image, build, environment, envFiles, dependsOn, labels, ports, volumes, extraHosts,
    networks
    extra := extraMembers serviceFields ms }

def resource (kind : EntityKind) (name : String) (raw : Json) : Outcome Resource := do
  let ms ← entityMembers kind name raw
  let driver ← optionalText "driver" (Entries.get? "driver" ms)
  let labels ← readField "labels" ms .empty (assignments "labels")
  checkLabelKeys (owner kind name) labels.keys
  .ok {
    driver, labels
    external := Entries.get? "external" ms
    extra := extraMembers resourceFields ms }

end ContainerStack.Normal
