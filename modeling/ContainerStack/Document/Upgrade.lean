import ContainerStack.Error
import ContainerStack.Version

/-!
From a raw document to one in the canonical format. The declared version is
resolved first; a document without one is in the legacy format. Tidying writes
the version in its canonical spelling and fills in null sections and entries of
networks and volumes. Upgrading follows the chain of versions: the legacy
document becomes the section of services, later ones only change their tag.
-/

namespace ContainerStack.Document

def expectMapping : Json → Outcome (Entries Json)
  | .obj ms => .ok ms
  | _ => reject .notMapping

def versionOfTag (tag : String) : Outcome FormatVersion :=
  match FormatVersion.ofTag? tag with
  | some v => .ok v
  | none => .error (.unsupportedVersion (Text.trim tag))

/-- The format that a raw document declares. -/
def resolveVersion (doc : Json) : Outcome FormatVersion := do
  let ms ← expectMapping doc
  match Entries.get? "version" ms with
  | none => .ok .v1
  | some (.str tag) => versionOfTag tag
  | some (.num n) => versionOfTag (Json.numberText n)
  | some other => .error (.unsupportedVersion other.compact)

def fillEntry : Json → Json
  | .null => .obj []
  | x => x

/-- Null entries, and a null section, become empty mappings. -/
def fillSection : Json → Json
  | .null => .obj []
  | .obj ms => .obj (ms.map fun m => (m.1, fillEntry m.2))
  | x => x

/-- Replaces the value of a member that is there. -/
def alter (key : String) (f : Json → Json) (ms : Entries Json) : Entries Json :=
  ms.map fun m => if m.1 = key then (m.1, f m.2) else m

def tidyMembers (v : FormatVersion) (ms : Entries Json) : Entries Json :=
  match v with
  | .v1 => Entries.erase "version" ms
  | .v20 | .v21 =>
    alter "volumes" fillSection
      (alter "networks" fillSection (Entries.put "version" (.str v.tag) ms))

/-- What must happen before the schema of the version is applied. -/
def tidy (v : FormatVersion) (doc : Json) : Outcome Json := do
  let ms ← expectMapping doc
  .ok (.obj (tidyMembers v ms))

def wrap (tag : String) (doc : Json) : Json :=
  .obj [("version", .str tag), ("services", doc)]

def retag (tag : String) (doc : Json) : Outcome Json := do
  let ms ← expectMapping doc
  .ok (.obj (Entries.put "version" (.str tag) ms))

/-- Brings a tidied document from its version to the canonical one. -/
def upgrade (v : FormatVersion) (doc : Json) : Outcome Json :=
  match v with
  | .v1 => retag FormatVersion.v21.tag (wrap FormatVersion.v20.tag doc)
  | .v20 => retag FormatVersion.v21.tag doc
  | .v21 => .ok doc

end ContainerStack.Document
