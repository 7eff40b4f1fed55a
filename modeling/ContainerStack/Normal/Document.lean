import ContainerStack.Document.Upgrade
import ContainerStack.Normal.Entity
import ContainerStack.Startup

/-!
Whole documents in normal form. The document must be in the canonical format
and have no other than its four members. Networks come before volumes and
volumes before services, each section in its order, and the first fault is the
result. Last, the dependencies must leave a startup order.
-/

namespace ContainerStack.Normal

def topLevelFields : List String :=
  ["version", "services", "networks", "volumes"]

/-- A section of entities; an absent or null one is empty. -/
def sectionMembers (name : String) (ms : Entries Json) : Outcome (Entries Json) :=
  match Entries.get? name ms with
  | none => .ok []
  | some .null => .ok []
  | some (.obj entries) => .ok entries
  | some x => reject (.sectionForm name x)

def entities (read : String → Json → Outcome α) (entries : Entries Json) : Outcome (Table α) :=
  (Entries.traverse read entries).map Table.ofEntries

def checkVersion (ms : Entries Json) : Outcome Unit :=
  if Entries.get? "version" ms = some (.str FormatVersion.canonical.tag) then .ok ()
  else .error (.inconsistent .notMigrated)

def checkKeys (ms : Entries Json) : Outcome Unit :=
  match (Entries.keys ms).find? fun key => key ∉ topLevelFields with
  | some key => reject (.unsupportedKey key)
  | none => .ok ()

/-- The composition of a document in the canonical format. -/
def document (doc : Json) : Outcome Composition := do
  let ms ← Document.expectMapping doc
  checkVersion ms
  checkKeys ms
  let services ← sectionMembers "services" ms
  let networks ← sectionMembers "networks" ms
  let volumes ← sectionMembers "volumes" ms
  let declared : Declarations := ⟨Entries.keys services, Entries.keys volumes⟩
  let networks ← entities (resource .network) networks
  let volumes ← entities (resource .volume) volumes
  let services ← entities (service declared) services
  let c : Composition := { version := FormatVersion.canonical.tag, services, networks, volumes }
  let _ ← c.startupOrder
  .ok c

end ContainerStack.Normal
