import ContainerStack.Composition.Basic

/-!
Compositions as document values. Members come in the order of the structures;
absent options and empty lists and tables are left out, except the services and
an empty list of env files. The `extra` members of an entity come last, as they
are.
-/

namespace ContainerStack

def KeyValues.toJson (t : KeyValues) : Json :=
  .obj (t.entries.map fun e => (e.1, .str e.2))

def textsToJson (texts : List String) : Json :=
  .arr (texts.map Json.str)

/-- A member for an option that is there. -/
def optionalMember (key : String) : Option Json → Entries Json
  | none => []
  | some x => [(key, x)]

def listMember (key : String) (texts : List String) : Entries Json :=
  if texts.isEmpty then [] else [(key, textsToJson texts)]

def tableMember (key : String) (t : KeyValues) : Entries Json :=
  if t.isEmpty then [] else [(key, t.toJson)]

def Attachments.toJson : Attachments → Json
  | .list names => textsToJson names
  | .table options => .obj options.entries

def Build.toJson (b : Build) : Json :=
  .obj ([("context", .str b.context)] ++
    optionalMember "dockerfile" (b.dockerfile.map .str) ++
    tableMember "args" b.args ++
    tableMember "labels" b.labels ++
    b.extra.entries)

def Service.toJson (s : Service) : Json :=
  .obj (optionalMember "image" (s.image.map .str) ++
    optionalMember "build" (s.build.map Build.toJson) ++
    tableMember "environment" s.environment ++
    optionalMember "env_file" (s.envFiles.map fun paths => textsToJson (paths.map EnvPath.text)) ++
    listMember "depends_on" s.dependsOn ++
    tableMember "labels" s.labels ++
    listMember "ports" s.ports ++
    listMember "volumes" s.volumes ++
    listMember "extra_hosts" s.extraHosts ++
    optionalMember "networks" (s.networks.map Attachments.toJson) ++
    s.extra.entries)

def Resource.toJson (r : Resource) : Json :=
  .obj (optionalMember "driver" (r.driver.map .str) ++
    tableMember "labels" r.labels ++
    optionalMember "external" r.external ++
    r.extra.entries)

def sectionToJson (toJson : α → Json) (t : Table α) : Json :=
  .obj (t.entries.map fun e => (e.1, toJson e.2))

def sectionMember (key : String) (t : Table Resource) : Entries Json :=
  if t.isEmpty then [] else [(key, sectionToJson Resource.toJson t)]

def Composition.toJson (c : Composition) : Json :=
  .obj ([("version", .str c.version), ("services", sectionToJson Service.toJson c.services)] ++
    sectionMember "networks" c.networks ++
    sectionMember "volumes" c.volumes)

end ContainerStack
