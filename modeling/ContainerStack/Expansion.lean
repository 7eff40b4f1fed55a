import ContainerStack.Composition.Basic
import ContainerStack.EnvFile
import ContainerStack.Template.Value

/-!
Expansion of compositions: env files are merged into the environments of their
services, then the references in environments, labels and build arguments are
replaced. Every distinct path is opened once, in the order of first mention, and
opening stops at the first file that cannot be used. Inline variables win over
those of files, and earlier files over later ones. An error leaves no result.
-/

namespace ContainerStack

/-- What became of opening a file. Reading can fail after opening succeeded. -/
inductive FileAnswer where
  | content (bytes : ByteArray)
  | notOpened (reason : String)
  | notRead (reason : String)

/-- The files of a project, by path. -/
abbrev ProjectFiles := EnvPath → FileAnswer

namespace Expansion

/-- The variables of one file. -/
def fetch (files : ProjectFiles) (path : EnvPath) : Outcome KeyValues :=
  match files path with
  | .notOpened reason => .error (.envFile path (.unreadable reason))
  | .notRead reason => .error (.envFile path (.unreadable reason))
  | .content bytes =>
    match String.fromUTF8? bytes with
    | none => .error (.envFile path .notUtf8)
    | some content => EnvFile.read path content

abbrev Cache := List (EnvPath × KeyValues)

/-- The paths that are opened, and the variables of all files or the first error. -/
def fetchAll (files : ProjectFiles) : List EnvPath → List EnvPath × Outcome Cache
  | [] => ([], .ok [])
  | path :: rest =>
    match fetch files path with
    | .error e => ([path], .error e)
    | .ok vars =>
      let (opened, fetched) := fetchAll files rest
      (path :: opened, fetched.map ((path, vars) :: ·))

/-- The paths that services list, each once. -/
def paths (c : Composition) : List EnvPath :=
  EnvPath.distinct (c.services.values.flatMap fun s => s.envFiles.getD [])

/-- Adds the variables of files, in order, to an environment. -/
def mergeFiles (cache : Cache) (service : String) :
    KeyValues → List EnvPath → Outcome KeyValues
  | environment, [] => .ok environment
  | environment, path :: rest =>
    match cache.lookup path with
    | none => .error (.inconsistent (.notFetched path service))
    | some vars => mergeFiles cache service (environment.fillFrom vars) rest

/-- A value without a dollar needs no reading. -/
def expandValue (lookup : Template.Lookup) (value : String) : Outcome String :=
  if '$' ∈ value.toList then Template.expand lookup value else .ok value

def expandTable (lookup : Template.Lookup) (t : KeyValues) : Outcome KeyValues :=
  t.traverse fun _ value => expandValue lookup value

def expandBuild (lookup : Template.Lookup) (b : Build) : Outcome Build := do
  let args ← expandTable lookup b.args
  let labels ← expandTable lookup b.labels
  .ok { b with args, labels }

def expandOptionalBuild (lookup : Template.Lookup) : Option Build → Outcome (Option Build)
  | none => .ok none
  | some b => (expandBuild lookup b).map some

def expandService (cache : Cache) (lookup : Template.Lookup) (name : String) (s : Service) :
    Outcome Service := do
  let merged ← mergeFiles cache name s.environment (s.envFiles.getD [])
  let environment ← expandTable lookup merged
  let labels ← expandTable lookup s.labels
  let build ← expandOptionalBuild lookup s.build
  .ok { s with environment, labels, build, envFiles := none }

def expandResource (lookup : Template.Lookup) (r : Resource) : Outcome Resource := do
  let labels ← expandTable lookup r.labels
  .ok { r with labels }

/-- The composition with the fetched files merged and all references replaced. -/
def expandWith (cache : Cache) (lookup : Template.Lookup) (c : Composition) :
    Outcome Composition := do
  let services ← c.services.traverse (expandService cache lookup)
  let networks ← c.networks.traverse fun _ r => expandResource lookup r
  let volumes ← c.volumes.traverse fun _ r => expandResource lookup r
  .ok { c with services, networks, volumes }

/-- The texts whose references are replaced, when the given files are merged. -/
def templates (cache : Cache) (c : Composition) : List String :=
  cache.flatMap (fun e => e.2.values) ++
    c.services.values.flatMap (fun s => s.environment.values ++ s.labels.values ++
      match s.build with
      | some b => b.args.values ++ b.labels.values
      | none => []) ++
    (c.networks.values ++ c.volumes.values).flatMap fun r => r.labels.values

/-- The variables that the expansion of a composition can ask for. -/
def mentioned (files : ProjectFiles) (c : Composition) : List String :=
  let cache := match (fetchAll files (paths c)).2 with
    | .ok cache => cache
    | .error _ => []
  (templates cache c).flatMap Template.names

end Expansion

/-- A finished expansion: the paths that were opened, in order, and the result. -/
structure Expansion where
  opened : List EnvPath
  result : Outcome Composition

/-- Expands a composition with the files of a project and a set of variables. -/
def Composition.expand (files : ProjectFiles) (lookup : Template.Lookup) (c : Composition) :
    Expansion :=
  let (opened, fetched) := Expansion.fetchAll files (Expansion.paths c)
  { opened, result := fetched.bind fun cache => Expansion.expandWith cache lookup c }

end ContainerStack
