import ContainerStack.Expansion
import ContainerStack.Image
import ContainerStack.Loading.Composition
import ContainerStack.Pipeline

/-!
Sessions: a current composition with files and variables in memory, and the
steps that act on them. A step that fails leaves the session as it was. Steps
that replace the composition answer with the new one; the others only look.
-/

namespace ContainerStack

/-- Files by the text of their paths. -/
abbrev MemoryFiles := Entries FileAnswer

def MemoryFiles.project (files : MemoryFiles) : ProjectFiles := fun path =>
  (Entries.get? path.text files).getD (.notOpened "no such file")

structure Session where
  current : Option Composition := none
  files : MemoryFiles := []
  environment : Entries String := []

namespace Session

inductive Step where
  | setFile (path : String) (answer : FileAnswer)
  | removeFile (path : String)
  | setVariable (name value : String)
  | unsetVariable (name : String)
  | normalize (checking : Checking) (doc : Json)
  | load (value : Json)
  | expand
  | renormalize
  | images
  | pulls
  | startupOrder

inductive Answer where
  | done
  | replaced (c : Composition)
  | expanded (c : Composition) (opened : List EnvPath)
  | renormalized (c : Composition) (same : Bool)
  | images (images : List Image)
  | pulls (references : List (Option String))
  | startupOrder (names : List String)

inductive Refusal where
  | nothingLoaded
  | failed (error : StackError)
  | notLoaded (error : LoadError)

def lookup (s : Session) : Template.Lookup := fun name =>
  Entries.get? name s.environment

def require (outcome : Outcome α) : Except Refusal α :=
  match outcome with
  | .ok a => .ok a
  | .error e => .error (.failed e)

def requireCurrent (s : Session) : Except Refusal Composition :=
  match s.current with
  | some c => .ok c
  | none => .error .nothingLoaded

def replace (s : Session) (c : Composition) : Session :=
  { s with current := some c }

/-- The answer to a step and the session after it. -/
def step (s : Session) : Step → Except Refusal (Answer × Session)
  | .setFile path answer => .ok (.done, { s with files := Entries.put path answer s.files })
  | .removeFile path => .ok (.done, { s with files := Entries.erase path s.files })
  | .setVariable name value =>
    .ok (.done, { s with environment := Entries.put name value s.environment })
  | .unsetVariable name => .ok (.done, { s with environment := Entries.erase name s.environment })
  | .normalize checking doc => do
    let c ← require (ContainerStack.normalize checking doc)
    .ok (.replaced c, s.replace c)
  | .load value =>
    match Composition.load value with
    | .ok c => .ok (.replaced c, s.replace c)
    | .error e => .error (.notLoaded e)
  | .expand => do
    let c ← s.requireCurrent
    let expansion := c.expand s.files.project s.lookup
    let expanded ← require expansion.result
    .ok (.expanded expanded expansion.opened, s.replace expanded)
  | .renormalize => do
    let c ← s.requireCurrent
    let again ← require (ContainerStack.normalize .schema c.toJson)
    .ok (.renormalized again (again.same c), s.replace again)
  | .images => do
    let c ← s.requireCurrent
    let images ← require c.images
    .ok (.images images, s)
  | .pulls => do
    let c ← s.requireCurrent
    let images ← require c.images
    .ok (.pulls (images.map Image.pullReference?), s)
  | .startupOrder => do
    let c ← s.requireCurrent
    let names ← require c.startupOrder
    .ok (.startupOrder names, s)

/-- The answers to steps taken one after another. -/
def run (s : Session) : List Step → List (Except Refusal Answer) × Session
  | [] => ([], s)
  | step :: rest =>
    match s.step step with
    | .ok (answer, next) =>
      let (answers, last) := next.run rest
      (.ok answer :: answers, last)
    | .error refusal =>
      let (answers, last) := s.run rest
      (.error refusal :: answers, last)

end Session

end ContainerStack
