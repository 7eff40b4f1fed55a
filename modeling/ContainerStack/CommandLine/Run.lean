import ContainerStack.CommandLine.Arguments
import ContainerStack.CommandLine.Report
import ContainerStack.FileTree
import ContainerStack.Starter
import ContainerStack.Yaml.Reader

/-!
Running a request against a host, which gives access to files and environment
variables. The host is a parameter, so the same run serves a file tree held in
memory and the real system. A run stops at its first failure and then prints
nothing on standard output.
-/

namespace ContainerStack.CommandLine

/-- Access to the surroundings of a run. `readText` reads a text file; `project`
finds a project directory and gives access to its env files. -/
structure Host (m : Type → Type) where
  readText : String → m (Option String)
  project : String → m (Except FileFault (EnvPath → m FileAnswer))
  lookup : String → m (Option String)

def toolVersion : String :=
  "0.1.0"

def isNamed (component : List Char) : Bool :=
  !component.isEmpty && component != ['.']

/-- The directory part of a file's path, the current one if there is none. -/
def directoryOf (file : String) : String :=
  let components := FileTree.names file.toList
  let inner := (components.filter isNamed).dropLast
  let path := Text.join "/" (inner.map String.ofList)
  if file.toList.head? = some '/' then "/" ++ path
  else if path = "" then "." else path

def settingsFor (program : Program) (file : Option String) : Settings :=
  { Settings.standard with
    toolVersion := some toolVersion
    projectDir := program.projectDir.getD ((file.map directoryOf).getD ".")
    fetchLimit := program.fetchLimit
    checking := if program.noSchema then .off else .schema }

section

variable {m : Type → Type} [Monad m]

/-- The document in a file, or what to say of the file. -/
def loadDocument (host : Host m) (file : String) : m (Except String Json) := do
  match ← host.readText file with
  | none => pure (.error ("cannot read " ++ file))
  | some text =>
    match Yaml.ofString? text with
    | none => pure (.error ("cannot parse " ++ file))
    | some doc => pure (.ok doc)

def withMessage (outcome : Outcome α) : Except String α :=
  match outcome with
  | .ok a => .ok a
  | .error e => .error e.message

def loadComposition (host : Host m) (file : String) (settings : Settings) :
    m (Except String Composition) := do
  match ← loadDocument host file with
  | .error text => pure (.error text)
  | .ok doc => pure (withMessage (normalize settings.checking doc))

/-- Asks for files one by one, up to the first that cannot be used. -/
def collectAnswers (ask : EnvPath → m FileAnswer) :
    List EnvPath → m (List (EnvPath × FileAnswer))
  | [] => pure []
  | path :: rest => do
    let answer ← ask path
    match Expansion.fetch (fun _ => answer) path with
    | .error _ => pure [(path, answer)]
    | .ok _ => do
      let more ← collectAnswers ask rest
      pure ((path, answer) :: more)

def collectVariables (host : Host m) : List String → m (List (String × String))
  | [] => pure []
  | name :: rest => do
    let value ← host.lookup name
    let more ← collectVariables host rest
    match value with
    | some value => pure ((name, value) :: more)
    | none => pure more

def answersFrom (answers : List (EnvPath × FileAnswer)) : ProjectFiles := fun path =>
  (answers.lookup path).getD (.notOpened "")

/-- Expands a composition with what the host has of files and variables. -/
def expandOn (host : Host m) (ask : EnvPath → m FileAnswer) (c : Composition) :
    m (Outcome Composition) := do
  let answers ← collectAnswers ask (Expansion.paths c)
  let files := answersFrom answers
  let values ← collectVariables host (Expansion.mentioned files c)
  pure (c.expand files fun name => values.lookup name).result

def loadExpanded (host : Host m) (file : String) (settings : Settings) :
    m (Except String Composition) := do
  match ← loadDocument host file with
  | .error text => pure (.error text)
  | .ok doc =>
    match ← host.project settings.projectDir with
    | .error fault => pure (.error fault.message)
    | .ok ask =>
      match normalize settings.checking doc with
      | .error e => pure (.error e.message)
      | .ok c => do
        let expanded ← expandOn host ask c
        pure (withMessage expanded)

def report (result : Except String String) : Report :=
  match result with
  | .ok output => .success output
  | .error text => .failure text

def formatText (format : OutputFormat) (x : Json) : String :=
  match format with
  | .json => indentedText x
  | .yaml => yamlText x

def imagesText (c : Composition) : Except String String :=
  withMessage (c.images.map fun images => indentedText (imagesToJson images))

def planOf (file : String) (c : Composition) : Except String String :=
  withMessage (c.startupOrder.map fun order => planText file c order)

def runCommand (host : Host m) (program : Program) : Command → m Report
  | .normalize file expandEnv format => do
    let settings := settingsFor program (some file)
    let c ← if expandEnv then loadExpanded host file settings
      else loadComposition host file settings
    pure (report (c.map fun c => formatText format c.toJson))
  | .images file => do
    let c ← loadComposition host file (settingsFor program (some file))
    pure (report (c.bind imagesText))
  | .plan file => do
    let c ← loadComposition host file (settingsFor program (some file))
    pure (report (c.bind fun c => planOf file c))
  | .init image dockerfile =>
    pure (.success (Starter.text image dockerfile (settingsFor program none)))

def helpText : String :=
  "Usage: composure [OPTIONS] <COMMAND>\n\nCommands:\n" ++
    "  normalize  Print the canonical form of a composition\n" ++
    "  images     Print the build-or-pull descriptor of every service\n" ++
    "  plan       Print the service startup order\n" ++
    "  init       Print a default composition for the current project\n"

def runRequest (host : Host m) : Request → m Report
  | .run program command => runCommand host program command
  | .help => pure (.success helpText)
  | .version => pure (.success ("composure " ++ toolVersion ++ "\n"))
  | .unusable => pure .unusable

/-- Runs the program with its arguments. -/
def run (host : Host m) (args : List String) : m Report := do
  let projectDir ← host.lookup "COMPOSURE_PROJECT_DIR"
  let fetchLimit ← host.lookup "COMPOSURE_MAX_CONCURRENT_FETCHES"
  let environment := fun name =>
    if name = "COMPOSURE_PROJECT_DIR" then projectDir
    else if name = "COMPOSURE_MAX_CONCURRENT_FETCHES" then fetchLimit
    else none
  runRequest host (parse environment args)

end

/-- A host of a file tree, seen from a place in it, and a set of variables. -/
def treeHost (tree : FileTree) (here : Place) (environment : Entries String) : Host Id where
  readText path := tree.readText? here path
  project path :=
    match tree.canonical here path.toList with
    | .error fault => .error fault
    | .ok root => .ok (tree.projectFiles root)
  lookup name := Entries.get? name environment

end ContainerStack.CommandLine
