import ContainerStack.Text.Digit
import ContainerStack.Text.Split

/-!
The arguments of the command line. Switches of the whole program may stand
before or after the name of the command, those of a command only after it. A
switch is given once in each of the two places; its value follows it or an
equals sign. Two program switches have environment variables as a fallback,
whose values must be usable even where the switch is given on one side only.
-/

namespace ContainerStack.CommandLine

open Text

inductive Switch where
  | projectDir
  | fetchLimit
  | noSchema
  | expandEnv
  | format
  | image
  | dockerfile
deriving DecidableEq

def Switch.name : Switch → String
  | .projectDir => "project-dir"
  | .fetchLimit => "max-concurrent-fetches"
  | .noSchema => "no-schema"
  | .expandEnv => "expand-env"
  | .format => "format"
  | .image => "image"
  | .dockerfile => "dockerfile"

def Switch.takesValue : Switch → Bool
  | .noSchema | .expandEnv => false
  | .projectDir | .fetchLimit | .format | .image | .dockerfile => true

def Switch.fallbackName? : Switch → Option String
  | .projectDir => some "COMPOSURE_PROJECT_DIR"
  | .fetchLimit => some "COMPOSURE_MAX_CONCURRENT_FETCHES"
  | _ => none

/-- A count of at most 64 bits; a plus sign may lead it. -/
def count? (text : String) : Option Nat :=
  let ds := match text.toList with
    | '+' :: rest => rest
    | cs => cs
  if !ds.isEmpty && ds.all isAsciiDigit && decimalValue ds < Nat.pow 2 64
  then some (decimalValue ds) else none

def Switch.accepts : Switch → String → Bool
  | .projectDir, value => value != ""
  | .fetchLimit, value => (count? value).isSome
  | .format, value => value == "json" || value == "yaml"
  | _, _ => true

inductive CommandName where
  | normalize
  | images
  | plan
  | init
deriving DecidableEq

def CommandName.ofString? (s : String) : Option CommandName :=
  if s = "normalize" then some .normalize
  else if s = "images" then some .images
  else if s = "plan" then some .plan
  else if s = "init" then some .init
  else none

def programSwitches : List Switch :=
  [.projectDir, .fetchLimit, .noSchema]

def CommandName.ownSwitches : CommandName → List Switch
  | .normalize => [.expandEnv, .format]
  | .images => []
  | .plan => []
  | .init => [.image, .dockerfile]

/-- All commands but `init` take a file. -/
def CommandName.takesFile : CommandName → Bool
  | .normalize | .images | .plan => true
  | .init => false

abbrev Given := List (Switch × String)

def Given.value? (given : Given) (switch : Switch) : Option String :=
  given.lookup switch

def Given.has (given : Given) (switch : Switch) : Bool :=
  (given.value? switch).isSome

/-- How arguments were left: at their end, at a word, at a request that ends the
run, or at one that cannot be used. -/
inductive Scan where
  | finished (given : Given)
  | word (given : Given) (text : String) (rest : List String)
  | escapedWord (given : Given) (rest : List String)
  | help
  | version
  | unusable

/-- A switch of the list and the value after its equals sign. -/
def switchOf? (allowed : List Switch) (text : List Char) : Option (Switch × Option String) :=
  let (name, value) := match splitFirst '=' text with
    | some (name, value) => (name, some (String.ofList value))
    | none => (text, none)
  (allowed.find? fun switch => switch.name.toList = name).map fun switch => (switch, value)

/-- Whether an argument can be the value of the switch before it. -/
def isValueText (arg : String) : Bool :=
  arg == "-" || arg.toList.head? != some '-'

/-- Reads switches up to the first word. -/
def scan (allowed : List Switch) (given : Given) : List String → Scan
  | [] => .finished given
  | arg :: rest =>
    match arg.toList with
    | ['-', '-'] => .escapedWord given rest
    | '-' :: 'h' :: _ => .help
    | '-' :: 'V' :: _ => .version
    | '-' :: '-' :: text =>
      if text = "help".toList then .help
      else if text = "version".toList then .version
      else
        match switchOf? allowed text with
        | none => .unusable
        | some (switch, value) =>
          if given.has switch then .unusable
          else
            match switch.takesValue, value, rest with
            | false, none, rest => scan allowed ((switch, "") :: given) rest
            | false, some _, _ => .unusable
            | true, some value, rest =>
              if switch.accepts value then scan allowed ((switch, value) :: given) rest
              else .unusable
            | true, none, value :: rest =>
              if isValueText value && switch.accepts value
              then scan allowed ((switch, value) :: given) rest else .unusable
            | true, none, [] => .unusable
    | '-' :: _ :: _ => .unusable
    | _ => .word given arg rest

/-- What follows the file of a command: only switches. -/
def scanAfterFile (allowed : List Switch) (given : Given) (file : String)
    (rest : List String) : Scan × String :=
  if file = "" then (.unusable, file)
  else
    match scan allowed given rest with
    | .word _ _ _ => (.unusable, file)
    | .escapedWord given [] => (.finished given, file)
    | .escapedWord _ (_ :: _) => (.unusable, file)
    | other => (other, file)

def defaultFile : String :=
  "docker-compose.yml"

/-- The switches and the file of a command. -/
def scanCommand (command : CommandName) (args : List String) : Scan × String :=
  let allowed := command.ownSwitches ++ programSwitches
  match scan allowed [] args with
  | .word given text rest =>
    if command.takesFile then scanAfterFile allowed given text rest else (.unusable, "")
  | .escapedWord given [] => (.finished given, defaultFile)
  | .escapedWord given [file] =>
    if command.takesFile ∧ file ≠ "" then (.finished given, file) else (.unusable, "")
  | .escapedWord _ (_ :: _ :: _) => (.unusable, "")
  | other => (other, defaultFile)

inductive OutputFormat where
  | json
  | yaml
deriving DecidableEq

inductive Command where
  | normalize (file : String) (expandEnv : Bool) (format : OutputFormat)
  | images (file : String)
  | plan (file : String)
  | init (image dockerfile : Option String)
deriving DecidableEq

/-- What the whole program was told. -/
structure Program where
  projectDir : Option String
  fetchLimit : Nat
  noSchema : Bool
deriving DecidableEq

inductive Request where
  | run (program : Program) (command : Command)
  | help
  | version
  | unusable
deriving DecidableEq

/-- Whether a fallback is usable or needed on neither side. -/
def fallbackUsable (environment : String → Option String) (before after : Given)
    (switch : Switch) : Bool :=
  match switch.fallbackName?.bind environment with
  | none => true
  | some value => switch.accepts value || (before.has switch && after.has switch)

/-- The value of a program switch: after the command, before it, or the fallback. -/
def programValue? (environment : String → Option String) (before after : Given)
    (switch : Switch) : Option String :=
  (after.value? switch).orElse fun _ =>
    (before.value? switch).orElse fun _ => switch.fallbackName?.bind environment

def defaultFetchLimit : Nat :=
  8

def commandOf (name : CommandName) (given : Given) (file : String) : Command :=
  match name with
  | .normalize =>
    .normalize file (given.has .expandEnv)
      (if given.value? .format = some "json" then .json else .yaml)
  | .images => .images file
  | .plan => .plan file
  | .init => .init (given.value? .image) (given.value? .dockerfile)

/-- An image and a dockerfile exclude each other. -/
def isConsistent (given : Given) : Bool :=
  !(given.has .image && given.has .dockerfile)

def requestOf (environment : String → Option String) (before : Given) (name : CommandName)
    (args : List String) : Request :=
  match scanCommand name args with
  | (.help, _) => .help
  | (.finished given, file) =>
    if isConsistent given && programSwitches.all (fallbackUsable environment before given) then
      let value? := programValue? environment before given
      .run {
        projectDir := value? .projectDir
        fetchLimit := ((value? .fetchLimit).bind count?).getD defaultFetchLimit
        noSchema := before.has .noSchema || given.has .noSchema } (commandOf name given file)
    else .unusable
  | _ => .unusable

/-- The request that arguments make, given the environment. -/
def parse (environment : String → Option String) (args : List String) : Request :=
  match scan programSwitches [] args with
  | .help => .help
  | .version => .version
  | .word _ "help" [] => .help
  | .word _ "help" [topic] =>
    if topic = "help" ∨ (CommandName.ofString? topic).isSome then .help else .unusable
  | .word _ "help" (_ :: _ :: _) => .unusable
  | .word before text rest =>
    match CommandName.ofString? text with
    | some name => requestOf environment before name rest
    | none => .unusable
  | _ => .unusable

end ContainerStack.CommandLine
