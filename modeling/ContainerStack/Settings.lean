import ContainerStack.Loading.Basic
import ContainerStack.Pipeline

/-!
Settings of a run: the tool that signs generated documents, the directory that
env files are found in, how many of them may be read at a time, and whether the
structure of documents is checked.
-/

namespace ContainerStack

structure Settings where
  toolName : String
  toolVersion : Option String := none
  projectDir : String
  fetchLimit : Nat
  checking : Checking := .schema
deriving DecidableEq

namespace Settings

def standard : Settings where
  toolName := "composure"
  projectDir := "."
  fetchLimit := 8

/-- The tool with its version, as generated documents name it. -/
def banner (s : Settings) : String :=
  match s.toolVersion with
  | some version => s.toolName ++ " v" ++ version
  | none => s.toolName

def toJson (s : Settings) : Json :=
  .obj [
    ("tool_name", .str s.toolName),
    ("tool_version", match s.toolVersion with
      | some version => .str version
      | none => .null),
    ("project_dir", .str s.projectDir),
    ("max_concurrent_fetches", .num (.int s.fetchLimit)),
    ("validate_schema", .bool (s.checking == .schema))]

open Loading

def pathText : Json → Result String
  | .str s => .ok s
  | x => .error (.wrongType x "path string")

def count : Json → Result Nat
  | .num (.int n) =>
    if n < 0 then .error (.wrongValue (.num (.int n)) "usize") else .ok n.toNat
  | x => .error (.wrongType x "usize")

def checkingFlag : Json → Result Checking
  | .bool true => .ok .schema
  | .bool false => .ok .off
  | x => .error (.wrongType x "a boolean")

def withMember (s : Settings) (key : String) (x : Json) : Result Settings :=
  match key with
  | "tool_name" => (text x).map fun v => { s with toolName := v }
  | "tool_version" => (optional text x).map fun v => { s with toolVersion := v }
  | "project_dir" => (pathText x).map fun v => { s with projectDir := v }
  | "max_concurrent_fetches" => (count x).map fun v => { s with fetchLimit := v }
  | "validate_schema" => (checkingFlag x).map fun v => { s with checking := v }
  | _ => .ok s

def form : RecordForm where
  title := "struct ComposureConfig"
  fields := ["tool_name", "tool_version", "project_dir", "max_concurrent_fetches",
    "validate_schema"]
  required := ["tool_name", "project_dir", "max_concurrent_fetches", "validate_schema"]
  leading := 5

def load (x : Json) : Result Settings :=
  record form withMember standard x

end Settings

end ContainerStack
