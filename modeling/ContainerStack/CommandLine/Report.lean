import ContainerStack.Image
import ContainerStack.Json.Printer
import ContainerStack.Startup
import ContainerStack.Yaml.Printer

/-!
What commands print. A composition is printed as indented JSON or as YAML, the
images as indented JSON, and the startup plan as a numbered list of services
with their sources and dependencies. A report carries the text for standard
output, the exit status and the line for standard error.
-/

namespace ContainerStack.CommandLine

/-- The outcome of a run. Only a failed command has an error line. -/
structure Report where
  status : Nat
  output : String := ""
  error : Option String := none
deriving DecidableEq

def Report.success (output : String) : Report :=
  { status := 0, output }

def Report.failure (message : String) : Report :=
  { status := 1, error := some ("Error: " ++ message) }

def Report.unusable : Report :=
  { status := 2 }

/-- The first line of the error. -/
def Report.errorLine? (report : Report) : Option String :=
  report.error.map fun text => String.ofList (text.toList.takeWhile (· != '\n'))

def indentedText (x : Json) : String :=
  x.indented ++ "\n"

/-- A document that ends in another break than a line feed gets one as well. -/
def yamlText (x : Json) : String :=
  let text := Yaml.print x
  if text.toList.getLast? = some '\n' then text else text ++ "\n"

/-- Where the service of a plan comes from. -/
def sourceLine (s : Service) : String :=
  match s.image, s.build with
  | some image, none => "image: " ++ image
  | some image, some build => "build: " ++ build.context ++ " (tag " ++ image ++ ")"
  | none, some build => "build: " ++ build.context
  | none, none => "image: <none>"

def natText (n : Nat) : String :=
  String.ofList (Nat.toDigits 10 n)

/-- The lines of one service, at its position from one on. -/
def serviceLines (position : Nat) (name : String) (s : Service) : List String :=
  ["  " ++ natText position ++ ". " ++ name, "      " ++ sourceLine s] ++
    if s.dependsOn.isEmpty then [] else ["      after: " ++ Text.join ", " s.dependsOn]

/-- The lines of services from a position on; undeclared names take a position
but have no lines. -/
def planLines (c : Composition) : (position : Nat) → List String → List String
  | _, [] => []
  | position, name :: rest =>
    (match c.services.get? name with
      | some s => serviceLines position name s
      | none => []) ++ planLines c (position + 1) rest

def planText (source : String) (c : Composition) (order : List String) : String :=
  Text.join "\n" (
    ["Startup plan for: " ++ source, String.ofList (List.replicate 35 '═'), ""] ++
      planLines c 1 order ++
      ["", "  " ++ natText order.length ++ " service(s) will be started."]) ++ "\n"

end ContainerStack.CommandLine
