import ContainerStack.Fault
import ContainerStack.Schema.Violation

/-!
Errors of the whole pipeline, by cause. Faults, unsupported versions and schema
violations are the fault of the document and count as validation errors. The
others come from env files and variables, or show that a composition was not
normalized by this library.
-/

namespace ContainerStack

/-- Why an env file could not be used. -/
inductive EnvFileProblem where
  | unreadable (reason : String)
  | notUtf8
  | namelessLine (number : Nat)
deriving DecidableEq

def EnvFileProblem.message : EnvFileProblem → String
  | .unreadable reason => reason
  | .notUtf8 => "content is not valid UTF-8"
  | .namelessLine number =>
    "line " ++ String.ofList (Nat.toDigits 10 number) ++ " has no variable name"

inductive Inconsistency where
  | notMigrated
  | notFetched (path : EnvPath) (service : String)
  | noSource (service : String)
deriving DecidableEq

def Inconsistency.message : Inconsistency → String
  | .notMigrated => "normalization expects version 2.1"
  | .notFetched path service =>
    "env file '" ++ path.text ++ "' of service '" ++ service ++ "' was not fetched"
  | .noSource service => "service '" ++ service ++ "' has neither an image nor a build"

inductive StackError where
  | fault (cause : Fault)
  | unsupportedVersion (tag : String)
  | schema (violation : Schema.Violation)
  | missingVariable (name word : String)
  | envFile (path : EnvPath) (problem : EnvFileProblem)
  | inconsistent (cause : Inconsistency)
deriving DecidableEq

namespace StackError

/-- Whether the document itself is to blame. -/
def isValidation : StackError → Bool
  | .fault _ | .unsupportedVersion _ | .schema _ => true
  | .missingVariable _ _ | .envFile _ _ | .inconsistent _ => false

/-- A reference that requires a variable may bring the words of its error. -/
def message : StackError → String
  | .fault cause => cause.message
  | .unsupportedVersion tag => "Unsupported composition version: " ++ tag
  | .schema violation => violation.message
  | .missingVariable name word =>
    if word = "" then "required variable '" ++ name ++ "' is missing a value" else word
  | .envFile path problem =>
    "failed to read env file '" ++ path.text ++ "': " ++ problem.message
  | .inconsistent cause => "internal inconsistency: " ++ cause.message

end StackError

abbrev Outcome (α : Type u) := Except StackError α

/-- Fails with a fault of the document. -/
def reject (cause : Fault) : Outcome α :=
  .error (.fault cause)

end ContainerStack
