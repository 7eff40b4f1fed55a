import ContainerStack.EnvPath
import ContainerStack.Json.Printer

/-!
What normalization finds wrong with a document. A fault is structural when a
value has a form that its place does not allow, and otherwise concerns the
meaning: names, references, paths, and what a service must have.
-/

namespace ContainerStack

inductive EntityKind where
  | service
  | network
  | volume
deriving DecidableEq

def EntityKind.title : EntityKind → String
  | .service => "Service"
  | .network => "Network"
  | .volume => "Volume"

def EntityKind.noun : EntityKind → String
  | .service => "service"
  | .network => "network"
  | .volume => "volume"

inductive Fault where
  | notMapping
  | unsupportedKey (key : String)
  | sectionForm (name : String) (found : Json)
  | entityForm (kind : EntityKind) (name : String) (found : Json)
  | textForm (field : String) (found : Json)
  | listForm (field : String) (found : Json)
  | itemForm (field : String) (found : Json)
  | assignmentsForm (field : String) (found : Json)
  | assignmentForm (field : String) (found : Json)
  | scalarForm (key field : String)
  | missingKey (entry field : String)
  | hostsForm (found : Json)
  | hostForm (found : Json)
  | addressForm (host : String)
  | portForm (found : Json)
  | buildForm (service : String) (found : Json)
  | attachmentsForm (service : String) (found : Json)
  | dependenciesForm (service : String)
  | repeatedDependency (service dependency : String)
  | undefinedDependency (service dependency : String)
  | cyclicDependency (service : String)
  | labelName (key owner : String)
  | mountText (entry : String)
  | bindMount
  | undefinedVolume (name : String)
  | noSource
  | envPath (fault : EnvPath.Fault)
  | notCanonical (version : String)
deriving DecidableEq

namespace Fault

def isStructural : Fault → Bool
  | .notMapping | .unsupportedKey _ | .sectionForm _ _ | .entityForm _ _ _ | .textForm _ _
  | .listForm _ _ | .itemForm _ _ | .assignmentsForm _ _ | .assignmentForm _ _
  | .scalarForm _ _ | .hostsForm _ | .hostForm _ | .addressForm _ | .portForm _
  | .buildForm _ _ | .attachmentsForm _ _ | .dependenciesForm _ => true
  | _ => false

def message : Fault → String
  | .notMapping => "Composition must be a mapping at the top level"
  | .unsupportedKey key => "Unsupported top-level key '" ++ key ++ "'"
  | .sectionForm name found => name ++ " must be a mapping, got " ++ found.compact
  | .entityForm kind name found =>
    kind.title ++ " '" ++ name ++ "' must be a mapping, got " ++ found.compact
  | .textForm field found => "Invalid " ++ field ++ ": expected a string, got " ++ found.compact
  | .listForm field found => "Invalid " ++ field ++ ": expected a list, got " ++ found.compact
  | .itemForm field found =>
    "Invalid entry " ++ found.compact ++ " in " ++ field ++ ": expected a string"
  | .assignmentsForm field found =>
    "Invalid " ++ field ++ ": expected a mapping or a list, got " ++ found.compact
  | .assignmentForm field found =>
    "Invalid entry in " ++ field ++ ": expected a KEY=VALUE string, got " ++ found.compact
  | .scalarForm key field =>
    "Invalid value for '" ++ key ++ "' in " ++ field ++ ": expected a scalar"
  | .missingKey entry field => "Invalid entry '" ++ entry ++ "' in " ++ field ++ ": missing key"
  | .hostsForm found =>
    "Invalid extra_hosts: expected a mapping or a list, got " ++ found.compact
  | .hostForm found =>
    "Invalid extra_hosts entry " ++ found.compact ++ ": expected a host:ip string"
  | .addressForm host => "Invalid address for extra host '" ++ host ++ "'"
  | .portForm found => "Invalid port " ++ found.compact ++ ": expected a string or a number"
  | .buildForm service found =>
    "Invalid build of service '" ++ service ++ "': expected a string or a mapping, got " ++
      found.compact
  | .attachmentsForm service found =>
    "Invalid networks of service '" ++ service ++ "': expected a list or a mapping, got " ++
      found.compact
  | .dependenciesForm service => "depends_on of service '" ++ service ++ "' must be a list"
  | .repeatedDependency service dependency =>
    "Service '" ++ service ++ "' lists dependency '" ++ dependency ++ "' more than once"
  | .undefinedDependency service dependency =>
    "Service '" ++ service ++ "' depends on undefined service '" ++ dependency ++ "'"
  | .cyclicDependency service =>
    "cyclic dependency detected in depends_on involving service '" ++ service ++ "'"
  | .labelName key owner =>
    "Invalid label name '" ++ key ++ "' in " ++ owner ++
      ": label names may only contain letters, digits, '.' and '-'"
  | .mountText entry => "Invalid volume specification '" ++ entry ++ "': expected 'volume:target'"
  | .bindMount => "Bind mounts are not allowed"
  | .undefinedVolume name => "Missing volume definition for '" ++ name ++ "'"
  | .noSource => "You must specify either an image or a build"
  | .envPath fault => fault.message
  | .notCanonical version =>
    "Composition must be at version 2.1 to be parsed, got '" ++ version ++ "'"

end Fault

end ContainerStack
