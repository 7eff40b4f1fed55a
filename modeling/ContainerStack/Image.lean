import ContainerStack.Composition.Json
import ContainerStack.Error
import ContainerStack.Loading.Basic
import ContainerStack.Version

/-!
How the image of each service is obtained: it is pulled by reference, or built
and then tagged with the image that the service names. Images are derived from
canonical compositions, one for each service in order. A pull is written as the
bare reference and a build as an object, and both can be loaded back.
-/

namespace ContainerStack

structure BuildPlan where
  context : String
  dockerfile : Option String := none
  args : KeyValues := .empty
  labels : KeyValues := .empty
  tag : Option String := none
deriving DecidableEq

inductive ImageSource where
  | pull (reference : String)
  | build (plan : BuildPlan)
deriving DecidableEq

structure Image where
  service : String
  source : ImageSource
deriving DecidableEq

def Image.pullReference? (image : Image) : Option String :=
  match image.source with
  | .pull reference => some reference
  | .build _ => none

def ImageSource.ofService (name : String) (s : Service) : Outcome ImageSource :=
  match s.image, s.build with
  | some reference, none => .ok (.pull reference)
  | tag, some b =>
    .ok (.build {
      context := b.context
      dockerfile := b.dockerfile
      args := b.args
      labels := b.labels
      tag })
  | none, none => .error (.inconsistent (.noSource name))

/-- One image for each service, in order. -/
def Composition.images (c : Composition) : Outcome (List Image) :=
  if (FormatVersion.ofTag? c.version).any FormatVersion.isCanonical then
    c.services.entries.mapM fun e => (ImageSource.ofService e.1 e.2).map fun source => ⟨e.1, source⟩
  else reject (.notCanonical c.version)

def BuildPlan.toJson (plan : BuildPlan) : Json :=
  .obj ([("context", .str plan.context)] ++
    optionalMember "dockerfile" (plan.dockerfile.map .str) ++
    tableMember "args" plan.args ++
    tableMember "labels" plan.labels ++
    optionalMember "tag" (plan.tag.map .str))

def ImageSource.toJson : ImageSource → Json
  | .pull reference => .str reference
  | .build plan => plan.toJson

def Image.toJson (image : Image) : Json :=
  .obj [("serviceName", .str image.service), ("image", image.source.toJson)]

def imagesToJson (images : List Image) : Json :=
  .arr (images.map Image.toJson)

open Loading

def BuildPlan.withMember (plan : BuildPlan) (key : String) (x : Json) : Result BuildPlan :=
  match key with
  | "context" => (text x).map fun v => { plan with context := v }
  | "dockerfile" => (optional text x).map fun v => { plan with dockerfile := v }
  | "args" => (keyValues x).map fun v => { plan with args := v }
  | "labels" => (keyValues x).map fun v => { plan with labels := v }
  | "tag" => (optional text x).map fun v => { plan with tag := v }
  | _ => .ok plan

def BuildPlan.form : RecordForm where
  title := "struct BuildConfig"
  fields := ["context", "dockerfile", "args", "labels", "tag"]
  required := ["context"]
  leading := 1

def BuildPlan.load (x : Json) : Result BuildPlan :=
  record form withMember { context := "" } x

def ImageSource.load : Json → Result ImageSource
  | .str reference => .ok (.pull reference)
  | x =>
    match BuildPlan.load x with
    | .ok plan => .ok (.build plan)
    | .error _ => .error (.noVariant "ImageSource")

def Image.withMember (image : Image) (key : String) (x : Json) : Result Image :=
  match key with
  | "serviceName" => (text x).map fun v => { image with service := v }
  | "image" => (ImageSource.load x).map fun v => { image with source := v }
  | _ => .ok image

def Image.form : RecordForm where
  title := "struct ImageDescriptor"
  fields := ["serviceName", "image"]
  required := ["serviceName", "image"]
  leading := 2

def Image.load (x : Json) : Result Image :=
  record form withMember ⟨"", .pull ""⟩ x

def loadImages (x : Json) : Result (List Image) :=
  list Image.load x

end ContainerStack
