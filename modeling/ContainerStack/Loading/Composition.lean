import ContainerStack.Composition.Basic
import ContainerStack.Loading.Basic

/-!
Loading compositions in canonical form. Nothing is converted: a build must have
all its parts and every text must be a text. Members that an entity does not
name go to its `extra`; at the top level they are ignored.
-/

namespace ContainerStack

open Loading

def Attachments.load (x : Json) : Result Attachments :=
  match x with
  | .arr _ =>
    match texts x with
    | .ok names => .ok (.list names)
    | .error _ => .error (.noVariant "ServiceNetworks")
  | .obj ms => .ok (.table (Table.ofEntries ms))
  | _ => .error (.noVariant "ServiceNetworks")

def Build.withMember (b : Build) (key : String) (x : Json) : Result Build :=
  match key with
  | "context" => (text x).map fun v => { b with context := v }
  | "dockerfile" => (optional text x).map fun v => { b with dockerfile := v }
  | "args" => (keyValues x).map fun v => { b with args := v }
  | "labels" => (keyValues x).map fun v => { b with labels := v }
  | _ => .ok { b with extra := b.extra.insert key x }

def Build.load (x : Json) : Result Build := do
  let ms ← members "struct Build" x
  let b ← fill Build.withMember { context := "" } ms
  require ["context"] ms
  .ok b

def Service.withMember (s : Service) (key : String) (x : Json) : Result Service :=
  match key with
  | "image" => (optional text x).map fun v => { s with image := v }
  | "build" => (optional Build.load x).map fun v => { s with build := v }
  | "environment" => (keyValues x).map fun v => { s with environment := v }
  | "env_file" => (optional (list envPath) x).map fun v => { s with envFiles := v }
  | "depends_on" => (texts x).map fun v => { s with dependsOn := v }
  | "labels" => (keyValues x).map fun v => { s with labels := v }
  | "ports" => (texts x).map fun v => { s with ports := v }
  | "volumes" => (texts x).map fun v => { s with volumes := v }
  | "extra_hosts" => (texts x).map fun v => { s with extraHosts := v }
  | "networks" => (optional Attachments.load x).map fun v => { s with networks := v }
  | _ => .ok { s with extra := s.extra.insert key x }

def Service.load (x : Json) : Result Service := do
  let ms ← members "struct Service" x
  fill Service.withMember {} ms

def Resource.withMember (r : Resource) (key : String) (x : Json) : Result Resource :=
  match key with
  | "driver" => (optional text x).map fun v => { r with driver := v }
  | "labels" => (keyValues x).map fun v => { r with labels := v }
  | "external" => (optional .ok x).map fun v => { r with external := v }
  | _ => .ok { r with extra := r.extra.insert key x }

def Resource.load (expected : String) (x : Json) : Result Resource := do
  let ms ← members expected x
  fill Resource.withMember {} ms

def Composition.withMember (c : Composition) (key : String) (x : Json) : Result Composition :=
  match key with
  | "version" => (text x).map fun v => { c with version := v }
  | "services" => (table Service.load x).map fun v => { c with services := v }
  | "networks" => (table (Resource.load "struct Network") x).map fun v => { c with networks := v }
  | "volumes" => (table (Resource.load "struct Volume") x).map fun v => { c with volumes := v }
  | _ => .ok c

def Composition.form : RecordForm where
  title := "struct Composition"
  fields := ["version", "services", "networks", "volumes"]
  required := ["version"]
  leading := 1

def Composition.load (x : Json) : Result Composition :=
  record form withMember { version := "" } x

end ContainerStack
