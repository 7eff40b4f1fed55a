import ContainerStack.EnvPath
import ContainerStack.Json.Basic
import ContainerStack.Table

/-!
Compositions: services with the networks and volumes they use. A composition
holds each kind of data in one form: names with texts are tables, ports are
texts, a build has all its parts. Members that the model does not name stay with
their entity as `extra`. `same` is equality up to the order of tables.
-/

namespace ContainerStack

abbrev KeyValues := Table String

/-- The networks a service joins, by name or with options for each. -/
inductive Attachments where
  | list (names : List String)
  | table (options : Table Json)
deriving DecidableEq

structure Build where
  context : String
  dockerfile : Option String := none
  args : KeyValues := .empty
  labels : KeyValues := .empty
  extra : Table Json := .empty
deriving DecidableEq

/-- With a build, the image is the tag of what is built. A service that lists no
env files differs from one with an empty list of them. -/
structure Service where
  image : Option String := none
  build : Option Build := none
  environment : KeyValues := .empty
  envFiles : Option (List EnvPath) := none
  dependsOn : List String := []
  labels : KeyValues := .empty
  ports : List String := []
  volumes : List String := []
  extraHosts : List String := []
  networks : Option Attachments := none
  extra : Table Json := .empty
deriving DecidableEq

/-- A named network or volume. -/
structure Resource where
  driver : Option String := none
  labels : KeyValues := .empty
  external : Option Json := none
  extra : Table Json := .empty
deriving DecidableEq

structure Composition where
  version : String
  services : Table Service := .empty
  networks : Table Resource := .empty
  volumes : Table Resource := .empty
deriving DecidableEq

def sameTexts (a b : KeyValues) : Bool :=
  a.sameBy (· == ·) b

def sameExtra (a b : Table Json) : Bool :=
  a.sameBy Json.same b

def sameOption (same : α → α → Bool) : Option α → Option α → Bool
  | none, none => true
  | some a, some b => same a b
  | _, _ => false

def Attachments.same : Attachments → Attachments → Bool
  | .list a, .list b => a == b
  | .table a, .table b => sameExtra a b
  | _, _ => false

def Build.same (a b : Build) : Bool :=
  a.context == b.context && a.dockerfile == b.dockerfile && sameTexts a.args b.args &&
    sameTexts a.labels b.labels && sameExtra a.extra b.extra

def Service.same (a b : Service) : Bool :=
  a.image == b.image && sameOption Build.same a.build b.build &&
    sameTexts a.environment b.environment && a.envFiles == b.envFiles &&
    a.dependsOn == b.dependsOn && sameTexts a.labels b.labels && a.ports == b.ports &&
    a.volumes == b.volumes && a.extraHosts == b.extraHosts &&
    sameOption Attachments.same a.networks b.networks && sameExtra a.extra b.extra

def Resource.same (a b : Resource) : Bool :=
  a.driver == b.driver && sameTexts a.labels b.labels &&
    sameOption Json.same a.external b.external && sameExtra a.extra b.extra

def Composition.same (a b : Composition) : Bool :=
  a.version == b.version && a.services.sameBy Service.same b.services &&
    a.networks.sameBy Resource.same b.networks && a.volumes.sameBy Resource.same b.volumes

end ContainerStack
