import ContainerStack.Composition.Basic
import ContainerStack.Error

/-!
The order in which services start. Services are the nodes of a graph, in the
order in which they were added and not told apart by name. A depth-first search
from the dependencies to their dependents lists each service before those that
finished earlier, so on a graph without cycles every dependency comes first. A
final pass over the list looks for a service that a dependency follows; there is
one exactly when the graph has a cycle, and its dependency is reported.
-/

namespace ContainerStack

/-- Services and their dependencies. An edge goes from a dependency to the
service that depends on it; the newest edge is the first. -/
structure DependencyGraph where
  names : List String := []
  edges : List (Nat × Nat) := []
deriving DecidableEq

namespace DependencyGraph

def empty : DependencyGraph :=
  {}

/-- The new service and the graph that has it. -/
def addService (g : DependencyGraph) (name : String) : Nat × DependencyGraph :=
  (g.names.length, { g with names := g.names ++ [name] })

def addDependency (g : DependencyGraph) (dependent dependency : Nat) : DependencyGraph :=
  { g with edges := (dependency, dependent) :: g.edges }

/-- The services that depend directly on `n`, those of newer edges first. -/
def dependents (g : DependencyGraph) (n : Nat) : List Nat :=
  g.edges.filterMap fun e => if e.1 = n then some e.2 else none

/-- The services that `n` depends on directly, those of newer edges first. -/
def dependencies (g : DependencyGraph) (n : Nat) : List Nat :=
  g.edges.filterMap fun e => if e.2 = n then some e.1 else none

def nodes (g : DependencyGraph) : List Nat :=
  List.range g.names.length

/-- The stack after `n` was reached: its unseen dependents, the oldest on top,
and `n` itself to come back to. -/
def push (g : DependencyGraph) (n : Nat) (unseen below : List Nat) : List Nat :=
  ((g.dependents n).filter (· ∈ unseen)).reverse ++ n :: below

/-- The depth-first search. `unseen` holds the nodes that it has not reached and
`finished` those that it has left, the last one first. It stops at a node that
depends on itself. -/
def search (g : DependencyGraph) (unseen stack finished : List Nat) :
    Except Nat (List Nat) :=
  match stack with
  | [] =>
    match unseen with
    | [] => .ok finished
    | n :: rest =>
      if n ∈ g.dependents n then .error n
      else search g rest (g.push n rest []) finished
  | n :: below =>
    if n ∈ unseen then
      if n ∈ g.dependents n then .error n
      else search g (unseen.erase n) (g.push n (unseen.erase n) below) finished
    else search g unseen below (if n ∈ finished then finished else n :: finished)
termination_by (unseen.length, stack.length)
decreasing_by
  · apply Prod.Lex.left
    simp
  · apply Prod.Lex.left
    rename_i hmem _
    rw [List.length_erase_of_mem hmem]
    exact Nat.sub_lt (List.length_pos_of_mem hmem) Nat.one_pos
  · apply Prod.Lex.right
    simp

/-- Looks for a node of the list that a dependency follows, and names the oldest
such dependency. -/
def verify (g : DependencyGraph) : (before : List Nat) → List Nat → Except Nat Unit
  | _, [] => .ok ()
  | before, n :: rest =>
    match ((g.dependencies n).filter (· ∉ n :: before)).getLast? with
    | some late => .error late
    | none => verify g (n :: before) rest

/-- The nodes, dependencies first, or a node on a cycle. -/
def sortedNodes (g : DependencyGraph) : Except Nat (List Nat) :=
  match search g g.nodes [] [] with
  | .error n => .error n
  | .ok order =>
    match verify g [] order with
    | .error n => .error n
    | .ok () => .ok order

def nameOf (g : DependencyGraph) (n : Nat) : String :=
  g.names[n]?.getD "<unknown>"

/-- The services by name, dependencies first. -/
def startupOrder (g : DependencyGraph) : Outcome (List String) :=
  match g.sortedNodes with
  | .ok order => .ok (order.map g.nameOf)
  | .error n => reject (.cyclicDependency (g.nameOf n))

/-- The place of a name in a list of names. -/
def indexOf? (name : String) : List String → Option Nat
  | [] => none
  | other :: rest => if other = name then some 0 else (indexOf? name rest).map (· + 1)

/-- Adds the dependencies of one service; undeclared names are skipped. -/
def addDependencies (g : DependencyGraph) (name : String) (dependsOn : List String) :
    DependencyGraph :=
  dependsOn.foldl (fun g dependency =>
    match indexOf? name g.names, indexOf? dependency g.names with
    | some dependent, some dependency => g.addDependency dependent dependency
    | _, _ => g) g

def ofComposition (c : Composition) : DependencyGraph :=
  c.services.entries.foldl (fun g e => g.addDependencies e.1 e.2.dependsOn)
    { names := c.services.keys }

end DependencyGraph

/-- The startup order of the services of a composition. -/
def Composition.startupOrder (c : Composition) : Outcome (List String) :=
  (DependencyGraph.ofComposition c).startupOrder

end ContainerStack
