import ContainerStack.EnvPath
import ContainerStack.Expansion

/-!
File trees with symbolic links, and the env files of a project in such a tree. A
place is the list of names from the root of the tree; the canonical place of a
path has all its links followed, at most forty of them. An env file is read only
if its canonical place is below that of the project and a regular file is there.
-/

namespace ContainerStack

open Text

abbrev Place := List (List Char)

/-- What can stand at a place. A special file is a pipe, a socket or a device; what it
would deliver is no part of the tree. -/
inductive FileEntry where
  | file (bytes : ByteArray)
  | directory
  | link (target : List Char)
  | special

/-- What is at each place. The root is a directory even if it is not listed. -/
structure FileTree where
  entries : List (Place × FileEntry)

/-- Why a path leads to no usable file. -/
inductive FileFault where
  | notFound
  | notDirectory
  | linkLoop
  | nameTooLong
  | nulInName
  | outside (path : EnvPath)
  | notRegular (path : EnvPath)
  | system (text : String)
deriving DecidableEq

def FileFault.message : FileFault → String
  | .notFound => "No such file or directory (os error 2)"
  | .notDirectory => "Not a directory (os error 20)"
  | .linkLoop => "Too many levels of symbolic links (os error 40)"
  | .nameTooLong => "File name too long (os error 36)"
  | .nulInName => "file name contained an unexpected NUL byte"
  | .outside path => "'" ++ path.text ++ "' resolves outside the project directory"
  | .notRegular path => "'" ++ path.text ++ "' is not a regular file"
  | .system text => text

namespace FileTree

def entry? (tree : FileTree) (place : Place) : Option FileEntry :=
  if place = [] then some .directory else tree.entries.lookup place

def isDirectory (tree : FileTree) (place : Place) : Bool :=
  match tree.entry? place with
  | some .directory => true
  | _ => false

/-- The number of links that one path may follow. -/
def linkLimit : Nat :=
  40

/-- The longest name, in bytes. -/
def nameLimit : Nat :=
  255

def isSlash (c : Char) : Bool :=
  c == '/'

/-- The names of a written path; empty ones stay in. -/
def names (path : List Char) : List (List Char) :=
  pieces isSlash path

/-- Where a path starts: at the root if it is absolute. -/
def start (here : Place) (path : List Char) : Place :=
  if path.head? = some '/' then [] else here

/-- Follows names from a place, with a number of links left to follow. -/
def walk (tree : FileTree) (links : Nat) (here : Place) (todo : List (List Char)) :
    Except FileFault Place :=
  match todo with
  | [] => .ok here
  | name :: rest =>
    if !tree.isDirectory here then .error .notDirectory
    else if name = [] ∨ name = ['.'] then walk tree links here rest
    else if name = ['.', '.'] then walk tree links here.dropLast rest
    else if (String.ofList name).utf8ByteSize > nameLimit then .error .nameTooLong
    else
      match tree.entry? (here ++ [name]) with
      | none => .error .notFound
      | some (.link target) =>
        match links with
        | 0 => .error .linkLoop
        | links + 1 => walk tree links (start here target) (names target ++ rest)
      | some _ => walk tree links (here ++ [name]) rest
termination_by (links, todo.length)

/-- The canonical place of a path that is written relative to a place. -/
def canonical (tree : FileTree) (here : Place) (path : List Char) : Except FileFault Place :=
  if '\x00' ∈ path then .error .nulInName
  else if path = [] then .error .notFound
  else tree.walk linkLimit (start here path) (names path)

/-- The bytes of an env file of the project at a canonical place. -/
def readEnvFile (tree : FileTree) (root : Place) (path : EnvPath) :
    Except FileFault ByteArray :=
  if path.segments.any (fun segment => '\x00' ∈ segment) then .error .nulInName
  else
    match tree.walk linkLimit root path.segments with
    | .error fault => .error fault
    | .ok place =>
      if !root.isPrefixOf place then .error (.outside path)
      else
        match tree.entry? place with
        | some (.file bytes) => .ok bytes
        | _ => .error (.notRegular path)

def answer : Except FileFault ByteArray → FileAnswer
  | .ok bytes => .content bytes
  | .error fault => .notOpened fault.message

/-- The files of the project at a canonical place. -/
def projectFiles (tree : FileTree) (root : Place) : ProjectFiles :=
  fun path => answer (tree.readEnvFile root path)

/-- The text of a regular file, named relative to a place. -/
def readText? (tree : FileTree) (here : Place) (path : String) : Option String :=
  match tree.canonical here path.toList with
  | .error _ => none
  | .ok place =>
    match tree.entry? place with
    | some (.file bytes) => String.fromUTF8? bytes
    | _ => none

end FileTree

end ContainerStack
