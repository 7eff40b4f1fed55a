import ContainerStack.Text.Digit
import ContainerStack.Text.Split

/-!
Paths of env files, relative to the project directory. A path is a nonempty
list of segments that name something: empty segments and `.` are left out, and
`..` takes back the segment before it. Reading refuses blank texts, wildcards,
absolute paths, paths that climb out of the project at any point, and paths
that name no file.
-/

namespace ContainerStack

open Text

namespace EnvPath

def isSeparator (c : Char) : Bool :=
  c == '/' || c == '\\'

def isWildcard (c : Char) : Bool :=
  c == '*' || c == '?' || c == '[' || c == ']' || c == '{' || c == '}'

/-- A segment that names a file or directory. -/
def Proper (segment : List Char) : Prop :=
  segment ≠ [] ∧ segment ≠ ['.'] ∧ segment ≠ ['.', '.'] ∧
    ∀ c ∈ segment, isSeparator c = false ∧ isWildcard c = false

/-- Why a text is no env file path. -/
inductive Fault where
  | blank
  | wildcard (raw : String)
  | absolute (raw : String)
  | escapes (raw : String)
  | noFile (raw : String)
deriving DecidableEq

def Fault.message : Fault → String
  | .blank => "env_file path must not be empty"
  | .wildcard raw => "Wildcards are not allowed in env_file paths: '" ++ raw ++ "'"
  | .absolute raw => "Absolute env_file paths are not allowed: '" ++ raw ++ "'"
  | .escapes raw => "env_file path escapes the project directory: '" ++ raw ++ "'"
  | .noFile raw => "env_file path does not name a file: '" ++ raw ++ "'"

/-- A path from the root, from a home directory or from a drive. -/
def isAbsolute : List Char → Bool
  | [] => false
  | c :: rest => isSeparator c || c == '~' || (isAsciiLetter c && rest.head? == some ':')

/-- Resolves segments after those of `done`, which are held last first; `none`
when a `..` has nothing to take back. -/
def resolve : (done : List (List Char)) → List (List Char) → Option (List (List Char))
  | done, [] => some done.reverse
  | done, segment :: rest =>
    if segment = [] ∨ segment = ['.'] then resolve done rest
    else if segment = ['.', '.'] then
      match done with
      | [] => none
      | _ :: above => resolve above rest
    else resolve (segment :: done) rest

theorem proper_of_mem_resolve {done segments resolved : List (List Char)}
    (hdone : ∀ s ∈ done, Proper s)
    (hclean : ∀ s ∈ segments, ∀ c ∈ s, isSeparator c = false ∧ isWildcard c = false)
    (hresolve : resolve done segments = some resolved) : ∀ s ∈ resolved, Proper s := by
  induction segments generalizing done with
  | nil =>
    simp only [resolve, Option.some.injEq] at hresolve
    subst hresolve
    exact fun s hs => hdone s (List.mem_reverse.mp hs)
  | cons segment rest ih =>
    have hrest : ∀ s ∈ rest, ∀ c ∈ s, isSeparator c = false ∧ isWildcard c = false :=
      fun s hs => hclean s (List.mem_cons_of_mem _ hs)
    simp only [resolve] at hresolve
    split at hresolve
    · exact ih hdone hrest hresolve
    · rename_i hname
      split at hresolve
      · split at hresolve
        · contradiction
        · exact ih (fun s hs => hdone s (List.mem_cons_of_mem _ hs)) hrest hresolve
      · rename_i hup
        refine ih ?_ hrest hresolve
        intro s hs
        rcases List.mem_cons.mp hs with rfl | hs
        · exact ⟨fun h => hname (.inl h), fun h => hname (.inr h), hup,
            hclean s List.mem_cons_self⟩
        · exact hdone s hs

end EnvPath

/-- An env file path: segments from the project directory down to a file. -/
structure EnvPath where
  segments : List (List Char)
  ne_nil : segments ≠ []
  proper : ∀ s ∈ segments, EnvPath.Proper s
deriving DecidableEq

namespace EnvPath

def text (p : EnvPath) : String :=
  join "/" (p.segments.map String.ofList)

/-- The path that a written text stands for. -/
def parse (raw : String) : Except Fault EnvPath :=
  let cs := raw.toList
  if (trimChars cs).isEmpty then .error .blank
  else if hwild : cs.any isWildcard = true then .error (.wildcard raw)
  else if isAbsolute cs then .error (.absolute raw)
  else
    match hresolve : resolve [] (pieces isSeparator cs) with
    | none => .error (.escapes raw)
    | some [] => .error (.noFile raw)
    | some (first :: rest) =>
      .ok ⟨first :: rest, List.cons_ne_nil first rest,
        proper_of_mem_resolve (by simp)
          (fun s hs c hc => ⟨isSep_of_mem_pieces hs c hc, by
            have hnone := List.any_eq_false.mp (Bool.eq_false_iff.mpr hwild)
            exact Bool.eq_false_iff.mpr (hnone c (mem_of_mem_pieces hs c hc))⟩)
          hresolve⟩

/-- The first occurrence of every path. -/
def distinct : List EnvPath → List EnvPath
  | [] => []
  | p :: rest => p :: (distinct rest).filter (· ≠ p)

end EnvPath

end ContainerStack
