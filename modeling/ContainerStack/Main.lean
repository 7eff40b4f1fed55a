import ContainerStack.CommandLine.Run

/-!
The program itself: the command line on the files and the environment of the
process. Env files are read only below the real path of the project directory.
-/

namespace ContainerStack.CommandLine

def faultOfError : IO.Error → FileFault
  | .noFileOrDirectory .. => .notFound
  | .inappropriateType .. => .notDirectory
  | e => .system (toString e)

def readTextFile (path : String) : IO (Option String) := do
  try
    let bytes ← IO.FS.readBinFile path
    pure (String.fromUTF8? bytes)
  catch _ => pure none

def readProjectFile (root : String) (path : EnvPath) : IO FileAnswer := do
  try
    let real ← IO.FS.realPath (root ++ "/" ++ path.text)
    if !(FileTree.names root.toList).isPrefixOf (FileTree.names real.toString.toList) then
      pure (.notOpened (FileFault.outside path).message)
    else
      let facts ← real.metadata
      if facts.type == .file then
        let bytes ← IO.FS.readBinFile real
        pure (.content bytes)
      else pure (.notOpened (FileFault.notRegular path).message)
  catch e => pure (.notOpened (faultOfError e).message)

def findProject (path : String) : IO (Except FileFault (EnvPath → IO FileAnswer)) := do
  try
    let root ← IO.FS.realPath path
    pure (.ok (readProjectFile root.toString))
  catch e => pure (.error (faultOfError e))

def systemHost : Host IO where
  readText := readTextFile
  project := findProject
  lookup name := IO.getEnv name

/-- Runs the program and prints its report. -/
def runProgram (args : List String) : IO UInt32 := do
  let report ← run systemHost args
  IO.print report.output
  match report.error with
  | some text => IO.eprintln text
  | none => pure ()
  pure report.status.toUInt32

end ContainerStack.CommandLine

def main (args : List String) : IO UInt32 :=
  ContainerStack.CommandLine.runProgram args
