import Parley.CommandLine

/-!
# The program

Reads the files and the environment that `Parley.CommandLine` asks for, and reports how it ended.
-/

namespace Parley.CommandLine

/-- What is known about a fault of the operating system. -/
def faultOf : IO.Error → IoFault
  | .noFileOrDirectory .. => .notFound
  | .inappropriateType .. => .isADirectory
  | e => .described (toString e)

def readFile (name : String) : IO (Except IoFault Bytes) := do
  try
    return .ok (← IO.FS.readBinFile name).toList
  catch e =>
    return .error (faultOf e)

/-- The files at which a program with the given configuration looks. -/
def readFiles (content : Except IoFault Bytes) : IO Folder := do
  match (readConfig content).toOption.bind (·.sync.cursorFile) with
  | none => return {}
  | some file =>
    match ← readFile file with
    | .ok stored => return Folder.holding (Path.ofString file) (.file stored)
    | .error .isADirectory => return Folder.holding (Path.ofString file) .folder
    | .error _ => return {}

end Parley.CommandLine

open Parley in
/-- Runs the program on the file that its first argument names. -/
def main (args : List String) : IO UInt32 := do
  let content ← CommandLine.readFile (args.headD CommandLine.configFile)
  let token ← IO.getEnv CommandLine.tokenVariable
  let files ← CommandLine.readFiles content
  IO.eprint (CommandLine.report (CommandLine.run content token files))
  return 1
