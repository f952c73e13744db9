import Stencil.CommandLine.Run

/-!
The program. It reads what a run may need below the working directory, the environment file and the
files and directories that the arguments and settings name, and prints what the run comes to. All
files are read as bytes, so that it has no use for paged and word processor documents.
-/

set_option autoImplicit false

namespace Stencil.Program

/-- The variables that set fields, under their names in capitals. -/
def environment : IO (List (String × String)) :=
  Settings.fields.filterMapM fun field => do
    let name := (Settings.variableStart ++ field).toUpper
    return (← IO.getEnv name).map fun value => (name, value)

/-- Adds a file to a disk, or a directory with the files right in it. -/
def gather (disk : Disk) (path : String) : IO Disk := do
  let place := (← IO.currentDir) / path
  if ← place.isDir then
    (← place.readDir).foldlM
      (fun disk entry => do
        if ← entry.path.isDir then return disk
        let bytes ← IO.FS.readBinFile entry.path
        return disk.write (path ++ "/" ++ entry.fileName) (.file (.bytes bytes.toList)))
      (disk.write path .directory)
  else if ← place.pathExists then
    let bytes ← IO.FS.readBinFile place
    return disk.write path (.file (.bytes bytes.toList))
  else return disk

def usage : String :=
  "usage: parse [--template FILE | --templates-dir DIRECTORY] [--all] [--mode whole|line] INPUT\n" ++
    "       rank [--templates-dir DIRECTORY] INPUT"

def print : CommandLine.Report → IO Unit
  | .help => IO.println usage
  | .refused _ => IO.eprintln usage
  | .invalidSettings problems => do
    for problem in problems do
      IO.eprintln s!"{problem.field}: {problem.error.message}"
  | .unreadableSettings error => IO.eprintln error.message
  | .unknownLevel name => IO.eprintln (CommandLine.unknownLevelMessage name)
  | .ran log outcome => do
    for message in log do
      IO.eprintln message
    match outcome with
    | .ok answer => IO.print (String.ofList answer.output)
    | .error failure => IO.eprintln failure.message

end Stencil.Program

def main (arguments : List String) : IO UInt32 := do
  let environment ← Stencil.Program.environment
  let settled ← Stencil.Program.gather .empty Stencil.CommandLine.environmentPath
  let disk ←
    match Stencil.CommandLine.prepare arguments environment settled with
    | .ok (settings, request) => (request.paths settings).foldlM Stencil.Program.gather settled
    | .error _ => pure settled
  let report := Stencil.CommandLine.run arguments environment disk
  Stencil.Program.print report
  return report.code.toUInt32
