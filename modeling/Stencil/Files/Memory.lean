import Stencil.Files.System

/-!
Files in memory. They have whole paths for names and no directories: an entry of a directory is any
path that begins with it.
-/

set_option autoImplicit false

namespace Stencil

/-- Texts by path, in the order in which the paths were first written, and paths that may be
neither listed nor read. -/
structure MemoryFiles where
  files : List (String × Text)
  deny : List String

namespace MemoryFiles

def empty : MemoryFiles := ⟨[], []⟩

def writeIn (path : String) (content : Text) : List (String × Text) → List (String × Text)
  | [] => [(path, content)]
  | (known, old) :: rest =>
    if known = path then (path, content) :: rest else (known, old) :: writeIn path content rest

/-- Writes a file. One that is there keeps its place. -/
def write (memory : MemoryFiles) (path : String) (content : Text) : MemoryFiles :=
  { memory with files := writeIn path content memory.files }

def delete (memory : MemoryFiles) (path : String) : MemoryFiles :=
  { memory with files := memory.files.filter fun (known, _) => known != path }

/-- What the paths of a directory's entries begin with. -/
def entryStart (directory : String) : Text :=
  (directory.toList.reverse.dropWhile (· = '/')).reverse ++ ['/']

def list (memory : MemoryFiles) (directory : String) : Except FileError (List String) :=
  if memory.deny.contains directory then .error (.denied directory)
  else
    .ok ((memory.files.map Prod.fst).filter fun path =>
      (entryStart directory).isPrefixOf path.toList)

def contents (memory : MemoryFiles) (path : String) : Except FileError Text :=
  if memory.deny.contains path then .error (.denied path)
  else
    match memory.files.lookup path with
    | some content => .ok content
    | none => .error (.unknown path)

def fileSystem (memory : MemoryFiles) : FileSystem where
  entries directory := .ofExcept (memory.list directory)
  contents := memory.contents

end MemoryFiles

end Stencil
