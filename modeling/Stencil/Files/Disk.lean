import Stencil.Document.Pages
import Stencil.Document.Word
import Stencil.Files.Path
import Stencil.Files.System
import Stencil.Text.Encoding
import Stencil.Text.Lines

/-!
Files and directories below the working directory, and the file system that reads them in a given
encoding.
-/

set_option autoImplicit false

namespace Stencil

/-- What a file holds: bytes, or a document that a loader takes apart. -/
inductive Content where
  | bytes (bytes : List UInt8)
  | word (blocks : List Word.Block)
  | pages (pages : List (List Text))

inductive Node where
  | file (content : Content)
  | directory

/-- Nodes by the names that lead to them from the working directory. -/
structure Disk where
  nodes : List (List String × Node)

namespace Disk

def empty : Disk := ⟨[]⟩

def putIn (names : List String) (node : Node) : List (List String × Node) → List (List String × Node)
  | [] => [(names, node)]
  | (known, old) :: rest =>
    if known = names then (names, node) :: rest else (known, old) :: putIn names node rest

def find? (disk : Disk) (names : List String) : Option Node :=
  if names.isEmpty then some .directory else disk.nodes.lookup names

def makeParents (disk : Disk) (names : List String) : Disk :=
  (List.range names.length).foldl
    (fun disk count =>
      match disk.find? (names.take count) with
      | some _ => disk
      | none => ⟨putIn (names.take count) .directory disk.nodes⟩)
    disk

/-- Puts a node where a path says, with the directories that lead there. -/
def write (disk : Disk) (path : String) (node : Node) : Disk :=
  let names := (Path.ofString path).parts
  ⟨putIn names node (disk.makeParents names).nodes⟩

def delete (disk : Disk) (path : String) : Disk :=
  let names := (Path.ofString path).parts
  ⟨disk.nodes.filter fun (known, _) => known != names⟩

/-- A place on the way along a path: a directory known by its names, the unknown world outside the
working directory, or a file. -/
inductive Place where
  | inside (names : List String)
  | outside
  | file (content : Content)

/-- Follows names from a place on. Two points lead to the directory above. -/
def follow (disk : Disk) (written : String) : Place → List String → Except FileError Place
  | place, [] => .ok place
  | .file _, _ :: _ => .error (.notADirectory written)
  | .outside, name :: rest =>
    if name = ".." then disk.follow written .outside rest else .error (.missing written)
  | .inside names, name :: rest =>
    if name = ".." then
      disk.follow written (if names.isEmpty then .outside else .inside names.dropLast) rest
    else
      match disk.find? (names ++ [name]) with
      | none => .error (.missing written)
      | some .directory => disk.follow written (.inside (names ++ [name])) rest
      | some (.file content) => disk.follow written (.file content) rest

def locate (disk : Disk) (path : Path) : Except FileError Place :=
  disk.follow path.toString (if path.root = "" then .inside [] else .outside) path.parts

/-- The names of the files in a directory, in the order of their code points. -/
def fileNames (disk : Disk) (names : List String) : List String :=
  let found := disk.nodes.filterMap fun (known, node) =>
    match node, known.getLast? with
    | .file _, some name => if known.dropLast = names then some name else none
    | _, _ => none
  found.mergeSort fun name other => !decide (other < name)

def list (disk : Disk) (directory : String) : Except FileError (List String) :=
  let path := Path.ofString directory
  match disk.locate path with
  | .error error => .error error
  | .ok (.file _) => .error (.notADirectory path.toString)
  | .ok .outside => .ok []
  | .ok (.inside names) => .ok ((disk.fileNames names).map fun name => (path.child name).toString)

def content (disk : Disk) (path : Path) : Except FileError Content :=
  match disk.locate path with
  | .error error => .error error
  | .ok (.file content) => .ok content
  | .ok _ => .error (.isADirectory path.toString)

/-- Reads bytes as text in a named encoding; every form of line break becomes a line feed. -/
def decodeText (encoding : String) (bytes : List UInt8) : Except FileError Text :=
  match Encoding.ofName? encoding with
  | none => .error (.unknownEncoding encoding)
  | some encoding =>
    match encoding.decode bytes with
    | .ok text => .ok (Text.unifyNewlines text)
    | .error error => .error (.undecodable error)

def readText (disk : Disk) (encoding : String) (path : Path) : Except FileError Text :=
  match disk.content path with
  | .error error => .error error
  | .ok (.bytes bytes) => decodeText encoding bytes
  | .ok _ => .error (.notText path.toString)

/-- The files of a disk as a file system. A listing reports how much it found. -/
def fileSystem (disk : Disk) (encoding : String) : FileSystem where
  entries directory := do
    let paths ← Traced.ofExcept (disk.list directory)
    Traced.report .debug s!"Listed {paths.length} entries in {directory}"
    return paths
  contents path := disk.readText encoding (Path.ofString path)

end Disk

end Stencil
