import Stencil.Files.Disk

/-!
Loading input documents. The suffix of the file's name decides how it is taken apart; a file with an
unknown suffix is read as text.
-/

set_option autoImplicit false

namespace Stencil

inductive DocumentKind where
  | pages
  | word
  | text
  deriving DecidableEq, Repr

namespace DocumentKind

def suffixes : DocumentKind → List String
  | pages => [".pdf"]
  | word => [".docx"]
  | text => [".txt", ".md", ".markdown", ".html", ".htm"]

/-- Whether the name of a file promises a document of this kind. -/
def supports (kind : DocumentKind) (path : Path) : Bool :=
  path.hasSuffix kind.suffixes

/-- The kinds in the order in which they are tried. -/
def all : List DocumentKind := [pages, word, text]

def ofPath? (path : Path) : Option DocumentKind :=
  all.find? (·.supports path)

end DocumentKind

namespace Disk

def loadAs (disk : Disk) (encoding : String) (kind : DocumentKind) (path : Path) :
    Except FileError Text :=
  match kind with
  | .text => disk.readText encoding path
  | .pages =>
    match disk.content path with
    | .ok (.pages pages) => .ok (Pages.text pages)
    | .ok _ => .error (.notPaged path.toString)
    | .error error => .error error
  | .word =>
    match disk.content path with
    | .ok (.word blocks) => .ok (Word.text blocks)
    | .ok _ => .error (.notArchived path.toString)
    | .error error => .error error

def load (disk : Disk) (encoding : String) (written : String) : Traced FileError Text := do
  let path := Path.ofString written
  match DocumentKind.ofPath? path with
  | some kind => Traced.ofExcept (disk.loadAs encoding kind path)
  | none =>
    let suffix := String.ofList (Text.quoted path.suffix)
    Traced.report .debug s!"No loader for {suffix}, reading as text"
    Traced.ofExcept (disk.loadAs encoding .text path)

end Disk

end Stencil
