import NoteQuery.Note.Metadata
import NoteQuery.Note.Store
import NoteQuery.Text.Case

/-!
The notes in a folder: its files with one of some extensions, in the order of their names, a
folder's own before those of the folders in it. Hidden files and folders are passed over, and so are
files that are no text. Metadata is remembered from the last listing on, also of notes that have
changed since.
-/

namespace NoteQuery

structure Vault where
  root : Path
  extensions : List String
  known : List (String × Metadata)

namespace Vault

/-- A folder with the extensions of its notes, which may be written with a dot and in capitals. -/
def ofFolder (root : String) (extensions : List String) : Vault where
  root := Path.ofText root
  extensions := extensions.map fun e =>
    String.ofList ((Text.lowerChars e.toList).dropWhile (· == '.'))
  known := []

/-- What stands behind the last dot, in small letters; the whole name when it has no dot. -/
def extensionOf (name : String) : String :=
  String.ofList (Text.lowerChars ((Text.pieces '.' name.toList).getLastD []))

def isNote (v : Vault) (name : String) : Bool :=
  !FileTree.isHidden name && v.extensions.contains (extensionOf name)

def examine (text : String) : Except SourceError (Entries × Metadata × String) := do
  match FrontMatter.split text with
  | .error failure => .error (.frontMatter failure)
  | .ok (properties, body) =>
    match Metadata.ofNote properties body with
    | .error f => .error (.fault f)
    | .ok metadata => .ok (properties, metadata, body)

def documentsOf : List FileTree.Found →
    Except SourceError (List Document) × List (String × Metadata)
  | [] => (.ok [], [])
  | found :: files =>
    match FileTree.textOf found.bytes with
    | .error _ => documentsOf files
    | .ok text =>
      match examine text with
      | .error e => (.error e, [])
      | .ok (properties, metadata, _) =>
        let path := "/".intercalate found.names
        let (others, known) := documentsOf files
        (others.map (⟨path, found.bytes.size, found.changed, found.changed, properties⟩ :: ·),
          (path, metadata) :: known)

def list (v : Vault) (disk : Disk) : Except SourceError (List Document) × Vault :=
  match disk.find v.root with
  | .ok (.folder entries) =>
    let (documents, known) := documentsOf (FileTree.filesBelow v.isNote [] (.folder entries))
    (documents, { v with known := known })
  | _ => (.error (.store (.noVault v.root.text)), { v with known := [] })

private def textOf (v : Vault) (disk : Disk) (path : String) : Except SourceError String :=
  match disk.readText (v.root.join (Path.ofText path)) with
  | .ok text => .ok text
  | .error failure => .error (.store (.unreadable path failure))

def read (v : Vault) (disk : Disk) (path : String) : Except SourceError String := do
  let text ← v.textOf disk path
  match FrontMatter.split text with
  | .ok (_, body) => .ok body
  | .error failure => .error (.frontMatter failure)

/-- The metadata of a note, remembered or read now. -/
def metadata (v : Vault) (disk : Disk) (path : String) : Except SourceError (Metadata × Vault) :=
  match v.known.lookup path with
  | some m => .ok (m, v)
  | none => do
    let text ← v.textOf disk path
    let (_, m, _) ← examine text
    .ok (m, { v with known := (path, m) :: v.known })

/-- The notes for a query, while the disk stays as it is. -/
def source (v : Vault) (disk : Disk) : Source :=
  let (documents, v) := v.list disk
  { documents := documents
    content d := (v.read disk d.path).toOption
    metadata d := (v.metadata disk d.path).toOption.map Prod.fst }

end Vault

end NoteQuery
