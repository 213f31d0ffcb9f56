import NoteQuery.FileTree
import NoteQuery.Note.Document
import NoteQuery.Note.FrontMatter

/-!
Where notes come from. A source lists its notes and gives their contents and metadata, each of
which it may fail to do. A store in memory keeps notes by path, in the order in which their paths
were first added; adding a path again replaces the note in its place.
-/

namespace NoteQuery

inductive StoreError where
  | notFound (path : String)
  | noVault (path : String)
  | unreadable (path : String) (failure : ReadFailure)
  | unlisted
  | reported (message : String)
  deriving DecidableEq, Repr

namespace StoreError

def message : StoreError → String
  | notFound path => "Document not found: " ++ path
  | noVault path => "Vault directory not found: " ++ path
  | unreadable path _ => "Failed to read " ++ path
  | unlisted => "Failed to enumerate documents"
  | reported message => message

def cause? : StoreError → Option ReadFailure
  | unreadable _ failure => some failure
  | unlisted => some .refused
  | _ => none

end StoreError

inductive SourceError where
  | store (e : StoreError)
  | frontMatter (failure : FrontMatter.Failure)
  | fault (f : Fault)
  deriving DecidableEq, Repr

/-- What a query asks of a collection of notes. A note whose content cannot be had has none. -/
structure Source where
  documents : Except SourceError (List Document)
  content : Document → Option String
  metadata : Document → Option Metadata

structure StoredNote where
  document : Document
  content : String
  metadata : Option Metadata
  deriving Repr

namespace StoredNote

/-- A note with this content. Its size is the content's unless another is given; it has metadata
only when tags or links are given. -/
def ofContent (path content : String) (size : Option Nat) (created modified : Option Moment)
    (properties : Entries) (tags links : Option (List String)) : StoredNote where
  document := ⟨path, size.getD content.utf8ByteSize, created, modified, properties⟩
  content := content
  metadata :=
    if tags.isNone && links.isNone then none else some ⟨tags.getD [], links.getD []⟩

end StoredNote

/-- What is asked for by the path of a note, each kept by itself: the documents, in the order in which
their paths were first added, the contents, and the metadata of the notes that have any. -/
structure Store where
  listed : List (String × Document)
  contents : List (String × String)
  known : List (String × Metadata)
  deriving Repr

namespace Store

def empty : Store := ⟨[], [], []⟩

/-- Adds a note or replaces it. A note without metadata takes what was known at its path with it. -/
def add (note : StoredNote) (s : Store) : Store :=
  let path := note.document.path
  { listed := Entries.put path note.document s.listed
    contents := Entries.put path note.content s.contents
    known := match note.metadata with
      | some metadata => Entries.put path metadata s.known
      | none => Entries.drop path s.known }

def remove (path : String) (s : Store) : Store where
  listed := Entries.drop path s.listed
  contents := Entries.drop path s.contents
  known := Entries.drop path s.known

def documents (s : Store) : List Document := s.listed.map Prod.snd

def read (s : Store) (path : String) : Except StoreError String :=
  match s.contents.lookup path with
  | some content => .ok content
  | none => .error (.notFound path)

def metadata (s : Store) (path : String) : Option Metadata := s.known.lookup path

def source (s : Store) : Source where
  documents := .ok s.documents
  content d := (s.read d.path).toOption
  metadata d := s.metadata d.path

end Store

/-- Failures that a store in memory is made to show: of its list, and of single paths. -/
structure Outage where
  list : Option StoreError := none
  unreadable : List String := []
  blank : List String := []
  metadata : List String := []

namespace Outage

def apply (o : Outage) (s : Source) : Source where
  documents := match o.list with
    | some e => .error (.store e)
    | none => s.documents
  content d :=
    if o.unreadable.contains d.path || o.blank.contains d.path then none else s.content d
  metadata d := if o.metadata.contains d.path then none else s.metadata d

end Outage

end NoteQuery
