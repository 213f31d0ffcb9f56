import NoteQuery.Note.Path
import NoteQuery.Value

/-!
Notes as queries see them: where a note lies, how large and how old it is, and the properties that
its front matter gives. Tags and links are found apart from it; without them a file has neither.
-/

namespace NoteQuery

structure Document where
  path : String
  size : Nat
  created : Option Moment
  modified : Option Moment
  properties : Entries
  deriving Repr

/-- The tags and links of a note; each tag keeps the number sign in front of it. -/
structure Metadata where
  tags : List String
  links : List String
  deriving DecidableEq, Repr

/-- What is known of a note's file without looking at its properties. -/
structure FileInfo where
  name : String
  path : String
  folder : String
  extension : String
  size : Nat
  created : Option Moment
  modified : Option Moment
  tags : List String
  links : List String
  deriving Repr

namespace Document

def name (d : Document) : String := (Path.ofText d.path).stem

def folder (d : Document) : String := (Path.ofText d.path).folder

def extension (d : Document) : String := (Path.ofText d.path).extension

end Document

namespace FileInfo

def ofDocument (d : Document) (metadata : Option Metadata) : FileInfo where
  name := d.name
  path := d.path
  folder := d.folder
  extension := d.extension
  size := d.size
  created := d.created
  modified := d.modified
  tags := (metadata.map Metadata.tags).getD []
  links := (metadata.map Metadata.links).getD []

def link (f : FileInfo) : String := "[[" ++ f.name ++ "]]"

def entries (f : FileInfo) : Entries := [
  ("name", .text f.name),
  ("path", .text f.path),
  ("folder", .text f.folder),
  ("ext", .text f.extension),
  ("size", .int f.size),
  ("ctime", .ofMoment? f.created),
  ("mtime", .ofMoment? f.modified),
  ("tags", .texts f.tags),
  ("links", .texts f.links)]

def aliases : List (String × String) := [
  ("basename", "name"), ("extension", "ext"), ("createdAt", "ctime"), ("created_at", "ctime"),
  ("modifiedAt", "mtime"), ("modified_at", "mtime")]

def get (f : FileInfo) (name : String) : Value :=
  if name = "link" then .text f.link
  else f.entries.get ((aliases.lookup name).getD name)

end FileInfo

end NoteQuery
