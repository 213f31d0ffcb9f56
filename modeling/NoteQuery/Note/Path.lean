import NoteQuery.Text.Blank
import NoteQuery.Text.Search

/-!
Paths of notes: components between slashes, behind a root of one or two slashes or none. Empty
components and single dots say nothing. The last component is a file's name; behind its last dot
stands the extension, unless that dot is its first or last character.
-/

namespace NoteQuery

structure Path where
  root : String
  components : List String
  deriving DecidableEq, Repr

namespace Path

open NoteQuery.Text

/-- Exactly two slashes in front are a root of their own; any other number is the same root. -/
def ofText (text : String) : Path :=
  let cs := text.toList
  let slashes := (cs.takeWhile (· == '/')).length
  { root := if slashes = 0 then "" else if slashes = 2 then "//" else "/"
    components := ((pieces '/' cs).map String.ofList).filter fun c => c != "" && c != "." }

/-- The written form. The path without any component is a single dot. -/
def text (p : Path) : String :=
  if p.root = "" ∧ p.components = [] then "."
  else p.root ++ "/".intercalate p.components

def name (p : Path) : String := p.components.getLastD ""

def parent (p : Path) : Path := { p with components := p.components.dropLast }

def child (p : Path) (component : String) : Path :=
  { p with components := p.components ++ [component] }

/-- Goes on from this path along another, which may begin anew at a root. -/
def join (p q : Path) : Path :=
  if q.root = "" then { p with components := p.components ++ q.components } else q

/-- The folder of a file; empty when the path is a name alone. -/
def folder (p : Path) : String :=
  if p.parent.text = "." then "" else p.parent.text

/-- The characters before and behind the last dot of a name, when it has characters on both sides. -/
def cutExtension? (name : String) : Option (List Char × List Char) :=
  let reversed := name.toList.reverse
  let after := reversed.takeWhile (· != '.')
  let before := (reversed.dropWhile (· != '.')).drop 1
  if reversed.contains '.' && !after.isEmpty && !before.isEmpty then
    some (before.reverse, after.reverse)
  else none

def stem (p : Path) : String :=
  match cutExtension? p.name with
  | some (before, _) => String.ofList before
  | none => p.name

def extension (p : Path) : String :=
  match cutExtension? p.name with
  | some (_, after) => String.ofList after
  | none => ""

/-- Slashes lead down a path; a backslash is taken for one. -/
def forwardSlashes (text : List Char) : List Char :=
  text.map fun c => if c = '\\' then '/' else c

/-- A folder's path without slashes in front and with one at the end. The topmost folder is empty. -/
def folderText (folder : String) : String :=
  let cs := (trim (forwardSlashes folder.toList)).dropWhile (· == '/')
  if cs.isEmpty then ""
  else String.ofList (if endsWith cs ['/'] then cs else cs ++ ['/'])

def isInFolder (path folder : String) : Bool :=
  let start := (folderText folder).toList
  start.isEmpty || startsWith ((forwardSlashes path.toList).dropWhile (· == '/')) start

end Path

end NoteQuery
