import NoteQuery.Note.Path
import NoteQuery.Text.Utf8
import NoteQuery.Value

/-!
Files and folders as they stand on a disk. A path leads through folders, from the topmost one or
from the current one; two dots lead back up. Text files are in UTF-8, and each of their line ends is
read as one line feed.
-/

namespace NoteQuery

inductive ReadFailure where
  | missing
  | isFolder
  | throughFile
  | notText (e : Text.DecodeError)
  | refused
  deriving DecidableEq, Repr

namespace ReadFailure

def message (path : String) : ReadFailure → String
  | missing => "[Errno 2] No such file or directory: " ++ Text.quoted path
  | isFolder => "[Errno 21] Is a directory: " ++ Text.quoted path
  | throughFile => "[Errno 20] Not a directory: " ++ Text.quoted path
  | notText e => e.message
  | refused => "[Errno 13] Permission denied: " ++ Text.quoted path

end ReadFailure

inductive FileTree where
  | file (bytes : ByteArray) (changed : Option Moment)
  | folder (entries : List (String × FileTree))

namespace FileTree

def empty : FileTree := folder []

def plainLineEnds : List Char → List Char
  | [] => []
  | '\r' :: '\n' :: rest => '\n' :: plainLineEnds rest
  | '\r' :: rest => '\n' :: plainLineEnds rest
  | c :: rest => c :: plainLineEnds rest

def textOf (bytes : ByteArray) : Except ReadFailure String :=
  match Text.decodeUtf8 bytes with
  | .ok text => .ok (String.ofList (plainLineEnds text.toList))
  | .error e => .error (.notText e)

/-- What a path leads to; `trail` holds the folders above, the nearest first. -/
def walk (trail : List FileTree) (here : FileTree) : List String → Except ReadFailure FileTree
  | [] => .ok here
  | name :: names =>
    match here with
    | file .. => .error .throughFile
    | folder entries =>
      if name = ".." then
        match trail with
        | above :: trail => walk trail above names
        | [] => .error .missing
      else
        match entries.lookup name with
        | some below => walk (here :: trail) below names
        | none => .error .missing

def put (here new : FileTree) : List String → FileTree
  | [] => new
  | name :: names =>
    let entries := match here with
      | folder entries => entries
      | file .. => []
    folder (Entries.put name (put ((entries.lookup name).getD empty) new names) entries)

def remove (here : FileTree) : List String → FileTree
  | [] => here
  | name :: names =>
    match here with
    | file bytes changed => file bytes changed
    | folder entries =>
      match entries.lookup name, names with
      | none, _ => here
      | some _, [] => folder (entries.filter fun entry => entry.1 != name)
      | some below, names => folder (Entries.put name (remove below names) entries)

def isHidden (name : String) : Bool := name.toList.head? = some '.'

structure Found where
  names : List String
  bytes : ByteArray
  changed : Option Moment

/-- What names stand for, in the order of the names. -/
def byName {α : Type} (entries : List (String × α)) : List α :=
  (entries.mergeSort fun a b => decide (a.1 ≤ b.1)).map Prod.snd

def filesHere (wanted : String → Bool) (trail : List String) :
    List (String × FileTree) → List (String × Found)
  | [] => []
  | (name, file bytes changed) :: entries =>
    if wanted name then
      (name, ⟨trail ++ [name], bytes, changed⟩) :: filesHere wanted trail entries
    else filesHere wanted trail entries
  | (_, folder _) :: entries => filesHere wanted trail entries

mutual

/-- The files below a folder that are wanted: first those in it, then those of each folder in it
that is not hidden, both in the order of their names. -/
def filesBelow (wanted : String → Bool) (trail : List String) : FileTree → List Found
  | file .. => []
  | folder entries =>
    byName (filesHere wanted trail entries) ++ (byName (foldersBelow wanted trail entries)).flatten

def foldersBelow (wanted : String → Bool) (trail : List String) :
    List (String × FileTree) → List (String × List Found)
  | [] => []
  | (_, file ..) :: entries => foldersBelow wanted trail entries
  | (name, folder below) :: entries =>
    if isHidden name then foldersBelow wanted trail entries
    else
      (name, filesBelow wanted (trail ++ [name]) (folder below)) ::
        foldersBelow wanted trail entries

end

end FileTree

/-- A tree of files with the folder in it where paths without a root begin. -/
structure Disk where
  top : FileTree
  here : List String

namespace Disk

open FileTree

def names (d : Disk) (p : Path) : List String :=
  if p.root = "" then d.here ++ p.components else p.components

def find (d : Disk) (p : Path) : Except ReadFailure FileTree := walk [] d.top (d.names p)

def isFolder (d : Disk) (p : Path) : Bool :=
  match d.find p with
  | .ok (folder _) => true
  | _ => false

def readText (d : Disk) (p : Path) : Except ReadFailure String := do
  match ← d.find p with
  | file bytes _ => textOf bytes
  | folder _ => .error .isFolder

def put (d : Disk) (p : Path) (new : FileTree) : Disk :=
  { d with top := d.top.put new (d.names p) }

def remove (d : Disk) (p : Path) : Disk := { d with top := d.top.remove (d.names p) }

def write? (d : Disk) (p : Path) (text : String) : Option Disk :=
  if d.isFolder p.parent && !d.isFolder p then some (d.put p (file text.toUTF8 none)) else none

end Disk

end NoteQuery
