import NoteQuery.Note.Document
import NoteQuery.Settings.Basic
import NoteQuery.Value.Number

/-!
What an expression sees of one note: its file, its properties as they are written, and the same
properties with dates read. A day becomes its first moment, a moment loses its offset, and a text
under the name of a date becomes the moment that it spells, if it spells one.
-/

namespace NoteQuery

structure Context where
  path : String
  file : FileInfo
  frontmatter : Entries
  note : Entries
  content : Option String
  deriving Repr

def Value.withDate (isDate : Bool) (v : Value) : Except Fault Value :=
  let asMoment : Except Fault Value := do
    match ← v.moment? with
    | some m => .ok (.moment m)
    | none => .ok v
  match v with
  | .date _ => asMoment
  | .moment _ => asMoment
  | .text _ => if isDate then asMoment else .ok v
  | _ => .ok v

namespace Entries

def withDates (settings : Settings) : Entries → Except Fault Entries
  | [] => .ok []
  | (name, value) :: rest => do
    let value ← value.withDate (settings.isDateProperty name)
    let rest ← withDates settings rest
    .ok ((name, value) :: rest)

end Entries

namespace Context

/-- The context of a document. It fails when the offset of a date leads out of the calendar. -/
def ofDocument (d : Document) (metadata : Option Metadata) (settings : Settings)
    (content : Option String) : Except Fault Context := do
  let note ← d.properties.withDates settings
  .ok {
    path := d.path
    file := .ofDocument d metadata
    frontmatter := d.properties
    note := note
    content := content }

end Context

end NoteQuery
