import NoteQuery.Note.Document
import NoteQuery.Text.Case
import NoteQuery.Value.Text

/-!
When a note has a tag, a link or a property, and when it lies in a folder. Tags are compared
without the number signs in front and without regard to case, links without their brackets.
-/

namespace NoteQuery

open NoteQuery.Text

def normalTag (tag : String) : String :=
  lower (String.ofList ((trim tag.toList).dropWhile (· == '#')))

def bareLink (target : String) : String :=
  let cs := trim target.toList
  let cs := (dropPrefix? ['[', '['] cs).getD cs
  String.ofList (if endsWith cs [']', ']'] then cs.dropLast.dropLast else cs)

/-- One of the wanted tags is among the tags; null is no tag. -/
def hasTag (tags : List String) : List Value → Except Fault Bool
  | [] => .ok false
  | .null :: wanted => hasTag tags wanted
  | tag :: wanted => do
    let shown ← tag.display
    if (tags.map normalTag).contains (normalTag shown) then .ok true else hasTag tags wanted

def isIn (path : String) (folder : Value) : Except Fault Bool := do
  let shown ← folder.display
  .ok (Path.isInFolder path shown)

def hasLink (links : List String) (target : Value) : Except Fault Bool := do
  let shown ← target.display
  .ok ((links.map bareLink).contains (bareLink shown))

/-- The property is given, be it null. -/
def hasProperty (properties : Entries) (name : Value) : Except Fault Bool := do
  let shown ← name.display
  .ok (properties.has shown)

end NoteQuery
