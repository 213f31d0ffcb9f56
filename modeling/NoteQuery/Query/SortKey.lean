import NoteQuery.Checked
import NoteQuery.Text.Case
import NoteQuery.Value.Text

/-!
Keys of a sort order: a path and a direction. A text may end in a word for the direction; a map
names both. Other values are no entries of an order.
-/

namespace NoteQuery

structure SortKey where
  path : String
  descending : Bool
  deriving DecidableEq, Repr

inductive SortError where
  | notEntry (shown : String)
  | fault (f : Fault)
  | problems (problems : List Problem)
  deriving Repr

namespace SortError

def message : SortError → String
  | notEntry shown => "Invalid sort entry: " ++ shown
  | fault _ => "Exceeds the limit (4300 digits) for integer string conversion; " ++
    "use sys.set_int_max_str_digits() to increase the limit"
  | problems all => Problem.messages all

end SortError

namespace SortKey

open NoteQuery.Text

def direction (k : SortKey) : String := if k.descending then "desc" else "asc"

def directions : List (String × Bool) := [("asc", false), ("desc", true)]

/-- Cuts off the last word of a text without blanks at its ends, with the blanks before it. -/
def cutLastWord (text : List Char) : List Char × List Char :=
  (dropEndWhile isBlank (dropEndWhile (! isBlank ·) text),
    (text.reverse.takeWhile (! isBlank ·)).reverse)

/-- Path and direction as an entry gives them, before they are checked. -/
def fields : Value → Except SortError (Value × Value)
  | .text s =>
    let text := trim s.toList
    let (front, word) := cutLastWord text
    let word := lower (String.ofList word)
    if !front.isEmpty && (directions.lookup word).isSome then
      .ok (.text (String.ofList front), .text word)
    else .ok (.text (String.ofList text), .text "asc")
  | .map entries =>
    let direction := ((Entries.find? entries "direction").orElse fun _ =>
      Entries.find? entries "order").getD (.text "asc")
    let path := ((Entries.find? entries "property").orElse fun _ =>
      Entries.find? entries "path").getD (.text "")
    match direction.plainText with
    | .ok word => .ok (path, .text (lower word))
    | .error f => .error (.fault f)
  | v =>
    match v.quoted with
    | .ok shown => .error (.notEntry shown)
    | .error f => .error (.fault f)

def ofFields (path direction : Value) : Checked SortKey :=
  (Checked.both (Checked.within "path" (Checked.fullText path))
    (Checked.within "direction" (Checked.choice directions direction))).map
      fun (path, descending) => ⟨path, descending⟩

def ofValue (v : Value) : Except SortError SortKey := do
  let (path, direction) ← fields v
  match ofFields path direction with
  | .ok key => .ok key
  | .error problems => .error (.problems problems)

def toValue (k : SortKey) : Value :=
  .map [("path", .text k.path), ("direction", .text k.direction)]

end SortKey

end NoteQuery
