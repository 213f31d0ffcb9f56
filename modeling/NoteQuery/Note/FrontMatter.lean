import NoteQuery.Json.Read
import NoteQuery.Text.Blank
import NoteQuery.Yaml.Data

/-!
The front matter of a note: properties in a block at the top of its text, between two boundary
lines. Lines of dashes enclose YAML, lines of one brace enclose the entries of a JSON object. A text
without a whole block is body alone, and so is one whose block cannot be read.
-/

namespace NoteQuery.FrontMatter

open NoteQuery.Text

inductive Style where
  | yaml
  | json
  deriving DecidableEq, Repr

inductive Failure where
  /-- A name of a property that no property can have. -/
  | badKey
  | yaml (failure : Yaml.Failure)
  deriving DecidableEq, Repr

/-- What follows the dashes of a boundary: its blanks are passed over, blank lines too, as far as a
line end or the end of the text. -/
private def afterDashes? (text : List Char) : Option (List Char) :=
  let blanks := text.takeWhile isBlank
  if blanks.length = text.length then some []
  else if blanks.contains '\n' then
    let kept := blanks.reverse.takeWhile (· != '\n')
    some ('\n' :: (kept.reverse ++ text.drop blanks.length))
  else none

def boundary? : Style → List Char → Option (List Char)
  | .yaml, '-' :: '-' :: '-' :: rest => afterDashes? (rest.dropWhile (· == '-'))
  | .yaml, _ => none
  | .json, c :: rest =>
    if (c == '\x7b' || c == '\x7d') && rest.head?.all (· == '\n') then some rest else none
  | .json, [] => none

/-- The text before and after the next boundary. -/
def cut (style : Style) (atLineStart : Bool) : List Char → Option (List Char × List Char)
  | [] => none
  | c :: rest =>
    match if atLineStart then boundary? style (c :: rest) else none with
    | some after => some ([], after)
    | none => (cut style (c == '\n') rest).map fun (before, after) => (c :: before, after)

def block? (text : List Char) : Option (Style × List Char × List Char) :=
  [Style.yaml, .json].findSome? fun style => do
    let rest ← boundary? style text
    let (inside, body) ← cut style false rest
    some (style, inside, body)

/-- Names that a property at the top cannot have. -/
def reserved : List String := ["content", "handler", "self"]

def propertyName? : Value → Option String
  | .text name => if reserved.contains name then none else some name
  | _ => none

/-- The properties of a block; nothing when it cannot be read. -/
def properties? (style : Style) (inside : List Char) : Except Failure (Option Entries) :=
  match style with
  | .json =>
    match Json.ofText? (String.ofList ('\x7b' :: inside ++ ['\x7d'])) with
    | some (.map entries) =>
      if entries.any fun entry => reserved.contains entry.1 then .error .badKey
      else .ok (some entries)
    | _ => .ok none
  | .yaml =>
    match Yaml.Data.ofText .loose (String.ofList inside) with
    | .error .malformed | .error .badValue => .ok none
    | .error failure => .error (.yaml failure)
    | .ok (.mapping pairs) =>
      match pairs.mapM fun (key, data) => (propertyName? key).map (·, data.toValue) with
      | some entries => .ok (some entries)
      | none => .error .badKey
    | .ok _ => .ok (some [])

def plainLines : List Char → List Char
  | [] => []
  | '\r' :: '\n' :: rest => '\n' :: plainLines rest
  | c :: rest => c :: plainLines rest

/-- The properties and the body of a text. A block that cannot be read leaves the text as it is. -/
def split (text : String) : Except Failure (Entries × String) := do
  let plain := trim (plainLines text.toList)
  match block? plain with
  | none => .ok ([], String.ofList plain)
  | some (style, inside, body) =>
    match ← properties? style inside with
    | some entries => .ok (entries, String.ofList (trim body))
    | none => .ok ([], text)

end NoteQuery.FrontMatter
