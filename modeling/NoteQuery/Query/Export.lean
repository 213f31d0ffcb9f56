import NoteQuery.Query.Cell
import NoteQuery.Query.Options
import NoteQuery.Query.Result

/-!
Result sets as CSV, as JSON and as a markdown table. Without a choice of columns a table has the
properties of its first document.
-/

namespace NoteQuery

inductive Format where
  | csv
  | json
  | markdown
  deriving DecidableEq, Repr

inductive ExportError where
  | unsupported (format : String)
  | fault (f : Fault)
  deriving DecidableEq, Repr

namespace Format

def name : Format → String
  | csv => "csv"
  | json => "json"
  | markdown => "markdown"

def all : List Format := [csv, json, markdown]

/-- The format of a name in any letter case; one has a short name too. -/
def ofName? (name : String) : Option Format :=
  let word := Text.lower name
  if word = "md" then some markdown else all.find? (·.name == word)

end Format

namespace ExportError

def unsupportedText (format : String) : String :=
  "Unsupported export format: " ++ format ++ " (supported: " ++
    ", ".intercalate (Format.all.map Format.name) ++ ")"

end ExportError

namespace ResultSet

/-- The columns that an export takes: those of the options, else the view's. -/
def preferred (r : ResultSet) (options : Options) : List String :=
  match options.columns with
  | some (c :: cs) => c :: cs
  | _ => (r.view.bind View.columns).getD []

/-- The columns of a table: those chosen, else the properties of the first document. -/
def columns (r : ResultSet) (chosen : List String) : List String :=
  match chosen, r.documents with
  | [], d :: _ => d.properties.names
  | chosen, _ => chosen

def cells (cell : Value → Except Fault String) (properties : Entries) :
    List String → Except Fault (List String)
  | [] => .ok []
  | column :: columns => do
    let first ← cell (properties.get column)
    let others ← cells cell properties columns
    .ok (first :: others)

def rows (cell : Value → Except Fault String) (join : List String → String)
    (columns : List String) : List ResultDocument → Except Fault (List String)
  | [] => .ok []
  | d :: documents => do
    let first ← cells cell d.properties columns
    let others ← rows cell join columns documents
    .ok (join first :: others)

def toCsv (r : ResultSet) (chosen : List String) : Except Fault String :=
  match r.columns chosen with
  | [] => .ok ""
  | columns => do
    let join := ",".intercalate
    let records ← rows Cell.csv join columns r.documents
    .ok ("\n".intercalate (join (columns.map Cell.csvField) :: records))

def documentEntries (chosen : List String) (d : ResultDocument) : Entries :=
  let properties := match chosen with
    | [] => d.properties
    | chosen => Entries.ofList (chosen.map fun column => (column, d.properties.get column))
  [("path", .text d.path), ("name", .text d.name), ("properties", .map properties)] ++
    (match d.content with
    | some content => [("content", .text content)]
    | none => [])

def toJson (r : ResultSet) (chosen : List String) : Except Fault String :=
  (Value.list (r.documents.map fun d => .map (documentEntries chosen d))).jsonIndented .full ""

def tableRow (cells : List String) : String := "| " ++ " | ".intercalate cells ++ " |"

def toMarkdown (r : ResultSet) (chosen : List String) : Except Fault String := do
  let title := match r.view with
    | some v => "# Base Export: " ++ v.name
    | none => "# Base Export"
  let head := [title, "", "Total results: " ++ toString r.total, ""]
  match r.columns chosen with
  | [] => .ok ("\n".intercalate (head ++ ["_No results_"]))
  | columns => do
    let body ← rows Cell.markdown tableRow columns r.documents
    .ok ("\n".intercalate (head ++ [tableRow (columns.map Cell.markdownCell),
      tableRow (columns.map fun _ => "---")] ++ body))

def render (r : ResultSet) (format : Format) (chosen : List String) : Except Fault String :=
  match format with
  | .csv => r.toCsv chosen
  | .json => r.toJson chosen
  | .markdown => r.toMarkdown chosen

def renderAs (r : ResultSet) (format : String) (chosen : List String) :
    Except ExportError String :=
  match Format.ofName? format with
  | none => .error (.unsupported format)
  | some format =>
    match r.render format chosen with
    | .ok text => .ok text
    | .error f => .error (.fault f)

end ResultSet

end NoteQuery
