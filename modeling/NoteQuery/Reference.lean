import NoteQuery.Text.Case
import NoteQuery.Text.Search

/-!
The reference of the expression language: its functions by category, the properties that it can
read, and advice on common errors. `markdown` sets the whole reference as one text.
-/

namespace NoteQuery.Reference

inductive Category where
  | general
  | date
  | number
  | text
  | list
  | file
  deriving DecidableEq, Repr

namespace Category

def name : Category → String
  | general => "global"
  | date => "date"
  | number => "number"
  | text => "string"
  | list => "list"
  | file => "file"

def title : Category → String
  | general => "Global"
  | date => "Date"
  | number => "Number"
  | text => "String"
  | list => "List"
  | file => "File"

def all : List Category := [general, date, number, text, list, file]

end Category

structure FunctionEntry where
  name : String
  usage : String
  description : String
  examples : List String
  category : Category
  deriving Repr

def functions : List FunctionEntry := [
  ⟨"date", "date(value)",
    "Parse a string into a date; dates pass through",
    ["date(\"2025-03-15\")", "date(due_date)"], .date⟩,
  ⟨"now", "now()",
    "Current date and time", ["now()", "(due_date - now()) / 86400000"], .date⟩,
  ⟨"today", "today()",
    "Today's date at midnight", ["today()", "start_date >= today()"], .date⟩,
  ⟨"iff", "iff(condition, a, b)",
    "Conditional value ('if' is reserved)", ["iff(priority > 3, \"High\", \"Low\")"], .general⟩,
  ⟨"choice", "choice(condition, a, b)",
    "Alternative name for iff", ["choice(completed, \"Done\", \"Pending\")"], .general⟩,
  ⟨"number", "number(value)",
    "Convert a value to a number", ["number(\"42\")", "number(priority)"], .general⟩,
  ⟨"string", "string(value)",
    "Convert a value to a string", ["string(42)", "string(team_size) + \" people\""], .general⟩,
  ⟨"list", "list(value)",
    "Wrap a non-list value in a list", ["list(tags)", "list(\"single-item\")"], .list⟩,
  ⟨"contains", "contains(collection, value)",
    "Membership in a list or substring test", ["contains(tags, \"dev\")"], .list⟩,
  ⟨"length", "length(value)",
    "Length of a string or list", ["length(tags)"], .list⟩,
  ⟨"lower", "lower(text)",
    "Lowercase a string", ["lower(status)"], .text⟩,
  ⟨"upper", "upper(text)",
    "Uppercase a string", ["upper(status)"], .text⟩,
  ⟨"min", "min(...values)",
    "Smallest value", ["min(priority, 5)"], .number⟩,
  ⟨"max", "max(...values)",
    "Largest value", ["max(completion, 0)"], .number⟩,
  ⟨"abs", "abs(number)",
    "Absolute value", ["abs(days_overdue)"], .number⟩,
  ⟨"round", "round(number, digits?)",
    "Round half up to the given digits", ["round(3.14159, 2)", "round(completion / 10)"], .number⟩,
  ⟨"file.hasTag", "file.hasTag(...tags)",
    "True if the file has any of the tags",
    ["file.hasTag(\"project\")", "file.hasTag(\"#a\", \"b\")"], .file⟩,
  ⟨"file.inFolder", "file.inFolder(path)",
    "True if the file is inside the folder", ["file.inFolder(\"projects\")"], .file⟩,
  ⟨"file.hasLink", "file.hasLink(target)",
    "True if the file links to the target", ["file.hasLink(\"[[Roadmap]]\")"], .file⟩,
  ⟨"file.hasProperty", "file.hasProperty(name)",
    "True if the frontmatter has the key", ["file.hasProperty(\"due\")"], .file⟩
]

/-- What can be read of a note, by the scope that it stands in. -/
def properties : List (String × List (String × String)) := [
  ("file", [
    ("file.name", "File name without extension"),
    ("file.path", "Full path to the file"),
    ("file.folder", "Parent folder path"),
    ("file.ext", "File extension"),
    ("file.size", "File size in bytes"),
    ("file.ctime", "Creation time"),
    ("file.mtime", "Modification time"),
    ("file.tags", "Tags of the file"),
    ("file.links", "Outgoing links"),
    ("file.link", "Wiki link to the file")]),
  ("note", [
    ("note.<property>", "Any frontmatter property"),
    ("<property>", "Bare names resolve against the frontmatter")]),
  ("formula", [("formula.<name>", "Value of a formula")])]

/-- Advice by a part of the error's message; the first part that occurs counts. -/
def advice : List (String × String) := [
  ("Unexpected '='", "Use '==' to compare values."),
  ("reserved word", "Use iff() or choice() instead of if()."),
  ("Unknown function", "Check the function name; see the function reference."),
  ("Unterminated string", "Close every string with the quote it was opened with."),
  ("Unexpected token", "Check operators, commas and parentheses."),
  ("Cannot apply", "Arithmetic needs numbers; convert with number() or date()."),
  ("Division by zero", "Guard the divisor, e.g. iff(total > 0, done / total, 0)."),
  ("Circular formula", "Formulas must not reference each other in a cycle."),
  ("on null", "The value is missing on this note; check it with file.hasProperty() first.")
]

structure Hint where
  error : String
  advice : String
  suggestions : List (String × String)
  deriving Repr

open NoteQuery.Text

def function? (name : String) : Option FunctionEntry := functions.find? (·.name == name)

def ofCategory (category : Category) : List FunctionEntry :=
  functions.filter (·.category == category)

def ofCategoryName (name : String) : List FunctionEntry :=
  functions.filter (·.category.name == name)

def suggestionsFor (expression : String) : List (String × String) :=
  let tight := String.ofList (expression.toList.filter (· != ' '))
  (if contains (lower expression) "date" then
    [("Wrap date strings in date(): date(\"2025-03-15\")", "(date(due_date) - now()) / 86400000")]
  else []) ++
  (if contains tight "if(" && !contains expression "iff(" then
    [("Use \"iff\" or \"choice\" instead of \"if\"", "iff(status == \"active\", \"Yes\", \"No\")")]
  else [])

def hint (message : String) (expression : Option String) : Hint where
  error := message
  advice :=
    match advice.find? (contains message ·.1) with
    | some (_, text) => text
    | none => "Check expression syntax and property names."
  suggestions := (expression.map suggestionsFor).getD []

private def functionLines (f : FunctionEntry) : List String :=
  ["### " ++ f.usage, f.description, ""] ++ f.examples.map (fun e => "- `" ++ e ++ "`") ++ [""]

private def categoryLines (category : Category) : List String :=
  match ofCategory category with
  | [] => []
  | entries => ["## " ++ category.title ++ " Functions", ""] ++ entries.flatMap functionLines

private def propertyLines (scope : String × List (String × String)) : List String :=
  ("### " ++ scope.1 ++ " properties") ::
    scope.2.map (fun p => "- `" ++ p.1 ++ "`: " ++ p.2) ++ [""]

def markdown : String :=
  "\n".intercalate
    (["# Expression Reference", ""] ++ Category.all.flatMap categoryLines ++
      ["## Property References", ""] ++ properties.flatMap propertyLines)

end NoteQuery.Reference
