import NoteQuery.Formula
import NoteQuery.Query.Filter
import NoteQuery.Query.SortKey

/-!
Query definitions: filters and formulas that hold for every view, names under which properties are
shown, and at least one view with filters, order, limit and columns of its own. Fields that a
definition does not know are passed over.
-/

namespace NoteQuery

inductive ViewKind where
  | table
  | cards
  | list
  deriving DecidableEq, Repr

structure View where
  name : String
  kind : ViewKind
  filter : Option Filter
  order : List SortKey
  limit : Option Nat
  columns : Option (List String)
  includeContent : Bool
  deriving Repr

structure Definition where
  filter : Option Filter
  formulas : Formulas
  properties : List (String × Option String)
  views : List View
  deriving Repr

inductive DefinitionError where
  | unreadable (path reason : String)
  /-- The text is no document of the format that definitions are written in. -/
  | malformed
  | empty
  | notMap (kind : String)
  | invalid (problems : List Problem)
  deriving Repr

structure UnknownView where
  name : String
  available : List String
  deriving DecidableEq, Repr

namespace DefinitionError

def message : DefinitionError → String
  | unreadable path reason => "Cannot read query definition " ++ path ++ ": " ++ reason
  | malformed => "Invalid YAML in query definition"
  | empty => "Query definition is empty"
  | notMap kind => "Query definition must be a mapping, got " ++ kind
  | invalid problems => "Invalid query definition: " ++ Problem.messages problems

end DefinitionError

namespace UnknownView

def message (e : UnknownView) : String :=
  "View not found: " ++ e.name ++
    if e.available.isEmpty then ""
    else " (available: " ++ ", ".intercalate e.available ++ ")"

end UnknownView

namespace ViewKind

def name : ViewKind → String
  | table => "table"
  | cards => "cards"
  | list => "list"

def all : List ViewKind := [table, cards, list]

/-- The kind that a value names; one more word is understood for cards. -/
def check : Value → Checked ViewKind
  | .text "card" => .ok cards
  | v => Checked.choice (all.map fun k => (k.name, k)) v

end ViewKind

open Checked

def checkFilter : Value → Checked (Option Filter)
  | .null => .ok none
  | v =>
    match Filter.ofValue "filters" v with
    | .ok f => .ok (some f)
    | .error e => refuse (.rule e.message)

namespace SortKey

def fieldsOfAll : List Value → Except SortError (List (Value × Value))
  | [] => .ok []
  | v :: rest => do
    let first ← fields v
    let others ← fieldsOfAll rest
    .ok (first :: others)

def keysFrom (i : Nat) : List (Value × Value) → Checked (List SortKey)
  | [] => .ok []
  | (path, direction) :: rest =>
    (both (within (toString i) (ofFields path direction)) (keysFrom (i + 1) rest)).map
      fun (first, others) => first :: others

def checkOrder (v : Value) : Checked (List SortKey) :=
  let entries? : Option (List Value) := match v with
    | .null => some []
    | .text s => some [.text s]
    | .map entries => some [.map entries]
    | .list items => some items
    | _ => none
  match entries? with
  | none => refuse (.rule "order must be a list of property paths")
  | some entries =>
    match fieldsOfAll entries with
    | .ok keys => keysFrom 0 keys
    | .error e => refuse (.rule e.message)

end SortKey

namespace View

def check : Value → Checked View
  | .map entries =>
    (both (field entries "name" fullText)
      (both (fieldOr entries ["kind", "type"] .table ViewKind.check)
        (both (fieldOr entries ["filters"] none checkFilter)
          (both (fieldOr entries ["order"] [] SortKey.checkOrder)
            (both (fieldOr entries ["limit"] none (optional (wholeFrom 0)))
              (both (fieldOr entries ["columns"] none (optional (list text)))
                (fieldOr entries ["include_content", "showContent"] false truth))))))).map
      fun (name, kind, filter, order, limit, columns, includeContent) =>
        ⟨name, kind, filter, order, limit.map Int.toNat, columns, includeContent⟩
  | _ => refuse (.notRecord "ViewDefinition")

end View

def checkViews (v : Value) : Checked (List View) :=
  match list View.check v with
  | .ok [] => refuse .emptyList
  | result => result

def blankFormula? : Entries → Option String
  | [] => none
  | (name, .text s) :: rest => if Text.isBlankText s then some name else blankFormula? rest
  | (name, _) :: _ => some name

def checkFormulas : Value → Checked Formulas
  | .null => .ok []
  | .map entries =>
    match blankFormula? entries with
    | some name => refuse (.rule ("formula '" ++ name ++ "' must be a non-empty expression string"))
    | none => .ok (entries.filterMap fun (name, v) =>
        match v with
        | .text s => some (name, s)
        | _ => none)
  | _ => refuse (.rule "formulas must be a mapping of name to expression")

/-- The name under which a property is shown. Settings that hold nothing are passed over. -/
def checkShownName (v : Value) : Checked (Option String) :=
  match v with
  | .map entries => fieldOr entries ["display_name", "displayName"] none (optional text)
  | v => if v.truthy then refuse (.notRecord "PropertyConfig") else .ok none

def checkEach : Entries → Checked (List (String × Option String))
  | [] => .ok []
  | (name, v) :: rest =>
    (both (within name (checkShownName v)) (checkEach rest)).map
      fun (first, others) => (name, first) :: others

def checkProperties : Value → Checked (List (String × Option String))
  | .null => .ok []
  | .map entries => checkEach entries
  | _ => refuse (.rule "properties must be a mapping")

namespace Definition

def ofEntries (entries : Entries) : Checked Definition :=
  (both (fieldOr entries ["filters", "globalFilters", "global_filters"] none checkFilter)
    (both (fieldOr entries ["formulas"] [] checkFormulas)
      (both (fieldOr entries ["properties"] [] checkProperties)
        (field entries "views" checkViews)))).map
    fun (filter, formulas, properties, views) => ⟨filter, formulas, properties, views⟩

def ofValue : Value → Except DefinitionError Definition
  | .map entries =>
    match ofEntries entries with
    | .ok d => .ok d
    | .error problems => .error (.invalid problems)
  | v => .error (.notMap v.kindName)

def viewNames (d : Definition) : List String := d.views.map View.name

def view (d : Definition) (name : String) : Except UnknownView View :=
  match d.views.find? (·.name == name) with
  | some v => .ok v
  | none => .error ⟨name, d.viewNames⟩

def shownName (d : Definition) (column : String) : String :=
  match (d.properties.lookup column).join with
  | some shown => if shown.isEmpty then column else shown
  | none => column

end Definition

end NoteQuery
