import NoteQuery.Text.Blank
import NoteQuery.Value

/-!
Filters of a query in their one form: an expression that is not blank, or a list of filters that
all have to pass, some of which has to pass, or none of which may pass. `ofValue` reads them; only
the last kind may leave out the list around a single filter.
-/

namespace NoteQuery

inductive Combinator where
  | and
  | or
  | not
  deriving DecidableEq, Repr

inductive Filter where
  | test (expression : String)
  | combine (c : Combinator) (filters : List Filter)
  deriving Repr, Inhabited

inductive FilterCause where
  | blank
  | notOneKey
  | unknownCombinator (name : String)
  | notList
  | notFilter (kind : String)
  deriving DecidableEq, Repr

structure FilterError where
  location : String
  cause : FilterCause
  deriving DecidableEq, Repr

namespace Combinator

def name : Combinator → String
  | and => "and"
  | or => "or"
  | not => "not"

def all : List Combinator := [and, or, not]

def ofName? (name : String) : Option Combinator := all.find? (·.name == name)

end Combinator

namespace FilterError

def message (e : FilterError) : String :=
  e.location ++
    match e.cause with
    | .blank => ": filter expression must not be empty"
    | .notOneKey =>
      ": filter object must have exactly one of " ++
        ", ".intercalate (Combinator.all.map Combinator.name)
    | .unknownCombinator name => ": unknown filter combinator '" ++ name ++ "'"
    | .notList => ": expected a list of filters"
    | .notFilter kind => ": expected a string or an and/or/not object, got " ++ kind

end FilterError

namespace Filter

mutual

/-- The filter that a value spells; `location` says in messages where the value stands. -/
def ofValue (location : String) : Value → Except FilterError Filter
  | .text s => if Text.isBlankText s then .error ⟨location, .blank⟩ else .ok (test s)
  | .map [(key, .list items)] =>
    match Combinator.ofName? key with
    | some c => (ofItems (location ++ "." ++ key) 0 items).map (combine c)
    | none => .error ⟨location, .unknownCombinator key⟩
  | .map [(key, v)] =>
    match Combinator.ofName? key with
    | some .not =>
      (ofValue (location ++ "." ++ key ++ "[0]") v).map fun f => combine .not [f]
    | some _ => .error ⟨location ++ "." ++ key, .notList⟩
    | none => .error ⟨location, .unknownCombinator key⟩
  | .map _ => .error ⟨location, .notOneKey⟩
  | v => .error ⟨location, .notFilter v.kindName⟩

def ofItems (location : String) (i : Nat) : List Value → Except FilterError (List Filter)
  | [] => .ok []
  | item :: items => do
    let first ← ofValue (location ++ "[" ++ toString i ++ "]") item
    let others ← ofItems location (i + 1) items
    .ok (first :: others)

end

mutual

def toValue : Filter → Value
  | test s => .text s
  | combine c filters => .map [(c.name, .list (toValues filters))]

def toValues : List Filter → List Value
  | [] => []
  | f :: fs => toValue f :: toValues fs

end

end Filter

end NoteQuery
