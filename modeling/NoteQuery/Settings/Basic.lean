import NoteQuery.Text.Search

/-!
Settings of queries: which properties are read as dates, which files count as notes, and how long
the values of formulas are kept.
-/

namespace NoteQuery

/-- How long the value of a formula is kept. -/
inductive Keep where
  /-- Until the next query begins. -/
  | query
  /-- Until it is dropped by name. -/
  | persistent
  deriving DecidableEq, Repr

namespace Keep

def text : Keep → String
  | query => "query"
  | persistent => "persistent"

end Keep

structure Settings where
  logLevel : String := "INFO"
  dateCoercion : Bool := true
  dateNames : List String := ["due", "start", "end", "created", "modified"]
  dateFragments : List String := ["date", "Date"]
  extensions : List String := ["md"]
  keep : Keep := .query
  /-- Documents between two pauses of a run; it has no effect on results. -/
  yieldEvery : Int := 50
  deriving Repr

namespace Settings

/-- Texts under this property name are read as dates. -/
def isDateProperty (s : Settings) (name : String) : Bool :=
  s.dateCoercion && (s.dateNames.contains name || s.dateFragments.any (Text.contains name))

end Settings

end NoteQuery
