import NoteQuery.Query.Definition
import NoteQuery.Yaml.Data

/-!
Query definitions written in YAML.
-/

namespace NoteQuery

inductive DefinitionTextError where
  | definition (e : DefinitionError)
  /-- Something in the text is well written and cannot be converted. -/
  | failure (failure : Yaml.Failure)
  deriving Repr

namespace Definition

/-- The definition that a text spells. Null is as good as no text. -/
def ofText (text : String) : Except DefinitionTextError Definition :=
  match Yaml.Data.ofText .strict text with
  | .error .malformed => .error (.definition .malformed)
  | .error failure => .error (.failure failure)
  | .ok data =>
    match data.toValue with
    | .null => .error (.definition .empty)
    | v =>
      match ofValue v with
      | .ok d => .ok d
      | .error e => .error (.definition e)

end Definition

end NoteQuery
