import NoteQuery.Note.Document
import NoteQuery.Query.Definition
import NoteQuery.Text.Quoted

/-!
Results of a query: the documents that are returned, with their properties and the values of their
formulas, and how many there were before they were cut to a page.
-/

namespace NoteQuery

structure ResultDocument where
  path : String
  name : String
  /-- The columns that were asked for, or all properties. -/
  properties : Entries
  frontmatter : Entries
  file : FileInfo
  formulas : Entries
  content : Option String
  deriving Repr

structure ResultSet where
  documents : List ResultDocument
  /-- Documents that passed the filters, before limit and page. -/
  total : Nat
  view : Option View
  paging : Option (Nat × Nat)
  hasMore : Bool
  skipped : Nat
  deriving Repr

namespace ResultSet

def summary (r : ResultSet) : String :=
  let parts := ["documents=" ++ toString r.documents.length, "total=" ++ toString r.total] ++
    (match r.view with
    | some v => ["view=" ++ Text.quoted v.name]
    | none => []) ++
    (match r.paging with
    | some (page, _) => ["page=" ++ toString page]
    | none => []) ++
    (if r.skipped = 0 then [] else ["skipped=" ++ toString r.skipped])
  "ResultSet(" ++ ", ".intercalate parts ++ ")"

end ResultSet

end NoteQuery
