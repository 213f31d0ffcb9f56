import NoteQuery.Proofs.Outcome
import NoteQuery.Query.Export

/-! The texts that a table shows. Under each column a document shows its property as it is displayed,
and nothing where that is null or absent. A table has one row of such texts for each document; how
they are escaped and joined is left to its format. -/
namespace NoteQuery

/-- The text of a document under a column. -/
def ResultDocument.Shows (d : ResultDocument) (column cell : String) : Prop :=
  match d.properties.find? column with
  | none => cell = ""
  | some .null => cell = ""
  | some v => v.display = .ok cell

/-- The rows of texts that the documents show under the columns. There are none when a value cannot be
displayed. -/
def ResultSet.Shows (r : ResultSet) (columns : List String) (table : List (List String)) : Prop :=
  List.Forall₂ (fun d row => List.Forall₂ d.Shows columns row) r.documents table

theorem ResultDocument.shows_iff {d : ResultDocument} {column cell : String} :
    d.Shows column cell ↔ (d.properties.get column).display = .ok cell := by
  unfold Shows Entries.get
  cases d.properties.find? column with
  | none => simp [Value.display, eq_comm]
  | some v =>
    cases v with
    | null => simp [Value.display, eq_comm]
    | _ => exact Iff.rfl

namespace ResultSet

variable {columns : List String}

theorem cells_shown (escape : String → String) {d : ResultDocument} {row : List String}
    (shown : List.Forall₂ d.Shows columns row) :
    cells (fun v => v.display.map escape) d.properties columns = .ok (row.map escape) := by
  induction shown with
  | nil => rfl
  | cons first _ ih =>
    rw [cells, ih, ResultDocument.shows_iff.mp first]
    rfl

theorem rows_shown (escape : String → String) (join : List String → String)
    {documents : List ResultDocument} {table : List (List String)}
    (shown : List.Forall₂ (fun d row => List.Forall₂ d.Shows columns row) documents table) :
    rows (fun v => v.display.map escape) join columns documents =
      .ok (table.map fun row => join (row.map escape)) := by
  induction shown with
  | nil => rfl
  | cons first _ ih =>
    rw [rows, ih, cells_shown escape first]
    rfl

/-- There is a row for each document, and in it a text for each column. -/
theorem Shows.shape {r : ResultSet} {table : List (List String)} (shown : r.Shows columns table) :
    table.length = r.documents.length ∧ ∀ row ∈ table, row.length = columns.length := by
  refine ⟨shown.length_eq.symm, fun row inside => ?_⟩
  obtain ⟨i, bound, rfl⟩ := List.getElem_of_mem inside
  exact ((List.forall₂_iff_get.mp shown).2 i (shown.length_eq ▸ bound) bound).length_eq.symm

section Sample

def bare (path : String) (properties : Entries) : ResultDocument where
  path := path
  name := path
  properties := properties
  frontmatter := properties
  file := .ofDocument ⟨path, 0, none, none, properties⟩ none
  formulas := []
  content := none

/-- A column whose name has a comma, with a text of separators and escapes, and a document without it. -/
def awkward : ResultSet where
  documents := [bare "a" [("a,b", .text "\"x\",\r\n|y\\"), ("n", .null)],
    bare "b" [("n", .list [.bool true, .null])]]
  total := 2
  view := none
  paging := none
  hasMore := false
  skipped := 0

theorem awkward_shows :
    awkward.Shows ["a,b", "n"] [["\"x\",\r\n|y\\", ""], ["", "true, "]] :=
  .cons (.cons rfl (.cons rfl .nil)) (.cons (.cons rfl (.cons rfl .nil)) .nil)

end Sample

end ResultSet

end NoteQuery
