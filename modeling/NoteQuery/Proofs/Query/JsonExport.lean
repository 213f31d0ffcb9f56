import NoteQuery.Proofs.Json.Writing
import NoteQuery.Proofs.Query.Shown

/-! Result sets that are exported as JSON. The text is read by the standard as the documents with their
properties, unless these hold a number that the standard has no form for. A whole number that is too
long to write leaves no text at all. -/
namespace NoteQuery

open Json

namespace Entries

theorem put_same {α : Type} (value : String → α) (name : String) (names : List String) :
    put name (value name) (names.map fun name => (name, value name)) =
      (if name ∈ names then names else names ++ [name]).map fun name => (name, value name) := by
  induction names with
  | nil => rfl
  | cons first names ih =>
    by_cases here : first = name
    · simp [put, here]
    · rw [List.map_cons, put, if_neg (by simpa using here), ih]
      simp only [List.mem_cons, Ne.symm here, false_or]
      split_ifs <;> rfl

/-- When a name always has the same value, the names keep their first places. -/
theorem ofList_same {α : Type} (value : String → α) (names : List String) :
    ofList (names.map fun name => (name, value name)) =
      names.eraseDups.map fun name => (name, value name) := by
  induction names using List.reverseRecOn with
  | nil => rfl
  | append_singleton names name ih =>
    have split : ofList ((names ++ [name]).map fun name => (name, value name)) =
        put name (value name) (ofList (names.map fun name => (name, value name))) := by
      simp [ofList, putAll]
    rw [split, ih, put_same, List.eraseDups_append]
    by_cases inside : name ∈ names <;> simp [inside, List.removeAll, List.eraseDups_cons]

end Entries

namespace ResultDocument

/-- The properties that are exported: those of the chosen columns, each once and null where the document
has none. Without a choice these are all properties. -/
def exported (d : ResultDocument) (chosen : List String) : Entries :=
  if chosen.isEmpty then d.properties
  else chosen.eraseDups.map fun column => (column, d.properties.get column)

/-- A document with what its properties stand for. The content is there when it was kept. -/
def object (d : ResultDocument) (properties : List (String × Datum)) : Datum :=
  .object ([("path", .text d.path), ("name", .text d.name), ("properties", .object properties)] ++
    (d.content.map fun content => ("content", .text content)).toList)

variable {d : ResultDocument} {chosen : List String}

theorem documentEntries_eq (d : ResultDocument) (chosen : List String) :
    ResultSet.documentEntries chosen d =
      [("path", .text d.path), ("name", .text d.name), ("properties", .map (d.exported chosen))] ++
        (d.content.map fun content => ("content", Value.text content)).toList := by
  unfold ResultSet.documentEntries
  cases chosen with
  | nil => cases d.content <;> rfl
  | cons column columns =>
    simp only [exported, List.isEmpty_cons, Bool.false_eq_true, if_false, ← Entries.ofList_same]
    cases d.content <;> rfl

theorem datum?_document (d : ResultDocument) (chosen : List String) :
    (Value.map (ResultSet.documentEntries chosen d)).datum? =
      (Value.entryData? (d.exported chosen)).map d.object := by
  rw [documentEntries_eq, Value.datum?]
  cases written : Value.entryData? (d.exported chosen) with
  | none => simp [Value.entryData?_cons, Value.datum?, written]
  | some properties =>
    cases kept : d.content <;>
      simp [Value.entryData?_cons, Value.entryData?, Value.datum?, written, object, kept]

end ResultDocument

namespace ResultSet

/-- What the documents stand for, in their order. -/
def data? (r : ResultSet) (chosen : List String) : Option (List Datum) :=
  r.documents.mapM fun d => (Value.entryData? (d.exported chosen)).map d.object

/-- A value that stands in a property that is exported, however deep. -/
def Exports (r : ResultSet) (chosen : List String) (v : Value) : Prop :=
  ∃ d ∈ r.documents, ∃ entry ∈ d.exported chosen, entry.2.Reaches v

/-- The value that is written. -/
def exportedValue (r : ResultSet) (chosen : List String) : Value :=
  .list (r.documents.map fun d => .map (documentEntries chosen d))

variable {r : ResultSet} {chosen : List String}

theorem datum?_exportedValue (r : ResultSet) (chosen : List String) :
    (r.exportedValue chosen).datum? = (r.data? chosen).map .list := by
  rw [exportedValue, Value.datum?, data?]
  congr 1
  induction r.documents with
  | nil => rfl
  | cons d documents ih =>
    rw [List.map_cons, Value.data?_cons, ih, ResultDocument.datum?_document, List.mapM_cons]
    cases Value.entryData? (d.exported chosen) with
    | none => rfl
    | some properties =>
      cases documents.mapM fun d => (Value.entryData? (d.exported chosen)).map d.object <;> rfl

/-- What is met in the written value, apart from texts, lists and maps, is met in a property. -/
theorem exists_reaches_exportedValue {P : Value → Prop} (noText : ∀ s, ¬ P (.text s))
    (noList : ∀ items, ¬ P (.list items)) (noMap : ∀ entries, ¬ P (.map entries)) :
    (∃ w, (r.exportedValue chosen).Reaches w ∧ P w) ↔ ∃ w, r.Exports chosen w ∧ P w := by
  have text (s : String) : ¬ ∃ w, (Value.text s).Reaches w ∧ P w := by
    rw [Value.Leaf.exists_reaches (v := .text s) trivial]
    exact noText s
  have each (d : ResultDocument) : (∃ w, (Value.map (documentEntries chosen d)).Reaches w ∧ P w) ↔
      ∃ entry ∈ d.exported chosen, ∃ w, entry.2.Reaches w ∧ P w := by
    rw [Value.exists_reaches_map (noMap _), ResultDocument.documentEntries_eq]
    cases d.content <;> simp [text, Value.exists_reaches_map (noMap (d.exported chosen))]
  rw [exportedValue, Value.exists_reaches_list (noList _)]
  simp only [List.mem_map, exists_exists_and_eq_and, each, Exports]
  constructor
  · rintro ⟨d, listed, entry, inside, w, reached, holds⟩
    exact ⟨w, ⟨d, listed, entry, inside, reached⟩, holds⟩
  · rintro ⟨w, ⟨d, listed, entry, inside, reached⟩, holds⟩
    exact ⟨d, listed, entry, inside, w, reached, holds⟩

theorem toJson_succeeds (r : ResultSet) (chosen : List String) : (∃ text, r.toJson chosen = .ok text) ↔
    ∀ n, r.Exports chosen (.int n) → n.natAbs < Nat.pow 10 Numeral.maxDigits := by
  have written : (∃ text, r.toJson chosen = .ok text) ↔ _ :=
    Value.jsonIndented_succeeds (r.exportedValue chosen) ""
  rw [written, exists_reaches_exportedValue (fun _ => not_false) (fun _ => not_false)
    fun _ => not_false]
  constructor
  · intro none n exported
    by_contra long
    exact none ⟨.int n, exported, not_lt.mp long⟩
  · rintro short ⟨w, exported, long⟩
    cases w with
    | int n => exact absurd (short n exported) (not_lt.mpr long)
    | _ => exact long

theorem toJson_read {text : String} (written : r.toJson chosen = .ok text) :
    Json.decode Json.standard text = (r.data? chosen).map .list := by
  have writes : Writes text.toList (r.exportedValue chosen).datum? :=
    writes_jsonIndented (r.exportedValue chosen) (by simp) written
  have skipped := writes.skip []
  have read := writes.read [] (.inl rfl)
  rw [List.append_nil] at skipped read
  rw [decode_eq, skipped, read, ← datum?_exportedValue]
  cases (r.exportedValue chosen).datum? <;> rfl

theorem exists_data? (r : ResultSet) (chosen : List String) : (∃ data, r.data? chosen = some data) ↔
    ∀ x, r.Exports chosen (.float x) → x.isFinite = true := by
  have meant : (∃ data, r.data? chosen = some data) ↔
      ∃ datum, (r.exportedValue chosen).datum? = some datum := by
    simp [datum?_exportedValue]
  rw [meant, Value.exists_datum?, exists_reaches_exportedValue (fun _ => not_false)
    (fun _ => not_false) fun _ => not_false]
  constructor
  · intro none x exported
    by_contra notFinite
    exact none ⟨.float x, exported, eq_false_of_ne_true notFinite⟩
  · rintro finite ⟨w, exported, notFinite⟩
    cases w with
    | float x => exact absurd ((finite x exported).symm.trans notFinite) (by decide)
    | _ => exact notFinite

section Sample

/-- One document with one property. -/
def single (v : Value) : ResultSet where
  documents := [bare "a" [("n", v)]]
  total := 1
  view := none
  paging := none
  hasMore := false
  skipped := 0

theorem single_exports {v w : Value} : (single v).Exports [] w ↔ v.Reaches w := by
  simp [Exports, single, bare, ResultDocument.exported]

end Sample

end ResultSet

end NoteQuery
