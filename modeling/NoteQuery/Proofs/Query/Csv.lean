import NoteQuery.Proofs.Query.Shown

/-! Comma-separated values, read back. A field is plain, or it stands between quotes and has its own
quotes doubled; commas separate the fields of a record and line ends the records, of which the last
has no line end. What is written for a table is read as the same table, whatever signs its texts hold. -/
namespace NoteQuery

namespace Csv

/-- Where a reader stands in a field. -/
inductive Place where
  | front
  | plain
  | quoted
  /-- Behind a quote in a quoted field: the field ends here, or the quote is one of a pair. -/
  | closed
  deriving DecidableEq, Repr

/-- Puts a character in front of the first field of the first record. -/
def prepend (c : Char) : List (List (List Char)) → List (List (List Char))
  | (field :: fields) :: records => ((c :: field) :: fields) :: records
  | records => records

def nextField : List (List (List Char)) → List (List (List Char))
  | record :: records => ([] :: record) :: records
  | [] => []

/-- The records from a place on. The first field of the first one is what is left of the field that
the reader stands in. Outside of quotes there are no quotes and no returns. -/
def records : Place → List Char → Option (List (List (List Char)))
  | .quoted, [] => none
  | .front, [] | .plain, [] | .closed, [] => some [[[]]]
  | .quoted, c :: rest =>
    if c = '"' then records .closed rest else (records .quoted rest).map (prepend c)
  | .closed, c :: rest =>
    if c = ',' then (records .front rest).map nextField
    else if c = '\n' then (records .front rest).map ([[]] :: ·)
    else if c = '"' then (records .quoted rest).map (prepend '"')
    else none
  | .front, c :: rest =>
    if c = ',' then (records .front rest).map nextField
    else if c = '\n' then (records .front rest).map ([[]] :: ·)
    else if c = '"' then records .quoted rest
    else if c = '\r' then none
    else (records .plain rest).map (prepend c)
  | .plain, c :: rest =>
    if c = ',' then (records .front rest).map nextField
    else if c = '\n' then (records .front rest).map ([[]] :: ·)
    else if c = '"' ∨ c = '\r' then none
    else (records .plain rest).map (prepend c)

/-- The records of a text, each the list of its fields. -/
def decode (text : String) : Option (List (List String)) :=
  (records .front text.toList).map fun table => table.map (·.map String.ofList)

/-- Text that can stand behind a field: none, or a separator. -/
def Ends (rest : List Char) : Prop := rest = [] ∨ ∃ more, rest = ',' :: more ∨ rest = '\n' :: more

/-- Signs that put a field between quotes. -/
def NeedsQuotes (c : Char) : Prop := c = ',' ∨ c = '"' ∨ c = '\n' ∨ c = '\r'

variable {rest : List Char} {later : List (List (List Char))}

/-- A field may be at its end in every place but between its quotes. -/
theorem records_ends (ends : Ends rest) :
    records .plain rest = records .front rest ∧ records .closed rest = records .front rest := by
  rcases ends with rfl | ⟨more, rfl | rfl⟩ <;> simp [records]

theorem records_plain {field : List Char} (plain : ∀ c ∈ field, ¬ NeedsQuotes c)
    (rest : List Char) :
    records .plain (field ++ rest) = (records .plain rest).map (field.foldr prepend ·) := by
  induction field with
  | nil => simp
  | cons c field ih =>
    have here := plain c (by simp)
    simp only [NeedsQuotes, not_or] at here
    have next := ih fun c inside => plain c (by simp [inside])
    simp [records, here, next, Function.comp_def]

theorem records_quoted (field rest : List Char) :
    records .quoted (field.flatMap (fun c => if c = '"' then ['"', '"'] else [c]) ++ '"' :: rest) =
      (records .closed rest).map (field.foldr prepend ·) := by
  induction field with
  | nil => simp [records]
  | cons c field ih =>
    by_cases quote : c = '"'
    · simp [records, quote, ih, Function.comp_def]
    · simp [records, quote, ih, Function.comp_def]

/-- A field that is written is read whole, up to what ends it. -/
theorem records_field (text : String) (ends : Ends rest) :
    records .front ((Cell.csvField text).toList ++ rest) =
      (records .front rest).map (text.toList.foldr prepend ·) := by
  unfold Cell.csvField
  dsimp only
  split
  -- Behind the closing quote stands what ends the field, so the reader is at a front again.
  · have quoted := records_quoted text.toList rest
    rw [(records_ends ends).2] at quoted
    simpa [records] using quoted
  · rename_i free
    have plain : ∀ c ∈ text.toList, ¬ NeedsQuotes c := by
      simpa [NeedsQuotes, or_assoc] using free
    cases field : text.toList with
    | nil => simp
    -- Only the first character is met at the front; the others are read as plain.
    | cons c field' =>
      rw [field] at plain
      have here := plain c (by simp)
      simp only [NeedsQuotes, not_or] at here
      have next := records_plain (fun c inside => plain c (List.mem_cons_of_mem _ inside)) rest
      rw [(records_ends ends).1] at next
      simp [records, here, next, Function.comp_def]

theorem prepend_field (field : List Char) (fields : List (List Char)) :
    field.foldr prepend (([] :: fields) :: later) = (field :: fields) :: later := by
  induction field with
  | nil => rfl
  | cons c field ih => rw [List.foldr_cons, ih, prepend]

def line (fields : List String) : List Char :=
  [','].intercalate (fields.map fun text => (Cell.csvField text).toList)

theorem records_line {fields : List String} (some_field : fields ≠ [])
    (ends : rest = [] ∨ ∃ more, rest = '\n' :: more)
    (next : records .front rest = some ([[]] :: later)) :
    records .front (line fields ++ rest) = some (fields.map String.toList :: later) := by
  unfold line
  induction fields with
  | nil => exact absurd rfl some_field
  | cons text fields ih =>
    cases fields with
    | nil =>
      have last := records_field text (ends.imp_right fun ⟨more, line⟩ => ⟨more, .inr line⟩)
      simpa [next, prepend_field] using last
    | cons text' fields =>
      have others := ih (by simp)
      simp only [List.map_cons] at others ⊢
      rw [List.intercalate_cons_cons, List.append_assoc, List.append_assoc, List.singleton_append,
        records_field text (.inr ⟨_, .inl rfl⟩)]
      simp only [records, if_true, others, Option.map_some, nextField, prepend_field]

/-- Records that are written on lines of their own are read as they are. -/
theorem records_lines {table : List (List String)} (some_record : table ≠ [])
    (wide : ∀ row ∈ table, row ≠ []) :
    records .front (['\n'].intercalate (table.map line)) =
      some (table.map (·.map String.toList)) := by
  induction table with
  | nil => exact absurd rfl some_record
  | cons row table ih =>
    have here := wide row (by simp)
    cases table with
    | nil => simpa using records_line here (.inl rfl) (by rfl)
    | cons row' table =>
      have below := ih (by simp) fun row inside => wide row (List.mem_cons_of_mem _ inside)
      rw [List.map_cons, List.map_cons, List.intercalate_cons_cons, List.append_assoc,
        List.singleton_append]
      refine records_line here (.inr ⟨_, rfl⟩) ?_
      rw [records, if_neg (by decide), if_pos rfl, ← List.map_cons, below]
      rfl

theorem decode_lines {table : List (List String)} (some_record : table ≠ [])
    (wide : ∀ row ∈ table, row ≠ []) :
    decode ("\n".intercalate (table.map fun row => ",".intercalate (row.map Cell.csvField))) =
      some table := by
  have signs : (String.toList ∘ fun row => ",".intercalate (row.map Cell.csvField)) = line := by
    funext row
    simp [line, Function.comp_def]
  have lines : records .front ("\n".toList.intercalate (table.map line)) = _ :=
    records_lines some_record wide
  rw [decode, String.toList_intercalate, List.map_map, signs, lines]
  simp [Function.comp_def]

end Csv

namespace ResultSet

/-- A table that is written as CSV is read back whole: the names of its columns, then a record for each
document with the texts that it shows. -/
theorem toCsv_decodes (r : ResultSet) (chosen : List String) (some_column : r.columns chosen ≠ [])
    {table : List (List String)} (shown : r.Shows (r.columns chosen) table) :
    ∃ text, r.toCsv chosen = .ok text ∧ Csv.decode text = some (r.columns chosen :: table) ∧
      table.length = r.documents.length ∧
      ∀ row ∈ table, row.length = (r.columns chosen).length := by
  have shape := shown.shape
  have written : rows Cell.csv ",".intercalate (r.columns chosen) r.documents = _ :=
    rows_shown Cell.csvField ",".intercalate shown
  refine ⟨"\n".intercalate ((r.columns chosen :: table).map
    fun row => ",".intercalate (row.map Cell.csvField)), ?_, ?_, shape⟩
  · unfold toCsv
    cases named : r.columns chosen with
    | nil => exact absurd named some_column
    | cons column columns =>
      rw [named] at written
      simp only [written]
      rfl
  · refine Csv.decode_lines (by simp) fun row inside empty => ?_
    rcases List.mem_cons.mp inside with rfl | inside
    · exact some_column empty
    · have wide := shape.2 row inside
      rw [empty, List.length_nil, eq_comm, List.length_eq_zero_iff] at wide
      exact some_column wide

theorem toCsv_decodes_awkward : awkward.columns [] ≠ [] ∧
    awkward.Shows (awkward.columns []) [["\"x\",\r\n|y\\", ""], ["", "true, "]] ∧
    ∃ text, awkward.toCsv [] = .ok text ∧
      Csv.decode text = some [["a,b", "n"], ["\"x\",\r\n|y\\", ""], ["", "true, "]] ∧
      2 = awkward.documents.length ∧
      ∀ row ∈ [["\"x\",\r\n|y\\", ""], ["", "true, "]], row.length = 2 := by
  have named : awkward.columns [] ≠ [] := List.cons_ne_nil _ _
  exact ⟨named, awkward_shows, toCsv_decodes awkward [] named awkward_shows⟩

end ResultSet

end NoteQuery
