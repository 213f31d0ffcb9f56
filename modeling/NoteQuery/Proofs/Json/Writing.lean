import NoteQuery.Proofs.Json.Standard
import NoteQuery.Proofs.Outcome
import NoteQuery.Proofs.Text.Search
import NoteQuery.Proofs.Value.Written

/-! Values that are written as JSON and read back. A whole number of more digits than may be written is
not written at all. Infinities and not-a-number are written as names that no reader of the standard
takes. Everything else is read as what it stands for. -/
namespace NoteQuery

open Json

namespace Value

/-- A binary number that is infinite or no number. -/
def NotFinite : Value → Prop
  | float x => x.isFinite = false
  | _ => False

mutual

/-- What a value stands for in JSON. A day and a moment stand for their texts, and a finite binary number
for the shortest decimal that reads as it. -/
def datum? : Value → Option Datum
  | null => some .null
  | bool b => some (.bool b)
  | int n => some (.number n)
  | float (.finite negative m) => some (.number (signed negative m.shortest.value))
  | float _ => none
  | text s => some (.text s)
  | moment m => some (.text m.text)
  | date d => some (.text d.text)
  | list items => (data? items).map .list
  | map entries => (entryData? entries).map .object

def data? : List Value → Option (List Datum)
  | [] => some []
  | item :: items => do
    let first ← datum? item
    let rest ← data? items
    some (first :: rest)

def entryData? : List (String × Value) → Option (List (String × Datum))
  | [] => some []
  | (name, value) :: entries => do
    let first ← datum? value
    let rest ← entryData? entries
    some ((name, first) :: rest)

end

theorem data?_cons (item : Value) (items : List Value) : data? (item :: items) =
    (datum? item).bind fun first => (data? items).map (first :: ·) := by
  rw [data?]
  cases datum? item with
  | none => rfl
  | some first => cases data? items <;> rfl

theorem entryData?_cons (entry : String × Value) (entries : Entries) : entryData? (entry :: entries) =
    (datum? entry.2).bind fun first => (entryData? entries).map ((entry.1, first) :: ·) := by
  rw [entryData?]
  cases datum? entry.2 with
  | none => rfl
  | some first => cases entryData? entries <;> rfl

variable {texts : JsonTexts} {margin : String} {items : List Value} {entries : Entries}

theorem jsonIndentedItems_eq (items : List Value) :
    jsonIndentedItems texts margin items = items.mapM (jsonIndented texts margin) := by
  induction items with
  | nil => rfl
  | cons item items ih =>
    rw [jsonIndentedItems, List.mapM_cons, ih]
    rfl

theorem jsonIndentedEntries_eq (entries : Entries) :
    jsonIndentedEntries texts margin entries = entries.mapM fun entry => (do
      let text ← entry.2.jsonIndented texts margin
      .ok (Text.jsonQuoted entry.1 ++ ": " ++ text) : Except Fault String) := by
  induction entries with
  | nil => rfl
  | cons entry entries ih =>
    rw [jsonIndentedEntries, List.mapM_cons, ih]
    cases entry.2.jsonIndented texts margin <;> rfl

/-- A value can be written exactly if it reaches no whole number that is too long. Its parts are written
two blanks further in. -/
theorem jsonIndented_succeeds (v : Value) (margin : String) :
    (∃ text, v.jsonIndented texts margin = .ok text) ↔ ¬ ∃ w, v.Reaches w ∧ w.TooLong := by
  refine iff_no_reached (S := fun margin v => ∃ text, v.jsonIndented texts margin = .ok text)
    (· ++ "  ") ?_ ?_ ?_ (fun _ => not_false) (fun _ => not_false) margin v
  · intro margin items
    rw [jsonIndented, Except.exists_bind_ok, jsonIndentedItems_eq, Except.exists_mapM_ok]
  · intro margin entries
    rw [jsonIndented, Except.exists_bind_ok, jsonIndentedEntries_eq, Except.exists_mapM_ok]
    exact forall₂_congr fun entry _ => Except.exists_bind_ok
  · intro margin v leaf
    cases v with
    | list items => exact leaf.elim
    | map entries => exact leaf.elim
    | int n =>
      simp only [TooLong, not_le, jsonIndented, json, wholeText?_eq]
      split_ifs with short
      · exact iff_of_true ⟨_, rfl⟩ short
      · exact iff_of_false (by simp) short
    | _ => exact iff_of_true ⟨_, rfl⟩ not_false

theorem exists_data? : (∃ data, data? items = some data) ↔
    ∀ item ∈ items, ∃ datum, item.datum? = some datum := by
  induction items with
  | nil => simp [data?]
  | cons item items ih =>
    rw [List.forall_mem_cons, ← ih, data?_cons]
    cases item.datum? <;> simp

theorem exists_entryData? : (∃ data, entryData? entries = some data) ↔
    ∀ entry ∈ entries, ∃ datum, entry.2.datum? = some datum := by
  induction entries with
  | nil => simp [entryData?]
  | cons entry entries ih =>
    rw [List.forall_mem_cons, ← ih, entryData?_cons]
    cases entry.2.datum? <;> simp

/-- A value stands for something exactly if all binary numbers that it reaches are finite. -/
theorem exists_datum? (v : Value) :
    (∃ datum, v.datum? = some datum) ↔ ¬ ∃ w, v.Reaches w ∧ w.NotFinite := by
  refine iff_no_reached (S := fun (_ : Unit) v => ∃ datum, v.datum? = some datum) id ?_ ?_ ?_
    (fun _ => not_false) (fun _ => not_false) () v
  · intro _ items
    simp only [datum?, Option.map_eq_some_iff, exists_comm, exists_and_left, exists_eq', and_true,
      exists_data?]
  · intro _ entries
    simp only [datum?, Option.map_eq_some_iff, exists_comm, exists_and_left, exists_eq', and_true,
      exists_entryData?]
  · intro _ v leaf
    cases v with
    | list items => exact leaf.elim
    | map entries => exact leaf.elim
    | float x => cases x <;> simp [datum?, NotFinite, Binary64.isFinite]
    | _ => exact iff_of_true ⟨_, rfl⟩ not_false

end Value

namespace Json

/-- A text that begins with neither a blank nor a closing bracket. With what may stand behind a value it
is read as the datum, or not at all where there is none. -/
structure Writes (text : List Char) (datum : Option Datum) : Prop where
  begins : ∃ c more, text = c :: more ∧ isSpace c = false ∧ c ≠ ']'
  read : ∀ rest, Ends rest → value? standard (text ++ rest) = datum.map (·, skipSpace rest)

namespace Writes

variable {text : List Char} {datum : Option Datum} {size : ℚ}

theorem skip (writes : Writes text datum) (rest : List Char) :
    skipSpace (text ++ rest) = text ++ rest := by
  obtain ⟨c, more, rfl, solid, _⟩ := writes.begins
  exact skipSpace_cons solid (more ++ rest)

theorem number (spells : Spells text size) (negative : Bool) :
    Writes ((if negative then ['-'] else []) ++ text) (some (.number (signed negative size))) := by
  refine ⟨?_, fun rest ends => ?_⟩
  · obtain ⟨c, more, rfl, digit⟩ := spells.begins
    have apart (other : Char) (none : other.isDigit = false) : c ≠ other := by
      rintro rfl
      exact absurd (digit.symm.trans none) (by decide)
    cases negative with
    | true => exact ⟨'-', _, rfl, by decide⟩
    | false => exact ⟨c, more, rfl, by simp [isSpace, apart _], apart _ rfl⟩
  · rw [List.append_assoc]
    exact value?_number spells negative ends

theorem whole (n : Int) : Writes (toString n).toList (some (.number n)) := by
  have spelled : (toString n).toList =
      (if decide (n < 0) then ['-'] else []) ++ Nat.toDigits 10 n.natAbs := by
    simp only [Numeral.toList_toString, decide_eq_true_eq]
  have value : (n : ℚ) = signed (decide (n < 0)) (n.natAbs : ℚ) := by
    rw [signed, Nat.cast_natAbs]
    split_ifs with negative
    · rw [abs_of_neg (of_decide_eq_true negative), Int.cast_neg, neg_neg]
    · rw [abs_of_nonneg (not_lt.mp (of_decide_eq_false (eq_false_of_ne_true negative)))]
  rw [spelled, value]
  exact number (spells_digits n.natAbs) _

theorem quoted (s : String) : Writes (Text.jsonQuoted s).toList (some (.text s)) := by
  have spelled : (Text.jsonQuoted s).toList = '"' :: s.toList.flatMap Text.jsonChar ++ ['"'] := by
    simp [Text.jsonQuoted]
  rw [spelled]
  refine ⟨⟨'"', _, rfl, by decide⟩, fun rest _ => ?_⟩
  rw [List.cons_append, List.cons_append, List.append_assoc, value?_text, List.singleton_append,
    readText_quoted]
  simp [standard]

theorem simple {c : Char} {more : List Char}
    (begins : isSpace c = false ∧ c ≠ ']' ∧ BeginsSimple c)
    (read : ∀ rest, readSimple standard (c :: (more ++ rest)) = datum.map (·, rest)) :
    Writes (c :: more) datum := by
  obtain ⟨solid, noEnd, begins⟩ := begins
  refine ⟨⟨c, more, rfl, solid, noEnd⟩, fun rest _ => ?_⟩
  cases datum with
  | none =>
    rw [List.cons_append, value?_simple begins, read]
    rfl
  | some datum => exact value?_of_simple begins (by simp) (read rest)

theorem null : Writes "null".toList (some .null) :=
  simple (by unfold BeginsSimple; decide) fun _ => rfl

theorem bool (b : Bool) : Writes (if b then "true" else "false").toList (some (.bool b)) := by
  cases b with
  | true => exact simple (by unfold BeginsSimple; decide) fun _ => rfl
  | false => exact simple (by unfold BeginsSimple; decide) fun _ => rfl

/-- A binary number is read as its decimal. The names of what is no finite number are not read. -/
theorem binary (x : Binary64) : Writes (NumberLayout.json.text x).toList (Value.float x).datum? := by
  cases x with
  | nan => exact simple (by unfold BeginsSimple; decide) fun _ => rfl
  | infinite negative =>
    cases negative with
    | true => exact simple (by unfold BeginsSimple; decide) fun _ => rfl
    | false => exact simple (by unfold BeginsSimple; decide) fun _ => rfl
  | finite negative m =>
    have spelled : (NumberLayout.json.text (.finite negative m)).toList =
        (if negative then ['-'] else []) ++ NumberLayout.json.textOf m.shortest := by
      cases negative <;> simp [NumberLayout.text]
    rw [spelled]
    exact number (spells_textOf Magnitude.shortest_nought) negative

section Parts

variable {inner outer rest : List Char}

theorem skipSpace_line (blanks : ∀ c ∈ inner, isSpace c = true) (text : List Char) :
    skipSpace ('\n' :: (inner ++ text)) = skipSpace text := by
  rw [skipSpace_blank (by decide), skipSpace_append blanks]

theorem skipSpace_closing {sign : Char} (blanks : ∀ c ∈ outer, isSpace c = true)
    (solid : isSpace sign = false) :
    skipSpace ('\n' :: (outer ++ sign :: rest)) = sign :: rest := by
  rw [skipSpace_line blanks, skipSpace_cons solid]

theorem takeSign?_comma (blanks : ∀ c ∈ inner, isSpace c = true) (text : List Char) :
    takeSign? ',' (skipSpace (',' :: '\n' :: (inner ++ text))) = some (skipSpace text) := by
  rw [skipSpace_cons (by decide), takeSign?, if_pos rfl, skipSpace_line blanks]

/-- Items on lines of their own are read up to the bracket that closes them. -/
theorem items {values : List Value} {parts : List (List Char)}
    (within : ∀ c ∈ inner, isSpace c = true) (behind : ∀ c ∈ outer, isSpace c = true)
    (some_item : values ≠ [])
    (written : List.Forall₂ (fun item part => Writes part item.datum?) values parts) :
    items? standard ((',' :: '\n' :: inner).intercalate parts ++ '\n' :: (outer ++ ']' :: rest)) =
      (Value.data? values).map (·, skipSpace rest) := by
  induction written with
  | nil => exact absurd rfl some_item
  | @cons item part values parts first others ih =>
    rw [items?_eq]
    cases others with
    | nil =>
      rw [List.intercalate_singleton, first.skip, first.read _ (.inr ⟨_, .inr rfl⟩),
        skipSpace_closing behind (by decide), Value.data?_cons]
      cases item.datum? <;> simp [takeSign?, Value.data?]
    | cons second others =>
      rw [List.intercalate_cons_cons, List.append_assoc, List.append_assoc, first.skip, List.cons_append,
        List.cons_append, first.read _ (.inr ⟨_, .inl rfl⟩)]
      rw [Value.data?_cons item]
      cases item.datum? with
      -- An item that is not read ends the reading, so nothing is asked of the others.
      | none => rfl
      | some datum =>
        simp only [Option.map_some, Option.bind_some, takeSign?_comma within, items?_skipSpace,
          ih (List.cons_ne_nil _ _), Option.map_map, Function.comp_def]

/-- Entries on lines of their own are read up to the brace that closes them. -/
theorem entries {values : Entries} {parts : List (List Char)}
    (within : ∀ c ∈ inner, isSpace c = true) (behind : ∀ c ∈ outer, isSpace c = true)
    (some_entry : values ≠ [])
    (written : List.Forall₂ (fun entry part => ∃ text, Writes text entry.2.datum? ∧
      part = (Text.jsonQuoted entry.1).toList ++ ':' :: ' ' :: text) values parts) :
    entries? standard ((',' :: '\n' :: inner).intercalate parts ++ '\n' :: (outer ++ '\x7d' :: rest)) =
      (Value.entryData? values).map (·, skipSpace rest) := by
  induction written with
  | nil => exact absurd rfl some_entry
  | @cons entry part values parts first others ih =>
    obtain ⟨text, first, rfl⟩ := first
    have key (text : List Char) : (readKey (skipSpace ((Text.jsonQuoted entry.1).toList ++ text))).map
        (fun found => (found.1, found.2.1)) = some (entry.1, text) := by
      have spelled : (Text.jsonQuoted entry.1).toList ++ text =
          '"' :: (entry.1.toList.flatMap Text.jsonChar ++ '"' :: text) := by
        simp [Text.jsonQuoted]
      rw [spelled, skipSpace_cons (by decide), readKey_text, readText_quoted]
      simp
    have colon (more : List Char) : takeSign? ':' (skipSpace (':' :: ' ' :: (text ++ more))) =
        some (text ++ more) := by
      rw [skipSpace_cons (by decide), takeSign?, if_pos rfl,
        skipSpace_blank (by decide), first.skip]
    rw [entries?_eq]
    cases others with
    | nil =>
      rw [List.intercalate_singleton, List.append_assoc, key, Option.bind_some, List.cons_append,
        List.cons_append, colon, Option.bind_some, first.read _ (.inr ⟨_, .inr rfl⟩),
        skipSpace_closing behind (by decide), Value.entryData?_cons]
      cases entry.2.datum? <;> simp [takeSign?, Value.entryData?]
    | cons second others =>
      rw [List.intercalate_cons_cons, List.append_assoc, List.append_assoc, List.append_assoc, key,
        Option.bind_some, List.cons_append, List.cons_append, List.cons_append, List.cons_append, colon,
        Option.bind_some, first.read _ (.inr ⟨_, .inl rfl⟩), Value.entryData?_cons entry]
      cases entry.2.datum? with
      | none => rfl
      | some datum =>
        simp only [Option.map_some, Option.bind_some, takeSign?_comma within, entries?_skipSpace,
          ih (List.cons_ne_nil _ _), Option.map_map, Function.comp_def]

theorem indentParts_nil (opening closing margin : String) :
    (Value.indentParts opening closing margin []).toList = opening.toList ++ closing.toList := by
  simp [Value.indentParts]

theorem margin_blank {margin : String} (blanks : ∀ c ∈ margin.toList, isSpace c = true) :
    ∀ c ∈ margin.toList ++ [' ', ' '], isSpace c = true := by
  intro c inside
  rcases List.mem_append.mp inside with before | blank
  · exact blanks c before
  · rw [show c = ' ' by simpa using blank]
    rfl

/-- Parts are set on lines of their own, between the signs that enclose them. The first of them begins
the first line. -/
theorem indentParts_cons (opening closing : String) {margin : String} {o e : Char}
    (opens : opening.toList = [o]) (closes : closing.toList = [e])
    (blanks : ∀ c ∈ margin.toList, isSpace c = true) (part : String) (parts : List String) :
    ∃ inner joined more, (∀ c ∈ inner, isSpace c = true) ∧
      joined = (',' :: '\n' :: inner).intercalate ((part :: parts).map String.toList) ∧
      joined = part.toList ++ more ∧
      (Value.indentParts opening closing margin (part :: parts)).toList =
        o :: '\n' :: (inner ++ (joined ++ '\n' :: (margin.toList ++ [e]))) := by
  obtain ⟨more, front⟩ := Text.intercalate_front (',' :: '\n' :: (margin.toList ++ [' ', ' ']))
    part.toList (parts.map String.toList)
  exact ⟨_, _, more, margin_blank blanks, rfl, front, by simp [Value.indentParts, opens, closes]⟩

/-- A list is read whole, as is one without items. -/
theorem list {values : List Value} {parts : List String} {margin : String}
    (blanks : ∀ c ∈ margin.toList, isSpace c = true)
    (written : List.Forall₂ (fun item part => Writes part.toList item.datum?) values parts) :
    Writes (Value.indentParts "[" "]" margin parts).toList (Value.list values).datum? := by
  cases written with
  | nil =>
    rw [indentParts_nil]
    refine ⟨⟨'[', [']'], rfl, by decide⟩, fun rest _ => ?_⟩
    change value? standard ('[' :: ']' :: rest) = _
    rw [value?_list, skipSpace_cons (by decide)]
    rfl
  | @cons item part values parts first others =>
    obtain ⟨inner, joined, more, within, joins, front, spelled⟩ :=
      indentParts_cons "[" "]" (o := '[') (e := ']') rfl rfl blanks part parts
    obtain ⟨c, text, begins, solid, other⟩ := first.begins
    rw [spelled]
    refine ⟨⟨'[', _, rfl, by decide⟩, fun rest _ => ?_⟩
    have some_item (text : List Char) : takeSign? ']' (skipSpace (joined ++ text)) = none := by
      rw [front, begins, List.cons_append, List.cons_append, skipSpace_cons solid, takeSign?,
        if_neg other]
    have inside : items? standard (joined ++ '\n' :: (margin.toList ++ ']' :: rest)) =
        (Value.data? (item :: values)).map (·, skipSpace rest) := by
      rw [joins]
      refine items within blanks (List.cons_ne_nil item values) ?_
      rw [List.forall₂_map_right_iff]
      exact .cons first others
    simp only [List.cons_append, List.append_assoc, List.nil_append]
    rw [value?_list, skipSpace_line within, some_item, ← items?_skipSpace, skipSpace_line within,
      items?_skipSpace, inside, Value.datum?, Option.map_map, Option.map_map]
    rfl

theorem object {values : Entries} {parts : List String} {margin : String}
    (blanks : ∀ c ∈ margin.toList, isSpace c = true)
    (written : List.Forall₂ (fun entry part => ∃ text, Writes text entry.2.datum? ∧
      part.toList = (Text.jsonQuoted entry.1).toList ++ ':' :: ' ' :: text) values parts) :
    Writes (Value.indentParts "\x7b" "\x7d" margin parts).toList (Value.map values).datum? := by
  cases written with
  | nil =>
    rw [indentParts_nil]
    refine ⟨⟨'\x7b', ['\x7d'], rfl, by decide⟩, fun rest _ => ?_⟩
    change value? standard ('\x7b' :: '\x7d' :: rest) = _
    rw [value?_object, skipSpace_cons (by decide)]
    rfl
  | @cons entry part values parts first others =>
    obtain ⟨inner, joined, more, within, joins, front, spelled⟩ :=
      indentParts_cons "\x7b" "\x7d" (o := '\x7b') (e := '\x7d') rfl rfl blanks part parts
    obtain ⟨text, _, begins⟩ := id first
    rw [spelled]
    refine ⟨⟨'\x7b', _, rfl, by decide⟩, fun rest _ => ?_⟩
    have some_entry (text : List Char) : takeSign? '\x7d' (skipSpace (joined ++ text)) = none := by
      simp [front, begins, Text.jsonQuoted, skipSpace_cons, isSpace, takeSign?]
    have inside : entries? standard (joined ++ '\n' :: (margin.toList ++ '\x7d' :: rest)) =
        (Value.entryData? (entry :: values)).map (·, skipSpace rest) := by
      rw [joins]
      refine entries within blanks (List.cons_ne_nil entry values) ?_
      rw [List.forall₂_map_right_iff]
      exact .cons first others
    simp only [List.cons_append, List.append_assoc, List.nil_append]
    rw [value?_object, skipSpace_line within, some_entry, ← entries?_skipSpace, skipSpace_line within,
      entries?_skipSpace, inside, Value.datum?, Option.map_map, Option.map_map]
    rfl

end Parts

end Writes

/-- What is written of a value is read as what the value stands for. -/
theorem writes_jsonIndented (v : Value) {margin text : String}
    (blanks : ∀ c ∈ margin.toList, isSpace c = true)
    (written : v.jsonIndented .full margin = .ok text) : Writes text.toList v.datum? := by
  induction v using Value.ofParts generalizing margin text with
  | step v ih =>
    have inner : ∀ c ∈ (margin ++ "  ").toList, isSpace c = true := by
      rw [String.toList_append]
      exact Writes.margin_blank blanks
    cases v with
    | int n =>
      simp only [Value.jsonIndented, Value.json, wholeText?_eq] at written
      split_ifs at written
      rw [← Except.ok.inj written]
      exact .whole n
    | list items =>
      obtain ⟨parts, each, written⟩ := Except.bind_eq_ok.mp written
      rw [← Except.ok.inj written]
      refine .list blanks (List.forall₂_iff_get.mpr ?_)
      rw [Value.jsonIndentedItems_eq, Except.mapM_eq_ok] at each
      obtain ⟨same, each⟩ := List.forall₂_iff_get.mp each
      exact ⟨same, fun i bound bound' => ih _ (List.get_mem items ⟨i, bound⟩) inner (each i bound bound')⟩
    | map entries =>
      obtain ⟨parts, each, written⟩ := Except.bind_eq_ok.mp written
      rw [← Except.ok.inj written]
      refine .object blanks (List.forall₂_iff_get.mpr ?_)
      rw [Value.jsonIndentedEntries_eq, Except.mapM_eq_ok] at each
      obtain ⟨same, each⟩ := List.forall₂_iff_get.mp each
      refine ⟨same, fun i bound bound' => ?_⟩
      obtain ⟨shown, written, part⟩ := Except.bind_eq_ok.mp (each i bound bound')
      refine ⟨shown.toList, ih _ ⟨_, List.get_mem entries ⟨i, bound⟩⟩ inner written, ?_⟩
      rw [← Except.ok.inj part]
      simp
    | null =>
      rw [← Except.ok.inj written]
      exact .null
    | bool b =>
      rw [← Except.ok.inj written]
      exact .bool b
    | float x =>
      rw [← Except.ok.inj written]
      exact .binary x
    | text s =>
      rw [← Except.ok.inj written]
      exact .quoted s
    | moment m =>
      rw [← Except.ok.inj written]
      exact .quoted m.text
    | date d =>
      rw [← Except.ok.inj written]
      exact .quoted d.text

end Json

end NoteQuery
