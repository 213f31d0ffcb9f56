import NoteQuery.Proofs.Checked
import NoteQuery.Proofs.Text.Letter
import NoteQuery.Proofs.Text.Search
import NoteQuery.Query.Definition

/-! Entries of a sort order. An order takes from each of its entries the key that the entry is read as
by itself, a key is read as itself again, and a path with a direction behind it is read as the two,
whatever words the path is made of. -/
namespace NoteQuery

open NoteQuery.Text

/-- An entry of an order: a value that may spell a key, or a key that has been read before. -/
inductive SortEntry where
  | value (v : Value)
  | key (k : SortKey) (full : k.path ≠ "")

namespace SortEntry

/-- Path and direction of an entry, before they are checked. -/
def fields : SortEntry → Except SortError (Value × Value)
  | value v => SortKey.fields v
  | key k _ => .ok (.text k.path, .text k.direction)

def read : SortEntry → Except SortError SortKey
  | value v => SortKey.ofValue v
  | key k _ => .ok k

/-- The keys of an order that is given as a list. -/
def readAll (entries : List SortEntry) : Checked (List SortKey) :=
  match entries.mapM fields with
  | .ok keys => SortKey.keysFrom 0 keys
  | .error e => Checked.refuse (.rule e.message)

end SortEntry

namespace SortKey

/-- The entries that an order holds; a single one needs no list around it. -/
def entriesOf : Value → List Value
  | .null => []
  | .list items => items
  | v => [v]

theorem directions_lookup {s : String} {descending : Bool} :
    directions.lookup s = some descending ↔ s = if descending then "desc" else "asc" := by
  rw [directions, List.lookup_cons, List.lookup_cons, List.lookup_nil]
  by_cases up : s = "asc"
  · rw [up]
    cases descending <;> simp
  · rw [beq_false_of_ne up]
    by_cases down : s = "desc"
    · rw [down]
      cases descending <;> simp
    · rw [beq_false_of_ne down]
      cases descending <;> simp [up, down]

/-- The fields that are accepted are those of a key that has a path. -/
theorem ofFields_eq_ok {path direction : Value} {k : SortKey} :
    ofFields path direction = .ok k ↔
      (path = .text k.path ∧ k.path ≠ "") ∧ direction = .text k.direction := by
  simp only [ofFields, Except.map_eq_ok, Checked.both_eq_ok, Checked.within_eq_ok,
    Checked.fullText_eq_ok, Checked.choice_eq_ok, directions_lookup, exists_eq_right]
  constructor
  · rintro ⟨⟨path, descending⟩, accepted, rfl⟩
    exact accepted
  · intro accepted
    exact ⟨(k.path, k.descending), accepted, rfl⟩

theorem ofValue_eq_ok {v : Value} {k : SortKey} : ofValue v = .ok k ↔
    ∃ path direction, fields v = .ok (path, direction) ∧ ofFields path direction = .ok k := by
  simp only [ofValue, Except.bind_eq_ok, Prod.exists]
  constructor
  · rintro ⟨path, direction, given, checked⟩
    refine ⟨path, direction, given, ?_⟩
    cases found : ofFields path direction with
    | ok k' => simpa [found] using checked
    | error problems => simp [found] at checked
  · rintro ⟨path, direction, given, checked⟩
    exact ⟨path, direction, given, by simp [checked]⟩

theorem keysFrom_eq_ok {i : Nat} {pairs : List (Value × Value)} {keys : List SortKey} :
    keysFrom i pairs = .ok keys ↔
      List.Forall₂ (fun pair k => ofFields pair.1 pair.2 = .ok k) pairs keys := by
  induction pairs generalizing i keys with
  | nil => simp [keysFrom, eq_comm]
  | cons pair pairs ih =>
    simp only [keysFrom, Except.map_eq_ok, Checked.both_eq_ok, Checked.within_eq_ok, ih]
    constructor
    · rintro ⟨⟨k, others⟩, ⟨first, rest⟩, rfl⟩
      exact .cons first rest
    · rintro (_ | ⟨first, rest⟩)
      exact ⟨(_, _), ⟨first, rest⟩, rfl⟩

theorem fieldsOfAll_eq (items : List Value) :
    fieldsOfAll items = (items.map SortEntry.value).mapM SortEntry.fields := by
  induction items with
  | nil => rfl
  | cons v items ih =>
    rw [fieldsOfAll, ih, List.map_cons, List.mapM_cons]
    rfl

end SortKey

namespace SortEntry

theorem read_eq_ok {e : SortEntry} {k : SortKey} : e.read = .ok k ↔
    ∃ path direction, e.fields = .ok (path, direction) ∧ SortKey.ofFields path direction = .ok k := by
  cases e with
  | value v => exact SortKey.ofValue_eq_ok
  | key k' full =>
    have settled : SortKey.ofFields (.text k'.path) (.text k'.direction) = .ok k' :=
      SortKey.ofFields_eq_ok.mpr ⟨⟨rfl, full⟩, rfl⟩
    simp only [read, fields, Except.ok.injEq, Prod.mk.injEq]
    constructor
    · rintro rfl
      exact ⟨_, _, ⟨rfl, rfl⟩, settled⟩
    · rintro ⟨_, _, ⟨rfl, rfl⟩, checked⟩
      exact Except.ok.inj (settled.symm.trans checked)

/-- An order takes the key of each entry, and every entry has to have one. -/
theorem readAll_eq_ok {entries : List SortEntry} {keys : List SortKey} :
    readAll entries = .ok keys ↔ List.Forall₂ (fun e k => e.read = .ok k) entries keys := by
  have split : readAll entries = .ok keys ↔
      ∃ pairs, entries.mapM fields = .ok pairs ∧ SortKey.keysFrom 0 pairs = .ok keys := by
    unfold readAll
    cases entries.mapM fields <;> simp [Checked.refuse]
  rw [split]
  simp only [Except.mapM_eq_ok, SortKey.keysFrom_eq_ok, forall₂_through, read_eq_ok, Prod.exists]

end SortEntry

namespace SortKey

theorem readAll_values {items : List Value} {keys : List SortKey} :
    SortEntry.readAll (items.map .value) = .ok keys ↔
      List.Forall₂ (fun v k => ofValue v = .ok k) items keys := by
  rw [SortEntry.readAll_eq_ok, List.forall₂_map_left_iff]
  rfl

theorem ofValue_unspelled {v : Value} (notText : ∀ s, v ≠ .text s) (notMap : ∀ entries, v ≠ .map entries)
    (k : SortKey) : ofValue v ≠ .ok k := by
  intro read
  obtain ⟨path, direction, given, _⟩ := ofValue_eq_ok.mp read
  unfold fields at given
  split at given
  · exact absurd rfl (notText _)
  · exact absurd rfl (notMap _)
  · split at given <;> cases given

/-- An order is accepted when each of its entries is read as a key by itself, and has these keys. -/
theorem checkOrder_eq_ok {given : Value} {keys : List SortKey} : checkOrder given = .ok keys ↔
    List.Forall₂ (fun v k => ofValue v = .ok k) (entriesOf given) keys := by
  have listed (items : List Value) : checkOrder (.list items) = .ok keys ↔
      List.Forall₂ (fun v k => ofValue v = .ok k) items keys := by
    rw [← readAll_values, SortEntry.readAll, ← fieldsOfAll_eq]
    rfl
  have unlisted (notText : ∀ s, given ≠ .text s) (notMap : ∀ entries, given ≠ .map entries) :
      ¬List.Forall₂ (fun v k => ofValue v = .ok k) [given] keys := by
    rintro (_ | ⟨read, _⟩)
    exact ofValue_unspelled notText notMap _ read
  cases given with
  | null => exact listed []
  | text s => exact listed [.text s]
  | list items => exact listed items
  | map entries => exact listed [.map entries]
  | _ => exact iff_of_false (by simp [checkOrder, Checked.refuse]) (unlisted (by simp) (by simp))

theorem direction_toList (k : SortKey) :
    k.direction.toList = if k.descending then ['d', 'e', 's', 'c'] else ['a', 's', 'c'] := by
  rw [direction]
  cases k.descending <;> rfl

/-- A direction in small letters and capitals is that direction in small letters, and no blank is
in it. -/
theorem lower_direction {k : SortKey} {word : List Char}
    (cased : word.map Char.toLower = k.direction.toList) :
    lower (String.ofList word) = k.direction ∧ ∀ c ∈ word, isBlank c = false := by
  have letters : ∀ c ∈ k.direction.toList, c.toNat < 128 ∧ c.isAlpha = true := by
    rw [direction_toList]
    cases k.descending <;> simp [Char.isAlpha, Char.isLower]
  have small : ∀ c ∈ word, c.toLower ∈ k.direction.toList := by
    intro c member
    rw [← cased]
    exact List.mem_map_of_mem member
  have plain : ∀ c ∈ word, c.toNat < 128 := fun c member =>
    plain_of_toLower (letters _ (small c member)).1
  constructor
  · rw [lower, lowerChars, String.toList_ofList, lowerFrom_plain plain, cased, String.ofList_toList]
  · intro c member
    exact isBlank_of_letter (plain c member) (letters _ (small c member)).2

/-- The last word of a text, and what is in front of the blanks before it. -/
theorem cutLastWord_append {front gap word : List Char}
    (last : ∀ c ∈ front.getLast?, isBlank c = false) (parted : gap ≠ [])
    (blank : ∀ c ∈ gap, isBlank c = true) (solid : ∀ c ∈ word, isBlank c = false) :
    cutLastWord (front ++ gap ++ word) = (front, word) := by
  have reversed : (front ++ gap ++ word).reverse = word.reverse ++ (gap.reverse ++ front.reverse) := by
    simp
  have solid' : ∀ c ∈ word.reverse, (! isBlank c) = true := by
    intro c member
    rw [solid c (List.mem_reverse.mp member)]
    rfl
  have stops : ∀ c ∈ (gap.reverse ++ front.reverse).head?, (! isBlank c) = false := by
    intro c first
    rw [List.head?_append_of_ne_nil _ (List.reverse_ne_nil_iff.mpr parted)] at first
    rw [blank c (List.mem_reverse.mp (List.mem_of_mem_head? first))]
    rfl
  obtain ⟨taken, dropped⟩ := span_front solid' stops
  have blank' : ∀ c ∈ gap.reverse, isBlank c = true := fun c member =>
    blank c (List.mem_reverse.mp member)
  have kept := (span_front blank' (by rwa [List.head?_reverse])).2
  simp only [cutLastWord, dropEndWhile, reversed, taken, dropped, List.reverse_reverse, kept]

/-- A path with a direction behind it is read as the two, even if the path holds blanks or ends in
the word for a direction. -/
theorem ofValue_written {k : SortKey} {gap word : String} (full : k.path ≠ "")
    (trimmed : trimText k.path = k.path) (parted : gap ≠ "")
    (blank : ∀ c ∈ gap.toList, isBlank c = true)
    (cased : word.toList.map Char.toLower = k.direction.toList) :
    ofValue (.text (k.path ++ gap ++ word)) = .ok k := by
  obtain ⟨small, solid⟩ := lower_direction cased
  rw [String.ofList_toList] at small
  have trimmed' : trim k.path.toList = k.path.toList := by
    have same := congrArg String.toList trimmed
    rwa [trimText, String.toList_ofList] at same
  obtain ⟨first, last⟩ := trim_eq_self_iff.mp trimmed'
  have path : k.path.toList ≠ [] := by simpa using full
  have named : word.toList ≠ [] := by
    intro none
    rw [none, direction_toList] at cased
    cases down : k.descending <;> simp [down] at cased
  have whole : trim (k.path ++ gap ++ word).toList = k.path.toList ++ gap.toList ++ word.toList := by
    rw [String.toList_append, String.toList_append]
    apply trim_eq_self_iff.mpr
    rw [List.append_assoc, List.head?_append_of_ne_nil _ path, ← List.append_assoc,
      List.getLast?_append_of_ne_nil _ named]
    exact ⟨first, fun c member => solid c (List.mem_of_mem_getLast? member)⟩
  have cut := cutLastWord_append last (by simpa using parted) blank solid
  have known : directions.lookup k.direction = some k.descending := directions_lookup.mpr rfl
  rw [ofValue_eq_ok]
  refine ⟨.text k.path, .text k.direction, ?_, ofFields_eq_ok.mpr ⟨⟨rfl, full⟩, rfl⟩⟩
  have worded : (!k.path.toList.isEmpty && (directions.lookup k.direction).isSome) = true := by
    rw [known, Option.isSome_some, Bool.and_true, Bool.not_eq_true', List.isEmpty_eq_false_iff]
    exact path
  simp only [fields, whole, cut, small, worded, if_true, String.ofList_toList]

end SortKey

open Checked in
/-- A view is accepted when each of its fields is. -/
theorem View.check_eq_ok {given : Value} {view : View} : View.check given = .ok view ↔
    ∃ entries, given = .map entries ∧ field entries "name" fullText = .ok view.name ∧
      fieldOr entries ["kind", "type"] .table ViewKind.check = .ok view.kind ∧
      fieldOr entries ["filters"] none checkFilter = .ok view.filter ∧
      fieldOr entries ["order"] [] SortKey.checkOrder = .ok view.order ∧
      (∃ limit, fieldOr entries ["limit"] none (optional (wholeFrom 0)) = .ok limit ∧
        limit.map Int.toNat = view.limit) ∧
      fieldOr entries ["columns"] none (optional (list text)) = .ok view.columns ∧
      fieldOr entries ["include_content", "showContent"] false truth = .ok view.includeContent := by
  cases given with
  | map entries =>
    simp only [View.check, Except.map_eq_ok, both_eq_ok, Value.map.injEq, exists_eq_left']
    constructor
    · rintro ⟨⟨name, kind, filter, order, limit, columns, content⟩, each, rfl⟩
      obtain ⟨named, sort, filtered, ordered, limited, columned, contented⟩ := each
      exact ⟨named, sort, filtered, ordered, ⟨limit, limited, rfl⟩, columned, contented⟩
    · rintro ⟨named, sort, filtered, ordered, ⟨limit, limited, same⟩, columned, contented⟩
      refine ⟨(view.name, view.kind, view.filter, view.order, limit, view.columns,
        view.includeContent), ⟨named, sort, filtered, ordered, limited, columned, contented⟩, ?_⟩
      rw [same]
  | _ => simp [View.check, refuse]

namespace SortEntry

/-- Entries come back as the keys that they are. A key that an entry is read as is read as itself, also
by its own fields, and is what every order with the entry in it takes from it, as that of every view
does; and a path that no blank begins or ends, with blanks and a direction in any letters behind it,
is read as the key of the two. -/
theorem read_settles :
    (∀ (e : SortEntry) (k : SortKey), e.read = .ok k →
      (∃ full : k.path ≠ "", (key k full).read = .ok k ∧
        ∃ path direction, (key k full).fields = .ok (path, direction) ∧
          SortKey.ofFields path direction = .ok k) ∧
      readAll [e] = .ok [k] ∧
      ∀ (entries : List SortEntry) (keys : List SortKey) (i : Nat),
        readAll entries = .ok keys → entries[i]? = some e → keys[i]? = some k) ∧
    (∀ (v : Value) (k : SortKey), SortKey.ofValue v = .ok k →
      (∀ given, SortKey.entriesOf given = [v] →
        ∃ view, View.check (.map [("name", .text "view"), ("order", given)]) = .ok view ∧
          view.order = [k]) ∧
      ∀ (entries : Entries) (view : View) (given : Value) (i : Nat),
        View.check (.map entries) = .ok view → entries.find? "order" = some given →
          (SortKey.entriesOf given)[i]? = some v → view.order[i]? = some k) ∧
    ∀ (k : SortKey) (gap word : String), k.path ≠ "" → trimText k.path = k.path → gap ≠ "" →
      (∀ c ∈ gap.toList, isBlank c = true) → word.toList.map Char.toLower = k.direction.toList →
        (value (.text (k.path ++ gap ++ word))).read = .ok k := by
  refine ⟨?_, ?_, ?_⟩
  · intro e k read
    obtain ⟨path, direction, _, checked⟩ := read_eq_ok.mp read
    have full : k.path ≠ "" := (SortKey.ofFields_eq_ok.mp checked).1.2
    refine ⟨⟨full, rfl, read_eq_ok.mp rfl⟩, readAll_eq_ok.mpr (.cons read .nil), ?_⟩
    intro entries keys i accepted here
    obtain ⟨k', there, read'⟩ := forall₂_at (readAll_eq_ok.mp accepted) here
    rw [there, Except.ok.inj (read.symm.trans read')]
  · intro v k read
    constructor
    · intro given single
      have ordered : SortKey.checkOrder given = .ok [k] := by
        rw [SortKey.checkOrder_eq_ok, single]
        exact .cons read .nil
      refine ⟨⟨"view", .table, none, [k], none, none, false⟩, ?_, rfl⟩
      refine View.check_eq_ok.mpr ⟨_, rfl, rfl, rfl, rfl, ?_, ⟨none, rfl, rfl⟩, rfl, rfl⟩
      exact Checked.fieldOr_eq_ok.mpr (.inl ⟨"order", given, rfl, ordered⟩)
    · intro entries view given i accepted found here
      obtain ⟨_, same, _, _, _, checked, _⟩ := View.check_eq_ok.mp accepted
      cases same
      have ordered : SortKey.checkOrder given = .ok view.order := by
        simpa [Checked.fieldOr, Checked.given?, found, Checked.within_eq_ok] using checked
      obtain ⟨k', there, read'⟩ := forall₂_at (SortKey.checkOrder_eq_ok.mp ordered) here
      rw [there, Except.ok.inj (read.symm.trans read')]
  · intro k gap word full trimmed parted blank cased
    exact SortKey.ofValue_written full trimmed parted blank cased

theorem read_settles_words :
    (value (.text "sort asc \t DeSc")).read = .ok ⟨"sort asc", true⟩ ∧
      (∃ full, (key ⟨"sort asc", true⟩ full).read = .ok ⟨"sort asc", true⟩) ∧
      ∃ view, View.check (.map [("name", .text "view"),
        ("order", .list [.text "sort asc \t DeSc"])]) = .ok view ∧ view.order = [⟨"sort asc", true⟩] := by
  have text : "sort asc" ++ " \t " ++ "DeSc" = "sort asc \t DeSc" := by decide
  have blank : ∀ c ∈ " \t ".toList, isBlank c = true := by
    simp [isBlank, inRanges, rangeOf?, blankRanges]
  have read := read_settles.2.2 ⟨"sort asc", true⟩ " \t " "DeSc" (by decide) (by decide +kernel)
    (by decide) blank rfl
  rw [text] at read
  obtain ⟨full, again, _⟩ := (read_settles.1 _ _ read).1
  have ordered := (read_settles.2.1 (.text "sort asc \t DeSc") ⟨"sort asc", true⟩ read).1
  exact ⟨read, ⟨full, again⟩, ordered (.list [.text "sort asc \t DeSc"]) rfl⟩

end SortEntry

end NoteQuery
