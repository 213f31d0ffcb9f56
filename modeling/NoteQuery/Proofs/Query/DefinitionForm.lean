import NoteQuery.Proofs.Query.FilterForm
import NoteQuery.Proofs.Query.SortEntry

/-! The one form of definitions. Whatever is read as a definition is read in this form, from any of the
names and spellings that a field may have; and a definition in this form, written out under the
first name of each field, is read as itself. -/
namespace NoteQuery

open Checked

def ViewKind.toValue (kind : ViewKind) : Value := .text kind.name

def View.toValue (view : View) : Value :=
  .map [("name", .text view.name),
    ("kind", view.kind.toValue),
    ("filters", (view.filter.map Filter.toValue).getD .null),
    ("order", .list (view.order.map SortKey.toValue)),
    ("limit", (view.limit.map fun n => .int n).getD .null),
    ("columns", (view.columns.map .texts).getD .null),
    ("include_content", .bool view.includeContent)]

def Formulas.toValue (formulas : Formulas) : Value :=
  .map (formulas.map fun (name, text) => (name, .text text))

def shownNameValue (shown : Option String) : Value :=
  .map [("display_name", (shown.map .text).getD .null)]

def shownNamesValue (properties : List (String × Option String)) : Value :=
  .map (properties.map fun (name, shown) => (name, shownNameValue shown))

def Definition.entries (d : Definition) : Entries :=
  [("filters", (d.filter.map Filter.toValue).getD .null),
    ("formulas", d.formulas.toValue),
    ("properties", shownNamesValue d.properties),
    ("views", .list (d.views.map View.toValue))]

def Definition.toValue (d : Definition) : Value := .map d.entries

structure View.Canonical (view : View) : Prop where
  named : view.name ≠ ""
  kind : view.kind.name ∈ ["table", "cards", "list"]
  filter : ∀ f ∈ view.filter, Filter.Canonical f.toValue
  order : ∀ k ∈ view.order, k.path ≠ "" ∧ k.direction ∈ ["asc", "desc"]
  limit : ∀ n ∈ view.limit, (0 : Int) ≤ n

structure Definition.Canonical (d : Definition) : Prop where
  filter : ∀ f ∈ d.filter, Filter.Canonical f.toValue
  formulas : ∀ formula ∈ d.formulas, Text.isBlankText formula.2 = false
  viewed : d.views ≠ []
  views : ∀ view ∈ d.views, view.Canonical

theorem ViewKind.check_settles : Settles ViewKind.check ViewKind.toValue
    fun kind => kind.name ∈ ["table", "cards", "list"] where
  sound {_ kind} _ := by cases kind <;> simp [ViewKind.name]
  again {kind} _ := by cases kind <;> rfl

theorem checkFilter_eq_ok {given : Value} {filter : Option Filter} : checkFilter given = .ok filter ↔
    given = .null ∧ filter = none ∨ ∃ f, Filter.Spells given f ∧ filter = some f := by
  unfold checkFilter
  split
  · have unspelled (f : Filter) : ¬Filter.Spells .null f := by
      rintro ⟨⟩
    simp [unspelled, eq_comm]
  next full =>
    rw [or_iff_right fun absent => full absent.1]
    cases found : Filter.ofValue "filters" given with
    | ok f =>
      have spelled := Filter.ofValue_eq_ok_iff.mp found
      constructor
      · rintro ⟨⟩
        exact ⟨f, spelled, rfl⟩
      · rintro ⟨g, spelled', rfl⟩
        rw [spelled.unique spelled']
    | error e =>
      refine iff_of_false (by simp [refuse]) ?_
      rintro ⟨f, spelled, _⟩
      cases found.symm.trans (spelled.read "filters")

theorem checkFilter_settles : Settles checkFilter (fun filter => (filter.map Filter.toValue).getD .null)
    fun filter => ∀ f ∈ filter, Filter.Canonical f.toValue where
  sound {given filter} accepted := by
    intro f inside
    rcases checkFilter_eq_ok.mp accepted with ⟨_, rfl⟩ | ⟨g, spelled, rfl⟩
    · cases inside
    · cases inside
      exact spelled.canonical
  again {filter} canonical := by
    cases filter with
    | none => rfl
    | some f => exact checkFilter_eq_ok.mpr (.inr ⟨f, Filter.spells_toValue (canonical f rfl), rfl⟩)

theorem SortKey.ofValue_toValue {k : SortKey} (full : k.path ≠ "") : ofValue k.toValue = .ok k := by
  have small : Text.lower k.direction = k.direction := by
    rw [direction]
    cases k.descending <;> rfl
  refine ofValue_eq_ok.mpr ⟨.text k.path, .text k.direction, ?_, ofFields_eq_ok.mpr ⟨⟨rfl, full⟩, rfl⟩⟩
  rw [← small]
  rfl

theorem SortKey.checkOrder_settles : Settles checkOrder (fun order => .list (order.map toValue))
    fun order => ∀ k ∈ order, k.path ≠ "" ∧ k.direction ∈ ["asc", "desc"] where
  sound {given order} accepted := by
    intro k member
    obtain ⟨i, here⟩ := List.getElem?_of_mem member
    obtain ⟨_, _, read⟩ := forall₂_at (checkOrder_eq_ok.mp accepted).flip here
    obtain ⟨_, _, _, checked⟩ := ofValue_eq_ok.mp read
    refine ⟨(ofFields_eq_ok.mp checked).1.2, ?_⟩
    rw [direction]
    cases k.descending <;> simp
  again {order} sound := by
    rw [checkOrder_eq_ok, entriesOf, List.forall₂_map_left_iff, List.forall₂_same]
    exact fun k member => ofValue_toValue (sound k member).1

theorem View.check_settles : Settles View.check View.toValue View.Canonical where
  sound {given view} accepted := by
    obtain ⟨entries, _, named, kind, filter, order, ⟨limit, limited, same⟩, _, _⟩ :=
      View.check_eq_ok.mp accepted
    exact {
      named := fullText_settles.field_sound named
      kind := ViewKind.check_settles.fieldOr_sound (by simp [ViewKind.name]) kind
      filter := checkFilter_settles.fieldOr_sound (by simp) filter
      order := SortKey.checkOrder_settles.fieldOr_sound (by simp) order
      limit := fun n _ => Int.natCast_nonneg n }
  again {view} canonical := by
    have whole : ∀ n ∈ view.limit.map Int.ofNat, (0 : Int) ≤ n := by simp
    have limited := (wholeFrom_settles 0).optional (by simp)
    have columned := text_settles.list.optional (by simp)
    refine View.check_eq_ok.mpr ⟨_, rfl, fullText_settles.field_again canonical.named rfl,
      ViewKind.check_settles.fieldOr_again canonical.kind rfl,
      checkFilter_settles.fieldOr_again canonical.filter rfl,
      SortKey.checkOrder_settles.fieldOr_again canonical.order rfl,
      ⟨view.limit.map Int.ofNat, limited.fieldOr_again whole ?_, ?_⟩,
      columned.fieldOr_again (by simp) rfl, truth_settles.fieldOr_again trivial rfl⟩
    · cases view.limit <;> rfl
    · cases view.limit <;> rfl

theorem checkViews_eq_ok {given : Value} {views : List View} : checkViews given = .ok views ↔
    list View.check given = .ok views ∧ views ≠ [] := by
  unfold checkViews
  split
  next empty => simp [refuse, empty, eq_comm]
  next other =>
    constructor
    · intro found
      exact ⟨found, fun empty => other (empty ▸ found)⟩
    · exact And.left

theorem checkViews_settles : Settles checkViews (fun views => .list (views.map View.toValue))
    fun views => views ≠ [] ∧ ∀ view ∈ views, view.Canonical where
  sound accepted :=
    have ⟨found, full⟩ := checkViews_eq_ok.mp accepted
    ⟨full, View.check_settles.list.sound found⟩
  again sound := checkViews_eq_ok.mpr ⟨View.check_settles.list.again sound.2, sound.1⟩

theorem blankFormula?_eq_none {entries : Entries} : blankFormula? entries = none ↔
    ∀ entry ∈ entries, ∃ s, entry.2 = .text s ∧ Text.isBlankText s = false := by
  induction entries with
  | nil => simp [blankFormula?]
  | cons entry entries ih =>
    obtain ⟨name, v⟩ := entry
    rw [List.forall_mem_cons, ← ih]
    cases v with
    | text s => cases blank : Text.isBlankText s <;> simp [blankFormula?, blank]
    | _ => simp [blankFormula?]

theorem checkFormulas_settles : Settles checkFormulas Formulas.toValue
    fun formulas => ∀ formula ∈ formulas, Text.isBlankText formula.2 = false where
  sound {given found} accepted := by
    cases given with
    | null =>
      cases accepted
      simp
    | map entries =>
      cases blank : blankFormula? entries with
      | some name => simp [checkFormulas, blank, refuse] at accepted
      | none =>
        simp only [checkFormulas, blank, Except.ok.injEq] at accepted
        intro formula member
        rw [← accepted, List.mem_filterMap] at member
        obtain ⟨⟨name, v⟩, inside, same⟩ := member
        obtain ⟨s, rfl, full⟩ := blankFormula?_eq_none.mp blank _ inside
        cases same
        exact full
    | _ => simp [checkFormulas, refuse] at accepted
  again {formulas} full := by
    have none : blankFormula? (formulas.map fun (name, text) => (name, .text text)) = none := by
      rw [blankFormula?_eq_none, List.forall_mem_map]
      exact fun formula member => ⟨formula.2, rfl, full formula member⟩
    simp [checkFormulas, Formulas.toValue, none, List.filterMap_map]

theorem checkShownName_settles : Settles checkShownName shownNameValue fun _ => True where
  sound _ := trivial
  again {shown} _ := by
    rw [shownNameValue, checkShownName]
    exact (text_settles.optional (by simp)).fieldOr_again (by simp) rfl

theorem checkEach_shownNames (properties : List (String × Option String)) :
    checkEach (properties.map fun (name, shown) => (name, shownNameValue shown)) = .ok properties := by
  induction properties with
  | nil => rfl
  | cons property properties ih =>
    have first := checkShownName_settles.again (a := property.2) trivial
    rw [List.map_cons, checkEach, first, ih]
    rfl

theorem checkProperties_settles : Settles checkProperties shownNamesValue fun _ => True where
  sound _ := trivial
  again _ := checkEach_shownNames _

namespace Definition

theorem ofEntries_eq_ok {entries : Entries} {d : Definition} : ofEntries entries = .ok d ↔
    fieldOr entries ["filters", "globalFilters", "global_filters"] none checkFilter = .ok d.filter ∧
      fieldOr entries ["formulas"] [] checkFormulas = .ok d.formulas ∧
      fieldOr entries ["properties"] [] checkProperties = .ok d.properties ∧
      field entries "views" checkViews = .ok d.views := by
  simp only [ofEntries, Except.map_eq_ok, both_eq_ok]
  constructor
  · rintro ⟨⟨filter, formulas, properties, views⟩, each, rfl⟩
    exact each
  · intro each
    exact ⟨(d.filter, d.formulas, d.properties, d.views), each, rfl⟩

theorem ofEntries_canonical {entries : Entries} {d : Definition} (read : ofEntries entries = .ok d) :
    d.Canonical := by
  obtain ⟨filter, formulas, _, views⟩ := ofEntries_eq_ok.mp read
  have ⟨viewed, each⟩ := checkViews_settles.field_sound views
  exact {
    filter := checkFilter_settles.fieldOr_sound (by simp) filter
    formulas := checkFormulas_settles.fieldOr_sound (by simp) formulas
    viewed := viewed
    views := each }

theorem Canonical.read {d : Definition} (canonical : d.Canonical) : ofValue d.toValue = .ok d := by
  have read : ofEntries d.entries = .ok d :=
    ofEntries_eq_ok.mpr ⟨checkFilter_settles.fieldOr_again canonical.filter rfl,
      checkFormulas_settles.fieldOr_again canonical.formulas rfl,
      checkProperties_settles.fieldOr_again trivial rfl,
      checkViews_settles.field_again ⟨canonical.viewed, canonical.views⟩ rfl⟩
  rw [toValue, ofValue, read]

theorem canonical_of_read {given : Value} {d : Definition} (read : ofValue given = .ok d) :
    d.Canonical := by
  cases given with
  | map entries =>
    cases checked : ofEntries entries with
    | error problems => simp [ofValue, checked] at read
    | ok d' =>
      simp only [ofValue, checked, Except.ok.injEq] at read
      exact read ▸ ofEntries_canonical checked
  | _ => cases read

/-- A value is refused as no map, or with the problems that there are with it, or it is read as a
definition in the one form. The definitions in the one form are those that are read as themselves
when they are written out. -/
theorem ofValue_canonical :
    (∀ given, ((∀ entries, given ≠ .map entries) ∧ ofValue given = .error (.notMap given.kindName)) ∨
      (∃ problems, ofValue given = .error (.invalid problems)) ∨
        ∃ d, ofValue given = .ok d ∧ d.Canonical ∧ ofValue d.toValue = .ok d) ∧
    ∀ d, ofValue d.toValue = .ok d ↔ d.Canonical := by
  constructor
  · intro given
    cases given with
    | map entries =>
      right
      cases checked : ofEntries entries with
      | error problems => exact .inl ⟨problems, by rw [ofValue, checked]⟩
      | ok d =>
        have read : ofValue (.map entries) = .ok d := by rw [ofValue, checked]
        have canonical := canonical_of_read read
        exact .inr ⟨d, read, canonical, canonical.read⟩
    | _ => exact .inl ⟨by simp, rfl⟩
  · intro d
    exact ⟨canonical_of_read, Canonical.read⟩

end Definition

end NoteQuery
