import NoteQuery.Proofs.Formula.Lasting
import NoteQuery.Proofs.Formula.Rearrangement
import NoteQuery.Proofs.Query.Given
import NoteQuery.Proofs.Text.Search

/-! Columns that show formulas. A note is returned with the values of all its formulas and with the
columns that were asked for, which are read later. A column of a formula shows the value that is
returned beside it, except where the formula shares its text with another and null has taken the
place of the value in between. -/
namespace NoteQuery

namespace Entries

theorem find?_put (entries : Entries) (name other : String) (value : Value) :
    find? (put name value entries) other =
      if other = name then some value else find? entries other :=
  lookup_put entries name other value

theorem find?_ofList {pairs : Entries} {name : String} (inside : name ∈ pairs.names) :
    ∃ value, (name, value) ∈ pairs ∧ find? (ofList pairs) name = some value := by
  induction pairs using List.reverseRecOn with
  | nil => simp [names] at inside
  | append_singleton pairs last ih =>
    obtain ⟨other, value⟩ := last
    have split : ofList (pairs ++ [(other, value)]) = put other value (ofList pairs) := by
      simp [ofList, putAll]
    rw [split, find?_put]
    by_cases here : name = other
    · exact ⟨value, by simp [here], by simp [here]⟩
    · obtain ⟨value', member, found⟩ := ih (by simpa [names, here] using inside)
      exact ⟨value', by simp [member], by simpa [here] using found⟩

end Entries

namespace Surroundings

theorem resolve_formula (s : Surroundings) {name : String} (full : name ≠ "")
    (dotless : '.' ∉ name.toList) : s.resolve ("formula." ++ name) = s.member .formula name := by
  have cut : Text.cutAt '.' ("formula." ++ name).toList = ("formula".toList, name.toList) := by
    rw [← Text.cutAt_append (by decide : '.' ∉ "formula".toList)]
    simp
  have rest : name.toList.isEmpty = false := by simpa [String.toList_eq_nil_iff] using full
  have scope : Scope.ofName? "formula" = some .formula := by decide
  unfold resolve
  simp only [cut, Text.pieces_whole dotless, rest, scope, Bool.false_eq_true, if_false, List.map_cons,
    List.map_nil, String.ofList_toList]
  exact bind_pure (s.member .formula name)

end Surroundings

namespace Formulas

variable {formulas : Formulas} {name text : String}

/-- When all formulas are read, the value that is found for one of them lasts from then on. -/
theorem readAll_lasting (found : formulas.lookup name = some text) (present : Moment)
    (context : Context) {wanted : List String} (inside : name ∈ wanted) (memo : Memo) :
    ∃ entries after value,
      (Surroundings.readAll (formulas.reader present context).read wanted).on memo =
        (.ok entries, after) ∧
      Entries.find? entries name = some value ∧ Lasting formulas context name text value after := by
  induction wanted generalizing memo with
  | nil => simp at inside
  | cons first wanted ih =>
    by_cases here : first = name
    · subst here
      obtain ⟨value, middle, run, lasting⟩ := read_lasting found present context memo
      obtain ⟨rest, after, run'⟩ := Surroundings.readAll_sure present context formulas wanted middle
      have lasting' := lasting.after found (Surroundings.readAll_scripted wanted) run'
      refine ⟨(first, value) :: rest, after, value, ?_, by simp [Entries.find?], lasting'⟩
      simp only [Surroundings.readAll, ExceptT.on_bind, run, run', ExceptT.on_pure]
    · obtain ⟨other, middle, run⟩ := Surroundings.read_sure present context formulas first memo
      have later : name ∈ wanted := (List.mem_cons.mp inside).resolve_left (Ne.symm here)
      obtain ⟨rest, after, value, run', there, lasting⟩ := ih later middle
      refine ⟨(first, other) :: rest, after, value, ?_, ?_, lasting⟩
      · simp only [Surroundings.readAll, ExceptT.on_bind, run, run', ExceptT.on_pure]
      · rw [← there]
        simp [Entries.find?, List.lookup_cons, beq_false_of_ne (Ne.symm here)]

end Formulas

namespace Query

variable {q : Query} {name text : String}

/-- The value that was returned for a formula, or null where one with the same text is null. -/
def Shows (q : Query) (formulas : Entries) (name : String) (shown : Value) : Prop :=
  shown = formulas.get name ∨ shown = .null ∧ ∃ other, other ≠ name ∧
    q.definition.formulas.lookup other = q.definition.formulas.lookup name ∧
    formulas.get other = .null

/-- All formulas have been read, and these values were found. -/
def Read (q : Query) (c : Candidate) (table : FormulaTable) (formulas : Entries) : Prop :=
  ∀ name text, q.definition.formulas.lookup name = some text →
    q.definition.formulas.Lasting c.context name text (formulas.get name) ⟨table, c.cyclic⟩

/-- In every column of the formula stands the value that was returned for it, or null where one with
the same text is null. -/
theorem project_shows (found : q.definition.formulas.lookup name = some text) (full : name ≠ "")
    (dotless : '.' ∉ name.toList) {formulas : Entries} (columns : List String) {c : Candidate}
    {table : FormulaTable} (read : q.Read c table formulas) :
    ∃ entries c' after, (q.project columns c).on table = (.ok (entries, c'), after) ∧
      Entries.names entries = columns ∧
      ∀ shown, ("formula." ++ name, shown) ∈ entries → q.Shows formulas name shown := by
  induction columns generalizing c table with
  | nil => exact ⟨[], c, table, rfl, rfl, by simp⟩
  | cons column columns ih =>
    obtain ⟨first, middle, resolved, run⟩ := c.resolve_runs q column table
    have read' : q.Read { c with cyclic := middle.cyclic } middle.table formulas := by
      intro other text' found'
      exact (read other text' found').after found' (Surroundings.resolve_scripted q.present
        c.context q.definition.formulas.names column) resolved
    have shows (this : column = "formula." ++ name) : q.Shows formulas name first := by
      -- What is left of the value since it was returned is what the column is given.
      obtain ⟨shown, last, run', holds⟩ := (read name text found).read_value found q.present
      rw [this, Surroundings.resolve_formula _ full dotless] at resolved
      have same : (Except.ok shown, last) = (Except.ok first, middle) := run'.symm.trans resolved
      cases same
      refine holds.imp_right fun ⟨null, other, marked, apart, found'⟩ => ?_
      obtain ⟨_, _, _, cyclic⟩ := read other text found'
      exact ⟨null, other, apart, found'.trans found.symm, cyclic marked⟩
    obtain ⟨rest, c', after, run', names, holds⟩ := ih read'
    refine ⟨(column, first) :: rest, c', after, ?_, by simpa [Entries.names] using names, ?_⟩
    · simp only [project, ExceptT.on_bind, run, run', ExceptT.on_pure]
    · intro shown member
      rcases List.mem_cons.mp member with here | later
      · obtain ⟨this, rfl⟩ := Prod.mk.inj here
        exact shows this.symm
      · exact holds shown later

theorem present_shows (found : q.definition.formulas.lookup name = some text) (full : name ≠ "")
    (dotless : '.' ∉ name.toList) {columns : List String} (wanted : q.columns? = some columns)
    (inside : "formula." ++ name ∈ columns) {c : Candidate} {table after : FormulaTable}
    {document : ResultDocument} (presented : (q.present? c).on table = (.ok document, after)) :
    document.formulas.has name = true ∧ ∃ shown,
      document.properties.find? ("formula." ++ name) = some shown ∧
      q.Shows document.formulas name shown := by
  obtain ⟨entries, middle, read, run⟩ := c.entries_runs q table
  have lasting (other text' : String) (found' : q.definition.formulas.lookup other = some text') :
      entries.has other = true ∧
        q.definition.formulas.Lasting c.context other text' (entries.get other) middle := by
    have defined : other ∈ q.definition.formulas.names :=
      List.mem_map.mpr ⟨_, Formulas.lookup_mem found', rfl⟩
    obtain ⟨entries', middle', value, read', there, lasting⟩ :=
      Formulas.readAll_lasting found' q.present c.context defined ⟨table, c.cyclic⟩
    have same : (Except.ok entries, middle) = (Except.ok entries', middle') := read.symm.trans read'
    cases same
    simp only [Entries.has, Entries.get, there, Option.isSome_some, Option.getD_some]
    exact ⟨trivial, lasting⟩
  obtain ⟨columns', c', last, run', names, shows⟩ := project_shows found full dotless columns
    (c := { c with cyclic := middle.cyclic }) fun other text' found' => (lasting other text' found').2
  simp only [present?, ExceptT.on_bind, run, wanted, run', ExceptT.on_pure, Prod.mk.injEq,
    Except.ok.injEq] at presented
  obtain ⟨rfl, _⟩ := presented
  obtain ⟨shown, member, given⟩ := Entries.find?_ofList (names ▸ inside)
  exact ⟨(lasting name text found).1, shown, given, shows shown member⟩

theorem presentAll_presents {candidates : List Candidate} {documents : List ResultDocument}
    (given : (q.presentAll candidates).Gives documents) :
    ∀ document ∈ documents, ∃ c, (q.present? c).Gives document := by
  induction candidates generalizing documents with
  | nil =>
    cases given.of_pure
    simp
  | cons c candidates ih =>
    obtain ⟨first, here, given⟩ := given.of_bind
    obtain ⟨others, later, given⟩ := given.of_bind
    cases given.of_pure
    exact List.forall_mem_cons.mpr ⟨⟨c, here⟩, ih later⟩

theorem run_presents {source : Source} {cancelAfter : Option Nat} {table : FormulaTable}
    {result : ResultSet} (returned : ((q.run source cancelAfter).on table).1 = .ok result) :
    ∀ document ∈ result.documents, ∃ c, (q.present? c).Gives document := by
  obtain ⟨_, _, _, _, finished⟩ := run_gives ⟨table, _, Prod.ext returned rfl⟩
  obtain ⟨_, _, shows⟩ := finish_gives finished
  exact presentAll_presents shows

end Query

namespace Definition

/-- Wherever a run shows a formula in a column, it shows the value that it returns for the formula,
or null where it returns null for another formula with the same text. -/
theorem run_shows_formulas (d : Definition) (viewName : Option String) (settings : Settings)
    (options : Options) (present : Moment) (source : Source) (cancelAfter : Option Nat)
    (table : FormulaTable) (result : ResultSet)
    (returned : ((d.run viewName settings options present source cancelAfter).on table).1 =
      .ok result) :
    ∃ view, d.chosen viewName = .ok view ∧ ∀ document ∈ result.documents, ∀ columns,
      Query.columns? ⟨d, view, settings, options, present⟩ = some columns →
      ∀ name text, d.formulas.lookup name = some text → name ≠ "" → '.' ∉ name.toList →
      "formula." ++ name ∈ columns →
      document.formulas.has name = true ∧ ∃ shown,
        document.properties.find? ("formula." ++ name) = some shown ∧
        Query.Shows ⟨d, view, settings, options, present⟩ document.formulas name shown := by
  rw [run_on] at returned
  cases chosen : d.chosen viewName with
  | error e => simp [chosen] at returned
  | ok view =>
    simp only [chosen] at returned
    refine ⟨view, rfl, fun document member columns wanted name text found full dotless inside => ?_⟩
    obtain ⟨c, table, after, presented⟩ := Query.run_presents returned document member
    exact Query.present_shows found full dotless wanted inside presented

section Sample

def blankDocument : Document := ⟨"a.md", 0, none, none, []⟩

def blankSource : Source := ⟨.ok [blankDocument], fun _ => some "", fun _ => none⟩

def blankCandidate : Candidate := ⟨blankDocument, Formulas.blankNote, []⟩

def plainView (columns : Option (List String)) : View :=
  ⟨"Notes", .table, none, [], none, columns, false⟩

/-- Formulas alone, with a view of all notes. -/
def plain (formulas : Formulas) (columns : Option (List String)) : Definition :=
  ⟨none, formulas, [], [plainView columns]⟩

/-- A run over a single note returns what is presented for it. -/
theorem plain_returns {formulas : Formulas} {columns : Option (List String)} {keep : Keep}
    {present : Moment} {table after : FormulaTable} {document : ResultDocument}
    (presented : (Query.present? ⟨plain formulas columns, some (plainView columns),
      { keep := keep }, {}, present⟩ blankCandidate).on (if keep = .query then [] else table) =
        (.ok document, after)) :
    ((plain formulas columns).run (some "Notes") { keep := keep } {} present blankSource none).on
        table = (.ok ⟨[document], 1, some (plainView columns), none, false, 0⟩, after) := by
  generalize asked : Query.mk (plain formulas columns) (some (plainView columns)) { keep := keep } {}
    present = q at presented
  have chosen : (plain formulas columns).chosen (some "Notes") = .ok (some (plainView columns)) := rfl
  have listed : blankSource.documents = .ok [blankDocument] := rfl
  have selected (t : FormulaTable) : (q.select blankSource none 1 0 0 [blankDocument]).on t =
      (.ok ⟨[blankCandidate], 0⟩, t) := by
    rw [← asked]
    rfl
  have sorted (c : Candidate) (t : FormulaTable) : (q.sortBy q.order [c]).on t = (.ok [c], t) := by
    rw [← asked]
    rfl
  have shown (c : Candidate) : Query.page q.options.paging? (q.limited [c]) = ([c], false) := by
    rw [← asked]
    rfl
  simp only [run_on, chosen, asked, Query.run_on, listed, List.length_singleton, selected,
    Query.finish_on, sorted, shown, Query.presentAll, ExceptT.on_bind, presented, ExceptT.on_pure]
  rw [← asked]
  rfl

/-- A column for the formula beside a circle that shares its text with one on it. -/
def showing : Definition := plain Formulas.doubled (some ["formula.outside"])

open Formulas in
/-- The value of the formula beside the circle is gone once all have been read. -/
theorem doubled_reread (present : Moment) :
    let all := ((Surroundings.withFormulas present blankNote doubled).entries .formula).on (.fresh [])
    ((doubled.reader present blankNote).read "outside").on all.2 = (.ok .null, all.2) := by
  simp [Surroundings.withFormulas, Surroundings.entries, Surroundings.readAll, reader, names,
    read_on, doubled, List.lookup, Surroundings.formulaValue_run, Surroundings.reading_context,
    Expr.ofTextIn_formula _ _ _ _ Expr.ofText_formula_b,
    Expr.ofTextIn_not_formula _ _ _ _ Expr.ofText_not_formula_a, ExceptT.on_bind, ExceptT.on_pure,
    FormulaTable.find?_nil, FormulaTable.find?_put, loop, Memo.mark, Memo.keep, worth, conclude,
    Value.truthy, blankNote, Memo.fresh, -bind_pure_comp, -map_bind]

theorem showing_returns (present : Moment) : ∃ result document,
    ((showing.run (some "Notes") {} {} present blankSource none).on []).1 = .ok result ∧
    result.documents = [document] ∧
    document.formulas = [("outside", .bool true), ("b", .null), ("a", .null)] ∧
    document.properties = [("formula.outside", .null)] := by
  generalize asked : Query.mk showing (some (plainView (some ["formula.outside"]))) {} {} present = q
  have formulas : q.definition.formulas = Formulas.doubled := by rw [← asked]; rfl
  have now : q.present = present := by rw [← asked]
  have columns : q.columns? = some ["formula.outside"] := by rw [← asked]; rfl
  obtain ⟨entries, middle, read, run⟩ := blankCandidate.entries_runs q []
  obtain ⟨shown, last, resolved, run'⟩ := Candidate.resolve_runs
    { blankCandidate with cyclic := middle.cyclic } q "formula.outside" middle.table
  rw [formulas, now] at read resolved
  have path := (Surroundings.withFormulas present Formulas.blankNote
    Formulas.doubled).resolve_formula (show "outside" ≠ "" by decide) (by decide)
  have first := (Formulas.doubled_values present).1
  have again := doubled_reread present
  have read' : ((Surroundings.withFormulas present Formulas.blankNote Formulas.doubled).entries
      .formula).on (.fresh []) = (.ok entries, middle) := read
  simp only [Formulas.evaluateAll, read'] at first again
  cases first
  have same : (Except.ok shown, last) = (Except.ok .null, middle) :=
    (resolved.symm.trans (congrArg (ExceptT.on middle) path)).trans again
  cases same
  have presented : ∃ document after, (q.present? blankCandidate).on [] = (.ok document, after) ∧
      document.formulas = [("outside", .bool true), ("b", .null), ("a", .null)] ∧
      document.properties = [("formula.outside", .null)] := by
    simp only [Query.present?, ExceptT.on_bind, run, columns, Query.project, run', ExceptT.on_pure]
    exact ⟨_, _, rfl, rfl, rfl⟩
  obtain ⟨document, after, presented, values, properties⟩ := presented
  rw [← asked] at presented
  exact ⟨_, document, congrArg Prod.fst (plain_returns presented), rfl, values, properties⟩

theorem run_shows_formulas_circle : ∃ present result view,
    ((showing.run (some "Notes") {} {} present blankSource none).on []).1 = .ok result ∧
    showing.chosen (some "Notes") = .ok view ∧ ∀ document ∈ result.documents, ∀ columns,
      Query.columns? ⟨showing, view, {}, {}, present⟩ = some columns →
      ∀ name text, showing.formulas.lookup name = some text → name ≠ "" → '.' ∉ name.toList →
      "formula." ++ name ∈ columns →
      document.formulas.has name = true ∧ ∃ shown,
        document.properties.find? ("formula." ++ name) = some shown ∧
        Query.Shows ⟨showing, view, {}, {}, present⟩ document.formulas name shown := by
  let present : Moment := .startOf ⟨2024, 1, 1, by decide, by decide, by decide⟩
  obtain ⟨result, _, returned, _⟩ := showing_returns present
  obtain ⟨view, chosen, shows⟩ := run_shows_formulas showing (some "Notes") {} {} present
    blankSource none [] result returned
  exact ⟨present, result, view, returned, chosen, shows⟩

/-- A formula can have one value among the formulas of a note and another in its column. -/
theorem run_shows_another_value : ¬ ∀ (d : Definition) (viewName : Option String)
    (settings : Settings) (options : Options) (present : Moment) (source : Source)
    (cancelAfter : Option Nat) (table : FormulaTable) (result : ResultSet),
    ((d.run viewName settings options present source cancelAfter).on table).1 = .ok result →
    ∃ view, d.chosen viewName = .ok view ∧ ∀ document ∈ result.documents, ∀ columns,
      Query.columns? ⟨d, view, settings, options, present⟩ = some columns →
      ∀ name text, d.formulas.lookup name = some text → name ≠ "" → '.' ∉ name.toList →
      "formula." ++ name ∈ columns →
      document.properties.find? ("formula." ++ name) = document.formulas.find? name := by
  intro same
  let present : Moment := .startOf ⟨2024, 1, 1, by decide, by decide, by decide⟩
  obtain ⟨result, document, returned, documents, formulas, properties⟩ := showing_returns present
  obtain ⟨view, chosen, shows⟩ := same showing (some "Notes") {} {} present blankSource none []
    result returned
  have view_eq : view = some (plainView (some ["formula.outside"])) := (Except.ok.inj chosen).symm
  have equal := shows document (by simp [documents]) ["formula.outside"] (by rw [view_eq]; rfl)
    "outside" "!formula.a" rfl (by decide) (by decide) (by simp)
  rw [formulas, properties] at equal
  cases equal

end Sample

end Definition

end NoteQuery
