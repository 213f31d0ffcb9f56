import NoteQuery.Query.Run
import NoteQuery.Proofs.Query.Candidate

/-! The stages of a run. Each is an equation for the outcome of one step: what it returns and what it
leaves in the table. -/
namespace NoteQuery

namespace Query

variable (q : Query)

def recognises (d : Document) : Bool := q.extensions.contains (Text.lower d.extension)

def contextOf (source : Source) (d : Document) (content : String) : Except Fault Context :=
  Context.ofDocument d (source.metadata d) q.settings (if q.wantsContent then some content else none)

def order : List SortKey := (q.view.map View.order).getD []

def limited {α : Type} (items : List α) : List α :=
  match q.view.bind View.limit with
  | some limit => items.take limit
  | none => items

variable {q}

theorem contextOf_path {source : Source} {d : Document} {content : String} {context : Context}
    (made : q.contextOf source d content = .ok context) : context.path = d.path := by
  obtain ⟨note, -, made⟩ := Except.bind_eq_ok.mp made
  rw [Except.ok.injEq] at made
  rw [← made]

theorem examine_on (source : Source) (d : Document) (content : String) (table : FormulaTable) :
    (q.examine source d content).on table =
      match q.contextOf source d content with
      | .error f => (.error (.failed (.fault f)), table)
      | .ok context =>
        let outcome := (Candidate.evaluate q ⟨d, context, []⟩
          fun s => s.admitsAll q.filters).run table
        (.ok (if outcome.1.1 then some outcome.1.2 else none), outcome.2) := by
  unfold examine contextOf
  cases Context.ofDocument d (source.metadata d) q.settings
    (if q.wantsContent then some content else none) with
  | error f => rfl
  | ok context => rfl

theorem selectUnless_on (source : Source) (cancelled : Nat → Nat → Bool) (total done reads : Nat)
    (d : Document) (rest : List Document) (table : FormulaTable) :
    (q.selectUnless source cancelled total done reads (d :: rest)).on table =
      if cancelled done reads then (.error (.cancelled done total), table)
      else if q.recognises d then
        match source.content d with
        | none => Prod.map (Except.map fun later => { later with skipped := later.skipped + 1 }) id
          ((q.selectUnless source cancelled total (done + 1) (reads + 1) rest).on table)
        | some content =>
          match (q.examine source d content).on table with
          | (.error e, after) => (.error e, after)
          | (.ok candidate, after) =>
            Prod.map (Except.map fun later =>
              { later with matched := candidate.toList ++ later.matched }) id
              ((q.selectUnless source cancelled total (done + 1) (reads + 1) rest).on after)
      else (q.selectUnless source cancelled total (done + 1) reads rest).on table := by
  rw [selectUnless]
  by_cases met : cancelled done reads = true
  · simp only [met, if_true]
    rfl
  · simp only [met, if_false, Bool.false_eq_true]
    by_cases known : q.recognises d = true
    · have inside : (!q.extensions.contains (Text.lower d.extension)) = false := by
        simpa [recognises] using known
      simp only [inside, known, Bool.false_eq_true, if_false, if_true]
      cases source.content d with
      | none => exact ExceptT.on_bind_pure _ _ _
      | some content =>
        simp only [ExceptT.on_bind _ (q.examine source d content)]
        rcases (q.examine source d content).on table with ⟨_ | candidate, after⟩
        · rfl
        · exact ExceptT.on_bind_pure _ _ _
    · have outside : (!q.extensions.contains (Text.lower d.extension)) = true := by
        simpa [recognises] using known
      simp only [outside, known, Bool.false_eq_true, if_false, if_true]

theorem select_on (source : Source) (cancelAfter : Option Nat) (total done reads : Nat)
    (d : Document) (rest : List Document) (table : FormulaTable) :
    (q.select source cancelAfter total done reads (d :: rest)).on table =
      if cancelAfter.any (· ≤ reads) then (.error (.cancelled done total), table)
      else if q.recognises d then
        match source.content d with
        | none => Prod.map (Except.map fun later => { later with skipped := later.skipped + 1 }) id
          ((q.select source cancelAfter total (done + 1) (reads + 1) rest).on table)
        | some content =>
          match (q.examine source d content).on table with
          | (.error e, after) => (.error e, after)
          | (.ok candidate, after) =>
            Prod.map (Except.map fun later =>
              { later with matched := candidate.toList ++ later.matched }) id
              ((q.select source cancelAfter total (done + 1) (reads + 1) rest).on after)
      else (q.select source cancelAfter total (done + 1) reads rest).on table :=
  selectUnless_on source _ total done reads d rest table

theorem project_returns (q : Query) (columns : List String) (c : Candidate) :
    (q.project columns c).Returns := by
  induction columns generalizing c with
  | nil => exact ExceptT.returns_pure ([], c)
  | cons column columns ih =>
    refine ExceptT.Returns.bind (fun table => ?_) fun first => ?_
    · obtain ⟨v, c', after, run, _⟩ := c.resolve_ok q column table
      exact ⟨(v, c'), after, run⟩
    · exact ExceptT.Returns.bind (ih first.2) fun _ => ExceptT.returns_pure _

theorem present_returns (q : Query) (c : Candidate) : (q.present? c).Returns := by
  unfold present?
  refine ExceptT.Returns.bind (fun table => ?_) fun read => ?_
  · obtain ⟨entries, after, _, run⟩ := c.entries_runs q table
    exact ⟨_, _, run⟩
  · cases q.columns? with
    | none => exact ExceptT.returns_pure _
    | some columns =>
      exact ExceptT.Returns.bind (q.project_returns columns read.2) fun _ => ExceptT.returns_pure _

theorem presentAll_returns (q : Query) (candidates : List Candidate) :
    (q.presentAll candidates).Returns := by
  induction candidates with
  | nil => exact ExceptT.returns_pure []
  | cons c candidates ih =>
    exact ExceptT.Returns.bind (q.present_returns c) fun _ =>
      ExceptT.Returns.bind ih fun _ => ExceptT.returns_pure _

theorem finish_on (selection : Selection) (table : FormulaTable) :
    (q.finish selection).on table =
      match (q.sortBy q.order selection.matched).on table with
      | (.error e, after) => (.error e, after)
      | (.ok sorted, after) =>
        let shown := page q.options.paging? (q.limited sorted)
        Prod.map (Except.map fun documents => {
          documents := documents
          total := selection.matched.length
          view := q.view
          paging := q.options.paging?
          hasMore := shown.2
          skipped := selection.skipped }) id ((q.presentAll shown.1).on after) := by
  unfold finish order
  simp only [ExceptT.on_bind _ (q.sortBy _ _)]
  rcases (q.sortBy ((q.view.map View.order).getD []) selection.matched).on table with ⟨_ | sorted, after⟩
  · rfl
  · exact ExceptT.on_bind_pure _ _ _

theorem runUnless_on (source : Source) (cancelled : Nat → Nat → Bool) (table : FormulaTable) :
    (q.runUnless source cancelled).on table =
      match source.documents with
      | .error e => (.error (.source e), table)
      | .ok documents =>
        match (q.selectUnless source cancelled documents.length 0 0 documents).on table with
        | (.error e, after) => (.error e, after)
        | (.ok selection, after) => (q.finish selection).on after := by
  unfold runUnless
  cases source.documents with
  | error e => rfl
  | ok documents =>
    simp only [ExceptT.on_bind]
    rcases (q.selectUnless source cancelled documents.length 0 0 documents).on table with
      ⟨_ | selection, after⟩ <;> rfl

theorem run_on (source : Source) (cancelAfter : Option Nat) (table : FormulaTable) :
    (q.run source cancelAfter).on table =
      match source.documents with
      | .error e => (.error (.source e), table)
      | .ok documents =>
        match (q.select source cancelAfter documents.length 0 0 documents).on table with
        | (.error e, after) => (.error e, after)
        | (.ok selection, after) => (q.finish selection).on after :=
  runUnless_on source _ table

end Query

namespace Definition

def chosen (d : Definition) (viewName : Option String) : Except UnknownView (Option View) :=
  match viewName with
  | none => .ok none
  | some name => (d.view name).map some

theorem runUnless_on (d : Definition) (viewName : Option String) (settings : Settings)
    (options : Options) (present : Moment) (source : Source) (cancelled : Nat → Nat → Bool)
    (table : FormulaTable) :
    (d.runUnless viewName settings options present source cancelled).on table =
      match d.chosen viewName with
      | .error e => (.error (.unknownView e), table)
      | .ok view => (Query.runUnless ⟨d, view, settings, options, present⟩ source cancelled).on
          (if settings.keep = .query then [] else table) := by
  unfold runUnless chosen
  have clear (view : Option View) : (do
      if settings.keep = .query then set ([] : FormulaTable)
      Query.runUnless ⟨d, view, settings, options, present⟩ source cancelled :
        Run ResultSet).on table =
      (Query.runUnless ⟨d, view, settings, options, present⟩ source cancelled).on
        (if settings.keep = .query then [] else table) := by
    by_cases scope : settings.keep = .query
    · simp only [scope, if_true]
      rfl
    · simp only [scope, if_false]
  cases viewName with
  | none => exact clear none
  | some name =>
    cases found : d.view name with
    | error e =>
      simp only [Option.map_some, found]
      rfl
    | ok v =>
      simp only [Option.map_some, found]
      exact clear (some v)

theorem run_on (d : Definition) (viewName : Option String) (settings : Settings)
    (options : Options) (present : Moment) (source : Source) (cancelAfter : Option Nat)
    (table : FormulaTable) :
    (d.run viewName settings options present source cancelAfter).on table =
      match d.chosen viewName with
      | .error e => (.error (.unknownView e), table)
      | .ok view => (Query.run ⟨d, view, settings, options, present⟩ source cancelAfter).on
          (if settings.keep = .query then [] else table) :=
  d.runUnless_on viewName settings options present source _ table

end Definition

end NoteQuery
