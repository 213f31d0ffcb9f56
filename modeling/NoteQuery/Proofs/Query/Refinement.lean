import NoteQuery.Proofs.Query.Pool
import NoteQuery.Proofs.Query.Failure
import NoteQuery.Proofs.Query.Matching

/-! Runs of a query as plain functions of lists. The notes that are listed fall into those without
content, those that fail a filter and those that pass all; what is returned are the last, each with
what is read of it alone, put in order, cut, and shown. -/
namespace NoteQuery

namespace Surroundings

theorem steady_congruent (formulas : Formulas) (present : Moment) (context : Context) :
    Congruent fun _ x _ => formulas.Steady present context x where
  pure _ := .pure _
  bind first later := first.bind later

variable {formulas : Formulas} (distinct : (formulas.map Prod.snd).Nodup) (present : Moment)
  (context : Context)

include distinct

theorem holds_steady (text : String) :
    formulas.Steady present context ((withFormulas present context formulas).holds text) :=
  (steady_congruent formulas present context).holds (t := .withFormulas present context formulas)
    (Expr.evaluateText_steady distinct present context text)

theorem admits_steady (f : Filter) :
    formulas.Steady present context ((withFormulas present context formulas).admits f) :=
  (steady_congruent formulas present context).admits (t := .withFormulas present context formulas)
    f fun text _ => holds_steady distinct present context text

theorem admitsAll_steady (filters : List Filter) :
    formulas.Steady present context ((withFormulas present context formulas).admitsAll filters) :=
  (steady_congruent formulas present context).admitsAll
    (t := .withFormulas present context formulas) filters
    fun text _ => holds_steady distinct present context text

theorem admitsSome_steady (filters : List Filter) :
    formulas.Steady present context ((withFormulas present context formulas).admitsSome filters) :=
  (steady_congruent formulas present context).admitsSome
    (t := .withFormulas present context formulas) filters
    fun text _ => holds_steady distinct present context text

end Surroundings

namespace Query

variable (q : Query)

def admits (c : Context) (f : Filter) : Bool := q.alone c fun s => s.admits f

variable {q}

/-- A note passes several filters when it passes each by itself. -/
theorem admitsAll_alone (distinct : (q.definition.formulas.map Prod.snd).Nodup) (c : Context)
    (filters : List Filter) :
    (q.alone c fun s => s.admitsAll filters) = filters.all (q.admits c) := by
  induction filters with
  | nil =>
    simp only [alone, Surroundings.admitsAll]
    rfl
  | cons f filters ih =>
    have first := Surroundings.admits_steady distinct q.present c f
    have rest := Surroundings.admitsAll_steady distinct q.present c filters
    have split := first.bind_fresh (f := fun passes => if passes = true then
        (Surroundings.withFormulas q.present c q.definition.formulas).admitsAll filters
      else pure false) fun passes => by
        cases passes
        · exact .pure false
        · exact rest
    simp only [alone, Surroundings.admitsAll] at ih ⊢
    rw [split, List.all_cons, ← ih, admits, alone]
    cases (((Surroundings.withFormulas q.present c q.definition.formulas).admits f).run
      (.fresh [])).1 <;> rfl

section Notes

variable (q) (source : Source)

/-- The note passes the filter of the definition and then that of the view. -/
def Passes (c : Context) : Prop :=
  (∀ f ∈ q.definition.filter, q.admits c f = true) ∧
    ∀ v ∈ q.view, ∀ f ∈ v.filter, q.admits c f = true

def Skipped (d : Document) : Prop := q.recognises d = true ∧ source.content d = none

def Rejected (d : Document) : Prop := q.recognises d = true ∧ ∃ content context,
  source.content d = some content ∧ q.contextOf source d content = .ok context ∧ ¬ q.Passes context

def Matched (d : Document) : Prop := q.recognises d = true ∧ ∃ content context,
  source.content d = some content ∧ q.contextOf source d content = .ok context ∧ q.Passes context

/-- The candidate of a note that passes, as it is before anything is read of it. -/
def matched? (d : Document) : Option Candidate :=
  if q.recognises d then
    (source.content d).bind fun content =>
      match q.contextOf source d content with
      | .ok context => if q.filters.all (q.admits context) then some ⟨d, context, []⟩ else none
      | .error _ => none
  else none

/-- The context is that of one of these notes, with some content. -/
def ContextOf (documents : List Document) (c : Context) : Prop :=
  ∃ d ∈ documents, ∃ content, q.contextOf source d content = .ok c

instance (d : Document) : Decidable (q.Skipped source d) :=
  inferInstanceAs (Decidable (_ ∧ _))

theorem passes_iff (c : Context) : q.Passes c ↔ q.filters.all (q.admits c) = true := by
  simp only [Passes, filters, List.all_append, Bool.and_eq_true]
  refine and_congr ?_ ?_
  · cases q.definition.filter <;> simp
  · cases q.view with
    | none => simp
    | some v => cases v.filter <;> simp

theorem matched_iff (d : Document) : q.Matched source d ↔ (q.matched? source d).isSome = true := by
  by_cases known : q.recognises d = true
  · simp only [Matched, matched?, known, if_true, true_and]
    cases source.content d with
    | none => simp
    | some content =>
      cases made : q.contextOf source d content with
      | error f => simp [made]
      | ok context =>
        by_cases passes : q.filters.all (q.admits context) = true <;> simp [made, passes_iff]
  · simp [Matched, matched?, known]

instance (d : Document) : Decidable (q.Matched source d) :=
  decidable_of_iff _ (q.matched_iff source d).symm

end Notes

section Selection

variable {source : Source} {table : FormulaTable}

theorem matched?_made {d : Document} {c : Candidate} (matched : q.matched? source d = some c) :
    c.document = d ∧ ∃ content, q.contextOf source d content = .ok c.context := by
  unfold matched? at matched
  split at matched
  · cases read : source.content d with
    | none => simp [read] at matched
    | some content =>
      simp only [read, Option.bind_some] at matched
      split at matched
      · rename_i context made
        split at matched
        · cases matched
          exact ⟨rfl, content, made⟩
        · cases matched
      · cases matched
  · cases matched

theorem matched?_path {d : Document} {c : Candidate} (matched : q.matched? source d = some c) :
    c.document = d ∧ c.context.path = d.path := by
  obtain ⟨document, content, made⟩ := matched?_made matched
  exact ⟨document, contextOf_path made⟩

theorem matched?_read {d : Document} {content : String} {context : Context}
    (known : q.recognises d = true) (read : source.content d = some content)
    (made : q.contextOf source d content = .ok context) :
    q.matched? source d =
      if q.filters.all (q.admits context) = true then some ⟨d, context, []⟩ else none := by
  simp only [matched?, known, read, made, if_true, Option.bind_some]

theorem matched_documents (documents : List Document) :
    ((documents.filterMap (q.matched? source)).map Candidate.document).Sublist documents := by
  induction documents with
  | nil => exact .slnil
  | cons d documents ih =>
    cases matched : q.matched? source d with
    | none =>
      rw [List.filterMap_cons_none matched]
      exact ih.cons _
    | some c =>
      rw [List.filterMap_cons_some matched, List.map_cons, (matched?_path matched).1]
      exact ih.cons_cons _

theorem matched_paths (q : Query) (source : Source) (documents : List Document) :
    ((documents.filterMap (q.matched? source)).map fun c => c.context.path).Sublist
      (documents.map Document.path) := by
  have same : ((documents.filterMap (q.matched? source)).map fun c => c.context.path) =
      ((documents.filterMap (q.matched? source)).map Candidate.document).map Document.path := by
    rw [List.map_map]
    refine List.map_congr_left fun c member => ?_
    obtain ⟨d, _, matched⟩ := List.mem_filterMap.mp member
    rw [Function.comp_apply, (matched?_path matched).1, (matched?_path matched).2]
  rw [same]
  exact (matched_documents documents).map _

/-- What a selection has found out of the notes that were listed. -/
structure Selected (q : Query) (source : Source) (documents : List Document) (table : FormulaTable)
    (selection : Selection) (after : FormulaTable) : Prop where
  readable : ∀ d ∈ documents, q.recognises d = true → ∀ content, source.content d = some content →
    ∃ context, q.contextOf source d content = .ok context
  skipped : selection.skipped = documents.countP fun d => q.Skipped source d
  matched : selection.matched.map Candidate.bare = documents.filterMap (q.matched? source)
  pool : Pool q after selection.matched
  others : ∀ path text, path ∉ documents.map Document.path →
    after.find? path text = table.find? path text

theorem Selected.pass {documents : List Document} {selection : Selection} {after : FormulaTable}
    {d : Document} (rest : Selected q source documents table selection after)
    (foreign : ¬ q.recognises d = true) : Selected q source (d :: documents) table selection after where
  readable := List.forall_mem_cons.mpr ⟨fun known => absurd known foreign, rest.readable⟩
  skipped := by
    rw [List.countP_cons_of_neg (by simp [Skipped, foreign]), rest.skipped]
  matched := by
    rw [List.filterMap_cons_none (by simp [matched?, foreign]), rest.matched]
  pool := rest.pool
  others path text off := rest.others path text fun inside => off (by simp [inside])

theorem Selected.skip {documents : List Document} {selection : Selection} {after : FormulaTable}
    {d : Document} (rest : Selected q source documents table selection after)
    (known : q.recognises d = true) (lost : source.content d = none) :
    Selected q source (d :: documents) table { selection with skipped := selection.skipped + 1 }
      after where
  readable := List.forall_mem_cons.mpr ⟨by simp [lost], rest.readable⟩
  skipped := by
    rw [List.countP_cons_of_pos (by simp [Skipped, known, lost]), rest.skipped]
  matched := by
    rw [List.filterMap_cons_none (by simp [matched?, lost]), rest.matched]
  pool := rest.pool
  others path text off := rest.others path text fun inside => off (by simp [inside])

theorem Selected.take {documents : List Document} {selection : Selection}
    {middle after : FormulaTable} {d : Document} {content : String} {context : Context}
    {c : Candidate} (rest : Selected q source documents middle selection after)
    (apart : d.path ∉ documents.map Document.path) (known : q.recognises d = true)
    (read : source.content d = some content) (made : q.contextOf source d content = .ok context)
    (step : Candidate.Step q ⟨d, context, []⟩ c table middle) :
    Selected q source (d :: documents) table { selection with
      matched := (if q.filters.all (q.admits context) then some c else none).toList ++
        selection.matched } after where
  readable := List.forall_mem_cons.mpr ⟨fun _ content' read' => by
    rw [read, Option.some.injEq] at read'
    exact ⟨context, read' ▸ made⟩, rest.readable⟩
  skipped := by
    rw [List.countP_cons_of_neg (by simp [Skipped, read]), rest.skipped]
  matched := by
    have found := matched?_read known read made
    split at found
    · rename_i passes
      rw [List.filterMap_cons_some found, ← rest.matched, if_pos passes]
      simp only [Option.toList_some, List.singleton_append, List.map_cons, step.same]
      rfl
    · rename_i fails
      rw [List.filterMap_cons_none found, ← rest.matched, if_neg fails]
      rfl
  pool := by
    have path : c.context.path = d.path := by rw [step.context, contextOf_path made]
    have rested : c.Rested q after := step.rested.congr fun text => by
      rw [path]
      exact rest.others _ text apart
    have apart' : c.context.path ∉ selection.matched.map fun c => c.context.path := by
      rw [path]
      refine fun inside => apart ((matched_paths q source documents).subset ?_)
      rw [← rest.matched, List.map_map]
      exact inside
    split
    · exact rest.pool.cons rested apart'
    · exact rest.pool
  others path text off := by
    rw [List.map_cons, List.mem_cons, not_or] at off
    have path : context.path = d.path := contextOf_path made
    exact (rest.others _ text off.2).trans (step.others _ text (path ▸ off.1))

/-- Whatever becomes of a selection, it only evaluates for notes that are listed. -/
theorem select_pool (distinct : (q.definition.formulas.map Prod.snd).Nodup)
    (cancelAfter : Option Nat) (total done reads : Nat) {documents : List Document}
    (apart : (documents.map Document.path).Nodup)
    (rested : ∀ d ∈ documents, ∀ content context, q.contextOf source d content = .ok context →
      Candidate.Rested q table ⟨d, context, []⟩) :
    ∃ outcome after, (q.select source cancelAfter total done reads documents).on table =
        (outcome, after) ∧
      (∀ selection, outcome = .ok selection → Selected q source documents table selection after) ∧
      Candidate.Steps q (q.ContextOf source documents) table after := by
  induction documents generalizing table done reads with
  | nil =>
    refine ⟨.ok ⟨[], 0⟩, table, rfl, fun selection same => ?_, .refl⟩
    cases same
    exact ⟨by simp, rfl, rfl, ⟨by simp, by simp⟩, fun _ _ _ => rfl⟩
  | cons d documents ih =>
    obtain ⟨apart, apart'⟩ := List.nodup_cons.mp apart
    obtain ⟨rested, rested'⟩ := List.forall_mem_cons.mp rested
    have later (context : Context) : q.ContextOf source documents context →
        q.ContextOf source (d :: documents) context := by
      rintro ⟨other, member, given⟩
      exact ⟨other, List.mem_cons_of_mem _ member, given⟩
    rw [select_on]
    split
    · exact ⟨_, table, rfl, by simp, .refl⟩
    · split
      · rename_i known
        cases read : source.content d with
        | none =>
          obtain ⟨outcome, after, run, selected, steps⟩ :=
            ih (done + 1) (reads + 1) apart' rested'
          refine ⟨_, after, by rw [run]; rfl, fun selection same => ?_, steps.mono later⟩
          obtain ⟨rest, made, rfl⟩ := Except.map_eq_ok.mp same
          exact (selected rest made).skip known read
        | some content =>
          simp only [examine_on]
          cases made : q.contextOf source d content with
          | error f => exact ⟨_, table, rfl, by simp, .refl⟩
          | ok context =>
            have path := contextOf_path made
            obtain ⟨c, middle, run, step⟩ := Candidate.evaluate_step (c := ⟨d, context, []⟩)
              (f := fun s => s.admitsAll q.filters)
              (Surroundings.admitsAll_steady distinct q.present context q.filters)
              (rested content context made)
            have rested'' : ∀ d ∈ documents, ∀ content context,
                q.contextOf source d content = .ok context →
                Candidate.Rested q middle ⟨d, context, []⟩ := by
              intro other member content' context' made'
              refine (rested' other member content' context' made').congr fun text => ?_
              refine step.others _ text fun same => apart (List.mem_map.mpr ⟨other, member, ?_⟩)
              exact ((contextOf_path made').symm.trans same).trans path
            obtain ⟨outcome, after, run', selected, steps⟩ :=
              ih (done + 1) (reads + 1) apart' rested''
            simp only [run, admitsAll_alone distinct, run']
            refine ⟨_, after, rfl, fun selection same => ?_, ?_⟩
            · obtain ⟨rest, made', rfl⟩ := Except.map_eq_ok.mp same
              exact (selected rest made').take apart known read made step
            · exact (step.steps ⟨d, by simp, content, made⟩).trans (steps.mono later)
      · rename_i foreign
        obtain ⟨outcome, after, run, selected, steps⟩ :=
          ih (done + 1) reads apart' rested'
        exact ⟨outcome, after, run, fun selection same => (selected selection same).pass foreign,
          steps.mono later⟩

theorem select_selected (distinct : (q.definition.formulas.map Prod.snd).Nodup)
    {cancelAfter : Option Nat} {total done reads : Nat} {documents : List Document}
    (apart : (documents.map Document.path).Nodup)
    (blank : ∀ d ∈ documents, ∀ text, table.find? d.path text = none) {selection : Selection}
    {after : FormulaTable} (returned : (q.select source cancelAfter total done reads documents).on
      table = (.ok selection, after)) :
    Selected q source documents table selection after := by
  have rested : ∀ d ∈ documents, ∀ content context, q.contextOf source d content = .ok context →
      Candidate.Rested q table ⟨d, context, []⟩ := fun d member content context made =>
    Formulas.rested_fresh fun text => by rw [contextOf_path made, blank d member text]
  obtain ⟨outcome, after', run, selected, _⟩ :=
    select_pool distinct cancelAfter total done reads apart rested
  rw [run, Prod.mk.injEq] at returned
  exact returned.2 ▸ selected selection returned.1

end Selection

/-- A result that is what plain functions make of the notes that were listed. -/
structure Refines (q : Query) (source : Source) (documents : List Document) (r : ResultSet) :
    Prop where
  /-- A note falls into one group at least, -/
  grouped : ∀ d ∈ documents, q.recognises d = true →
    q.Skipped source d ∨ q.Rejected source d ∨ q.Matched source d
  /-- and into no two. -/
  apart : ∀ d, ¬ (q.Skipped source d ∧ q.Rejected source d) ∧
    ¬ (q.Skipped source d ∧ q.Matched source d) ∧ ¬ (q.Rejected source d ∧ q.Matched source d)
  skipped : r.skipped = documents.countP fun d => q.Skipped source d
  total : r.total = documents.countP fun d => q.Matched source d
  /-- The notes that match are put in order, cut to the limit and then to the page, and shown. The
  order is lexicographic where the values of every key are orderly. -/
  shown : ∃ notes, q.ordered q.order (documents.filterMap (q.matched? source)) = .ok notes ∧
    r.documents = (page q.options.paging? (q.limited notes)).1.map q.shown ∧
    ((∀ key ∈ q.order, Value.Orderly
        (q.ValueAmong (documents.filterMap (q.matched? source)) key)) →
      notes.Pairwise fun a b => Lexicographic q.order (q.valuesAt q.order a) (q.valuesAt q.order b)
        ([a, b].Sublist (documents.filterMap (q.matched? source))))
  once : (r.documents.map ResultDocument.path).Nodup
  listed : ∀ path ∈ r.documents.map ResultDocument.path,
    ∃ d ∈ documents, q.Matched source d ∧ path = d.path

variable {source : Source} {table : FormulaTable}

theorem groups_apart (q : Query) (source : Source) (d : Document) :
    ¬ (q.Skipped source d ∧ q.Rejected source d) ∧
      ¬ (q.Skipped source d ∧ q.Matched source d) ∧
      ¬ (q.Rejected source d ∧ q.Matched source d) := by
  refine ⟨?_, ?_, ?_⟩
  · rintro ⟨⟨_, lost⟩, _, content, context, read, _⟩
    rw [lost] at read
    cases read
  · rintro ⟨⟨_, lost⟩, _, content, context, read, _⟩
    rw [lost] at read
    cases read
  · rintro ⟨⟨_, content, context, read, made, fails⟩, _, content', context', read', made', passes⟩
    rw [read, Option.some.injEq] at read'
    rw [← read', made, Except.ok.injEq] at made'
    exact fails (made' ▸ passes)

theorem matched_length (q : Query) (source : Source) (documents : List Document) :
    (documents.filterMap (q.matched? source)).length =
      documents.countP fun d => q.Matched source d := by
  rw [List.countP_eq_length_filter]
  induction documents with
  | nil => rfl
  | cons d documents ih =>
    cases found : q.matched? source d with
    | none =>
      have unmatched : ¬ q.Matched source d := by simp [matched_iff, found]
      rw [List.filterMap_cons_none found, List.filter_cons_of_neg (by simpa using unmatched), ih]
    | some c =>
      have matched : q.Matched source d := by simp [matched_iff, found]
      rw [List.filterMap_cons_some found, List.filter_cons_of_pos (by simpa using matched)]
      simp only [List.length_cons, ih]

theorem page_sublist (q : Query) (items : List Candidate) :
    (page q.options.paging? (q.limited items)).1.Sublist items := by
  have limits : (q.limited items).Sublist items := by
    unfold limited
    cases q.view.bind View.limit with
    | none => exact .refl _
    | some limit => exact List.take_sublist _ _
  refine List.Sublist.trans ?_ limits
  unfold page
  cases q.options.paging? with
  | none => exact .refl _
  | some paging => exact (List.take_sublist _ _).trans (List.drop_sublist _ _)

theorem page_map (q : Query) (items : List Candidate) (f : Candidate → Candidate) :
    page q.options.paging? (q.limited (items.map f)) =
      Prod.map (List.map f) id (page q.options.paging? (q.limited items)) := by
  have limits : q.limited (items.map f) = (q.limited items).map f := by
    unfold limited
    cases q.view.bind View.limit with
    | none => rfl
    | some limit => exact List.map_take.symm
  rw [limits]
  unfold page
  cases q.options.paging? with
  | none => rfl
  | some paging => simp only [List.map_take, List.map_drop, List.length_map, Prod.map_apply, id_eq]

/-- What the end of a run makes of the notes that match, each read by itself. -/
def concluded (q : Query) (notes : List Candidate) (skipped : Nat) : Except RunError ResultSet :=
  match q.ordered q.order notes with
  | .error f => .error (.failed (.fault f))
  | .ok sorted =>
    let shown := page q.options.paging? (q.limited sorted)
    .ok {
      documents := shown.1.map q.shown
      total := notes.length
      view := q.view
      paging := q.options.paging?
      hasMore := shown.2
      skipped := skipped }

/-- The end of a run over a pool puts its notes in order, cuts them, and shows of each what is read
of it by itself. -/
theorem finish_pool (distinct : (q.definition.formulas.map Prod.snd).Nodup) {selection : Selection}
    (pool : Pool q table selection.matched) :
    ∃ after, (q.finish selection).on table =
        (q.concluded (selection.matched.map Candidate.bare) selection.skipped, after) ∧
      Candidate.Steps q (· ∈ selection.matched.map Candidate.context) table after := by
  obtain ⟨outcome, middle, sorts, same, kept, steps⟩ := sortBy_pool distinct q.order pool
  rw [finish_on, sorts, concluded]
  cases made : q.ordered q.order (selection.matched.map Candidate.bare) with
  | error f =>
    cases outcome with
    | ok sorted => simp [made, Except.map, Except.mapError] at same
    | error e =>
      simp only [made, Except.map, Except.mapError, Except.error.injEq] at same
      exact ⟨middle, by rw [same], steps⟩
  | ok notes =>
    cases outcome with
    | error e => simp [made, Except.map, Except.mapError] at same
    | ok sorted =>
      simp only [made, Except.map, Except.mapError, Except.ok.injEq] at same
      subst same
      have contexts := (ordered_perm made).map Candidate.context
      rw [contexts_bare, contexts_bare] at contexts
      obtain ⟨after, presents, steps'⟩ := presentAll_pool distinct
        ((kept sorted rfl).sublist (q.page_sublist sorted))
      refine ⟨after, ?_, steps.trans (steps'.mono fun _ member => ?_)⟩
      · simp only [presents, page_map, Prod.map_apply, Prod.map_fst, Prod.map_snd, Except.map,
          List.map_map, List.length_map]
        rfl
      · exact contexts.mem_iff.mp (((q.page_sublist sorted).map _).subset member)

theorem finish_shows (distinct : (q.definition.formulas.map Prod.snd).Nodup) {selection : Selection}
    (pool : Pool q table selection.matched) {result : ResultSet} {after : FormulaTable}
    (returned : (q.finish selection).on table = (.ok result, after)) :
    result.skipped = selection.skipped ∧ result.total = selection.matched.length ∧
      ∃ notes, q.ordered q.order (selection.matched.map Candidate.bare) = .ok notes ∧
        result.documents = (page q.options.paging? (q.limited notes)).1.map q.shown := by
  obtain ⟨last, runs, _⟩ := finish_pool distinct pool
  rw [runs, Prod.mk.injEq, concluded] at returned
  cases made : q.ordered q.order (selection.matched.map Candidate.bare) with
  | error f => simp [made] at returned
  | ok notes =>
    simp only [made, Except.ok.injEq] at returned
    rw [← returned.1]
    exact ⟨rfl, List.length_map _, notes, rfl, rfl⟩

theorem Selected.grouped {documents : List Document} {selection : Selection}
    {before : FormulaTable} (selected : Selected q source documents before selection table)
    {d : Document} (member : d ∈ documents) (known : q.recognises d = true) :
    q.Skipped source d ∨ q.Rejected source d ∨ q.Matched source d := by
  cases read : source.content d with
  | none => exact .inl ⟨known, read⟩
  | some content =>
    obtain ⟨context, made⟩ := selected.readable d member known content read
    by_cases passes : q.Passes context
    · exact .inr (.inr ⟨known, content, context, read, made, passes⟩)
    · exact .inr (.inl ⟨known, content, context, read, made, passes⟩)

theorem finish_refines (distinct : (q.definition.formulas.map Prod.snd).Nodup)
    {documents : List Document} (apart : (documents.map Document.path).Nodup)
    {selection : Selection} {before after : FormulaTable}
    (selected : Selected q source documents before selection table) {result : ResultSet}
    (returned : (q.finish selection).on table = (.ok result, after)) :
    Refines q source documents result := by
  obtain ⟨skipped, total, notes, made, shown⟩ := finish_shows distinct selected.pool returned
  rw [selected.matched] at made
  have paths : (result.documents.map ResultDocument.path).Sublist
      (notes.map fun c => c.document.path) := by
    rw [shown, List.map_map]
    exact (q.page_sublist notes).map _
  have matched : (notes.map fun c => c.document.path).Perm
      (((documents.filterMap (q.matched? source)).map Candidate.document).map Document.path) := by
    rw [List.map_map]
    exact (ordered_perm made).map _
  refine ⟨fun d => selected.grouped, groups_apart q source, skipped.trans selected.skipped, ?_,
    ⟨notes, made, shown, fun orderly => ?_⟩, ?_, fun path member => ?_⟩
  · rw [total, ← matched_length, ← selected.matched, List.length_map]
  · obtain ⟨notes', made', _, lexicographic⟩ := ordered_lexicographic q.order
      (documents.filterMap (q.matched? source))
      (List.pairwise_iff_forall_sublist.mpr fun pair => pair) orderly
    rw [made, Except.ok.injEq] at made'
    exact made' ▸ lexicographic
  · exact (matched.nodup_iff.mpr (apart.sublist ((matched_documents documents).map _))).sublist paths
  · obtain ⟨d, inside, rfl⟩ := List.mem_map.mp (matched.mem_iff.mp (paths.subset member))
    obtain ⟨c, found, rfl⟩ := List.mem_map.mp inside
    obtain ⟨d, member, passes⟩ := List.mem_filterMap.mp found
    refine ⟨d, member, ?_, by rw [(matched?_path passes).1]⟩
    rw [matched_iff, passes]
    rfl

end Query

namespace Definition

section Sample

/-- Two formulas of which one uses the other, and a view that filters by them. -/
def sample : Definition where
  filter := some (.test "n > 0")
  formulas := [("double", "n * 2"), ("next", "formula.double + 1")]
  properties := []
  views := [⟨"Small", .table, some (.test "formula.next < 9"), [], some 2,
    some ["n", "formula.next"], false⟩]

def numbered (path : String) (n : Int) : String × StoredNote :=
  (path, ⟨⟨path, 0, none, none, [("n", .int n)]⟩, "", none⟩)

def stored (notes : List (String × StoredNote)) : Store :=
  notes.foldl (fun s note => s.add note.2) .empty

def sampleStore : Store := stored [numbered "a.md" 1, numbered "b.txt" 2, numbered "c.md" 3,
  numbered "d.md" 4]

def sampleSource : Source := ({ unreadable := ["c.md"] } : Outage).apply sampleStore.source

theorem sample_returns (options : Options) (present : Moment) : ∃ result,
    ((sample.run (some "Small") {} options present sampleSource none).on []).1 = .ok result := by
  rw [run_on]
  refine Query.run_returns _ rfl (fun d member => ?_) rfl _
  rintro ⟨entry, inside, leaves⟩
  have whole : ∀ d ∈ sampleStore.documents, ∀ entry ∈ d.properties, ∃ n, entry.2 = .int n := by
    simp [Store.documents, sampleStore, stored, Store.add, Store.empty, Entries.put, numbered]
  obtain ⟨n, number⟩ := whole d member entry inside
  rw [number] at leaves
  exact leaves

end Sample

end Definition

end NoteQuery
