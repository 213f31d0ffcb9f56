import NoteQuery.Proofs.Formula.Acyclic
import NoteQuery.Proofs.Query.Matching
import NoteQuery.Proofs.Query.Stages

/-! Queries that treat every note alike. What a run does follows from how it reads, filters and shows a
note and from the view. So the settings for what is kept, the page that is asked for, and the time where
no expression looks at it, change nothing in the stages of a run. -/
namespace NoteQuery

theorem Entries.withDates_keep (settings : Settings) (keep : Keep) (entries : Entries) :
    entries.withDates { settings with keep := keep } = entries.withDates settings := by
  induction entries with
  | nil => rfl
  | cons entry entries ih =>
    simp only [withDates, ih]
    rfl

namespace Query

/-- The second query has the same view, and whatever it does with a note the first does too. -/
structure Alike (q q' : Query) : Prop where
  view : q'.view = q.view
  extensions : q'.extensions = q.extensions
  columns : q'.columns? = q.columns?
  examine : ∀ source d content, q'.examine source d content = q.examine source d content
  resolve : ∀ (c : Candidate) path, c.resolve q' path = c.resolve q path
  formulas : ∀ c : Candidate, (c.evaluate? q' fun s => s.entries .formula) =
    c.evaluate? q fun s => s.entries .formula

namespace Alike

variable {q q' q'' : Query}

theorem refl (q : Query) : Alike q q :=
  ⟨rfl, rfl, rfl, fun _ _ _ => rfl, fun _ _ => rfl, fun _ => rfl⟩

theorem trans (first : Alike q q') (second : Alike q' q'') : Alike q q'' where
  view := second.view.trans first.view
  extensions := second.extensions.trans first.extensions
  columns := second.columns.trans first.columns
  examine source d content := (second.examine source d content).trans (first.examine source d content)
  resolve c path := (second.resolve c path).trans (first.resolve c path)
  formulas c := (second.formulas c).trans (first.formulas c)

variable (alike : Alike q q')
include alike

theorem order : q'.order = q.order := by
  rw [Query.order, Query.order, alike.view]

theorem limited {α : Type} (items : List α) : q'.limited items = q.limited items := by
  rw [Query.limited, Query.limited, alike.view]

theorem selectUnless (source : Source) (cancelled : Nat → Nat → Bool) (total done reads : Nat)
    (documents : List Document) :
    q'.selectUnless source cancelled total done reads documents =
      q.selectUnless source cancelled total done reads documents := by
  induction documents generalizing done reads with
  | nil => rfl
  | cons d documents ih => simp only [Query.selectUnless, ih, alike.examine, alike.extensions]

theorem select (source : Source) (cancelAfter : Option Nat) (total done reads : Nat)
    (documents : List Document) :
    q'.select source cancelAfter total done reads documents =
      q.select source cancelAfter total done reads documents :=
  alike.selectUnless source _ total done reads documents

theorem keyed (path : String) (candidates : List Candidate) :
    q'.keyed path candidates = q.keyed path candidates := by
  induction candidates with
  | nil => rfl
  | cons c candidates ih => simp only [Query.keyed, ih, alike.resolve]

theorem sortBy (keys : List SortKey) (candidates : List Candidate) :
    q'.sortBy keys candidates = q.sortBy keys candidates := by
  induction keys with
  | nil => rfl
  | cons key keys ih => simp only [Query.sortBy, sortByKey, ih, alike.keyed]

theorem project (columns : List String) (c : Candidate) :
    q'.project columns c = q.project columns c := by
  induction columns generalizing c with
  | nil => rfl
  | cons column columns ih => simp only [Query.project, ih, alike.resolve]

theorem present (c : Candidate) : q'.present? c = q.present? c := by
  simp only [present?, alike.formulas, alike.columns, alike.project]

theorem presentAll (candidates : List Candidate) :
    q'.presentAll candidates = q.presentAll candidates := by
  induction candidates with
  | nil => rfl
  | cons c candidates ih => simp only [Query.presentAll, ih, alike.present]

theorem finish (paging : q'.options.paging? = q.options.paging?) (selection : Selection) :
    q'.finish selection = q.finish selection := by
  simp only [Query.finish, alike.sortBy, alike.presentAll, alike.view, paging]

theorem run (paging : q'.options.paging? = q.options.paging?) (source : Source)
    (cancelAfter : Option Nat) : q'.run source cancelAfter = q.run source cancelAfter := by
  simp only [Query.run, runUnless, alike.selectUnless, alike.finish paging]

end Alike

variable (q : Query)

/-- The query under settings by which values are kept otherwise. -/
def keeping (keep : Keep) : Query := { q with settings := { q.settings with keep := keep } }

theorem keeping_alike (keep : Keep) : Alike q (q.keeping keep) where
  view := rfl
  extensions := rfl
  columns := rfl
  examine source d content := by
    unfold examine Context.ofDocument
    simp only [keeping, Entries.withDates_keep]
    rfl
  resolve _ _ := rfl
  formulas _ := rfl

/-- The query with other options. -/
def under (options : Options) : Query := { q with options := options }

theorem under_alike {options : Options} (content : options.includeContent = q.options.includeContent)
    (columns : options.columns = q.options.columns) : Alike q (q.under options) where
  view := rfl
  extensions := rfl
  columns := by
    unfold columns?
    simp only [under, columns]
  examine source d text := by
    unfold examine wantsContent
    simp only [under, content]
    rfl
  resolve _ _ := rfl
  formulas _ := rfl

/-- The query at another time. -/
def since (present : Moment) : Query := { q with present := present }

/-- The expressions that a run evaluates. -/
def texts : List String := q.definition.formulas.map Prod.snd ++ Filter.textsOfAll q.filters

end Query

namespace Formulas

variable {formulas : Formulas}
  (untimed : ∀ text ∈ formulas.map Prod.snd, Expr.textWithin timeless text = true)
include untimed

theorem read_timeless (present present' : Moment) (context : Context) (depth : Nat) :
    read formulas present context depth = read formulas present' context depth := by
  induction depth with
  | zero => rfl
  | succ depth ih =>
    funext stack name memo
    have same := read_on formulas present context depth stack name memo
    have same' := read_on formulas present' context depth stack name memo
    cases found : formulas.lookup name with
    | none =>
      simp only [found] at same same'
      exact same.trans same'.symm
    | some text =>
      have reach : Expr.textWithin timeless text = true :=
        untimed text (List.mem_map.mpr ⟨_, lookup_mem found, rfl⟩)
      have alike : Expr.Alike timeless
          (.reading present context formulas.names (read formulas present context depth (name :: stack)))
          (.reading present' context formulas.names
            (read formulas present context depth (name :: stack))) :=
        .mk context context.content _ (by simp [timeless]) fun _ => rfl
      simp only [found, Surroundings.formulaValue_run, Surroundings.reading_context,
        Expr.ofTextIn_alike alike reach] at same
      simp only [found, Surroundings.formulaValue_run, Surroundings.reading_context, ← ih] at same'
      exact same.trans same'.symm

theorem reader_timeless (present present' : Moment) (context : Context) :
    formulas.reader present context = formulas.reader present' context := by
  rw [reader, reader, read_timeless untimed present present']

end Formulas

/-- An evaluation for a candidate is known once it is known what it does in its surroundings. -/
theorem Candidate.evaluate_congr {q q' : Query} {c : Candidate} {α : Type}
    {f g : Surroundings → StateM Memo α}
    (same : f (.withFormulas q'.present c.context q'.definition.formulas) =
      g (.withFormulas q.present c.context q.definition.formulas)) :
    c.evaluate q' f = c.evaluate q g := by
  simp only [evaluate, same]

theorem Congruent.eq : Congruent fun α (x x' : StateM Memo α) => x = x' where
  pure _ := rfl
  bind first later := by
    rw [first, funext later]

namespace Query

variable {q : Query} (untimed : ∀ text ∈ q.texts, Expr.textWithin Formulas.timeless text = true)
  (present : Moment)
include untimed

theorem admitsAll_timeless (context : Context) :
    (Surroundings.withFormulas present context q.definition.formulas).admitsAll q.filters =
      (Surroundings.withFormulas q.present context q.definition.formulas).admitsAll q.filters := by
  obtain ⟨formulas, filters⟩ := List.forall_mem_append.mp untimed
  refine Congruent.eq.admitsAll q.filters fun text inside => Congruent.eq.holds ?_
  funext memo
  have alike : Expr.Alike Formulas.timeless
      (.withFormulas q.present context q.definition.formulas)
      (.reading present context q.definition.formulas.names
        (q.definition.formulas.reader q.present context).read) :=
    .mk context context.content _ (by simp [Formulas.timeless]) fun _ => rfl
  have reader : Surroundings.withFormulas present context q.definition.formulas =
      .reading present context q.definition.formulas.names
        (q.definition.formulas.reader q.present context).read := by
    rw [Surroundings.withFormulas, Formulas.reader_timeless formulas present q.present]
    rfl
  have same := Expr.ofTextIn_alike alike (filters text inside)
  rw [← reader] at same
  exact (Expr.evaluateText_run _ text memo).trans
    (same ▸ (Expr.evaluateText_run _ text memo).symm)

/-- Where no expression looks at the time, it does not matter when a query is run. -/
theorem since_alike : Alike q (q.since present) := by
  have formulas := (List.forall_mem_append.mp untimed).1
  have surroundings (context : Context) :
      Surroundings.withFormulas present context q.definition.formulas =
        ⟨present, context, some (q.definition.formulas.reader q.present context)⟩ := by
    rw [Surroundings.withFormulas, Formulas.reader_timeless formulas present q.present]
  refine ⟨rfl, rfl, rfl, fun source d content => ?_, fun c path => ?_, fun c => ?_⟩
  · have admits (context : Context) : Candidate.evaluate (q.since present) ⟨d, context, []⟩
        (fun s => s.admitsAll (q.since present).filters) =
          Candidate.evaluate q ⟨d, context, []⟩ fun s => s.admitsAll q.filters :=
      Candidate.evaluate_congr (admitsAll_timeless untimed present context)
    simp only [examine, admits]
    rfl
  · have resolved : (c.evaluate (q.since present) fun s => (s.resolve path).run) =
        c.evaluate q fun s => (s.resolve path).run :=
      Candidate.evaluate_congr (congrArg (fun s => (s.resolve path).run) (surroundings c.context))
    simp only [Candidate.resolve, resolved]
  · have read : (c.evaluate (q.since present) fun s => (s.entries .formula).run) =
        c.evaluate q fun s => (s.entries .formula).run :=
      Candidate.evaluate_congr (congrArg (fun s => (s.entries .formula).run) (surroundings c.context))
    simp only [Candidate.evaluate?, read]

end Query

end NoteQuery
