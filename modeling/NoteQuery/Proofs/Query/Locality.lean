import NoteQuery.Proofs.Formula.Confined
import NoteQuery.Proofs.Query.Given
import NoteQuery.Proofs.Query.Matching

/-! What the stages of a run have to do with other notes. Whatever is read of a candidate is found by what
is kept for its own path, and changes nothing that is kept for another. So with one note at each path it
does not matter which notes are shown before it. -/
namespace NoteQuery

/-- A part of a run that has to do with the note at a path alone. -/
def StaysAt (path : String) {α : Type} (x : StateM FormulaTable α) : Prop :=
  Confined (FormulaTable.own path) (FormulaTable.others path) x

namespace StaysAt

variable {path other : String} {α : Type} {x : Run α} {table table' : FormulaTable}

theorem same_on (stays : StaysAt path x.run) (same : table.own path = table'.own path) :
    (x.on table).1 = (x.on table').1 ∧ (x.on table).2.own path = (x.on table').2.own path :=
  stays.same table table' same

theorem apart_on (stays : StaysAt other x.run) (apart : path ≠ other) (table : FormulaTable) :
    (x.on table).2.own path = table.own path :=
  congrFun (stays.apart table) ⟨path, apart⟩

end StaysAt

theorem Evaluates.congruent (path : String) : Congruent fun _ x _ => Evaluates path x where
  pure _ := .pure _
  bind first later := first.bind fun _ => later _

namespace Formulas

variable (formulas : Formulas) (present : Moment) (context : Context)

theorem evaluateText_confined (text : String) : Evaluates context.path
    (Expr.evaluateText (.withFormulas present context formulas) text) := by
  have evaluated := formulas.scripted_confined present context
    (Expr.ofTextIn_scripted present context formulas.names text)
  refine evaluated.bind fun memo => ?_
  split
  · exact .pure _
  · exact .pure _
  · exact .pure _

theorem admitsAll_confined (filters : List Filter) : Evaluates context.path
    ((Surroundings.withFormulas present context formulas).admitsAll filters) := by
  have congruent := Evaluates.congruent context.path
  refine congruent.admitsAll (t := .withFormulas present context formulas) filters fun text _ => ?_
  exact congruent.holds (t := .withFormulas present context formulas)
    (formulas.evaluateText_confined present context text)

end Formulas

namespace Candidate

variable (q : Query) (c : Candidate)

theorem evaluate_stays {α : Type} {f : Surroundings → StateM Memo α}
    (evaluates : Evaluates c.context.path (f (.withFormulas q.present c.context q.definition.formulas))) :
    StaysAt c.context.path (c.evaluate q f) := by
  constructor
  · intro table table' same
    have equal : Memo.own c.context.path ⟨table, c.cyclic⟩ = Memo.own c.context.path ⟨table', c.cyclic⟩ :=
      Memo.own_eq.mpr ⟨same, rfl⟩
    obtain ⟨result, after⟩ := evaluates.same _ _ equal
    obtain ⟨kept, cyclic⟩ := Memo.own_eq.mp after
    simp only [evaluate_run, result, cyclic]
    exact ⟨trivial, kept⟩
  · intro table
    exact evaluates.apart ⟨table, c.cyclic⟩

theorem resolve_stays (path : String) : StaysAt c.context.path (c.resolve q path).run := by
  have evaluates := q.definition.formulas.scripted_confined q.present c.context
    (Surroundings.resolve_scripted q.present c.context q.definition.formulas.names path)
  refine (c.evaluate_stays q (f := fun s => (s.resolve path).run) evaluates).lift.bindExcept ?_
  rintro table ⟨result, c'⟩ -
  match result with
  | .ok v => exact .pure _
  | .error (.error _) => exact .pure _
  | .error (.fault _) => exact .pure _

theorem entries_stays :
    StaysAt c.context.path (c.evaluate? q fun s => s.entries .formula).run := by
  have evaluates := q.definition.formulas.scripted_confined q.present c.context
    (Surroundings.entries_scripted q.present c.context q.definition.formulas.names .formula)
  refine (c.evaluate_stays q (f := fun s => (s.entries .formula).run) evaluates).lift.bindExcept ?_
  rintro table ⟨result, c'⟩ -
  cases result with
  | ok entries => exact .pure _
  | error e => exact .pure _

end Candidate

namespace Query

variable (q : Query)

theorem project_stays (columns : List String) (c : Candidate) :
    StaysAt c.context.path (q.project columns c).run := by
  induction columns generalizing c with
  | nil => exact .pure _
  | cons column columns ih =>
    refine (c.resolve_stays q column).bindExcept ?_
    rintro table ⟨v, c'⟩ returned
    obtain ⟨v', after, -, run⟩ := c.resolve_runs q column table
    rw [run] at returned
    cases returned
    exact (ih { c with cyclic := after.cyclic }).bindExcept fun _ _ _ => .pure _

theorem present_stays (c : Candidate) : StaysAt c.context.path (q.present? c).run := by
  refine (c.entries_stays q).bindExcept ?_
  rintro table ⟨entries, c'⟩ returned
  obtain ⟨entries', after, -, run⟩ := c.entries_runs q table
  rw [run] at returned
  cases returned
  dsimp only
  cases q.columns? with
  | none => exact .pure _
  | some columns =>
    have projected := q.project_stays columns { c with cyclic := after.cyclic }
    exact projected.bindExcept fun _ _ _ => .pure _

theorem examine_stays (source : Source) (d : Document) (content : String) :
    StaysAt d.path (q.examine source d content).run := by
  unfold examine
  cases made : Context.ofDocument d (source.metadata d) q.settings
    (if q.wantsContent then some content else none) with
  | error f => exact .pure _
  | ok context =>
    have evaluates := q.definition.formulas.admitsAll_confined q.present context q.filters
    have stays := Candidate.evaluate_stays q ⟨d, context, []⟩ (f := fun s => s.admitsAll q.filters)
      evaluates
    rw [show context.path = d.path from contextOf_path made] at stays
    exact stays.lift.bindExcept fun _ _ _ => .pure _

theorem contribution_stays (q : Query) (source : Source) (d : Document) :
    StaysAt d.path (q.contribution source d).run := by
  unfold contribution
  split
  · split
    · exact .pure _
    · exact (q.examine_stays source d _).bindExcept fun _ _ _ => .pure _
  · exact .pure _

variable {q} {candidates : List Candidate} {table after : FormulaTable}

/-- With one note at each path, what is shown for each does not depend on those shown before. -/
theorem presentAll_each (apart : (candidates.map fun c => c.context.path).Nodup)
    {documents : List ResultDocument}
    (shown : (q.presentAll candidates).on table = (.ok documents, after)) :
    documents.map Except.ok = candidates.map fun c => ((q.present? c).on table).1 := by
  induction candidates generalizing table documents with
  | nil =>
    cases shown
    rfl
  | cons c candidates ih =>
    obtain ⟨absent, apart⟩ := List.nodup_cons.mp apart
    obtain ⟨first, middle, run⟩ := q.present_returns c table
    obtain ⟨rest, last, run'⟩ := q.presentAll_returns candidates middle
    simp only [presentAll, ExceptT.on_bind, run, run', ExceptT.on_pure] at shown
    cases shown
    have same (c' : Candidate) (member : c' ∈ candidates) :
        ((q.present? c').on middle).1 = ((q.present? c').on table).1 := by
      have other : c'.context.path ≠ c.context.path := fun equal =>
        absent (List.mem_map.mpr ⟨c', member, equal⟩)
      have kept := (q.present_stays c).apart_on other table
      rw [run] at kept
      exact ((q.present_stays c').same_on kept).1
    rw [List.map_cons, List.map_cons, run, ih apart run', List.map_congr_left same]

end Query

end NoteQuery
