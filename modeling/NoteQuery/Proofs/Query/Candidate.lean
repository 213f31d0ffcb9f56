import NoteQuery.Query.Run
import NoteQuery.Proofs.Formula.Meaning

/-! What is read of a candidate. No path fails to resolve, whatever is known. Where the texts of
formulas are distinct, every reading of a note is the one it has by itself, and it changes nothing
that is known of other notes. -/
namespace NoteQuery

/-- An evaluation that has a value from every memory. -/
def Sure {α : Type} (x : Eval α) : Prop := ∀ memo, ∃ a after, x.on memo = (.ok a, after)

namespace Sure

variable {α β : Type}

theorem pure (a : α) : Sure (Pure.pure a : Eval α) := fun memo => ⟨a, memo, rfl⟩

theorem bind {x : Eval α} {f : α → Eval β} (first : Sure x) (rest : ∀ a, Sure (f a)) :
    Sure (x >>= f) := by
  intro memo
  obtain ⟨a, middle, run⟩ := first memo
  obtain ⟨b, after, run'⟩ := rest a middle
  exact ⟨b, after, by rw [ExceptT.on_bind, run]; exact run'⟩

end Sure

namespace Surroundings

variable (present : Moment) (context : Context) (formulas : Formulas)

/-- No formula fails that is read when none is being evaluated. -/
theorem read_sure (name : String) : Sure ((formulas.reader present context).read name) := by
  intro memo
  cases found : formulas.lookup name with
  | none =>
    refine ⟨.null, memo, ?_⟩
    simp only [Formulas.reader, Formulas.read_on, found]
  | some text =>
    rw [Formulas.reader_on present context found, Formulas.conclude_outermost]
    split
    · exact ⟨_, _, rfl⟩
    · exact ⟨_, _, rfl⟩

theorem member_sure (scope : Scope) (name : String) :
    Sure ((withFormulas present context formulas).member scope name) := by
  cases scope with
  | file => exact .pure _
  | note => exact .pure _
  | formula => exact read_sure present context formulas name

theorem resolve_sure (path : String) : Sure ((withFormulas present context formulas).resolve path) := by
  unfold resolve
  dsimp only
  split
  · rename_i scope first more _ _
    refine (member_sure present context formulas scope _).bind fun value => ?_
    split
    · exact (member_sure present context formulas scope first).bind fun _ => .pure _
    · exact .pure _
  · split
    · exact .pure _
    · split
      · exact .pure _
      · exact .pure _

theorem readAll_sure (wanted : List String) :
    Sure (readAll (formulas.reader present context).read wanted) := by
  induction wanted with
  | nil => exact .pure []
  | cons name wanted ih =>
    exact (read_sure present context formulas name).bind fun _ => ih.bind fun _ => .pure _

theorem entries_sure : Sure ((withFormulas present context formulas).entries .formula) :=
  readAll_sure present context formulas formulas.names

end Surroundings

namespace Query

variable (q : Query)

/-- What an evaluation for a note comes to when nothing was evaluated before. -/
def alone {α : Type} (c : Context) (f : Surroundings → StateM Memo α) : α :=
  ((f (.withFormulas q.present c q.definition.formulas)).run (.fresh [])).1

def valueAt (path : String) (c : Context) : Value :=
  match q.alone c fun s => (s.resolve path).run with
  | .ok v => v
  | .error _ => .null

def formulasOf (c : Context) : Entries :=
  match q.alone c fun s => (s.entries .formula).run with
  | .ok entries => entries
  | .error _ => []

def shown (c : Candidate) : ResultDocument where
  path := c.document.path
  name := c.document.name
  properties := match q.columns? with
    | some columns => Entries.ofList (columns.map fun column => (column, q.valueAt column c.context))
    | none => allProperties c.context (q.formulasOf c.context)
  frontmatter := c.context.frontmatter
  file := c.context.file
  formulas := q.formulasOf c.context
  content := c.context.content

end Query

namespace Candidate

def bare (c : Candidate) : Candidate := { c with cyclic := [] }

variable (q : Query)

/-- What is known of the candidate is what reads of it have left. -/
def Rested (table : FormulaTable) (c : Candidate) : Prop :=
  q.definition.formulas.Rested q.present c.context ⟨table, c.cyclic⟩

variable {q} in
theorem Rested.congr {c : Candidate} {table table' : FormulaTable} (rested : c.Rested q table)
    (same : ∀ text, table'.find? c.context.path text = table.find? c.context.path text) :
    c.Rested q table' :=
  Formulas.Rested.congr rested same

/-- An evaluation for the candidate. It changes only what is known of its own formulas. -/
structure Step (c c' : Candidate) (table table' : FormulaTable) : Prop where
  same : c'.bare = c.bare
  rested : c'.Rested q table'
  others : ∀ path text, path ≠ c.context.path → table'.find? path text = table.find? path text

variable {q} {c : Candidate} {table : FormulaTable}

namespace Step

variable {c' c'' : Candidate} {table' table'' : FormulaTable}

theorem context (step : Step q c c' table table') : c'.context = c.context :=
  show c'.bare.context = c.bare.context by rw [step.same]

theorem document (step : Step q c c' table table') : c'.document = c.document :=
  show c'.bare.document = c.bare.document by rw [step.same]

theorem refl (rested : c.Rested q table) : Step q c c table table := ⟨rfl, rested, fun _ _ _ => rfl⟩

theorem trans (first : Step q c c' table table') (second : Step q c' c'' table' table'') :
    Step q c c'' table table'' :=
  ⟨second.same.trans first.same, second.rested, fun path text apart =>
    (second.others path text (first.context ▸ apart)).trans (first.others path text apart)⟩

end Step

/-- Evaluations for candidates with these contexts, one after the other. -/
def Steps (q : Query) (among : Context → Prop) : FormulaTable → FormulaTable → Prop :=
  Relation.ReflTransGen fun table table' => ∃ c c', among c.context ∧ Step q c c' table table'

theorem Step.steps {c' : Candidate} {table' : FormulaTable} (step : Step q c c' table table')
    {among : Context → Prop} (member : among c.context) : Steps q among table table' :=
  .single ⟨c, c', member, step⟩

theorem Steps.mono {among more : Context → Prop} {table' : FormulaTable}
    (steps : Steps q among table table') (inside : ∀ c, among c → more c) :
    Steps q more table table' := by
  refine Relation.ReflTransGen.mono ?_ _ _ steps
  rintro _ _ ⟨c, c', member, step⟩
  exact ⟨c, c', inside _ member, step⟩

theorem evaluate_run {α : Type} (f : Surroundings → StateM Memo α) :
    (c.evaluate q f).run table =
      let outcome := (f (.withFormulas q.present c.context q.definition.formulas)).run ⟨table, c.cyclic⟩
      ((outcome.1, { c with cyclic := outcome.2.cyclic }), outcome.2.table) := rfl

theorem evaluate_step {α : Type} {f : Surroundings → StateM Memo α}
    (steady : q.definition.formulas.Steady q.present c.context
      (f (.withFormulas q.present c.context q.definition.formulas))) (rested : c.Rested q table) :
    ∃ c' table', (c.evaluate q f).run table = ((q.alone c.context f, c'), table') ∧
      Step q c c' table table' := by
  obtain ⟨after, run, rested', keeps⟩ := steady.run rested
  refine ⟨{ c with cyclic := after.cyclic }, after.table, ?_, rfl, rested', keeps.others⟩
  simp only [evaluate_run, run]
  rfl

/-- The value at a path is found by the reads of the note, and only they change what is known. -/
theorem resolve_runs (c : Candidate) (q : Query) (path : String) (table : FormulaTable) :
    ∃ v after, ((Surroundings.withFormulas q.present c.context q.definition.formulas).resolve
        path).on ⟨table, c.cyclic⟩ = (.ok v, after) ∧
      (c.resolve q path).on table = (.ok (v, { c with cyclic := after.cyclic }), after.table) := by
  obtain ⟨v, after, run⟩ := Surroundings.resolve_sure q.present c.context q.definition.formulas path
    ⟨table, c.cyclic⟩
  have evaluated : (c.evaluate q fun s => (s.resolve path).run).run table =
      ((.ok v, { c with cyclic := after.cyclic }), after.table) := by
    rw [evaluate_run, show StateT.run _ _ = _ from run]
  refine ⟨v, after, run, ?_⟩
  simp only [resolve, ExceptT.on_bind, ExceptT.on_lift, evaluated]
  rfl

theorem resolve_ok (c : Candidate) (q : Query) (path : String) (table : FormulaTable) :
    ∃ v c' after, (c.resolve q path).on table = (.ok (v, c'), after) ∧ c'.bare = c.bare := by
  obtain ⟨v, after, _, run⟩ := c.resolve_runs q path table
  exact ⟨v, _, _, run, rfl⟩

theorem entries_runs (c : Candidate) (q : Query) (table : FormulaTable) :
    ∃ entries after, ((Surroundings.withFormulas q.present c.context q.definition.formulas).entries
        .formula).on ⟨table, c.cyclic⟩ = (.ok entries, after) ∧
      (c.evaluate? q fun s => s.entries .formula).on table =
        (.ok (entries, { c with cyclic := after.cyclic }), after.table) := by
  obtain ⟨entries, after, run⟩ := Surroundings.entries_sure q.present c.context q.definition.formulas
    ⟨table, c.cyclic⟩
  have evaluated : (c.evaluate q fun s => (s.entries .formula).run).run table =
      ((.ok entries, { c with cyclic := after.cyclic }), after.table) := by
    rw [evaluate_run, show StateT.run _ _ = _ from run]
  refine ⟨entries, after, run, ?_⟩
  simp only [evaluate?, ExceptT.on_bind, ExceptT.on_lift, evaluated]
  rfl

variable (distinct : (q.definition.formulas.map Prod.snd).Nodup)

include distinct

theorem resolve_step (path : String) (rested : c.Rested q table) :
    ∃ c' table', (c.resolve q path).on table = (.ok (q.valueAt path c.context, c'), table') ∧
      Step q c c' table table' := by
  have steady : q.definition.formulas.Steady q.present c.context
      ((Surroundings.withFormulas q.present c.context q.definition.formulas).resolve path).run :=
    .of_scripted distinct
      (Surroundings.resolve_scripted q.present c.context q.definition.formulas.names path)
  obtain ⟨c', table', run, step⟩ := evaluate_step (f := fun s => (s.resolve path).run) steady rested
  obtain ⟨v, after, value⟩ := Surroundings.resolve_sure q.present c.context q.definition.formulas path
    (.fresh [])
  have found : q.alone c.context (fun s => (s.resolve path).run) = .ok v := congrArg Prod.fst value
  refine ⟨c', table', ?_, step⟩
  rw [found] at run
  simp only [resolve, ExceptT.on_bind, ExceptT.on_lift, run, Query.valueAt, found]
  rfl

theorem project_step (columns : List String) (rested : c.Rested q table) :
    ∃ c' table', (q.project columns c).on table =
        (.ok (columns.map fun column => (column, q.valueAt column c.context), c'), table') ∧
      Step q c c' table table' := by
  induction columns generalizing c table with
  | nil => exact ⟨c, table, rfl, .refl rested⟩
  | cons column columns ih =>
    obtain ⟨c', table', run, step⟩ := resolve_step distinct column rested
    obtain ⟨c'', table'', run', step'⟩ := ih step.rested
    refine ⟨c'', table'', ?_, step.trans step'⟩
    rw [step.context] at run'
    simp only [Query.project, ExceptT.on_bind, run, run']
    rfl

theorem present_step (rested : c.Rested q table) :
    ∃ c' table', (q.present? c).on table = (.ok (q.shown c), table') ∧
      Step q c c' table table' := by
  have steady : q.definition.formulas.Steady q.present c.context
      ((Surroundings.withFormulas q.present c.context q.definition.formulas).entries .formula).run :=
    .of_scripted distinct
      (Surroundings.entries_scripted q.present c.context q.definition.formulas.names .formula)
  obtain ⟨c', table', run, step⟩ := evaluate_step (f := fun s => (s.entries .formula).run) steady rested
  obtain ⟨entries, after, value⟩ := Surroundings.entries_sure q.present c.context
    q.definition.formulas (.fresh [])
  have found : q.alone c.context (fun s => (s.entries .formula).run) = .ok entries :=
    congrArg Prod.fst value
  have formulas : q.formulasOf c.context = entries := by simp only [Query.formulasOf, found]
  rw [found] at run
  have evaluated : (c.evaluate? q fun s => s.entries .formula).on table = (.ok (entries, c'), table') := by
    simp only [evaluate?, ExceptT.on_bind, ExceptT.on_lift, run]
    rfl
  cases columns : q.columns? with
  | none =>
    refine ⟨c', table', ?_, step⟩
    simp only [Query.present?, ExceptT.on_bind, evaluated, columns, ExceptT.on_pure, Query.shown,
      formulas, step.context, step.document]
  | some wanted =>
    obtain ⟨c'', table'', run', step'⟩ := project_step distinct wanted step.rested
    refine ⟨c'', table'', ?_, step.trans step'⟩
    rw [step.context] at run'
    simp only [Query.present?, ExceptT.on_bind, evaluated, columns, run', ExceptT.on_pure, Query.shown,
      formulas, step.context, step.document]

end Candidate

end NoteQuery
