import NoteQuery.Proofs.Query.Session
import NoteQuery.Proofs.Query.Truth

/-! Pipelines with a past. Runs that end well, fail or are cancelled leave values in the table, formulas
are attached to notes and evaluated beside the runs, and values are put there or forgotten. If a run
forgets what is kept, none of this reaches it: only the source of the notes is the one that was left. -/
namespace NoteQuery

/-- Formulas that were attached to a note, with what is known of their cycles. -/
structure Attachment where
  context : Context
  formulas : Formulas
  cyclic : List String

/-- What lasts from one use of a pipeline to the next. -/
structure Pipeline where
  source : Source
  table : FormulaTable
  attached : List Attachment

/-- A use of a pipeline, or a change of the notes behind it. -/
inductive Act where
  /-- Other notes are listed, or other contents and metadata can be had, or none. -/
  | supply (source : Source)
  | run (r : Request)
  | attach (formulas : Formulas) (context : Context)
  /-- Something is evaluated for the attachment at this place. -/
  | evaluate (place : Nat) (present : Moment) (e : Evaluation)
  | value (place : Nat) (present : Moment) (text : String)
  | keep (path text : String) (value : Value)
  | forget (path : String)
  | clear

namespace Act

def supplies (source : Source) : Act → Source
  | supply source' => source'
  | _ => source

end Act

namespace Pipeline

variable (settings : Settings)

/-- Nothing was done with the pipeline yet. -/
def fresh (source : Source) : Pipeline := ⟨source, [], []⟩

/-- An evaluation for an attachment changes the table and what is known of its cycles. -/
def consult (p : Pipeline) (place : Nat) (present : Moment)
    (f : Surroundings → StateM Memo Unit) : Pipeline :=
  match p.attached[place]? with
  | none => p
  | some a =>
    let memo := ((f (.withFormulas present a.context a.formulas)).run ⟨p.table, a.cyclic⟩).2
    { p with
      table := memo.table
      attached := p.attached.set place { a with cyclic := memo.cyclic } }

def outcome (p : Pipeline) (r : Request) : Except RunError ResultSet :=
  ((r.run settings p.source).on p.table).1

def after (p : Pipeline) : Act → Pipeline
  | .supply source => { p with source := source }
  | .run r => { p with table := ((r.run settings p.source).on p.table).2 }
  | .attach formulas context => { p with attached := p.attached ++ [⟨context, formulas, []⟩] }
  | .evaluate place present e => p.consult place present fun s => e.run s
  | .value place present text => p.consult place present fun s => do
    let _ ← s.formulaValue text
  | .keep path text value => { p with table := p.table.put path text value }
  | .forget path => { p with table := p.table.dropNote path }
  | .clear => { p with table := [] }

def afterAll (p : Pipeline) : List Act → Pipeline
  | [] => p
  | act :: acts => (p.after settings act).afterAll acts

theorem consult_source (p : Pipeline) (place : Nat) (present : Moment)
    (f : Surroundings → StateM Memo Unit) : (p.consult place present f).source = p.source := by
  unfold consult
  cases p.attached[place]? with
  | none => rfl
  | some a => rfl

/-- No use of a pipeline changes the notes behind it. -/
theorem after_source (p : Pipeline) (act : Act) :
    (p.after settings act).source = act.supplies p.source := by
  cases act with
  | evaluate place present e => exact p.consult_source place present _
  | value place present text => exact p.consult_source place present _
  | supply source => rfl
  | run r => rfl
  | attach formulas context => rfl
  | keep path text value => rfl
  | forget path => rfl
  | clear => rfl

theorem afterAll_source (p : Pipeline) (acts : List Act) :
    (p.afterAll settings acts).source = acts.foldl Act.supplies p.source := by
  induction acts generalizing p with
  | nil => rfl
  | cons act acts ih => rw [afterAll, ih, after_source, List.foldl_cons]

variable {settings}

/-- A run that forgets what is kept has one outcome, whatever is kept. -/
theorem outcome_of_source (scope : settings.keep = .query) {p p' : Pipeline}
    (same : p.source = p'.source) (r : Request) : p.outcome settings r = p'.outcome settings r := by
  unfold outcome Request.run
  rw [same, Definition.run_on, Definition.run_on]
  cases r.definition.chosen r.viewName with
  | error e => rfl
  | ok view => simp only [scope, if_true]

/-- Whatever was done with a pipeline, the next run has the outcome that it has on a fresh one over the
notes as they are then. -/
theorem outcome_fresh (scope : settings.keep = .query) (p : Pipeline) (acts : List Act)
    (r : Request) : (p.afterAll settings acts).outcome settings r =
      (fresh (acts.foldl Act.supplies p.source)).outcome settings r := by
  apply outcome_of_source scope
  exact p.afterAll_source settings acts

section Sample

open Formulas Definition

/-- A past with a view that does not exist, a run that is cancelled, a list that cannot be had, formulas
that were attached and evaluated, and a wrong value in the table. -/
def past (options : Options) (present : Moment) : List Act :=
  [.run ⟨sample, some "Large", options, present, none⟩,
    .run ⟨sample, some "Small", options, present, some 1⟩,
    .supply (({ list := some .unlisted } : Outage).apply sampleStore.source),
    .run ⟨sample, some "Small", options, present, none⟩, .attach circling blankNote,
    .evaluate 0 present (.inquiry .all), .value 0 present "!formula.a",
    .keep "a.md" "n * 2" (.int 7), .supply sampleSource]

theorem outcome_fresh_past : ∃ settings : Settings, settings.keep = .query ∧
    ∃ (options : Options) (present : Moment) (r : Request),
      ((fresh sampleSource).afterAll settings (past options present)).outcome settings r =
        (fresh sampleSource).outcome settings r := by
  let present : Moment := .startOf ⟨2024, 1, 1, by decide, by decide, by decide⟩
  let r : Request := ⟨sample, some "Small", {}, present, none⟩
  exact ⟨{}, rfl, {}, present, r, outcome_fresh rfl (fresh sampleSource) (past {} present) r⟩

end Sample

end Pipeline

end NoteQuery
