import NoteQuery.Proofs.Expr.Parser
import NoteQuery.Proofs.Formula.Meaning

/-! Inquiries about the formulas of a note. Formulas mean values that are fixed without a table of
known values and without a record of what is being evaluated: the cycles are those of what the texts
ask for. However often and in whatever order formulas are then read, by name, all at once, in
expressions or along paths, each read finds the value that is meant. -/
namespace NoteQuery

/-- A use of the formulas of a note. -/
inductive Inquiry where
  | formula (name : String)
  | all
  | expression (text : String)
  | path (dotted : String)

inductive Answer where
  | value (result : Except Failure Value)
  | entries (result : Except Failure Entries)
  | evaluated (result : Except ExpressionError Value)

namespace Inquiry

def ask (s : Surroundings) : Inquiry → StateM Memo Answer
  | formula name => do pure (.value (← (s.member .formula name).run))
  | all => do pure (.entries (← (s.entries .formula).run))
  | expression text => do pure (.evaluated (← Expr.evaluateText s text))
  | path dotted => do pure (.value (← (s.resolve dotted).run))

def askAll (s : Surroundings) : List Inquiry → StateM Memo (List Answer)
  | [] => pure []
  | inquiry :: inquiries => do
    let first ← inquiry.ask s
    let others ← askAll s inquiries
    pure (first :: others)

/-- The answer where every formula that is read has its value from the start. -/
def answer (present : Moment) (context : Context) (names : List String)
    (value : String → Value) : Inquiry → Answer :=
  let s : Surroundings := .reading present context names fun name => pure (value name)
  fun
  | formula name => .value (.ok (value name))
  | all => .entries (.ok (names.map fun name => (name, value name)))
  | expression text => .evaluated ((Expr.evaluateText s text).run (.fresh [])).1
  | path dotted => .value ((s.resolve dotted).on (.fresh [])).1

end Inquiry

theorem Script.run_pure {α : Type} (value : String → Value) (t : Script α) (memo : Memo) :
    (t.run fun name => pure (value name)).on memo = (t.result value, memo) := by
  induction t with
  | done result => exact Eval.on_ofExcept memo result
  | ask name next ih => simp only [run, result, ExceptT.on_bind, ExceptT.on_pure, ih]

theorem Surroundings.readAll_pure (value : String → Value) (names : List String) (memo : Memo) :
    (readAll (fun name => pure (value name)) names).on memo =
      (.ok (names.map fun name => (name, value name)), memo) := by
  induction names with
  | nil => rfl
  | cons name names ih => simp only [readAll, ExceptT.on_bind, ExceptT.on_pure, ih, List.map_cons]

namespace Formulas

variable (formulas : Formulas) (present : Moment) (context : Context)

/-- Formulas mean these values. One that its text leads back to goes no further and is null; any
other is worth what its text comes to where each formula that it asks for has its value, and null if
that fails. -/
def Means (value : String → Value) : Prop :=
  ∃ asks, ∀ n, Settled (script formulas present context) value asks n

variable {formulas present context}
variable {value : String → Value} {asks : String → List String} {memo : Memo}

theorem Means.unique {other : String → Value} (means : Means formulas present context value)
    (means' : Means formulas present context other) : other = value := by
  obtain ⟨asks, settled⟩ := means
  obtain ⟨asks', settled'⟩ := means'
  funext n
  exact (Account.unique ⟨fun _ _ _ _ => trivial, fun n _ => settled' n⟩
    ⟨fun _ _ _ _ => trivial, fun n _ => settled n⟩ formulas.names
    (fun n absent => script_of_undefined present context (undefined_of_not_mem absent)) n trivial
    trivial).1

namespace Sound

variable (sound : Sound formulas present context value asks)
  (ready : Ready formulas context value asks [] memo)
include sound ready

theorem scripted {α : Type} {f : (String → Eval Value) → Eval α} (script : Scripted f) :
    ∃ after, (f (formulas.reader present context).read).on memo =
        (((f fun name => pure (value name)).on (.fresh [])).1, after) ∧
      Ready formulas context value asks [] after := by
  obtain ⟨t, runs⟩ := script
  obtain ⟨after, run, ready', _⟩ := sound.dialogue t ready
  exact ⟨after, by rw [runs, runs, run, Script.run_pure], ready'⟩

theorem answers (inquiry : Inquiry) :
    ∃ after, (inquiry.ask (.withFormulas present context formulas)).run memo =
        (inquiry.answer present context formulas.names value, after) ∧
      Ready formulas context value asks [] after := by
  cases inquiry with
  | formula name =>
    obtain ⟨after, run, ready'⟩ := sound.scripted ready (Scripted.read name)
    exact ⟨after, congrArg (Prod.map Answer.value id) run, ready'⟩
  | all =>
    obtain ⟨after, run, ready'⟩ :=
      sound.scripted ready (Surroundings.readAll_scripted formulas.names)
    rw [Surroundings.readAll_pure] at run
    exact ⟨after, congrArg (Prod.map Answer.entries id) run, ready'⟩
  | expression text =>
    obtain ⟨after, run, ready'⟩ := sound.scripted ready
      (Expr.ofTextIn_scripted present context formulas.names text)
    refine ⟨after, ?_, ready'⟩
    simp only [Inquiry.ask, Inquiry.answer, StateT.run_bind, Expr.evaluateText_run]
    exact congrArg (Prod.map (fun outcome => Answer.evaluated (Expr.named text outcome)) id) run
  | path dotted =>
    obtain ⟨after, run, ready'⟩ := sound.scripted ready
      (Surroundings.resolve_scripted present context formulas.names dotted)
    exact ⟨after, congrArg (Prod.map Answer.value id) run, ready'⟩

/-- No answer depends on those before it. -/
theorem answersAll (inquiries : List Inquiry) :
    ((Inquiry.askAll (.withFormulas present context formulas) inquiries).run memo).1 =
      inquiries.map (Inquiry.answer present context formulas.names value) := by
  induction inquiries generalizing memo with
  | nil => rfl
  | cons inquiry inquiries ih =>
    obtain ⟨middle, run, ready'⟩ := sound.answers ready inquiry
    have later := ih ready'
    simp only [Inquiry.askAll, StateT.run_bind, run, List.map_cons, ← later]
    rfl

end Sound

/-- After reads of the note every inquiry is answered as when nothing is known. -/
theorem Rested.answersAll {formulas : Formulas} {present : Moment} {context : Context} {memo : Memo}
    (rested : Rested formulas present context memo) (distinct : (formulas.map Prod.snd).Nodup)
    (inquiries : List Inquiry) :
    ((Inquiry.askAll (.withFormulas present context formulas) inquiries).run memo).1 =
      ((Inquiry.askAll (.withFormulas present context formulas) inquiries).run (.fresh [])).1 := by
  obtain ⟨value, asks, account, ready⟩ := rested
  have sound : Sound formulas present context value asks := .of_distinct distinct account
  rw [sound.answersAll ready, sound.answersAll (ready_fresh account fun _ => rfl)]

section Sample

/-- Two formulas that lead to each other, and one beside them that reads the first. -/
def circling : Formulas :=
  [("outside", "!formula.a"), ("a", "formula.b"), ("b", "formula.a")]

def blankNote : Context := ⟨"a.md", .ofDocument ⟨"a.md", 0, none, none, []⟩ none, [], [], none⟩

/-- The one beside the circle sees null in it. -/
theorem circling_entries (present : Moment) :
    (((Surroundings.withFormulas present blankNote circling).entries .formula).on (.fresh [])).1 =
      .ok [("outside", .bool true), ("a", .null), ("b", .null)] := by
  simp [Surroundings.withFormulas, Surroundings.entries, Surroundings.readAll, reader, names,
    read_on, circling, List.lookup, Surroundings.formulaValue_run, Surroundings.reading_context,
    Expr.ofTextIn_formula _ _ _ _ Expr.ofText_formula_a,
    Expr.ofTextIn_formula _ _ _ _ Expr.ofText_formula_b,
    Expr.ofTextIn_not_formula _ _ _ _ Expr.ofText_not_formula_a, ExceptT.on_bind, ExceptT.on_pure,
    Memo.fresh, FormulaTable.find?_nil, FormulaTable.find?_put, loop, Memo.mark, Memo.keep, worth,
    conclude, Value.truthy, blankNote, -bind_pure_comp, -map_bind]

end Sample

end Formulas

end NoteQuery
