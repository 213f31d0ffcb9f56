import NoteQuery.Proofs.Formula.Inquiry
import NoteQuery.Proofs.Query.Refinement

/-! The truth of filters. A filter says something of a note once each of its expressions is true or
not, and that is what matching comes to: how far the filters were followed, what else was evaluated
before and what is known of the formulas by then have no part in it. -/
namespace NoteQuery

namespace Combinator

/-- What a combinator makes of the truth of its filters. -/
def holds : Combinator → List Bool → Bool
  | and, truths => truths.all id
  | or, truths => truths.any id
  | not, truths => !truths.any id

/-- The combinator that makes one filter of several which stand beside each other. -/
def joint : Combinator → Combinator
  | and => and
  | or => or
  | not => or

end Combinator

namespace Filter

mutual

/-- The truth of a filter, of whose expressions it is known which are true. -/
def truth (leaf : String → Bool) : Filter → Bool
  | test text => leaf text
  | combine c filters => c.holds (truths leaf filters)

def truths (leaf : String → Bool) : List Filter → List Bool
  | [] => []
  | f :: fs => truth leaf f :: truths leaf fs

end

theorem truths_eq (leaf : String → Bool) (filters : List Filter) :
    truths leaf filters = filters.map (truth leaf) := by
  induction filters with
  | nil => rfl
  | cons f fs ih => rw [truths, ih, List.map_cons]

/-- The second filter is the first one with filters in another order, given several times or put
together into groups, at any depth. -/
inductive Rearranged : Filter → Filter → Prop
  | refl (f : Filter) : Rearranged f f
  | symm {f g : Filter} (same : Rearranged f g) : Rearranged g f
  | trans {f g h : Filter} (first : Rearranged f g) (second : Rearranged g h) : Rearranged f h
  | order (c : Combinator) {fs gs : List Filter} (permuted : fs.Perm gs) :
      Rearranged (combine c fs) (combine c gs)
  | again (c : Combinator) (f : Filter) (fs : List Filter) :
      Rearranged (combine c (f :: fs)) (combine c (f :: f :: fs))
  | group (c : Combinator) (fs gs : List Filter) :
      Rearranged (combine c (fs ++ gs)) (combine c (combine c.joint fs :: gs))
  | within (c : Combinator) {f g : Filter} (fs : List Filter) (same : Rearranged f g) :
      Rearranged (combine c (f :: fs)) (combine c (g :: fs))

theorem Rearranged.truth_eq {f g : Filter} (same : Rearranged f g) (leaf : String → Bool) :
    f.truth leaf = g.truth leaf := by
  induction same with
  | refl f => rfl
  | symm _ ih => exact ih.symm
  | trans _ _ ih ih' => exact ih.trans ih'
  | order c permuted =>
    have truths := permuted.map (truth leaf)
    simp only [truth, truths_eq]
    cases c with
    | and => exact truths.all_eq
    | or => exact truths.any_eq
    | not => exact congrArg (!·) truths.any_eq
  | again c f fs => cases c <;> simp [truth, truths, Combinator.holds]
  | group c fs gs =>
    cases c <;> simp [truth, truths, truths_eq, Combinator.holds, Combinator.joint]
  | within c fs _ ih => simp only [truth, truths, ih]

end Filter

namespace Surroundings

/-- An expression is true of a note when, with nothing evaluated before it, it has a value and that
value holds. -/
def isTrue (s : Surroundings) (text : String) : Bool :=
  match ((Expr.evaluateText s text).run (.fresh [])).1 with
  | .ok v => v.truthy
  | .error _ => false

theorem holds_true {formulas : Formulas} (distinct : (formulas.map Prod.snd).Nodup)
    (present : Moment) (context : Context) (text : String) :
    (((withFormulas present context formulas).holds text).run (.fresh [])).1 =
      (withFormulas present context formulas).isTrue text := by
  unfold isTrue holds
  rw [(Expr.evaluateText_steady distinct present context text).bind_fresh fun result => by
    cases result
    · exact .pure _
    · exact .pure _]
  cases ((Expr.evaluateText (withFormulas present context formulas) text).run (.fresh [])).1 <;> rfl

mutual

/-- By itself a filter comes to its truth. -/
theorem admits_true {formulas : Formulas} (distinct : (formulas.map Prod.snd).Nodup)
    (present : Moment) (context : Context) : ∀ f : Filter,
    (((withFormulas present context formulas).admits f).run (.fresh [])).1 =
      f.truth (withFormulas present context formulas).isTrue
  | .test text => by
    rw [admits, Filter.truth]
    exact holds_true distinct present context text
  | .combine .and filters => by
    rw [admits, Filter.truth]
    exact admitsAll_true distinct present context filters
  | .combine .or filters => by
    rw [admits, Filter.truth]
    exact admitsSome_true distinct present context filters
  | .combine .not filters => by
    rw [admits, Filter.truth, (admitsSome_steady distinct present context filters).bind_fresh
      fun _ => .pure _, admitsSome_true distinct present context filters]
    rfl

theorem admitsAll_true {formulas : Formulas} (distinct : (formulas.map Prod.snd).Nodup)
    (present : Moment) (context : Context) : ∀ filters : List Filter,
    (((withFormulas present context formulas).admitsAll filters).run (.fresh [])).1 =
      Combinator.and.holds (Filter.truths (withFormulas present context formulas).isTrue filters)
  | [] => by
    rw [admitsAll]
    rfl
  | f :: filters => by
    have rest := admitsAll_true distinct present context filters
    rw [admitsAll, (admits_steady distinct present context f).bind_fresh fun passes => by
      cases passes
      · exact .pure false
      · exact admitsAll_steady distinct present context filters,
      admits_true distinct present context f]
    simp only [Combinator.holds, Filter.truths, List.all_cons, id] at rest ⊢
    cases f.truth (withFormulas present context formulas).isTrue with
    | false => rfl
    | true => exact rest

theorem admitsSome_true {formulas : Formulas} (distinct : (formulas.map Prod.snd).Nodup)
    (present : Moment) (context : Context) : ∀ filters : List Filter,
    (((withFormulas present context formulas).admitsSome filters).run (.fresh [])).1 =
      Combinator.or.holds (Filter.truths (withFormulas present context formulas).isTrue filters)
  | [] => by
    rw [admitsSome]
    rfl
  | f :: filters => by
    have rest := admitsSome_true distinct present context filters
    rw [admitsSome, (admits_steady distinct present context f).bind_fresh fun passes => by
      cases passes
      · exact admitsSome_steady distinct present context filters
      · exact .pure true,
      admits_true distinct present context f]
    simp only [Combinator.holds, Filter.truths, List.any_cons, id] at rest ⊢
    cases f.truth (withFormulas present context formulas).isTrue with
    | false => exact rest
    | true => rfl

end

end Surroundings

namespace Combinator

theorem ofName?_eq_some {key : String} {c : Combinator} (known : ofName? key = some c) :
    key = c.name := by
  unfold ofName? at known
  have named := List.find?_some known
  exact (beq_iff_eq.mp named).symm

end Combinator

namespace Surroundings

variable (s : Surroundings)

theorem ite_pure {m : Type → Type} [Monad m] (passes : Bool) :
    (if passes = true then pure true else pure false : m Bool) = pure passes := by
  cases passes <;> rfl

theorem admitsSome_single (f : Filter) : s.admitsSome [f] = s.admits f := by
  simp only [admitsSome, ite_pure, bind_pure]

theorem admitsValue_of_filter :
    (∀ location v f, Filter.ofValue location v = .ok f → s.admitsValue v = liftM (s.admits f)) ∧
      ∀ location i items fs, Filter.ofItems location i items = .ok fs →
        s.admitsAllValues items = liftM (s.admitsAll fs) ∧
          s.admitsSomeValue items = liftM (s.admitsSome fs) := by
  apply Filter.ofValue.mutual_induct
    (fun location v => ∀ f, Filter.ofValue location v = .ok f →
      s.admitsValue v = liftM (s.admits f))
    (fun location i items => ∀ fs, Filter.ofItems location i items = .ok fs →
      s.admitsAllValues items = liftM (s.admitsAll fs) ∧
        s.admitsSomeValue items = liftM (s.admitsSome fs))
  case case1 =>
    intro location text blank f read
    simp [Filter.ofValue, blank] at read
  case case2 =>
    intro location text full f read
    simp only [Filter.ofValue, full, Bool.false_eq_true, if_false, Except.ok.injEq] at read
    rw [← read, admitsValue, admits]
  case case3 =>
    intro location key items c known ih f read
    simp only [Filter.ofValue, known] at read
    obtain ⟨fs, inner, rfl⟩ := Except.map_eq_ok.mp read
    obtain ⟨all, some⟩ := ih fs inner
    rw [Combinator.ofName?_eq_some known]
    cases c with
    | and => simp only [Combinator.name, admitsValue, admits, all]
    | or => simp only [Combinator.name, admitsValue, admits, some]
    | not => simp [Combinator.name, admitsValue, admits, some]
  case case5 =>
    intro location key v single known ih f read
    simp only [Filter.ofValue, known] at read
    obtain ⟨g, inner, rfl⟩ := Except.map_eq_ok.mp read
    rw [Combinator.ofName?_eq_some known]
    simp [Combinator.name, admitsValue, admits, admitsSome_single, ih g inner]
  case case10 =>
    intro location i fs read
    cases read
    simp only [admitsAllValues, admitsAll, admitsSomeValue, admitsSome]
    exact ⟨rfl, rfl⟩
  case case11 =>
    intro location i item items first rest fs read
    obtain ⟨f, head, read⟩ := Except.bind_eq_ok.mp read
    obtain ⟨gs, tail, read⟩ := Except.bind_eq_ok.mp read
    cases read
    obtain ⟨all, some⟩ := rest gs tail
    have branch (passes : Bool) (yes no : StateM Memo Bool) :
        (liftM (if passes = true then yes else no) : ExceptT Fault (StateM Memo) Bool) =
          if passes = true then liftM yes else liftM no := by
      cases passes <;> rfl
    simp only [admitsAllValues, admitsAll, admitsSomeValue, admitsSome, first f head, all, some,
      liftM_bind, branch]
    exact ⟨rfl, rfl⟩
  all_goals
    intros
    simp_all [Filter.ofValue]

end Surroundings

/-- Something that is evaluated for a note. -/
inductive Evaluation where
  | inquiry (i : Inquiry)
  | filter (f : Filter)

namespace Evaluation

def run (s : Surroundings) : Evaluation → StateM Memo Unit
  | inquiry i => do
    let _ ← i.ask s
  | filter f => do
    let _ ← s.admits f

def runAll (s : Surroundings) : List Evaluation → StateM Memo Unit
  | [] => pure ()
  | e :: es => do
    e.run s
    runAll s es

variable {formulas : Formulas} (distinct : (formulas.map Prod.snd).Nodup) (present : Moment)
  (context : Context)

include distinct

theorem run_steady (e : Evaluation) : formulas.Steady present context
    (e.run (.withFormulas present context formulas)) := by
  have scripted {α : Type} {f : (String → Eval Value) → Eval α} (script : Scripted f) :
      formulas.Steady present context (f (formulas.reader present context).read).run :=
    .of_scripted distinct script
  cases e with
  | filter f => exact (Surroundings.admits_steady distinct present context f).bind fun _ => .pure _
  | inquiry i =>
    refine .bind ?_ fun _ => .pure _
    cases i with
    | formula name => exact (scripted (Scripted.read name)).bind fun _ => .pure _
    | all =>
      exact (scripted (Surroundings.readAll_scripted formulas.names)).bind fun _ => .pure _
    | expression text =>
      exact (Expr.evaluateText_steady distinct present context text).bind fun _ => .pure _
    | path dotted =>
      exact (scripted (Surroundings.resolve_scripted present context formulas.names dotted)).bind
        fun _ => .pure _

theorem runAll_rested (earlier : List Evaluation) {memo : Memo}
    (rested : formulas.Rested present context memo) :
    formulas.Rested present context
      ((runAll (.withFormulas present context formulas) earlier).run memo).2 := by
  induction earlier generalizing memo with
  | nil => exact rested
  | cons e earlier ih =>
    obtain ⟨middle, run, rested', _⟩ := (run_steady distinct present context e).run rested
    have later := ih rested'
    rw [runAll, StateT.run_bind, run]
    exact later

end Evaluation

namespace Filter

/-- What a computation comes to when a note was the subject of other evaluations before. -/
def after {α : Type} (s : Surroundings) (table : FormulaTable) (earlier : List Evaluation)
    (x : StateM Memo α) : α :=
  (x.run ((Evaluation.runAll s earlier).run (.fresh table)).2).1

theorem after_steady {formulas : Formulas} (distinct : (formulas.map Prod.snd).Nodup)
    {present : Moment} {context : Context} {table : FormulaTable}
    (blank : ∀ text, table.find? context.path text = none) (earlier : List Evaluation) {α : Type}
    {x : StateM Memo α} (steady : formulas.Steady present context x) :
    after (.withFormulas present context formulas) table earlier x = (x.run (.fresh [])).1 := by
  obtain ⟨_, run, _⟩ := steady.run
    (Evaluation.runAll_rested distinct present context earlier (Formulas.rested_fresh blank))
  rw [after, run]

section Sample

open Formulas

/-- True of a note with the formulas of the circle, in which both are null. -/
def unmet : List Filter := [test "!formula.a", combine .not [test "formula.b"]]

theorem unmet_truth (present : Moment) :
    (combine .and unmet).truth (Surroundings.withFormulas present blankNote circling).isTrue =
      true := by
  have reading : Surroundings.withFormulas present blankNote circling =
      .reading present blankNote circling.names (circling.reader present blankNote).read := rfl
  simp only [truth, truths, unmet, Surroundings.isTrue, Expr.evaluateText_run, reading,
    Expr.ofTextIn_formula _ _ _ _ Expr.ofText_formula_b,
    Expr.ofTextIn_not_formula _ _ _ _ Expr.ofText_not_formula_a]
  simp [Combinator.holds, reader, names, read_on, circling, List.lookup,
    Surroundings.formulaValue_run, Surroundings.reading_context, Expr.named,
    Expr.ofTextIn_formula _ _ _ _ Expr.ofText_formula_a,
    Expr.ofTextIn_formula _ _ _ _ Expr.ofText_formula_b, ExceptT.on_bind, ExceptT.on_pure,
    Memo.fresh, FormulaTable.find?_nil, loop, Memo.mark, Memo.keep, worth, conclude, Value.truthy,
    blankNote, -bind_pure_comp, -map_bind]

end Sample

end Filter

end NoteQuery
