import NoteQuery.Proofs.Expr.Failing
import NoteQuery.Proofs.Expr.Refusal
import NoteQuery.Proofs.Query.Truth
import NoteQuery.Proofs.Value.Written

/-! Failures that stay inside. A tree or a text has a value or fails by an error, which knows the text, a
formula always has a value, and a filter passes or does not. What can still go wrong is the report on a
value that is no filter, which a whole number of too many digits in it prevents. -/
namespace NoteQuery

/-- The error that a failure comes to at the end of an evaluation. -/
def Failure.outcome : Failure → EvalError
  | error e => e
  | fault f => .failed f

theorem Failure.Runtime.outcome {f : Failure} (runtime : f.Runtime) : f.outcome.Runtime := by
  cases f with
  | error e => exact runtime
  | fault f => trivial

namespace Tree

variable {s : Surroundings}

theorem evaluate_run (s : Surroundings) (t : Tree) (memo : Memo) :
    (t.evaluate s).run memo =
      Prod.map (Except.mapError Failure.outcome) id
        (ExceptT.on memo (do s.settle (← t.eval s) : Eval Value)) := by
  change StateT.run (ExceptT.run (do s.settle (← t.eval s) : Eval Value) >>= _) memo = _
  rw [StateT.run_bind, ← ExceptT.on]
  rcases ExceptT.on memo (do s.settle (← t.eval s) : Eval Value) with ⟨(_ | _) | v, after⟩ <;> rfl

/-- A tree has a value, or it fails by an error of evaluation. -/
theorem evaluate_fails (contained : s.Contained) (t : Tree) (memo : Memo) :
    ((t.evaluate s).run memo).1.FailsOnly EvalError.Runtime := by
  have runtime : (do s.settle (← t.eval s) : Eval Value).FailsOnly Failure.Runtime :=
    (eval_runtime contained t).bind fun _ => Surroundings.settle_runtime contained _
  intro e failed
  rw [evaluate_run] at failed
  rcases run : ExceptT.on memo (do s.settle (← t.eval s) : Eval Value) with ⟨f | v, after⟩
  · rw [run] at failed
    cases failed
    exact (runtime memo f after run).outcome
  · rw [run] at failed
    cases failed

end Tree

namespace Expr

variable {s : Surroundings} {text : String}

/-- A text that spells a tree is evaluated as the tree, and an error is given the text. -/
theorem evaluateText_spelled {e : Expr} (spelled : ofText text = .ok e) (memo : Memo) :
    (evaluateText s text).run memo =
      Prod.map (Except.mapError (ExpressionError.mk text)) id
        (((Tree.ofExpr e).evaluate s).run memo) := by
  rw [evaluateText_run, Tree.evaluate_run, Tree.eval_ofExpr, ← ofTextIn_spelled spelled]
  rcases (ofTextIn s text).on memo with ⟨(_ | _) | v, after⟩ <;> rfl

theorem evaluateText_refused {f : Failure} (refused : ofText text = .error f) (memo : Memo) :
    (evaluateText s text).run memo = (.error ⟨text, f.outcome⟩, memo) := by
  rw [evaluateText_run, ofTextIn_refused refused, Eval.on_ofExcept]
  cases f <;> rfl

end Expr

namespace Value

/-- No filter, as far as can be seen from the outside of the value. -/
def Misfit : Value → Prop
  | null => False
  | text _ => False
  | map [(name, _)] => Combinator.ofName? name = none
  | _ => True

/-- The filters under a combinator, where a single one needs no list. -/
def filters : Value → List Value
  | list filters => filters
  | filter => [filter]

variable {v w : Value}

theorem filter_forms (v : Value) : v = null ∨ (∃ s, v = text s) ∨
    (∃ (c : Combinator) (w : Value), v = map [(c.name, w)]) ∨ v.Misfit := by
  match v with
  | null => exact .inl rfl
  | text s => exact .inr (.inl ⟨s, rfl⟩)
  | map [(name, w)] =>
    cases known : Combinator.ofName? name with
    | none => exact .inr (.inr (.inr known))
    | some c => exact .inr (.inr (.inl ⟨c, w, by rw [Combinator.ofName?_eq_some known]⟩))
  | map [] | map (_ :: _ :: _) | bool _ | int _ | float _ | moment _ | date _ | list _ =>
    exact .inr (.inr (.inr trivial))

theorem filters_single (other : ∀ fs, v ≠ list fs) : v.filters = [v] := by
  cases v with
  | list fs => exact absurd rfl (other fs)
  | _ => rfl

theorem filters_inside {name : String} (listed : w ∈ v.filters) : (map [(name, v)]).Inside w := by
  have entry : (map [(name, v)]).Part v := ⟨name, List.mem_singleton_self _⟩
  by_cases one : ∃ fs, v = list fs
  · obtain ⟨fs, rfl⟩ := one
    exact .tail (.single entry) listed
  · rw [filters_single (not_exists.mp one), List.mem_singleton] at listed
    rw [listed]
    exact .single entry

theorem Inside.unquotable (inside : v.Inside w) (long : w.Unquotable) : v.Unquotable := by
  obtain ⟨n, reached, tooLong⟩ := long
  exact ⟨n, inside.to_reflTransGen.trans reached, tooLong⟩

end Value

namespace Surroundings

open ExceptT (failsOnly_pure returns_pure returns_lift)

variable (s : Surroundings) {filters : List Value}

section Combined

/-- What a combinator makes of filters, of which no more are tried than needed. -/
def admitsCombined : Combinator → List Value → ExceptT Fault (StateM Memo) Bool
  | .and, filters => s.admitsAllValues filters
  | .or, filters => s.admitsSomeValue filters
  | .not, filters => do pure !(← s.admitsSomeValue filters)

theorem admitsAllValues_single (filter : Value) :
    s.admitsAllValues [filter] = s.admitsValue filter := by
  simp only [admitsAllValues, ite_pure, bind_pure]

theorem admitsSomeValue_single (filter : Value) :
    s.admitsSomeValue [filter] = s.admitsValue filter := by
  simp only [admitsSomeValue, ite_pure, bind_pure]

theorem admitsValue_combined (c : Combinator) (v : Value) :
    s.admitsValue (.map [(c.name, v)]) = s.admitsCombined c v.filters := by
  by_cases one : ∃ fs, v = .list fs
  · obtain ⟨fs, rfl⟩ := one
    cases c <;> rw [Combinator.name, admitsValue] <;> rfl
  · have other := not_exists.mp one
    rw [Value.filters_single other]
    cases c with
    | and => rw [Combinator.name, admitsValue, admitsCombined, admitsAllValues_single]; exact other
    | or => rw [Combinator.name, admitsValue, admitsCombined, admitsSomeValue_single]; exact other
    | not => rw [Combinator.name, admitsValue, admitsCombined, admitsSomeValue_single]; exact other

variable {s} {P : Fault → Prop}

theorem admitsAllValues_fails (each : ∀ filter ∈ filters, (s.admitsValue filter).FailsOnly P) :
    (s.admitsAllValues filters).FailsOnly P := by
  induction filters with
  | nil =>
    rw [admitsAllValues]
    exact failsOnly_pure true
  | cons filter filters ih =>
    rw [List.forall_mem_cons] at each
    rw [admitsAllValues]
    refine each.1.bind fun passes => ?_
    cases passes with
    | false => exact failsOnly_pure false
    | true => exact ih each.2

theorem admitsSomeValue_fails (each : ∀ filter ∈ filters, (s.admitsValue filter).FailsOnly P) :
    (s.admitsSomeValue filters).FailsOnly P := by
  induction filters with
  | nil =>
    rw [admitsSomeValue]
    exact failsOnly_pure false
  | cons filter filters ih =>
    rw [List.forall_mem_cons] at each
    rw [admitsSomeValue]
    refine each.1.bind fun passes => ?_
    cases passes with
    | false => exact ih each.2
    | true => exact failsOnly_pure true

theorem admitsCombined_fails (c : Combinator)
    (each : ∀ filter ∈ filters, (s.admitsValue filter).FailsOnly P) :
    (s.admitsCombined c filters).FailsOnly P := by
  cases c with
  | and => exact admitsAllValues_fails each
  | or => exact admitsSomeValue_fails each
  | not => exact (admitsSomeValue_fails each).bind fun _ => failsOnly_pure _

end Combined

/-- The only way in which matching against a value fails. -/
def Unreported (v : Value) (f : Fault) : Prop := f = .badValue ∧ v.Unquotable

theorem refuse_fails (v : Value) : (refuse v).FailsOnly (Unreported v) := by
  unfold refuse
  split
  · exact failsOnly_pure _
  · rename_i f failed
    intro memo f' after failed'
    cases failed'
    refine ⟨v.quoted_fails f failed, ?_⟩
    by_contra short
    obtain ⟨shown, quoted⟩ := v.quoted_succeeds.mpr short
    cases quoted.symm.trans failed

theorem refuse_returns (v : Value) : (refuse v).Returns ↔ ¬ v.Unquotable := by
  rw [Value.Unquotable, ← v.quoted_succeeds, refuse]
  cases v.quoted with
  | ok shown => exact iff_of_true (returns_pure false) ⟨shown, rfl⟩
  | error f =>
    refine iff_of_false (fun returns => ?_) (by simp)
    obtain ⟨a, after, returned⟩ := returns (.fresh [])
    cases returned

theorem admitsValue_misfit {v : Value} (misfit : v.Misfit) : s.admitsValue v = refuse v := by
  rw [admitsValue]
  · rintro rfl
    exact misfit
  · rintro text rfl
    exact misfit
  all_goals
    rintro filter rfl
    exact absurd (show Combinator.ofName? _ = none from misfit) (by decide)

/-- Whoever fails has met a value that cannot be quoted. The induction is on how deep the filter stands. -/
theorem admitsValue_fails (v : Value) : (s.admitsValue v).FailsOnly (Unreported v) := by
  rcases v.filter_forms with rfl | ⟨text, rfl⟩ | ⟨c, w, same⟩ | misfit
  · rw [admitsValue]
    exact failsOnly_pure true
  · rw [admitsValue]
    exact (returns_lift _).failsOnly
  · rw [same, admitsValue_combined, ← same]
    refine admitsCombined_fails c fun filter listed => ?_
    have inside : v.Inside filter := by
      rw [same]
      exact Value.filters_inside listed
    exact (admitsValue_fails filter).mono fun _ => And.imp_right inside.unquotable
  · rw [admitsValue_misfit s misfit]
    exact refuse_fails v
termination_by sizeOf v
decreasing_by exact inside.sizeOf_lt

/-- What evaluation, formulas and filters come to where no failure is let out. -/
structure Contains : Prop where
  /-- A tree has a value, or it fails by an error of evaluation. -/
  tree : ∀ (t : Tree) (memo : Memo), ((t.evaluate s).run memo).1.FailsOnly EvalError.Runtime
  /-- A text that spells a tree has its value, and an error of the tree is given the text. -/
  spelled : ∀ (text : String) (e : Expr), Expr.ofText text = .ok e → ∀ memo : Memo,
    (Expr.evaluateText s text).run memo =
      Prod.map (Except.mapError (ExpressionError.mk text)) id (((Tree.ofExpr e).evaluate s).run memo)
  /-- A text that spells none fails by an error of syntax, or by a number that cannot be read. The
  error knows the text, and nothing is evaluated. -/
  refused : ∀ text : String, (∀ e, Expr.ofText text ≠ .ok e) → ∀ memo : Memo, ∃ error,
    (Expr.evaluateText s text).run memo = (.error ⟨text, error⟩, memo) ∧
      (error = .failed .badValue ∨ ∃ e, error = .malformed e ∧ e.expression = some text)
  /-- The text of a formula has the value that is known of it, else the value of the expression, which
  is null where that fails. -/
  formula : ∀ (text : String) (memo : Memo), ((s.formulaValue text).run memo).1 =
    (memo.table.find? s.context.path text).getD
      (((Expr.evaluateText s text).run memo).1.toOption.getD .null)
  /-- Every name among the formulas has a value, also one on a cycle. -/
  named : ∀ formulas, s.formulas = some formulas → ∀ name, (formulas.read name).Returns
  /-- Every filter that a query may hold passes or does not. -/
  accepted : ∀ location v f, Filter.ofValue location v = .ok f → (s.admitsValue v).Returns
  /-- So does every value in which no whole number is too long. -/
  quotable : ∀ v : Value, ¬ v.Unquotable → (s.admitsValue v).Returns
  /-- A value that is no filter has to be quoted. -/
  misfit : ∀ v : Value, v.Misfit → ((s.admitsValue v).Returns ↔ ¬ v.Unquotable)
  /-- No other failure is let out. -/
  failing : ∀ v : Value, (s.admitsValue v).FailsOnly (· = .badValue)

variable {s}

theorem Contained.contains (contained : s.Contained) : s.Contains where
  tree := Tree.evaluate_fails contained
  spelled _ _ := Expr.evaluateText_spelled
  refused text none memo := by
    cases read : Expr.ofText text with
    | ok e => exact absurd read (none e)
    | error f =>
      refine ⟨f.outcome, Expr.evaluateText_refused read memo, ?_⟩
      rcases Expr.ofText_refused text f read with rfl | ⟨e, rfl, known⟩
      · exact .inl rfl
      · exact .inr ⟨e, rfl, known⟩
  formula text memo := by
    rw [formulaValue_run, Expr.evaluateText_run]
    cases memo.table.find? s.context.path text with
    | some v => rfl
    | none => rcases (Expr.ofTextIn s text).on memo with ⟨(_ | _) | v, after⟩ <;> rfl
  named := contained
  accepted location v f read := by
    rw [s.admitsValue_of_filter.1 location v f read]
    exact returns_lift _
  quotable v short := (s.admitsValue_fails v).returns fun _ failed => short failed.2
  misfit v other := by
    rw [admitsValue_misfit s other]
    exact refuse_returns v
  failing v := (s.admitsValue_fails v).mono fun _ => And.left

/-- Around every note, with formulas or without, failures are contained. -/
theorem attached_contains (present : Moment) (context : Context) (formulas : Option Formulas) :
    (attached present context formulas).Contains :=
  (attached_contained present context formulas).contains

/-- A whole number of 4301 digits in place of a filter is not refused but fails. -/
theorem admitsValue_long : ¬ ∀ (present : Moment) (context : Context) (formulas : Option Formulas)
    (v : Value), ((attached present context formulas).admitsValue v).Returns := by
  intro all
  have january : Moment := .startOf ⟨2024, 1, 1, by decide, by decide, by decide⟩
  let long : Value := .int (Nat.pow 10 Numeral.maxDigits : Nat)
  have misfit : long.Misfit := trivial
  have returns := all january Formulas.blankNote none long
  rw [admitsValue_misfit _ misfit, refuse_returns] at returns
  refine returns ⟨long, .refl, ?_⟩
  rw [Value.TooLong, Int.natAbs_natCast]

end Surroundings

end NoteQuery
