import NoteQuery.Formula
import NoteQuery.Proofs.Formula.Account
import NoteQuery.Proofs.Outcome
import NoteQuery.Proofs.Value.Entries

/-! Reading of formulas with a table of known values and a stack of those under evaluation. Where
texts are distinct, what the table knows is an account, and every read extends it: either the
formula is settled, or a cycle through the stack has been met and is closed further up. -/
namespace NoteQuery

namespace FormulaTable

theorem find?_nil (path text : String) : find? [] path text = none := rfl

theorem find?_put (table : FormulaTable) (path text path' text' : String) (v : Value) :
    (put path text v table).find? path' text' =
      if (path', text') = (path, text) then some v else table.find? path' text' := by
  unfold find?
  generalize (path', text') = wanted
  induction table with
  | nil => rw [put, lookup_cons_if]
  | cons entry table ih =>
    obtain ⟨key, old⟩ := entry
    by_cases here : key = (path, text)
    · simp only [put, here, beq_self_eq_true, if_true, lookup_cons_if]
      split <;> rfl
    · simp only [put, beq_iff_eq, here, if_false, lookup_cons_if, ih]
      split
      · rename_i same
        rw [if_neg (same ▸ here)]
      · rfl

theorem put_known {table : FormulaTable} {path text : String} {v : Value}
    (known : table.find? path text = some v) : put path text v table = table := by
  unfold find? at known
  induction table with
  | nil => simp at known
  | cons entry table ih =>
    obtain ⟨key, old⟩ := entry
    by_cases here : key = (path, text)
    · simp only [here, List.lookup_cons_self, Option.some.injEq] at known
      simp [put, here, known]
    · rw [lookup_cons_if, if_neg (Ne.symm here)] at known
      simp [put, here, ih known]

end FormulaTable

namespace Eval

variable {α : Type}

theorem on_ofExcept (memo : Memo) (result : Except Failure α) :
    (ofExcept result).on memo = (result, memo) := by
  cases result <;> rfl

theorem on_fail (memo : Memo) (e : EvalError) :
    (fail e : Eval α).on memo = (.error (.error e), memo) := rfl

end Eval

namespace Expr

/-- The result of a whole expression: a failure is given its text. -/
def named (text : String) : Except Failure Value → Except ExpressionError Value
  | .ok v => .ok v
  | .error (.error e) => .error ⟨text, e⟩
  | .error (.fault f) => .error ⟨text, .failed f⟩

theorem evaluateText_run (s : Surroundings) (text : String) (memo : Memo) :
    (evaluateText s text).run memo =
      (named text ((ofTextIn s text).on memo).1, ((ofTextIn s text).on memo).2) := by
  change StateT.run (ExceptT.run (ofTextIn s text) >>= _) memo = _
  rw [StateT.run_bind, ← ExceptT.on]
  rcases (ofTextIn s text).on memo with ⟨(_ | _) | v, after⟩ <;> rfl

section Spelled

variable {s : Surroundings} {text : String} {e : Expr}

theorem ofTextIn_spelled (spelled : ofText text = .ok e) :
    ofTextIn s text = (do s.settle (← eval s e) : Eval Value) := by
  rw [ofTextIn, spelled]
  rfl

theorem ofTextIn_refused {f : Failure} (refused : ofText text = .error f) :
    ofTextIn s text = Eval.ofExcept (.error f) := by
  rw [ofTextIn, refused]
  rfl

theorem evaluateText_eq_ok {memo after : Memo} {v : Value} :
    (evaluateText s text).run memo = (.ok v, after) ↔
      (ofTextIn s text).on memo = (.ok v, after) := by
  rw [evaluateText_run]
  rcases (ofTextIn s text).on memo with ⟨f | w, after'⟩
  · cases f <;> exact ⟨nofun, nofun⟩
  · constructor <;> rintro ⟨⟩ <;> rfl

theorem evaluateText_of_value {memo after : Memo} {v : Value} (spelled : ofText text = .ok e)
    (run : (eval s e).on memo = (.ok (.value v), after)) :
    (evaluateText s text).run memo = (.ok v, after) := by
  rw [evaluateText_eq_ok, ofTextIn_spelled spelled, ExceptT.on_bind, run]
  rfl

end Spelled

end Expr

namespace Surroundings

theorem formulaValue_run (s : Surroundings) (text : String) (memo : Memo) :
    (s.formulaValue text).run memo =
      match memo.table.find? s.context.path text with
      | some v => (v, memo)
      | none =>
        let outcome := (Expr.ofTextIn s text).on memo
        (worth outcome.1, outcome.2.keep s.context.path text (worth outcome.1)) := by
  unfold formulaValue
  simp only [StateT.run_bind, StateT.run_get, pure_bind]
  cases memo.table.find? s.context.path text with
  | some v => rfl
  | none =>
    simp only [StateT.run_bind, Expr.evaluateText_run]
    rcases (Expr.ofTextIn s text).on memo with ⟨(_ | _) | v, after⟩ <;> rfl

end Surroundings

namespace Formulas

/-- What a read makes of the value of its formula: null in a cycle, and a failure while the cycle is
still open. -/
def conclude (stack : List String) (name path text : String) (inner : Value × Memo) :
    Except Failure Value × Memo :=
  if inner.2.cyclic.contains name then
    (if stack.head?.any inner.2.cyclic.contains then .error (.error (.circular name)) else .ok .null,
      inner.2.keep path text .null)
  else (.ok inner.1, inner.2)

private theorem conclude_on (stack : List String) (name path text : String)
    (inner : Value × Memo) :
    ExceptT.on inner.2 (if inner.2.cyclic.contains name then do
        modify (Memo.keep path text .null)
        if stack.head?.any inner.2.cyclic.contains then Eval.fail (.circular name)
        else pure .null
      else pure inner.1) = conclude stack name path text inner := by
  obtain ⟨value, after⟩ := inner
  unfold conclude
  by_cases cyclic : after.cyclic.contains name = true
  · by_cases closes : stack.head?.any after.cyclic.contains = true <;>
      simp only [cyclic, closes, if_true, if_false, ExceptT.on_bind, ExceptT.on_modify,
        Eval.on_fail, ExceptT.on_pure, Bool.false_eq_true]
  · simp only [cyclic, if_false, ExceptT.on_pure, Bool.false_eq_true]

theorem read_on (formulas : Formulas) (present : Moment) (context : Context) (depth : Nat)
    (stack : List String) (name : String) (memo : Memo) :
    (read formulas present context (depth + 1) stack name).on memo =
      match formulas.lookup name with
      | none => (.ok .null, memo)
      | some text =>
        if stack.contains name then
          (.error (.error (.circular name)), memo.mark (loop stack name))
        else conclude stack name context.path text
          (((Surroundings.reading present context formulas.names
            (read formulas present context depth (name :: stack))).formulaValue text).run memo) := by
  rw [read]
  cases formulas.lookup name with
  | none => rfl
  | some text =>
    dsimp only
    by_cases entered : stack.contains name = true
    · simp only [entered, if_true]
      rfl
    · simp only [entered, Bool.false_eq_true, if_false]
      simp only [ExceptT.on_bind, ExceptT.on_lift, ExceptT.on_get, Surroundings.reading]
      exact conclude_on stack name context.path text _

/-- A read when nothing is being evaluated. -/
theorem reader_on {formulas : Formulas} (present : Moment) (context : Context) {name text : String}
    (found : formulas.lookup name = some text) (memo : Memo) :
    ((formulas.reader present context).read name).on memo =
      conclude [] name context.path text (((Surroundings.reading present context formulas.names
        (read formulas present context formulas.length [name])).formulaValue text).run memo) := by
  simp only [reader, read_on, found, List.contains_nil, Bool.false_eq_true, if_false]

theorem conclude_outermost (name path text : String) (inner : Value × Memo) :
    conclude [] name path text inner =
      if name ∈ inner.2.cyclic then (.ok .null, inner.2.keep path text .null)
      else (.ok inner.1, inner.2) := by
  simp [conclude]

end Formulas

end NoteQuery
