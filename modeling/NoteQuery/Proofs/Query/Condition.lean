import NoteQuery.Proofs.Expr.Enclosing
import NoteQuery.Proofs.Expr.Reach
import NoteQuery.Proofs.Formula.Inquiry
import NoteQuery.Query.Matching

/-! Conditions. A sign, an operation, a conditional and a filter each ask whether an expression holds.
The filter asks of the value; the others ask of what the expression comes to before a scope is made a
map, and a scope holds also where its map is empty. So they all agree, except on a scope without
entries. -/
namespace NoteQuery

namespace Scope

theorem ofName?_name (scope : Scope) : ofName? scope.name = some scope := by
  cases scope <;> decide

theorem ofName?_eq_some {word : String} {scope : Scope} (found : ofName? word = some scope) :
    word = scope.name := by
  have named := List.find?_some found
  exact (beq_iff_eq.mp named).symm

end Scope

namespace Expr

variable {s : Surroundings} {e : Expr} {memo after : Memo} {scope : Scope} {v : Value}
  {found : Scoped}

theorem lookup_scope (scope : Scope) : s.lookup scope.name = .scope scope := by
  rw [Surroundings.lookup, Scope.ofName?_name]

/-- Only the name of a scope comes to a scope. -/
theorem eval_scope (run : (eval s e).on memo = (.ok (.scope scope), after)) :
    e = .name scope.name := by
  by_cases named : ∃ word, e = .name word
  · obtain ⟨word, rfl⟩ := named
    have same : s.lookup word = .scope scope := Except.ok.inj (Prod.mk.inj run).1
    unfold Surroundings.lookup at same
    split at same
    · rename_i known
      cases same
      rw [Scope.ofName?_eq_some known]
    · cases same
  · obtain ⟨value, comes⟩ := eval_valued s e (not_exists.mp named)
    rw [comes, ExceptT.on_bind_ok] at run
    obtain ⟨v, middle, _, last⟩ := run
    cases last

section Positions

variable (run : (eval s e).on memo = (.ok found, after))
include run

theorem eval_not : (eval s (.not e)).on memo = (.ok (.value (.bool !found.truthy)), after) := by
  rw [eval, ExceptT.on_bind, run]
  rfl

theorem eval_and_true : (eval s (.binary .and e (literal (.bool true)))).on memo =
    (.ok (.value (.bool found.truthy)), after) := by
  simp only [eval, operate, ExceptT.on_bind, run]
  cases found.truthy <;> rfl

theorem eval_or_false : (eval s (.binary .or e (literal (.bool false)))).on memo =
    (.ok (.value (.bool found.truthy)), after) := by
  simp only [eval, operate, ExceptT.on_bind, run]
  cases found.truthy <;> rfl

theorem eval_choice : (eval s (.call "iff" [e, literal (.bool true), literal (.bool false)])).on
    memo = (.ok (.value (.bool found.truthy)), after) := by
  have known : Builtin.ofName? "iff" = some .choice := by decide
  simp only [eval, evalEach, callFunction, known, choose, ExceptT.on_bind, run]
  cases found.truthy <;> rfl

end Positions

variable {text : String}

/-- A text with a value spells an expression, whose value it is. -/
theorem exists_eval (returned : (evaluateText s text).run memo = (.ok v, after)) :
    ∃ e found middle, ofText text = .ok e ∧ (eval s e).on memo = (.ok found, middle) ∧
      (s.settle found).on middle = (.ok v, after) := by
  rw [evaluateText_eq_ok] at returned
  cases spelled : ofText text with
  | error f =>
    rw [ofTextIn_refused spelled, Eval.on_ofExcept] at returned
    cases returned
  | ok e =>
    rw [ofTextIn_spelled spelled, ExceptT.on_bind_ok] at returned
    obtain ⟨found, middle, run, settled⟩ := returned
    exact ⟨e, found, middle, rfl, run, settled⟩

/-- What an expression comes to holds like its value, unless it is a scope without entries. -/
theorem truthy_settled {middle : Memo} (settled : (s.settle found).on middle = (.ok v, after)) :
    found.truthy = v.truthy ↔ ¬ (v = .map [] ∧ ∃ scope, found = .scope scope) := by
  cases found with
  | value w =>
    cases settled
    simp [Scoped.truthy]
  | scope scope =>
    obtain ⟨entries, middle, _, last⟩ := ExceptT.on_bind_ok.mp settled
    cases last
    cases entries <;> simp [Scoped.truthy, Value.truthy]

end Expr

namespace Surroundings

open NoteQuery.Expr (evaluateText ofText)

/-- Every place that asks for a condition finds this of the text, from the same that is known of
formulas. -/
structure Conditions (s : Surroundings) (text : String) (memo : Memo) (truth : Bool) : Prop where
  not : ((evaluateText s ("!(" ++ text ++ ")")).run memo).1 = .ok (.bool !truth)
  and : ((evaluateText s ("(" ++ text ++ ") && true")).run memo).1 = .ok (.bool truth)
  or : ((evaluateText s ("(" ++ text ++ ") || false")).run memo).1 = .ok (.bool truth)
  choice : ((evaluateText s ("iff((" ++ text ++ "), true, false)")).run memo).1 = .ok (.bool truth)
  filter : ((s.admitsValue (.text text)).on memo).1 = .ok truth

variable {s : Surroundings} {text : String} {e : Expr} {memo middle after : Memo} {v : Value}
  {found : Scoped}

section Places

open NoteQuery.Expr NoteQuery.Token

variable (spelled : ofText text = .ok e) (run : (eval s e).on memo = (.ok found, middle))
include spelled run

theorem evaluateText_not :
    (evaluateText s ("!(" ++ text ++ ")")).run memo = (.ok (.bool !found.truthy), middle) := by
  have whole : ofText ("!(" ++ text ++ ")") = .ok (.not e) := by
    refine ofText_of_reads (reads_not spelled) ?_
    simp
  exact evaluateText_of_value whole (eval_not run)

theorem evaluateText_and :
    (evaluateText s ("(" ++ text ++ ") && true")).run memo = (.ok (.bool found.truthy), middle) := by
  have sign : Spells ['&', '&'] .and := spells_pair rfl
  have whole : ofText ("(" ++ text ++ ") && true") = .ok (.binary .and e (literal (.bool true))) := by
    refine ofText_of_reads (reads_joined sign spelled (literal_reads (.bool true) rfl)) ?_
    simp [literalText]
  exact evaluateText_of_value whole (eval_and_true run)

theorem evaluateText_or :
    (evaluateText s ("(" ++ text ++ ") || false")).run memo = (.ok (.bool found.truthy), middle) := by
  have sign : Spells ['|', '|'] .or := spells_pair rfl
  have whole : ofText ("(" ++ text ++ ") || false") = .ok (.binary .or e (literal (.bool false))) := by
    refine ofText_of_reads (reads_joined sign spelled (literal_reads (.bool false) rfl)) ?_
    simp [literalText]
  exact evaluateText_of_value whole (eval_or_false run)

theorem evaluateText_choice : (evaluateText s ("iff((" ++ text ++ "), true, false)")).run memo =
    (.ok (.bool found.truthy), middle) := by
  have bool (b : Bool) : Reads 0 (literalText (.bool b)) (literal (.bool b)) :=
    (literal_reads (.bool b) rfl).loosen (Nat.zero_le _)
  have last : Cuts (literalText (.bool false)) (Items · [literal (.bool false)]) :=
    (bool false).mono fun _ derives => .last derives
  have named : isName "iff" = true := by decide +kernel
  have whole : ofText ("iff((" ++ text ++ "), true, false)") =
      .ok (.call "iff" [e, literal (.bool true), literal (.bool false)]) := by
    refine ofText_of_reads (reads_call named spelled (cuts_more (bool true) last)) ?_
    simp [literalText]
  exact evaluateText_of_value whole (eval_choice run)

end Places

theorem admitsValue_text (returned : (evaluateText s text).run memo = (.ok v, after)) :
    (s.admitsValue (.text text)).on memo = (.ok v.truthy, after) := by
  rw [admitsValue, ExceptT.on_lift, holds, StateT.run_bind, returned]
  rfl

/-- The places agree with the value where what the expression comes to holds like its value. -/
theorem conditions_iff_truthy (spelled : ofText text = .ok e)
    (run : (Expr.eval s e).on memo = (.ok found, middle))
    (returned : (evaluateText s text).run memo = (.ok v, after)) :
    s.Conditions text memo v.truthy ↔ found.truthy = v.truthy := by
  constructor
  · intro conditions
    have both := conditions.and
    rw [evaluateText_and spelled run] at both
    exact Value.bool.inj (Except.ok.inj both)
  · intro same
    rw [← same]
    refine ⟨?_, ?_, ?_, ?_, ?_⟩
    · rw [evaluateText_not spelled run]
    · rw [evaluateText_and spelled run]
    · rw [evaluateText_or spelled run]
    · rw [evaluateText_choice spelled run]
    · rw [admitsValue_text returned, same]

/-- Every place agrees with the value of the text, unless the text is the name of a scope whose map is
empty. -/
theorem conditions_iff (s : Surroundings) (text : String) (memo after : Memo) (v : Value)
    (returned : (evaluateText s text).run memo = (.ok v, after)) :
    s.Conditions text memo v.truthy ↔
      ¬ (v = .map [] ∧ ∃ scope : Scope, ofText text = .ok (.name scope.name)) := by
  obtain ⟨e, found, middle, spelled, run, settled⟩ := Expr.exists_eval returned
  have named : (∃ scope, found = .scope scope) ↔ ∃ scope : Scope, e = .name scope.name := by
    constructor
    · rintro ⟨scope, rfl⟩
      exact ⟨scope, Expr.eval_scope run⟩
    · rintro ⟨scope, rfl⟩
      have same := Except.ok.inj (Prod.mk.inj run).1
      exact ⟨scope, same ▸ Expr.lookup_scope scope⟩
  rw [conditions_iff_truthy spelled run returned, Expr.truthy_settled settled, named, spelled]
  simp only [Except.ok.injEq]

section Sample

open Formulas (blankNote)

def doneNote : Context := { blankNote with note := [("done", .bool true)] }

theorem conditions_iff_done : ∃ present, ∃ s, s = plain present doneNote ∧
    (evaluateText s "done").run ⟨[], []⟩ = (.ok (.bool true), ⟨[], []⟩) ∧
    s.Conditions "done" ⟨[], []⟩ true := by
  let s := plain (.startOf ⟨2024, 1, 1, by decide, by decide, by decide⟩) doneNote
  have spelled : ofText "done" = .ok (.name "done") :=
    Expr.ofText_of_reads (.name (by decide +kernel)) rfl
  have returned : (evaluateText s "done").run ⟨[], []⟩ = (.ok (.bool true), ⟨[], []⟩) :=
    Expr.evaluateText_of_value spelled rfl
  have filled : ¬ (Value.bool true = .map [] ∧
      ∃ scope : Scope, ofText "done" = .ok (.name scope.name)) := by simp
  exact ⟨_, s, rfl, returned, (conditions_iff s "done" _ _ _ returned).mpr filled⟩

/-- The scope of the properties of a note without any has an empty map for its value, and so a filter
leaves the note out; a sign in front of the scope still finds that it holds. -/
theorem conditions_of_empty_scope : ∃ present, ∃ s, s = plain present blankNote ∧
    (evaluateText s "note").run ⟨[], []⟩ = (.ok (.map []), ⟨[], []⟩) ∧
    (Value.map []).truthy = false ∧
    ((s.admitsValue (.text "note")).on ⟨[], []⟩).1 = .ok false ∧
    ((evaluateText s "!(note)").run ⟨[], []⟩).1 = .ok (.bool false) ∧
    ¬ s.Conditions "note" ⟨[], []⟩ (Value.map []).truthy := by
  let s := plain (.startOf ⟨2024, 1, 1, by decide, by decide, by decide⟩) blankNote
  have spelled : ofText "note" = .ok (.name "note") :=
    Expr.ofText_of_reads (.name (by decide +kernel)) rfl
  have run : (Expr.eval s (.name "note")).on ⟨[], []⟩ = (.ok (.scope .note), ⟨[], []⟩) := rfl
  have returned : (evaluateText s "note").run ⟨[], []⟩ = (.ok (.map []), ⟨[], []⟩) := by
    rw [Expr.evaluateText_eq_ok, Expr.ofTextIn_spelled spelled, ExceptT.on_bind, run]
    rfl
  have holds : ((evaluateText s "!(note)").run ⟨[], []⟩).1 = .ok (.bool false) := by
    rw [show "!(note)" = "!(" ++ "note" ++ ")" from rfl, evaluateText_not spelled run]
    rfl
  have left := congrArg Prod.fst (admitsValue_text returned)
  refine ⟨_, s, rfl, returned, rfl, left, holds, fun conditions => ?_⟩
  cases holds.symm.trans conditions.not

end Sample

end Surroundings

end NoteQuery
