import NoteQuery.Proofs.Expr.Script

/-! What an expression looks at. Beside the note and the formulas that it names there are the present
moment and the list of all formulas. An expression that does not look at one of them comes to the
same whatever it is; none looks at the content of the note. -/
namespace NoteQuery

/-- What an expression may look at beside the note and the formulas that it names. -/
structure Reach where
  time : Bool
  whole : Bool

namespace Expr

def isTimed (function : String) : Bool :=
  Builtin.ofName? function == some .now || Builtin.ofName? function == some .today

/-- The expression is not the scope of the formulas, which as a value is the list of them. -/
def settles (r : Reach) : Expr → Bool
  | name n => r.whole || Scope.ofName? n != some .formula
  | _ => true

mutual

/-- The expression looks at nothing out of reach. -/
def within (r : Reach) : Expr → Bool
  | literal _ => true
  | list items => eachWithin r items
  | name _ => true
  | member target _ => within r target
  | index target key => within r target && within r key
  | call function args => (r.time || !isTimed function) && eachWithin r args
  | send target _ args => within r target && eachWithin r args
  | not operand => within r operand
  | negate operand => within r operand
  | binary op left right => within r left && within r right &&
      (op == .and || op == .or || settles r left && settles r right)

def eachWithin (r : Reach) : List Expr → Bool
  | [] => true
  | e :: es => within r e && settles r e && eachWithin r es

end

def textWithin (r : Reach) (text : String) : Bool :=
  match ofText text with
  | .ok e => within r e && settles r e
  | .error _ => true

section Values

variable {α : Type}

/-- A computation that does not come to a scope. -/
def Valued (x : Eval Scoped) : Prop := ∃ y : Eval Value, x = do pure (.value (← y))

theorem Valued.mk (y : Eval Value) : Valued (do pure (.value (← y))) := ⟨y, rfl⟩

theorem Valued.pure (v : Value) : Valued (Pure.pure (.value v)) := ⟨Pure.pure v, by simp⟩

theorem Valued.fail (e : EvalError) : Valued (Eval.fail e) := ⟨Eval.fail e, rfl⟩

theorem Valued.bind {x : Eval α} {f : α → Eval Scoped} (rest : ∀ a, Valued (f a)) :
    Valued (x >>= f) := by
  choose y equal using rest
  refine ⟨x >>= y, ?_⟩
  rw [bind_assoc]
  exact bind_congr equal

/-- Only a name can come to a scope. -/
theorem eval_valued (s : Surroundings) (e : Expr) (unnamed : ∀ n, e ≠ name n) :
    Valued (eval s e) := by
  cases e with
  | literal v => exact .pure v
  | list items => exact .bind fun values => .pure _
  | name n => exact absurd rfl (unnamed n)
  | member target n =>
    refine .bind fun v => ?_
    cases v with
    | value v => exact .pure _
    | scope scope => exact .mk _
  | index target key =>
    refine .bind fun v => .bind fun w => ?_
    unfold indexOf
    split
    · exact .mk _
    · exact .mk _
    · exact .pure _
  | call function args =>
    simp only [eval, callFunction]
    split
    · unfold choose
      split
      · refine .bind fun v => ?_
        split
        · exact .bind fun w => .mk _
        · exact .pure _
      · exact .bind fun v => .bind fun w => .mk _
      · exact .fail _
    · exact .bind fun values => .mk _
    · exact .fail _
  | send target method args => exact .bind fun v => .bind fun values => .mk _
  | not operand => exact .bind fun v => .pure _
  | negate operand =>
    refine .bind fun v => ?_
    cases v with
    | value v => exact .mk _
    | scope scope => exact .fail _
  | binary op left right => exact .mk _

end Values

/-- Surroundings of one note with one reader. Beside the content of the note, they differ at most in
what is out of reach. -/
inductive Alike (r : Reach) : Surroundings → Surroundings → Prop
  | mk {present present' : Moment} {names names' : List String} (context : Context)
      (content : Option String) (read : String → Eval Value)
      (time : r.time = true → present = present') (whole : r.whole = true → names = names') :
      Alike r (.reading present context names read)
        (.reading present' { context with content := content } names' read)

section Congruence

theorem apply_untimed (f : Builtin) (values : List Value) (notNow : f ≠ .now)
    (notToday : f ≠ .today) (present present' : Moment) :
    f.apply present values = f.apply present' values := by
  unfold Builtin.apply
  split <;> first | rfl | contradiction

variable {r : Reach} {s s' : Surroundings} (alike : Alike r s s')
include alike

theorem Alike.settle (v : Scoped) (reach : r.whole = true ∨ v ≠ .scope .formula) :
    s.settle v = s'.settle v := by
  obtain ⟨context, content, read, _, whole⟩ := alike
  cases v with
  | value v => rfl
  | scope scope =>
    cases scope with
    | file => rfl
    | note => rfl
    | formula =>
      have listed := whole (reach.resolve_right (by simp))
      rw [listed]
      rfl

theorem Alike.lookup (name : String) : s.lookup name = s'.lookup name := by
  obtain ⟨context, content, read, _, _⟩ := alike
  rfl

theorem Alike.scopeName (scope : Scope) : s.scopeName scope = s'.scopeName scope := by
  obtain ⟨context, content, read, _, _⟩ := alike
  cases scope <;> rfl

theorem Alike.memberOf (target : Scoped) (name : String) :
    memberOf s target name = memberOf s' target name := by
  obtain ⟨context, content, read, _, _⟩ := alike
  cases target with
  | value v => rfl
  | scope scope => cases scope <;> rfl

theorem Alike.indexOf (target key : Scoped) : indexOf s target key = indexOf s' target key := by
  obtain ⟨context, content, read, _, _⟩ := alike
  unfold Expr.indexOf
  split
  · rfl
  · rename_i scope _
    cases scope <;> rfl
  · rfl

theorem Alike.callOn (target : Scoped) (method : String) (args : List Value) :
    callOn s target method args = callOn s' target method args := by
  obtain ⟨context, content, read, _, _⟩ := alike
  cases target with
  | value v => rfl
  | scope scope => cases scope <;> rfl

theorem Alike.apply (f : Builtin) (values : List Value)
    (reach : r.time = true ∨ f ≠ .now ∧ f ≠ .today) :
    f.apply s.present values = f.apply s'.present values := by
  obtain ⟨context, content, read, time, _⟩ := alike
  rcases reach with timed | ⟨notNow, notToday⟩
  · rw [time timed]
    rfl
  · exact apply_untimed f values notNow notToday _ _

theorem Alike.settled {e : Expr} (same : eval s e = eval s' e) (reach : settles r e = true) :
    (eval s e >>= s.settle) = (eval s' e >>= s'.settle) := by
  rw [← same]
  by_cases named : ∃ n, e = .name n
  · obtain ⟨n, rfl⟩ := named
    rw [eval, pure_bind, pure_bind]
    apply alike.settle
    rw [settles, Bool.or_eq_true, bne_iff_ne] at reach
    refine reach.imp_right fun other found => other ?_
    unfold Surroundings.lookup at found
    split at found <;> simp_all
  · obtain ⟨y, comes⟩ := eval_valued s e fun n is => named ⟨n, is⟩
    simp only [comes, bind_assoc, pure_bind]
    rfl

theorem Alike.settleAll (parts : List Expr) (same : ∀ e ∈ parts, eval s e = eval s' e)
    (reach : ∀ e ∈ parts, settles r e = true) :
    settleAll s (evalEach s parts) = settleAll s' (evalEach s' parts) := by
  induction parts with
  | nil => rfl
  | cons e parts ih =>
    obtain ⟨first, rest⟩ := List.forall_mem_cons.mp same
    obtain ⟨reach, reach'⟩ := List.forall_mem_cons.mp reach
    have value := alike.settled first reach
    simp only [evalEach, Expr.settleAll, ← bind_assoc, value, ih rest reach']

theorem Alike.choose (name : String) (parts : List Expr)
    (same : ∀ e ∈ parts, eval s e = eval s' e) (reach : ∀ e ∈ parts, settles r e = true) :
    choose s name (evalEach s parts) = choose s' name (evalEach s' parts) := by
  match parts with
  | [] | [_] | _ :: _ :: _ :: _ :: _ => simp only [evalEach, Expr.choose]
  | [condition, yes] =>
    simp only [List.forall_mem_cons] at same reach
    have value := alike.settled same.2.1 reach.2.1
    simp only [evalEach, Expr.choose, same.1, ← bind_assoc, value]
  | [condition, yes, no] =>
    simp only [List.forall_mem_cons] at same reach
    have value := alike.settled same.2.1 reach.2.1
    have value' := alike.settled same.2.2.1 reach.2.2.1
    simp only [evalEach, Expr.choose, same.1]
    refine bind_congr fun v => ?_
    cases v.truthy
    · simp only [Bool.false_eq_true, if_false, ← bind_assoc, value']
    · simp only [if_true, ← bind_assoc, value]

theorem Alike.callFunction (function : String) (args : List Expr)
    (time : r.time = true ∨ isTimed function = false)
    (same : ∀ e ∈ args, eval s e = eval s' e) (reach : ∀ e ∈ args, settles r e = true) :
    callFunction s function (evalEach s args) = callFunction s' function (evalEach s' args) := by
  unfold Expr.callFunction
  split
  · exact alike.choose function args same reach
  · rename_i f _ named
    have untimed : r.time = true ∨ f ≠ .now ∧ f ≠ .today := by
      refine time.imp_right fun untimed => ?_
      simpa [isTimed, named] using untimed
    rw [alike.settleAll args same reach]
    refine bind_congr fun values => ?_
    rw [alike.apply f values untimed]
  · rfl

theorem Alike.operate (op : BinaryOp) {left right : Expr} (same : eval s left = eval s' left)
    (same' : eval s right = eval s' right) (reach : (op == .and || op == .or ||
      settles r left && settles r right) = true) :
    operate s op (eval s left) (eval s right) = operate s' op (eval s' left) (eval s' right) := by
  have values (settled : settles r left = true ∧ settles r right = true)
      (f : Value → Value → Eval Value) :
      (do f (← s.settle (← eval s left)) (← s.settle (← eval s right))) =
        (do f (← s'.settle (← eval s' left)) (← s'.settle (← eval s' right))) := by
    have first := alike.settled same settled.1
    have second := alike.settled same' settled.2
    simp only [← bind_assoc, first]
    simp only [bind_assoc, second]
  cases op with
  | and => simp only [Expr.operate, same, same']
  | or => simp only [Expr.operate, same, same']
  | relation relation =>
    exact values (by simpa using reach) fun a b => do
      pure (.bool (← Eval.ofFault (Value.related relation a b)))
  | arith op =>
    exact values (by simpa using reach) fun a b => Eval.ofExcept (Value.arithmetic op a b)

end Congruence

section Evaluation

variable {r : Reach} {s s' : Surroundings}

mutual

theorem eval_alike (alike : Alike r s s') : ∀ e : Expr, within r e = true → eval s e = eval s' e
  | .literal v, _ => by rw [eval, eval]
  | .list items, reach => by
    rw [within] at reach
    obtain ⟨same, settled⟩ := evalEach_alike alike items reach
    rw [eval, eval, alike.settleAll items same settled]
  | .name n, _ => by
    rw [eval, eval, alike.lookup]
  | .member target n, reach => by
    rw [within] at reach
    simp only [eval, eval_alike alike target reach, alike.memberOf]
  | .index target key, reach => by
    rw [within, Bool.and_eq_true] at reach
    simp only [eval, eval_alike alike target reach.1, eval_alike alike key reach.2, alike.indexOf]
  | .call function args, reach => by
    rw [within, Bool.and_eq_true] at reach
    obtain ⟨same, settled⟩ := evalEach_alike alike args reach.2
    have time : r.time = true ∨ isTimed function = false := by simpa using reach.1
    rw [eval, eval, alike.callFunction function args time same settled]
  | .send target method args, reach => by
    rw [within, Bool.and_eq_true] at reach
    obtain ⟨same, settled⟩ := evalEach_alike alike args reach.2
    simp only [eval, eval_alike alike target reach.1, alike.settleAll args same settled, alike.callOn]
  | .not operand, reach => by
    rw [within] at reach
    simp only [eval, eval_alike alike operand reach]
  | .negate operand, reach => by
    rw [within] at reach
    simp only [eval, eval_alike alike operand reach]
    refine bind_congr fun v => ?_
    cases v with
    | value v => rfl
    | scope scope => simp only [alike.scopeName]
  | .binary op left right, reach => by
    rw [within, Bool.and_eq_true, Bool.and_eq_true] at reach
    obtain ⟨⟨first, second⟩, settled⟩ := reach
    have same := eval_alike alike left first
    have same' := eval_alike alike right second
    rw [eval, eval, alike.operate op same same' settled]

theorem evalEach_alike (alike : Alike r s s') : ∀ es : List Expr, eachWithin r es = true →
    (∀ e ∈ es, eval s e = eval s' e) ∧ ∀ e ∈ es, settles r e = true
  | [], _ => by simp
  | first :: rest, reach => by
    simp only [eachWithin, Bool.and_eq_true] at reach
    obtain ⟨⟨reach, settled⟩, later⟩ := reach
    obtain ⟨same, settled'⟩ := evalEach_alike alike rest later
    exact ⟨List.forall_mem_cons.mpr ⟨eval_alike alike first reach, same⟩,
      List.forall_mem_cons.mpr ⟨settled, settled'⟩⟩

end

private theorem ofExcept_bind_congr {α β : Type} {result : Except Failure α} {f g : α → Eval β}
    (same : ∀ a, result = .ok a → f a = g a) :
    (Eval.ofExcept result >>= f) = (Eval.ofExcept result >>= g) := by
  cases result with
  | ok a => simpa only [Eval.ofExcept, pure_bind] using same a rfl
  | error e => rfl

/-- A text comes to the same in surroundings that are alike within its reach. -/
theorem ofTextIn_alike (alike : Alike r s s') {text : String} (reach : textWithin r text = true) :
    ofTextIn s text = ofTextIn s' text := by
  refine ofExcept_bind_congr fun e parsed => ?_
  simp only [textWithin, parsed, Bool.and_eq_true] at reach
  exact alike.settled (eval_alike alike e reach.1) reach.2

end Evaluation

end Expr

end NoteQuery
