import NoteQuery.Proofs.Expr.Tree
import NoteQuery.Proofs.Formula.Reading

/-! Failures of evaluation. Only a text is malformed: operations, functions and the evaluation of a tree
fail by errors of their own or by faults. Formulas that are read on the way add no failures, since one
that fails is null and one that leads back to itself is null as well. -/
namespace NoteQuery

/-- An error that is met while evaluating: neither an error of syntax nor a cycle of formulas. -/
def EvalError.Runtime : EvalError → Prop
  | malformed _ => False
  | circular _ => False
  | _ => True

def Failure.Runtime : Failure → Prop
  | error e => e.Runtime
  | fault _ => True

namespace Fault

theorem lift_runtime {α : Type} (x : Except Fault α) : (lift x).FailsOnly Failure.Runtime := by
  rintro e failed
  cases x with
  | ok a => cases failed
  | error f =>
    cases failed
    trivial

end Fault

open Except (failsOnly_ok)
open Fault (lift_runtime)

namespace Value

theorem operand_runtime (symbol : String) (v : Value) :
    (operand symbol v).FailsOnly Failure.Runtime := by
  have refused : (do
      let shown ← Fault.lift v.quoted
      .error (.error (.cannotApply symbol v.kindName shown)) : Except Failure Num).FailsOnly
        Failure.Runtime :=
    (lift_runtime _).bind fun _ => .error trivial
  refine (lift_runtime v.number?).bind fun n => ?_
  split
  · exact refused
  · exact failsOnly_ok _
  · exact refused

theorem numericResult_runtime (op : Arith) (m n : Num) :
    (numericResult op m n).FailsOnly Failure.Runtime := by
  have result (r : Except Fault Num) : (do
      let x ← Fault.lift r
      .ok x.collapse : Except Failure Value).FailsOnly Failure.Runtime :=
    (lift_runtime r).bind fun _ => failsOnly_ok _
  cases op with
  | add => exact result _
  | sub => exact result _
  | mul => exact result _
  | div =>
    dsimp only [numericResult]
    split
    · exact .error trivial
    · exact result _
  | rem =>
    dsimp only [numericResult]
    split
    · exact .error trivial
    · exact result _

theorem arithmetic_runtime (op : Arith) (a b : Value) :
    (arithmetic op a b).FailsOnly Failure.Runtime := by
  unfold arithmetic
  split
  case h_13 =>
    exact (operand_runtime _ _).bind fun _ => (operand_runtime _ _).bind fun _ =>
      numericResult_runtime _ _ _
  all_goals first | exact failsOnly_ok _ | exact lift_runtime _

theorem arithmeticBySymbol_runtime (symbol : String) (a b : Value) :
    (arithmeticBySymbol symbol a b).FailsOnly Failure.Runtime := by
  unfold arithmeticBySymbol
  split
  · exact arithmetic_runtime _ a b
  · split
    · exact failsOnly_ok _
    · exact (operand_runtime symbol a).bind fun _ => (operand_runtime symbol b).bind fun _ =>
        .error trivial

theorem negate_runtime (v : Value) : v.negate.FailsOnly Failure.Runtime := by
  unfold negate
  split
  · exact failsOnly_ok _
  · refine (lift_runtime _).bind fun n => ?_
    cases n with
    | some n => exact failsOnly_ok _
    | none => exact (lift_runtime _).bind fun _ => .error trivial

end Value

namespace Builtin

theorem asNumber_runtime (name : String) (v : Value) :
    (asNumber name v).FailsOnly Failure.Runtime := by
  refine (lift_runtime _).bind fun n => ?_
  cases n with
  | some n => exact failsOnly_ok _
  | none => exact (lift_runtime _).bind fun _ => .error trivial

theorem extreme_runtime (name : String) (side : Ordering) (values : List Value) :
    (extreme name side values).FailsOnly Failure.Runtime := by
  unfold extreme
  split
  · exact failsOnly_ok _
  · split
    · exact lift_runtime _
    · refine (lift_runtime _).bind fun numbers => ?_
      split
      · exact lift_runtime _
      · exact .error trivial

theorem absolute_runtime (v : Value) : (absolute v).FailsOnly Failure.Runtime := by
  unfold absolute
  split
  · exact failsOnly_ok _
  · exact (asNumber_runtime _ _).bind fun _ => failsOnly_ok _

theorem round?_runtime (v digits : Value) : (round? v digits).FailsOnly Failure.Runtime := by
  unfold round?
  split
  · exact failsOnly_ok _
  · exact (asNumber_runtime _ _).bind fun _ => (asNumber_runtime _ _).bind fun _ => lift_runtime _

theorem apply_runtime (present : Moment) (f : Builtin) (args : List Value) :
    (f.apply present args).FailsOnly Failure.Runtime := by
  unfold apply
  split
  all_goals first
    | exact failsOnly_ok _
    | exact lift_runtime _
    | exact extreme_runtime _ _ _
    | exact absolute_runtime _
    | exact round?_runtime _ _
    | exact .error trivial

end Builtin

theorem namingCall_runtime {α : Type} {x : Except Failure α} (name : String)
    (runtime : x.FailsOnly Failure.Runtime) : (namingCall name x).FailsOnly Failure.Runtime := by
  unfold namingCall
  split
  · exact .error trivial
  · exact runtime

theorem callMethod_runtime (target : Value) (method : String) (args : List Value) :
    (callMethod target method args).FailsOnly Failure.Runtime := by
  unfold callMethod
  split
  · split
    · exact namingCall_runtime _ (lift_runtime _)
    · exact .error trivial
  · split
    · exact namingCall_runtime _ (lift_runtime _)
    · exact .error trivial
  · exact .error trivial

namespace Eval

open ExceptT (failsOnly_pure)

variable {α : Type}

theorem ofExcept_runtime {x : Except Failure α} (runtime : x.FailsOnly Failure.Runtime) :
    (ofExcept x).FailsOnly Failure.Runtime := by
  intro memo e after failed
  rw [on_ofExcept] at failed
  exact runtime e (Prod.mk.inj failed).1

theorem fail_runtime {e : EvalError} (runtime : (Failure.error e).Runtime) :
    (fail e : Eval α).FailsOnly Failure.Runtime := by
  intro memo e' after failed
  cases failed
  exact runtime

end Eval

open ExceptT (failsOnly_pure)
open Eval (ofExcept_runtime fail_runtime)

/-- Whatever the name, reading a formula gives a value. -/
def Surroundings.Contained (s : Surroundings) : Prop :=
  ∀ formulas, s.formulas = some formulas → ∀ name, (formulas.read name).Returns

section Contained

variable {s : Surroundings} (contained : s.Contained)
include contained

namespace Surroundings

theorem member_returns (scope : Scope) (name : String) : (s.member scope name).Returns := by
  cases scope with
  | file => exact ExceptT.returns_pure _
  | note => exact ExceptT.returns_pure _
  | formula =>
    unfold member
    cases attached : s.formulas with
    | none => exact ExceptT.returns_pure _
    | some formulas => exact contained formulas attached name

theorem entries_runtime (scope : Scope) : (s.entries scope).FailsOnly Failure.Runtime := by
  cases scope with
  | file => exact failsOnly_pure _
  | note => exact failsOnly_pure _
  | formula =>
    unfold entries
    cases attached : s.formulas with
    | none => exact failsOnly_pure _
    | some formulas =>
      have all (names : List String) : (readAll formulas.read names).FailsOnly Failure.Runtime := by
        induction names with
        | nil => exact failsOnly_pure _
        | cons name names ih =>
          exact (contained formulas attached name).failsOnly.bind fun _ => ih.bind fun _ => failsOnly_pure _
      exact all formulas.names

theorem settle_runtime (v : Scoped) : (s.settle v).FailsOnly Failure.Runtime := by
  cases v with
  | value v => exact failsOnly_pure _
  | scope scope => exact (entries_runtime contained scope).bind fun _ => failsOnly_pure _

end Surroundings

open Surroundings (member_returns settle_runtime)

namespace Expr

variable {left right : Eval Scoped} {parts : List (Eval Scoped)}

theorem memberOf_runtime (target : Scoped) (name : String) :
    (memberOf s target name).FailsOnly Failure.Runtime := by
  cases target with
  | value v => exact failsOnly_pure _
  | scope scope => exact (member_returns contained scope name).failsOnly.bind fun _ => failsOnly_pure _

theorem indexOf_runtime (target key : Scoped) :
    (indexOf s target key).FailsOnly Failure.Runtime := by
  unfold indexOf
  split
  · exact (ofExcept_runtime (lift_runtime _)).bind fun _ => failsOnly_pure _
  · exact (member_returns contained _ _).failsOnly.bind fun _ => failsOnly_pure _
  · exact failsOnly_pure _

omit contained in
theorem callOn_runtime (target : Scoped) (method : String) (args : List Value) :
    (callOn s target method args).FailsOnly Failure.Runtime := by
  have named (name : String) (result : Except Fault Bool) :
      (Eval.ofExcept (namingCall name (Fault.lift (result.map .bool)) : Except Failure Value)).FailsOnly
        Failure.Runtime :=
    ofExcept_runtime (namingCall_runtime _ (lift_runtime _))
  unfold callOn callScope callFile
  split
  · split
    · split
      all_goals first | exact named _ _ | exact fail_runtime trivial
    · exact fail_runtime trivial
  · exact fail_runtime trivial
  · exact ofExcept_runtime (callMethod_runtime _ _ _)

theorem settleAll_runtime (runtime : ∀ part ∈ parts, part.FailsOnly Failure.Runtime) :
    (settleAll s parts).FailsOnly Failure.Runtime := by
  induction parts with
  | nil => exact failsOnly_pure _
  | cons part parts ih =>
    have others := ih fun part inside => runtime part (List.mem_cons_of_mem _ inside)
    exact (runtime part List.mem_cons_self).bind fun _ => (settle_runtime contained _).bind fun _ =>
      others.bind fun _ => failsOnly_pure _

theorem choose_runtime (name : String) (runtime : ∀ part ∈ parts, part.FailsOnly Failure.Runtime) :
    (choose s name parts).FailsOnly Failure.Runtime := by
  unfold choose
  split
  · refine (runtime _ (by simp)).bind fun condition => ?_
    split
    · exact (runtime _ (by simp)).bind fun _ => (settle_runtime contained _).bind fun _ =>
        failsOnly_pure _
    · exact failsOnly_pure _
  · refine (runtime _ (by simp)).bind fun condition => ?_
    refine ExceptT.FailsOnly.bind ?_ fun _ => (settle_runtime contained _).bind fun _ => failsOnly_pure _
    split
    · exact runtime _ (by simp)
    · exact runtime _ (by simp)
  · exact fail_runtime trivial

theorem callFunction_runtime (name : String)
    (runtime : ∀ part ∈ parts, part.FailsOnly Failure.Runtime) :
    (callFunction s name parts).FailsOnly Failure.Runtime := by
  unfold callFunction
  split
  · exact choose_runtime contained name runtime
  · exact (settleAll_runtime contained runtime).bind fun _ =>
      (ofExcept_runtime (namingCall_runtime _ (Builtin.apply_runtime _ _ _))).bind fun _ =>
        failsOnly_pure _
  · split
    · exact fail_runtime trivial
    · exact fail_runtime trivial

theorem both_runtime {α : Type} (runtime : left.FailsOnly Failure.Runtime)
    (runtime' : right.FailsOnly Failure.Runtime) {rest : Value → Value → Eval α}
    (last : ∀ a b, (rest a b).FailsOnly Failure.Runtime) : (do
      let a ← s.settle (← left)
      let b ← s.settle (← right)
      rest a b).FailsOnly Failure.Runtime :=
  runtime.bind fun _ => (settle_runtime contained _).bind fun a =>
    runtime'.bind fun _ => (settle_runtime contained _).bind fun b => last a b

theorem operate_runtime (op : BinaryOp) (runtime : left.FailsOnly Failure.Runtime)
    (runtime' : right.FailsOnly Failure.Runtime) :
    (operate s op left right).FailsOnly Failure.Runtime := by
  cases op with
  | or =>
    refine runtime.bind fun v => ?_
    split
    · exact failsOnly_pure _
    · exact runtime'.bind fun _ => failsOnly_pure _
  | and =>
    refine runtime.bind fun v => ?_
    split
    · exact runtime'.bind fun _ => failsOnly_pure _
    · exact failsOnly_pure _
  | relation r =>
    exact both_runtime contained runtime runtime' fun _ _ =>
      (ofExcept_runtime (lift_runtime _)).bind fun _ => failsOnly_pure _
  | arith op =>
    exact both_runtime contained runtime runtime' fun _ _ =>
      ofExcept_runtime (Value.arithmetic_runtime _ _ _)

end Expr

namespace Tree

open NoteQuery.Expr

omit contained in
theorem signed_runtime (symbol : String) (operand : Scoped) :
    (signed s symbol operand).FailsOnly Failure.Runtime := by
  unfold signed
  split
  · exact failsOnly_pure _
  · split
    · split
      · exact (ofExcept_runtime (Value.negate_runtime _)).bind fun _ => failsOnly_pure _
      · exact fail_runtime trivial
    · exact fail_runtime trivial

theorem joined_runtime (symbol : String) {left right : Eval Scoped}
    (runtime : left.FailsOnly Failure.Runtime) (runtime' : right.FailsOnly Failure.Runtime) :
    (joined s symbol left right).FailsOnly Failure.Runtime := by
  unfold joined
  split
  · exact operate_runtime contained _ runtime runtime'
  · exact both_runtime contained runtime runtime' fun _ _ =>
      ofExcept_runtime (Value.arithmeticBySymbol_runtime _ _ _)

end Tree

end Contained

namespace Tree

open NoteQuery.Expr

mutual

/-- One case for each kind of tree; the parts fail by errors of evaluation only. -/
theorem eval_runtime {s : Surroundings} (contained : s.Contained) :
    ∀ t : Tree, (eval s t).FailsOnly Failure.Runtime
  | literal v => by
    rw [eval]
    exact failsOnly_pure _
  | list items => by
    rw [eval]
    exact (settleAll_runtime contained (evalEach_runtime contained items)).bind fun _ => failsOnly_pure _
  | name n => by
    rw [eval]
    exact failsOnly_pure _
  | member target n => by
    rw [eval]
    exact (eval_runtime contained target).bind fun _ => memberOf_runtime contained _ n
  | index target key => by
    rw [eval]
    exact (eval_runtime contained target).bind fun _ => (eval_runtime contained key).bind fun _ =>
      indexOf_runtime contained _ _
  | call (name function) args => by
    rw [eval]
    exact callFunction_runtime contained function (evalEach_runtime contained args)
  | call (member target method) args => by
    rw [eval]
    exact (eval_runtime contained target).bind fun _ =>
      (settleAll_runtime contained (evalEach_runtime contained args)).bind fun _ =>
        (callOn_runtime _ method _).bind fun _ => failsOnly_pure _
  | call (literal _) _ | call (list _) _ | call (index _ _) _ | call (call _ _) _
  | call (unary _ _) _ | call (binary _ _ _) _ => fail_runtime trivial
  | unary symbol operand => by
    rw [eval]
    exact (eval_runtime contained operand).bind fun _ => signed_runtime symbol _
  | binary symbol left right => by
    rw [eval]
    exact (joined_runtime contained symbol (eval_runtime contained left)
      (eval_runtime contained right)).bind fun _ => failsOnly_pure _

theorem evalEach_runtime {s : Surroundings} (contained : s.Contained) :
    ∀ ts : List Tree, ∀ part ∈ evalEach s ts, part.FailsOnly Failure.Runtime
  | [], _, inside => by simp [evalEach] at inside
  | t :: ts, part, inside => by
    rw [evalEach, List.mem_cons] at inside
    rcases inside with rfl | inside
    · exact eval_runtime contained t
    · exact evalEach_runtime contained ts part inside

end

end Tree

namespace Formulas

/-- Whoever reads a formula from outside gets a value, also where the formula is on a cycle. -/
theorem read_returns (formulas : Formulas) (present : Moment) (context : Context) (name : String) :
    ((formulas.reader present context).read name).Returns := by
  intro memo
  cases found : formulas.lookup name with
  | none =>
    rw [reader, read_on, found]
    exact ⟨_, _, rfl⟩
  | some text =>
    rw [reader_on present context found, conclude_outermost]
    split
    · exact ⟨_, _, rfl⟩
    · exact ⟨_, _, rfl⟩

end Formulas

namespace Surroundings

/-- What surrounds the expressions of a note, with formulas or without. -/
def attached (present : Moment) (context : Context) : Option Formulas → Surroundings
  | some formulas => withFormulas present context formulas
  | none => plain present context

theorem attached_contained (present : Moment) (context : Context) (formulas : Option Formulas) :
    (attached present context formulas).Contained := by
  intro reader attached name
  cases formulas with
  | none => cases attached
  | some formulas =>
    cases attached
    exact formulas.read_returns present context name

end Surroundings

end NoteQuery
