import Mathlib
import NoteQuery.Expr.Eval

/-! Syntax trees as a caller may build them. Anything may stand where a call has its function, and any
text where an operation has its sign. Trees of expressions are evaluated as the expressions are. -/
namespace NoteQuery

inductive Tree where
  | literal (v : Value)
  | list (items : List Tree)
  | name (name : String)
  | member (target : Tree) (name : String)
  | index (target key : Tree)
  | call (callee : Tree) (args : List Tree)
  | unary (symbol : String) (operand : Tree)
  | binary (symbol : String) (left right : Tree)

namespace BinaryOp

def all : List BinaryOp :=
  [or, and] ++ [.equal, .notEqual, .less, .greater, .lessEqual, .greaterEqual].map relation ++
    Arith.all.map arith

def ofSymbol? (symbol : String) : Option BinaryOp := all.find? (·.symbol == symbol)

theorem ofSymbol?_symbol (op : BinaryOp) : ofSymbol? op.symbol = some op := by
  rcases op with _ | _ | r | op
  · decide
  · decide
  · cases r <;> decide
  · cases op <;> decide

end BinaryOp

namespace Tree

open NoteQuery.Expr

/-- A sign in front of an operand, which is looked at before the sign. -/
def signed (s : Surroundings) (symbol : String) (operand : Scoped) : Eval Scoped :=
  if symbol = "not" then pure (.value (.bool !operand.truthy))
  else if symbol = "-" then
    match operand with
    | .value v => do pure (.value (← Eval.ofExcept v.negate))
    | .scope scope => Eval.fail (.cannotNegate (s.scopeName scope))
  else Eval.fail (.unknownOperator symbol)

def joined (s : Surroundings) (symbol : String) (left right : Eval Scoped) : Eval Value :=
  match BinaryOp.ofSymbol? symbol with
  | some op => operate s op left right
  | none => do
    let a ← s.settle (← left)
    let b ← s.settle (← right)
    Eval.ofExcept (Value.arithmeticBySymbol symbol a b)

mutual

def eval (s : Surroundings) : Tree → Eval Scoped
  | literal v => pure (.value v)
  | list items => do pure (.value (.list (← settleAll s (evalEach s items))))
  | name n => pure (s.lookup n)
  | member target n => do memberOf s (← eval s target) n
  | index target key => do
    let target ← eval s target
    let key ← eval s key
    indexOf s target key
  | call (name function) args => callFunction s function (evalEach s args)
  | call (member target method) args => do
    let target ← eval s target
    let values ← settleAll s (evalEach s args)
    pure (.value (← callOn s target method values))
  | call _ _ => Eval.fail .notCallable
  | unary symbol operand => do signed s symbol (← eval s operand)
  | binary symbol left right => do
    pure (.value (← joined s symbol (eval s left) (eval s right)))

def evalEach (s : Surroundings) : List Tree → List (Eval Scoped)
  | [] => []
  | t :: ts => eval s t :: evalEach s ts

end

/-- The value of a tree. A fault on the way fails the whole evaluation. -/
def evaluate (s : Surroundings) (t : Tree) : StateM Memo (Except EvalError Value) := do
  let evaluation : Eval Value := do s.settle (← eval s t)
  match ← evaluation.run with
  | .ok v => pure (.ok v)
  | .error (.error e) => pure (.error e)
  | .error (.fault f) => pure (.error (.failed f))

mutual

def ofExpr : Expr → Tree
  | .literal v => literal v
  | .list items => list (ofExprs items)
  | .name n => name n
  | .member target n => member (ofExpr target) n
  | .index target key => index (ofExpr target) (ofExpr key)
  | .call function args => call (name function) (ofExprs args)
  | .send target method args => call (member (ofExpr target) method) (ofExprs args)
  | .not operand => unary "not" (ofExpr operand)
  | .negate operand => unary "-" (ofExpr operand)
  | .binary op left right => binary op.symbol (ofExpr left) (ofExpr right)

def ofExprs : List Expr → List Tree
  | [] => []
  | e :: es => ofExpr e :: ofExprs es

end

mutual

theorem eval_ofExpr (s : Surroundings) : ∀ e : Expr, eval s (ofExpr e) = e.eval s
  | .literal v => by rw [ofExpr, eval, Expr.eval]
  | .list items => by rw [ofExpr, eval, Expr.eval, evalEach_ofExprs s items]
  | .name n => by rw [ofExpr, eval, Expr.eval]
  | .member target n => by rw [ofExpr, eval, Expr.eval, eval_ofExpr s target]
  | .index target key => by rw [ofExpr, eval, Expr.eval, eval_ofExpr s target, eval_ofExpr s key]
  | .call function args => by rw [ofExpr, eval, Expr.eval, evalEach_ofExprs s args]
  | .send target method args => by
    rw [ofExpr, eval, Expr.eval, eval_ofExpr s target, evalEach_ofExprs s args]
  | .not operand => by
    rw [ofExpr, eval, Expr.eval, eval_ofExpr s operand]
    rfl
  | .negate operand => by
    rw [ofExpr, eval, Expr.eval, eval_ofExpr s operand]
    rfl
  | .binary op left right => by
    rw [ofExpr, eval, Expr.eval, eval_ofExpr s left, eval_ofExpr s right, joined,
      BinaryOp.ofSymbol?_symbol]

theorem evalEach_ofExprs (s : Surroundings) : ∀ es : List Expr,
    evalEach s (ofExprs es) = Expr.evalEach s es
  | [] => rfl
  | e :: es => by rw [ofExprs, evalEach, Expr.evalEach, eval_ofExpr s e, evalEach_ofExprs s es]

end

end Tree

end NoteQuery
