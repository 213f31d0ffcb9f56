import NoteQuery.Value.Arithmetic

/-!
Expressions. A call names a function, or a method of the part in front of its dot; nothing else can
be called. Infix operations come in six levels; those of a level bind equally strong.
-/

namespace NoteQuery

inductive Relation where
  | equal
  | notEqual
  | less
  | greater
  | lessEqual
  | greaterEqual
  deriving DecidableEq, Repr

inductive BinaryOp where
  | or
  | and
  | relation (r : Relation)
  | arith (op : Arith)
  deriving DecidableEq, Repr

inductive Expr where
  | literal (v : Value)
  | list (items : List Expr)
  | name (name : String)
  | member (target : Expr) (name : String)
  | index (target key : Expr)
  | call (function : String) (args : List Expr)
  | send (target : Expr) (method : String) (args : List Expr)
  | not (operand : Expr)
  | negate (operand : Expr)
  | binary (op : BinaryOp) (left right : Expr)
  deriving Repr, Inhabited

namespace Relation

def symbol : Relation → String
  | equal => "=="
  | notEqual => "!="
  | less => "<"
  | greater => ">"
  | lessEqual => "<="
  | greaterEqual => ">="

def holds : Relation → Ordering → Bool
  | equal, o => o == .eq
  | notEqual, o => o != .eq
  | less, o => o == .lt
  | greater, o => o == .gt
  | lessEqual, o => o != .gt
  | greaterEqual, o => o != .lt

end Relation

namespace BinaryOp

def symbol : BinaryOp → String
  | or => "or"
  | and => "and"
  | relation r => r.symbol
  | arith op => op.symbol

end BinaryOp

namespace Expr

/-- The dotted path that a name and its members spell; other expressions have none. -/
def path? : Expr → Option String
  | name n => some n
  | member target n => target.path?.map (· ++ "." ++ n)
  | _ => none

/-- Minus in front of an operand. In front of a number or a truth value it is part of the literal;
minus true is minus one. -/
def minus : Expr → Expr
  | literal (.int n) => literal (.int (-n))
  | literal (.float x) => literal (.float x.neg)
  | literal (.bool b) => literal (.int (if b then -1 else 0))
  | operand => negate operand

end Expr

end NoteQuery
