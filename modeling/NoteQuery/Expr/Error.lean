import NoteQuery.Value

/-!
Why an expression fails: its text does not follow the grammar, or its evaluation meets values that
an operation does not take. `message` words each cause.
-/

namespace NoteQuery

/-- Line and column of a character, both counted from one. -/
structure Position where
  line : Nat
  column : Nat
  deriving DecidableEq, Repr, Inhabited

inductive Closing where
  | index
  | arguments
  | items
  | group
  deriving DecidableEq, Repr

inductive SyntaxCause where
  | empty
  | singleEquals
  | unexpectedSign (c : Char)
  | openText
  | unexpectedEnd
  | unexpectedToken (text : String)
  | missingName
  | missing (closing : Closing)
  | notCallable
  deriving DecidableEq, Repr

structure SyntaxError where
  cause : SyntaxCause
  position : Option Position
  /-- The text that does not follow the grammar, once it is known as a whole. -/
  expression : Option String
  deriving DecidableEq, Repr

inductive EvalError where
  | malformed (e : SyntaxError)
  | cannotApply (symbol kind shown : String)
  | divisionByZero
  | moduloByZero
  | unknownOperator (symbol : String)
  | cannotNegate (shown : String)
  | unknownFunction (name : String)
  /-- `if` is kept free for other uses. -/
  | reservedIf
  | branchCount (name : String)
  | unknownMethod (name kind : String)
  | callOnNull (name : String)
  | expectsNumber (name shown : String)
  | expectsNumbersOrDates (name : String)
  | notCallable
  | circular (name : String)
  | badArguments (name : String)
  | failed (fault : Fault)
  deriving DecidableEq, Repr

structure ExpressionError where
  expression : String
  error : EvalError
  deriving DecidableEq, Repr

/-- How the evaluation of a part ends early. A fault becomes an error of the whole expression. -/
inductive Failure where
  | error (e : EvalError)
  | fault (f : Fault)
  deriving DecidableEq, Repr

namespace Closing

def message : Closing → String
  | index => "Expected ']' after index"
  | arguments => "Expected ')' after function arguments"
  | items => "Expected ']' after list items"
  | group => "Expected ')' after expression"

end Closing

namespace SyntaxCause

def message : SyntaxCause → String
  | empty => "Empty expression"
  | singleEquals => "Unexpected '=' (use '==' for comparison)"
  | unexpectedSign c => "Unexpected character '" ++ String.ofList [c] ++ "'"
  | openText => "Unterminated string"
  | unexpectedEnd => "Unexpected end of expression"
  | unexpectedToken text => "Unexpected token: " ++ text
  | missingName => "Expected property name after '.'"
  | missing closing => closing.message
  | notCallable => "Only named functions can be called"

end SyntaxCause

namespace SyntaxError

def message (e : SyntaxError) : String :=
  e.cause.message ++
    match e.position with
    | some p => " at line " ++ toString p.line ++ ", column " ++ toString p.column
    | none => ""

def inText (text : String) (e : SyntaxError) : SyntaxError :=
  { e with expression := some (e.expression.getD text) }

end SyntaxError

namespace EvalError

def message : EvalError → String
  | malformed e => e.message
  | cannotApply symbol kind shown => "Cannot apply '" ++ symbol ++ "' to " ++ kind ++ " " ++ shown
  | divisionByZero => "Division by zero"
  | moduloByZero => "Modulo by zero"
  | unknownOperator symbol => "Unknown operator: " ++ symbol
  | cannotNegate shown => "Cannot negate " ++ shown
  | unknownFunction name => "Unknown function: " ++ name ++ "()"
  | reservedIf => "'if' is a reserved word; use iff(condition, a, b) or choice(condition, a, b)"
  | branchCount name => name ++ "() requires 2 or 3 arguments"
  | unknownMethod name kind => "Unknown method '" ++ name ++ "' on " ++ kind
  | callOnNull name => "Cannot call " ++ name ++ "() on null"
  | expectsNumber name shown => name ++ "() expects a number, got " ++ shown
  | expectsNumbersOrDates name => name ++ "() expects numbers or dates"
  | notCallable => "Only named functions can be called"
  | circular name => "Circular formula reference: formula." ++ name
  | badArguments name => "Invalid arguments for " ++ name ++ "()"
  | failed _ => "Evaluation failed"

def cause? : EvalError → Option Fault
  | badArguments _ => some .badType
  | failed fault => some fault
  | _ => none

end EvalError

def Fault.lift {α : Type} : Except Fault α → Except Failure α
  | .ok a => .ok a
  | .error f => .error (.fault f)

end NoteQuery
