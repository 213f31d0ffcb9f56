import NoteQuery.Expr.Error
import NoteQuery.Value.Order

/-!
The five arithmetic operations on values. Null on either side gives null. A plus joins texts and
lists, and moves a moment by milliseconds; the difference of two moments is in milliseconds. All
else has to be numbers, and a result that is whole and exact becomes a whole number.
-/

namespace NoteQuery

inductive Arith where
  | add
  | sub
  | mul
  | div
  | rem
  deriving DecidableEq, Repr

namespace Arith

def symbol : Arith → String
  | add => "+"
  | sub => "-"
  | mul => "*"
  | div => "/"
  | rem => "%"

def all : List Arith := [add, sub, mul, div, rem]

def ofSymbol? (symbol : String) : Option Arith := all.find? (·.symbol == symbol)

end Arith

namespace Value

/-- Microseconds in that many milliseconds, in a tie the even count. -/
def microsOfMillis (n : Num) : Except Fault Int :=
  match n with
  | .int n => .ok (n * 1000)
  | .float x =>
    if x.isNaN then .error .badValue
    else
      match x.truncate?, Binary64.ofInt? 1000 with
      | some whole, some thousand =>
        match (x.fraction.mul thousand).nearest? with
        | some part => .ok (whole * 1000 + part)
        | none => .error .outOfRange
      | _, _ => .error .outOfRange

def moveMoment (m : Moment) (n : Num) (back : Bool) : Except Fault Value := do
  let micros ← microsOfMillis n
  match m.shift? (if back then -micros else micros) with
  | some moved => .ok (moment moved)
  | none => .error .outOfRange

/-- The milliseconds from the second moment to the first. One with an offset and one without
have no difference. -/
def momentDifference (a b : Moment) : Except Fault Value :=
  if a.offset.isSome = b.offset.isSome then
    match Binary64.ofQuotient? (a.micros - b.micros) 1000 with
    | some x => .ok (collapse x)
    | none => .error .outOfRange
  else .error .badType

/-- The operand of an arithmetic operation; a moment is no number here. -/
def operand (symbol : String) (v : Value) : Except Failure Num :=
  let refuse : Except Failure Num := do
    let shown ← Fault.lift v.quoted
    .error (.error (.cannotApply symbol v.kindName shown))
  do
    let n ← Fault.lift v.number?
    match v, n with
    | moment _, _ => refuse
    | _, some n => .ok n
    | _, none => refuse

def numericResult (op : Arith) (m n : Num) : Except Failure Value :=
  let result (r : Except Fault Num) : Except Failure Value := do
    let x ← Fault.lift r
    .ok x.collapse
  match op with
  | .add => result (m.add n)
  | .sub => result (m.sub n)
  | .mul => result (m.mul n)
  | .div => if n.isZero then .error (.error .divisionByZero) else result (m.div n)
  | .rem => if n.isZero then .error (.error .moduloByZero) else result (m.rem n)

def onNumbers (op : Arith) (a b : Value) : Except Failure Value := do
  let m ← operand op.symbol a
  let n ← operand op.symbol b
  numericResult op m n

def joinTexts (a b : Value) : Except Failure Value := Fault.lift do
  let s ← a.display
  let t ← b.display
  .ok (text (s ++ t))

def arithmetic (op : Arith) (a b : Value) : Except Failure Value :=
  match op, a, b with
  | _, null, _ => .ok null
  | _, _, null => .ok null
  | .add, text s, b => joinTexts (text s) b
  | .add, a, text t => joinTexts a (text t)
  | .add, list as, list bs => .ok (list (as ++ bs))
  | .add, moment m, int n => Fault.lift (moveMoment m (.int n) false)
  | .add, moment m, float x => Fault.lift (moveMoment m (.float x) false)
  | .add, int n, moment m => Fault.lift (moveMoment m (.int n) false)
  | .add, float x, moment m => Fault.lift (moveMoment m (.float x) false)
  | .sub, moment m, moment n => Fault.lift (momentDifference m n)
  | .sub, moment m, int n => Fault.lift (moveMoment m (.int n) true)
  | .sub, moment m, float x => Fault.lift (moveMoment m (.float x) true)
  | op, a, b => onNumbers op a b

/-- Arithmetic by the sign of the operation. The operands are looked at before the sign. -/
def arithmeticBySymbol (symbol : String) (a b : Value) : Except Failure Value :=
  match Arith.ofSymbol? symbol with
  | some op => arithmetic op a b
  | none =>
    if a.isNull || b.isNull then .ok null
    else do
      let _ ← operand symbol a
      let _ ← operand symbol b
      .error (.error (.unknownOperator symbol))

end Value

end NoteQuery
