import NoteQuery.Value.Text

/-!
Numbers as expressions take them, whole or binary, and the readings of a value as a number and as
a moment. A text is a number when it is written as one, and never an infinity. Texts, days and
numbers of milliseconds can be read as moments.
-/

namespace NoteQuery

open NoteQuery.Text

inductive Num where
  | int (n : Int)
  | float (x : Binary64)
  deriving DecidableEq, Repr

namespace Num

def toValue : Num → Value
  | int n => .int n
  | float x => .float x

/-- The number as a value, with a whole binary number below `2 ^ 53` made whole. -/
def collapse : Num → Value
  | int n => .int n
  | float x => .collapse x

/-- The nearest binary number; a whole number may be too large for one. -/
def toFloat : Num → Except Fault Binary64
  | int n =>
    match Binary64.ofInt? n with
    | some x => .ok x
    | none => .error .outOfRange
  | float x => .ok x

def order? : Num → Num → Option Ordering
  | int a, int b => some (compare a b)
  | int a, float y => Binary64.orderInt? a y
  | float x, int b => (Binary64.orderInt? b x).map Ordering.swap
  | float x, float y => Binary64.order? x y

def equal (a b : Num) : Bool := order? a b == some .eq

def isNaN : Num → Bool
  | int _ => false
  | float x => x.isNaN

def same (a b : Num) : Bool := a.equal b || a.isNaN && b.isNaN

def less (a b : Num) : Bool := order? a b == some .lt

def isZero : Num → Bool
  | int n => n == 0
  | float x => x.isZero

def neg : Num → Num
  | int n => int (-n)
  | float x => float x.neg

def abs : Num → Num
  | int n => int n.natAbs
  | float x => float x.abs

private def binary (whole : Int → Int → Int) (op : Binary64 → Binary64 → Binary64) :
    Num → Num → Except Fault Num
  | int a, int b => .ok (int (whole a b))
  | a, b => do
    let x ← a.toFloat
    let y ← b.toFloat
    .ok (float (op x y))

/-- Whole numbers are added exactly; beside a binary number they are rounded first. -/
def add : Num → Num → Except Fault Num := binary (· + ·) Binary64.add

def sub : Num → Num → Except Fault Num := binary (· - ·) Binary64.sub

def mul : Num → Num → Except Fault Num := binary (· * ·) Binary64.mul

/-- The quotient by a number that is not zero: always a binary number, rounded once. -/
def div : Num → Num → Except Fault Num
  | int a, int b =>
    match Binary64.ofQuotient? a b with
    | some x => .ok (float x)
    | none => .error .outOfRange
  | a, b => do
    let x ← a.toFloat
    let y ← b.toFloat
    .ok (float (x.div y))

/-- The remainder by a number that is not zero, with the sign of the dividend; both are taken as
binary numbers. -/
def rem (a b : Num) : Except Fault Num := do
  let x ← a.toFloat
  let y ← b.toFloat
  match x.rem? y with
  | some r => .ok (float r)
  | none => .error .badValue

end Num

namespace Value

/-- The number that a text says: whole when it is only digits, else binary and collapsed. -/
def numberOfText? (s : String) : Option Num :=
  let text := trim s.toList
  if text.isEmpty then none
  else
    match Numeral.readInt? text with
    | some n => some (.int n)
    | none =>
      match Numeral.readFloat? text with
      | some x =>
        if x.isFinite then
          match x.toInt? with
          | some n => if n.natAbs < Nat.pow 2 53 then some (.int n) else some (.float x)
          | none => some (.float x)
        else none
      | none => none

/-- The value as a number; a moment is its milliseconds. Other values are none. -/
def number? : Value → Except Fault (Option Num)
  | bool b => .ok (some (.int (if b then 1 else 0)))
  | int n => .ok (some (.int n))
  | float x => .ok (some (.float x))
  | text s => .ok (numberOfText? s)
  | moment m =>
    match m.milliseconds? with
    | some n => .ok (some (.int n))
    | none => .error .badValue
  | _ => .ok none

def momentOfNumber? (n : Num) : Except Fault (Option Moment) := do
  let x ← n.toFloat
  if x.isFinite then
    match n.div (.int 1000) with
    | .ok (.float seconds) => .ok (Moment.ofSeconds? seconds)
    | _ => .ok none
  else .ok none

/-- The value as a moment without an offset. A date text or a moment whose offset moves it out of
the calendar is a fault. -/
def moment? : Value → Except Fault (Option Moment)
  | moment m =>
    match m.universal? with
    | some u => .ok (some u)
    | none => .error .outOfRange
  | date d => .ok (some (.startOf d))
  | int n => momentOfNumber? (.int n)
  | float x => momentOfNumber? (.float x)
  | text s =>
    match readDate s with
    | .moment m => .ok (some m)
    | .none => .ok none
    | .outOfRange => .error .outOfRange
  | _ => .ok none

end Value

end NoteQuery
