import NoteQuery.Expr.Error
import NoteQuery.Text.Case
import NoteQuery.Value.Order

/-!
The functions of expressions, and the methods of texts and lists. Arguments have been evaluated; a
wrong number of them is a fault of kind. The conditional is also here as a plain function of three
values.
-/

namespace NoteQuery

open NoteQuery.Text

inductive Builtin where
  | date
  | now
  | today
  | number
  | text
  | choice
  | least
  | greatest
  | abs
  | round
  | list
  | contains
  | length
  | lower
  | upper
  deriving DecidableEq, Repr

namespace Builtin

def table : List (String × Builtin) := [
  ("date", date), ("now", now), ("today", today), ("number", number), ("string", text),
  ("iff", choice), ("choice", choice), ("min", least), ("max", greatest), ("abs", abs),
  ("round", round), ("list", list), ("contains", contains), ("length", length), ("lower", lower),
  ("upper", upper)]

def ofName? (name : String) : Option Builtin := table.lookup name

def wrongCount {α : Type} : Except Failure α := .error (.fault .badType)

def asNumber (name : String) (v : Value) : Except Failure Num := do
  match ← Fault.lift v.number? with
  | some n => .ok n
  | none => do
    let shown ← Fault.lift v.quoted
    .error (.error (.expectsNumber name shown))

/-- The value read as a moment. What is refused has to have a form that can be quoted. -/
def readMoment (v : Value) : Except Fault Value := do
  match ← v.moment? with
  | some m => .ok (.moment m)
  | none =>
    if v.isNull then .ok .null
    else do
      let _ ← v.quoted
      .ok .null

/-- The values themselves, or the items of a single list; nulls are left out. -/
def candidates (values : List Value) : List Value :=
  let all := match values with
    | [.list items] => items
    | _ => values
  all.filter (! ·.isNull)

def allMoments? : List Value → Option (List Moment)
  | [] => some []
  | .moment m :: rest => (allMoments? rest).map (m :: ·)
  | _ :: _ => none

def allNumbers? : List Value → Except Fault (Option (List Num))
  | [] => .ok (some [])
  | v :: rest => do
    let first ← v.number?
    let others ← allNumbers? rest
    .ok (first.bind fun n => others.map (n :: ·))

/-- The first of the items that no later one improves upon. -/
def pick {α : Type} (better : α → α → Except Fault Bool) (best : α) : List α → Except Fault α
  | [] => .ok best
  | x :: rest => do
    if ← better x best then pick better x rest else pick better best rest

def extreme (name : String) (side : Ordering) (values : List Value) : Except Failure Value :=
  match candidates values with
  | [] => .ok .null
  | first :: rest =>
    match allMoments? (first :: rest) with
    | some (m :: moments) => Fault.lift do
      let best ← pick (fun a b => do .ok ((← Value.sortOrder (.moment a) (.moment b)) == side))
        m moments
      .ok (.moment best)
    | _ => do
      match ← Fault.lift (allNumbers? (first :: rest)) with
      | some (n :: numbers) => Fault.lift do
        let best ← pick (fun a b => .ok (Num.order? a b == some side)) n numbers
        .ok best.toValue
      | _ => .error (.error (.expectsNumbersOrDates name))

/-- Rounding looks at no more digits than this. -/
def maxRoundDigits : Int := 308

private def wholeDigits : Num → Except Fault Int
  | .int n => .ok n
  | .float x =>
    match x.truncate? with
    | some n => .ok n
    | none => .error (if x.isNaN then .badValue else .outOfRange)

def powerOfTen (k : Int) : Num :=
  if 0 ≤ k then .int (Nat.pow 10 k.toNat) else .float (Binary64.powerOfTen k)

def half : Num := .float (Binary64.ofRatio false 1 2)

/-- The number rounded to that many digits after the point, a half upwards. A number that grows
past the finite ones on the way is left as it is. -/
def roundTo (n digits : Num) : Except Fault Value := do
  let places ← wholeDigits digits
  let places := max (-maxRoundDigits) (min maxRoundDigits places)
  let factor := powerOfTen places
  let scaled ← n.mul factor
  let size ← scaled.toFloat
  if size.isFinite then
    match ← scaled.add half with
    | .float x =>
      match x.floor? with
      | some whole => (← Num.div (.int whole) factor).collapse |> .ok
      | none => .error .outOfRange
    | .int whole => (← Num.div (.int whole) factor).collapse |> .ok
  else .ok n.toValue

def absolute : Value → Except Failure Value
  | .null => .ok .null
  | v => do .ok (← asNumber "abs" v).abs.toValue

def round? (v digits : Value) : Except Failure Value :=
  if v.isNull then .ok .null
  else do
    let n ← asNumber "round" v
    let d ← asNumber "round" digits
    Fault.lift (roundTo n d)

def anyEquals (v : Value) : List Value → Except Fault Bool
  | [] => .ok false
  | item :: items => do
    if ← Value.equals item v then .ok true else anyEquals v items

def holds (collection v : Value) : Except Fault Bool :=
  match collection with
  | .list items => anyEquals v items
  | .text s => do .ok (Text.contains s (← v.display))
  | _ => .ok false

def lengthOf : Value → Nat
  | .text s => s.length
  | .list items => items.length
  | .map entries => entries.length
  | _ => 0

def mapText (f : String → String) : Value → Value
  | .text s => .text (f s)
  | v => v

def listOf : Value → Value
  | .list items => .list items
  | v => .list [v]

def apply (present : Moment) : Builtin → List Value → Except Failure Value
  | date, [] => .ok .null
  | date, [v] => Fault.lift (readMoment v)
  | now, [] => .ok (.moment present)
  | today, [] => .ok (.moment (.startOf present.date))
  | number, [v] => Fault.lift do
    match ← v.number? with
    | some n => .ok n.toValue
    | none => .ok .null
  | text, [v] => Fault.lift do .ok (.text (← v.display))
  | choice, [condition, yes] => .ok (if condition.truthy then yes else .null)
  | choice, [condition, yes, no] => .ok (if condition.truthy then yes else no)
  | least, values => extreme "min" .lt values
  | greatest, values => extreme "max" .gt values
  | abs, [v] => absolute v
  | round, [v] => round? v (.int 0)
  | round, [v, digits] => round? v digits
  | list, [v] => .ok (listOf v)
  | contains, [collection, v] => Fault.lift do .ok (.bool (← holds collection v))
  | length, [v] => .ok (.int (lengthOf v))
  | lower, [v] => .ok (mapText Text.lower v)
  | upper, [v] => .ok (mapText Text.upper v)
  | _, _ => wrongCount

end Builtin

inductive TextMethod where
  | contains
  | startsWith
  | endsWith
  | lower
  | upper
  | trim
  deriving DecidableEq, Repr

inductive ListMethod where
  | contains
  | join
  deriving DecidableEq, Repr

namespace TextMethod

def ofName? (name : String) : Option TextMethod :=
  [("contains", contains), ("startsWith", startsWith), ("endsWith", endsWith), ("lower", lower),
    ("upper", upper), ("trim", trim)].lookup name

def apply (s : String) : TextMethod → List Value → Except Fault Value
  | contains, [part] => do .ok (.bool (Text.contains s (← part.display)))
  | startsWith, [part] => do .ok (.bool (Text.startsWith s.toList (← part.display).toList))
  | endsWith, [part] => do .ok (.bool (Text.endsWith s.toList (← part.display).toList))
  | lower, [] => .ok (.text (Text.lower s))
  | upper, [] => .ok (.text (Text.upper s))
  | trim, [] => .ok (.text (trimText s))
  | _, _ => .error .badType

end TextMethod

namespace ListMethod

def ofName? (name : String) : Option ListMethod :=
  [("contains", contains), ("join", join)].lookup name

private def joined (items : List Value) (separator : Value) : Except Fault Value := do
  let between ← separator.display
  let parts ← Value.displayItems items
  .ok (.text (between.intercalate parts))

def apply (items : List Value) : ListMethod → List Value → Except Fault Value
  | contains, [v] => do .ok (.bool (← Builtin.anyEquals v items))
  | join, [] => joined items (.text ", ")
  | join, [separator] => joined items separator
  | _, _ => .error .badType

end ListMethod

def namingCall {α : Type} (name : String) : Except Failure α → Except Failure α
  | .error (.fault .badType) => .error (.error (.badArguments name))
  | result => result

def callMethod (target : Value) (method : String) (args : List Value) : Except Failure Value :=
  let unknown : Except Failure Value := .error (.error (.unknownMethod method target.kindName))
  match target with
  | .text s =>
    match TextMethod.ofName? method with
    | some m => namingCall method (Fault.lift (m.apply s args))
    | none => unknown
  | .list items =>
    match ListMethod.ofName? method with
    | some m => namingCall method (Fault.lift (m.apply items args))
    | none => unknown
  | _ => unknown

end NoteQuery
