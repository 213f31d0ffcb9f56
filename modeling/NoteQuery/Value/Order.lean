import NoteQuery.Value.Number

/-!
Equality and order of values of mixed kinds. Beside a moment the other value is read as a moment,
beside a number as a number; other kinds meet only their own. `same` is plain equality, in which
numbers of every kind are equal when their values are.
-/

namespace NoteQuery

namespace Value

def plainNumber? : Value → Option Num
  | bool b => some (.int (if b then 1 else 0))
  | int n => some (.int n)
  | float x => some (.float x)
  | _ => none

mutual

/-- Plain equality: nothing is converted but numbers of different kinds. Maps are equal when they
give equal values to the same names, in any order. Not-a-number is the same as itself. -/
def same : Value → Value → Bool
  | null, null => true
  | text s, text t => s == t
  | moment a, moment b => a.same b
  | date a, date b => a == b
  | list as, list bs => sameItems as bs
  | map es, map fs => es.length == fs.length && sameEntries es fs
  | a, b =>
    match plainNumber? a, plainNumber? b with
    | some m, some n => m.same n
    | _, _ => false

def sameItems : List Value → List Value → Bool
  | [], [] => true
  | a :: as, b :: bs => same a b && sameItems as bs
  | _, _ => false

def sameEntries : List (String × Value) → List (String × Value) → Bool
  | [], _ => true
  | (name, a) :: es, fs =>
    (match fs.lookup name with
    | some b => same a b
    | none => false) && sameEntries es fs

end

def isMoment : Value → Bool
  | moment _ => true
  | _ => false

def isBool : Value → Bool
  | bool _ => true
  | _ => false

def equalMoments (a b : Value) : Except Fault Bool := do
  let x ← moment? a
  let y ← moment? b
  match x, y with
  | some x, some y => .ok (x.same y)
  | _, _ => .ok false

def equalNumbers (a b : Value) : Except Fault Bool := do
  let x ← number? a
  let y ← number? b
  match x, y with
  | some x, some y => .ok (x.equal y)
  | _, _ => .ok false

/-- Equality of two values neither of which is null and that are not both lists. -/
def equalSingle (a b : Value) : Except Fault Bool :=
  match a, b with
  | bool x, bool y => .ok (x == y)
  | a, b =>
    if isMoment a || isMoment b then equalMoments a b
    else if a.isNumber || b.isNumber || isBool a || isBool b then equalNumbers a b
    else .ok (same a b)

mutual

/-- Equality as expressions have it. Null equals only null; lists are compared item by item. -/
def equals : Value → Value → Except Fault Bool
  | null, b => .ok b.isNull
  | list as, list bs => if as.length == bs.length then equalItems as bs else .ok false
  | a, null => .ok a.isNull
  | a, b => equalSingle a b

def equalItems : List Value → List Value → Except Fault Bool
  | a :: as, b :: bs => do
    if ← equals a b then equalItems as bs else .ok false
  | _, _ => .ok true

end

/-- Order where not-a-number equals every number. -/
def orderNumbers (a b : Num) : Ordering := (Num.order? a b).getD .eq

def orderAsMoments (a b : Value) : Except Fault (Option Ordering) := do
  let x ← moment? a
  let y ← moment? b
  match x, y with
  | some x, some y => .ok (some (compare x.localMicros y.localMicros))
  | _, _ => .ok none

def orderAsNumbers (a b : Value) : Except Fault (Option Ordering) := do
  let x ← number? a
  let y ← number? b
  match x, y with
  | some x, some y => .ok (some (orderNumbers x y))
  | _, _ => .ok none

def orderSingle (a b : Value) : Except Fault (Option Ordering) :=
  match a, b with
  | null, _ => .ok none
  | _, null => .ok none
  | bool x, bool y => .ok (some (compare x.toNat y.toNat))
  | a, b =>
    if isMoment a || isMoment b then orderAsMoments a b
    else if a.isNumber || b.isNumber then orderAsNumbers a b
    else
      match a, b with
      | text s, text t => .ok (some (compare s t))
      | _, _ => .ok none

mutual

/-- Three-way order as expressions have it; nothing when the values cannot be compared. Lists are
compared at their first difference, then by length. -/
def order : Value → Value → Except Fault (Option Ordering)
  | list as, list bs => orderItems as bs
  | a, b => orderSingle a b

def orderItems : List Value → List Value → Except Fault (Option Ordering)
  | [], [] => .ok (some .eq)
  | [], _ :: _ => .ok (some .lt)
  | _ :: _, [] => .ok (some .gt)
  | a :: as, b :: bs => do
    match ← order a b with
    | some .eq => orderItems as bs
    | other => .ok other

end

def rank : Value → Nat
  | bool _ => 0
  | int _ => 1
  | float _ => 1
  | moment _ => 2
  | text _ => 3
  | list _ => 4
  | map _ => 5
  | null => 6
  | date _ => 6

/-- The order of a sorted column: as expressions have it, else by kind, else by displayed text. -/
def sortOrder (a b : Value) : Except Fault Ordering := do
  match ← order a b with
  | some o => .ok o
  | none =>
    if a.rank ≠ b.rank then .ok (compare a.rank b.rank)
    else
      let s ← display a
      let t ← display b
      .ok (compare s t)

end Value

end NoteQuery
