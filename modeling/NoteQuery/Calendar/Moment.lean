import NoteQuery.Calendar.Date
import NoteQuery.Number.Binary64

/-!
Points in time to the microsecond: a day, a time of day and, for some, the offset of the clock
from universal time. A moment without an offset is taken as universal time where the two meet.
Moments are counted in microseconds from the first of January 1970.
-/

namespace NoteQuery

structure Clock where
  hour : Nat
  minute : Nat
  second : Nat
  micro : Nat
  hour_lt : hour < 24
  minute_lt : minute < 60
  second_lt : second < 60
  micro_lt : micro < 1000000
  deriving DecidableEq, Repr

namespace Clock

def midnight : Clock := ⟨0, 0, 0, 0, by decide, by decide, by decide, by decide⟩

def ofParts? (hour minute second micro : Nat) : Option Clock :=
  if h : hour < 24 ∧ minute < 60 ∧ second < 60 ∧ micro < 1000000 then
    some ⟨hour, minute, second, micro, h.1, h.2.1, h.2.2.1, h.2.2.2⟩
  else none

def micros (c : Clock) : Nat := ((c.hour * 60 + c.minute) * 60 + c.second) * 1000000 + c.micro

end Clock

structure Offset where
  seconds : Int
  seconds_range : -86400 < seconds ∧ seconds < 86400
  deriving DecidableEq, Repr

namespace Offset

def ofSeconds? (seconds : Int) : Option Offset :=
  if h : -86400 < seconds ∧ seconds < 86400 then some ⟨seconds, h⟩ else none

def text (o : Offset) : String :=
  let n := o.seconds.natAbs
  let seconds := n % 60
  (if o.seconds < 0 then "-" else "+") ++ Date.padded 2 (n / 3600) ++ ":" ++
    Date.padded 2 (n / 60 % 60) ++ (if seconds = 0 then "" else ":" ++ Date.padded 2 seconds)

end Offset

structure Moment where
  date : Date
  clock : Clock
  offset : Option Offset
  deriving DecidableEq, Repr

namespace Moment

def microsPerDay : Nat := 86400000000

/-- The number of the first of January 1970. -/
def epochDay : Nat := 719163

def startOf (d : Date) : Moment := ⟨d, .midnight, none⟩

/-- Microseconds since the epoch as the clock shows them. -/
def localMicros (m : Moment) : Int :=
  ((m.date.number : Int) - epochDay) * microsPerDay + m.clock.micros

def micros (m : Moment) : Int :=
  match m.offset with
  | none => m.localMicros
  | some o => m.localMicros - o.seconds * 1000000

def ofLocalMicros? (micros : Int) (offset : Option Offset) : Option Moment :=
  let day := Int.fdiv micros microsPerDay + epochDay
  let rest := (Int.fmod micros microsPerDay).toNat
  if day < 1 then none
  else
    match Date.ofNumber? day.toNat,
      Clock.ofParts? (rest / 3600000000) (rest / 60000000 % 60) (rest / 1000000 % 60)
        (rest % 1000000) with
    | some d, some c => some ⟨d, c, offset⟩
    | _, _ => none

/-- The same point in time without an offset. -/
def universal? (m : Moment) : Option Moment :=
  match m.offset with
  | none => some m
  | some _ => ofLocalMicros? m.micros none

def isMidnight (m : Moment) : Bool := m.clock.micros == 0

def shift? (m : Moment) (micros : Int) : Option Moment :=
  ofLocalMicros? (m.localMicros + micros) m.offset

/-- The same point in time. A moment with an offset never equals one without. -/
def same (a b : Moment) : Bool :=
  a.offset.isSome == b.offset.isSome && a.micros == b.micros

/-- Day and time with a `T` between them; six digits for the microseconds where there are any. -/
def text (m : Moment) : String :=
  let c := m.clock
  m.date.text ++ "T" ++ Date.padded 2 c.hour ++ ":" ++ Date.padded 2 c.minute ++ ":" ++
    Date.padded 2 c.second ++ (if c.micro = 0 then "" else "." ++ Date.padded 6 c.micro) ++
    (m.offset.map Offset.text).getD ""

/-- The day alone at midnight, else day and time. -/
def shortText (m : Moment) : String := if m.isMidnight then m.date.text else m.text

/-- Whether a day before the moment is still in the calendar. Reading a moment as a number of
seconds looks that far back. -/
def hasDayBefore (m : Moment) : Bool := decide (2 ≤ m.date.number)

/-- The number of milliseconds since the epoch, cut toward zero. It goes through seconds and their
fractions, rounded at each step; the first day of the calendar has none. -/
def milliseconds? (m : Moment) : Option Int :=
  let seconds :=
    match m.offset with
    | none =>
      if m.hasDayBefore then
        match Binary64.ofInt? (Int.fdiv m.localMicros 1000000),
          Binary64.ofQuotient? m.clock.micro 1000000 with
        | some whole, some part => some (whole.add part)
        | _, _ => none
      else none
    | some _ => Binary64.ofQuotient? m.micros 1000000
  match seconds, Binary64.ofInt? 1000 with
  | some s, some thousand => (s.mul thousand).truncate?
  | _, _ => none

/-- The moment that many seconds after the epoch: the fraction of a second is rounded to
microseconds, in a tie to the even one. The first day of the calendar cannot be reached. -/
def ofSeconds? (seconds : Binary64) : Option Moment :=
  match seconds.truncate?, Binary64.ofInt? 1000000 with
  | some whole, some million =>
    match (seconds.fraction.mul million).nearest? with
    | some part =>
      match ofLocalMicros? (whole * 1000000 + part) none with
      | some m => if m.hasDayBefore then some m else none
      | none => none
    | none => none
  | _, _ => none

end Moment

end NoteQuery
