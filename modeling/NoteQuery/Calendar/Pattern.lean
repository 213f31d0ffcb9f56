import NoteQuery.Calendar.Iso
import NoteQuery.Text.Blank
import NoteQuery.Text.Letter
import NoteQuery.Text.Search

/-!
Moments written by a pattern of parts, such as `15 March 2026` or `2026/1/5 7:30`. A number takes
as many digits as its range allows; letters of a name count in any case, and a blank of a pattern
stands for one or more. `readDate` tries the ISO standard first and then the patterns in turn.
-/

namespace NoteQuery.Pattern

open NoteQuery.Text

inductive Part where
  | year
  | month
  | day
  | hour
  | minute
  | second
  | monthName
  | monthShort
  | blank
  | sign (c : Char)
  deriving DecidableEq, Repr

structure Fields where
  year : Nat := 1900
  month : Nat := 1
  day : Nat := 1
  hour : Nat := 0
  minute : Nat := 0
  second : Nat := 0

def monthNames : List String :=
  ["january", "february", "march", "april", "may", "june", "july", "august", "september",
    "october", "november", "december"]

private def digitIn (low high : Nat) (c : Char) : Option Nat :=
  if '0'.toNat + low ≤ c.toNat ∧ c.toNat ≤ '0'.toNat + high then some (c.toNat - '0'.toNat) else none

/-- Two digits whose first lies in one range and whose second is accepted by `second`. -/
private def pair? (low high : Nat) (second : Char → Option Nat) :
    List Char → Option (Nat × List Char)
  | a :: b :: rest =>
    match digitIn low high a, second b with
    | some m, some n => some (10 * m + n, rest)
    | _, _ => none
  | _ => none

private def single? (digit : Char → Option Nat) : List Char → Option (Nat × List Char)
  | c :: rest => (digit c).map fun n => (n, rest)
  | [] => none

private def firstOf : List (Option (Nat × List Char)) → Option (Nat × List Char)
  | [] => none
  | some found :: _ => some found
  | none :: rest => firstOf rest

private def fourDigits? : List Char → Option (Nat × List Char)
  | a :: b :: c :: d :: rest =>
    match decimalValue? a, decimalValue? b, decimalValue? c, decimalValue? d with
    | some w, some x, some y, some z => some (1000 * w + 100 * x + 10 * y + z, rest)
    | _, _, _, _ => none
  | _ => none

private def month? (text : List Char) : Option (Nat × List Char) :=
  firstOf [pair? 1 1 (digitIn 0 2) text, pair? 0 0 (digitIn 1 9) text, single? (digitIn 1 9) text]

private def day? (text : List Char) : Option (Nat × List Char) :=
  firstOf [pair? 3 3 (digitIn 0 1) text, pair? 1 2 decimalValue? text,
    pair? 0 0 (digitIn 1 9) text, single? (digitIn 1 9) text,
    match text with
    | ' ' :: rest => single? (digitIn 1 9) rest
    | _ => none]

private def hour? (text : List Char) : Option (Nat × List Char) :=
  firstOf [pair? 2 2 (digitIn 0 3) text, pair? 0 1 decimalValue? text, single? decimalValue? text]

private def minute? (text : List Char) : Option (Nat × List Char) :=
  firstOf [pair? 0 5 decimalValue? text, single? decimalValue? text]

private def second? (text : List Char) : Option (Nat × List Char) :=
  firstOf [pair? 6 6 (digitIn 0 1) text, pair? 0 5 decimalValue? text, single? decimalValue? text]

/-- The position of the first name that the text begins with, from `number` on, in any case. -/
private def name? : List (List Char) → Nat → List Char → Option (Nat × List Char)
  | [], _, _ => none
  | name :: names, number, text =>
    if (text.take name.length).map Char.toLower == name then some (number, text.drop name.length)
    else name? names (number + 1) text

def readPart? (part : Part) (fields : Fields) (text : List Char) : Option (Fields × List Char) :=
  match part with
  | .year => (fourDigits? text).map fun (n, rest) => ({ fields with year := n }, rest)
  | .month => (month? text).map fun (n, rest) => ({ fields with month := n }, rest)
  | .day => (day? text).map fun (n, rest) => ({ fields with day := n }, rest)
  | .hour => (hour? text).map fun (n, rest) => ({ fields with hour := n }, rest)
  | .minute => (minute? text).map fun (n, rest) => ({ fields with minute := n }, rest)
  | .second => (second? text).map fun (n, rest) => ({ fields with second := n }, rest)
  | .monthName =>
    (name? (monthNames.map String.toList) 1 text).map fun (n, rest) =>
      ({ fields with month := n }, rest)
  | .monthShort =>
    (name? (monthNames.map fun name => name.toList.take 3) 1 text).map fun (n, rest) =>
      ({ fields with month := n }, rest)
  | .blank =>
    match text with
    | c :: rest => if isBlank c then some (fields, trimStart rest) else none
    | [] => none
  | .sign c => if text.head? == some c then some (fields, text.drop 1) else none

def readParts? : List Part → Fields → List Char → Option Fields
  | [], fields, text => if text.isEmpty then some fields else none
  | part :: parts, fields, text =>
    match readPart? part fields text with
    | some (fields, rest) => readParts? parts fields rest
    | none => none

def read? (pattern : List Part) (text : List Char) : Option Moment :=
  match readParts? pattern {} text with
  | none => none
  | some f =>
    match Date.ofParts? f.year f.month f.day, Clock.ofParts? f.hour f.minute f.second 0 with
    | some date, some clock => some ⟨date, clock, none⟩
    | _, _ => none

private def slashes : List Part := [.year, .sign '/', .month, .sign '/', .day]

private def hyphens : List Part := [.year, .sign '-', .month, .sign '-', .day]

private def hourMinute : List Part := [.blank, .hour, .sign ':', .minute]

/-- The patterns of dates, in the order in which they are tried. -/
def datePatterns : List (List Part) := [
  slashes,
  slashes ++ hourMinute,
  hyphens ++ hourMinute ++ [.sign ':', .second],
  hyphens ++ hourMinute,
  [.day, .blank, .monthName, .blank, .year],
  [.monthName, .blank, .day, .sign ',', .blank, .year],
  [.monthShort, .blank, .day, .sign ',', .blank, .year]]

end NoteQuery.Pattern

namespace NoteQuery

open NoteQuery.Text

inductive DateReading where
  | none
  | moment (m : Moment)
  /-- The text has an offset that moves the date out of the calendar. -/
  | outOfRange
  deriving DecidableEq, Repr

/-- The date that a text says, blanks around it allowed, in universal time. -/
def readDate (text : String) : DateReading :=
  let text := trim text.toList
  match text.head? with
  | none => .none
  | some c =>
    if isDigit c || isLetter c then
      match Iso.read? text with
      | some (m, none) => .moment m
      | some (m, some micros) =>
        match Moment.ofLocalMicros? (m.localMicros - micros) none with
        | some m => .moment m
        | none => .outOfRange
      | none =>
        match Pattern.datePatterns.findSome? (Pattern.read? · text) with
        | some m => .moment m
        | none => .none
    else .none

end NoteQuery
