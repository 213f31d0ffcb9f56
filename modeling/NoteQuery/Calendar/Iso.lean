import NoteQuery.Calendar.Moment

/-!
Moments written by the ISO standard: a day (`2026-01-15`, `20260115`, or a week such as
`2026-W03-4`), then perhaps one separating character, a time of day with two digits to each part,
and an offset. Only ASCII digits count. The reader is lenient where the parts cannot be mistaken:
in front of an offset, one character after the time and anything after six digits of a fraction
are passed over.
-/

namespace NoteQuery.Iso

open Calendar

def digit? (c : Char) : Option Nat :=
  if '0' ≤ c ∧ c ≤ '9' then some (c.toNat - '0'.toNat) else none

def isDigit (c : Char) : Bool := (digit? c).isSome

def digits? : Nat → List Char → Option (Nat × List Char)
  | 0, text => some (0, text)
  | _ + 1, [] => none
  | count + 1, c :: text =>
    match digit? c, digits? count text with
    | some d, some (n, rest) => some (d * Nat.pow 10 count + n, rest)
    | _, _ => none

/-- The day with a number of the ISO week calendar. A year has a 53rd week when it begins on a
Thursday, or on a Wednesday and is a leap year. -/
def ofWeek? (year week day : Nat) : Option Date :=
  match Date.ofParts? year 1 1 with
  | none => none
  | some first =>
    let long := first.weekday == 3 || (first.weekday == 2 && isLeap year)
    if 1 ≤ week ∧ (week ≤ 52 ∨ week = 53 ∧ long = true) ∧ 1 ≤ day ∧ day ≤ 7 then
      let monday := first.number + (if first.weekday ≤ 3 then 0 else 7)
      let n := monday + 7 * (week - 1) + (day - 1)
      if first.weekday < n then Date.ofNumber? (n - first.weekday) else none
    else none

/-- How many characters at the front of the text are the day. The fifth character tells the
forms apart; digits after a week without hyphens belong to the time when they come in pairs. -/
def dayLength (text : List Char) : Nat :=
  match text.drop 4 with
  | '-' :: 'W' :: _ =>
    if text[8]? == some '-' && !((text[10]?.map isDigit).getD false) then 10 else 8
  | '-' :: _ => 10
  | 'W' :: _ =>
    let stop := 7 + ((text.drop 7).takeWhile isDigit).length
    if stop < 9 then stop else if stop % 2 = 0 then 7 else 8
  | _ => 8

def readDay? (text : List Char) : Option Date :=
  match digits? 4 text with
  | none => none
  | some (year, rest) =>
    let hyphens := rest.head? == some '-'
    let rest := if hyphens then rest.drop 1 else rest
    let afterHyphen (rest : List Char) : Option (List Char) :=
      if hyphens then if rest.head? == some '-' then some (rest.drop 1) else none else some rest
    match rest with
    | 'W' :: rest =>
      match digits? 2 rest with
      | none => none
      | some (week, []) => ofWeek? year week 1
      | some (week, rest) =>
        match (afterHyphen rest).bind (digits? 1) with
        | some (day, _) => ofWeek? year week day
        | none => none
    | rest =>
      match digits? 2 rest with
      | none => none
      | some (month, rest) =>
        match (afterHyphen rest).bind (digits? 2) with
        | some (day, []) => Date.ofParts? year month day
        | _ => none

/-- The parts of a time or an offset, not yet checked for their ranges. `whole` says that the
text ended with the last of them. -/
structure Parts where
  hour : Nat
  minute : Nat
  second : Nat
  micro : Nat
  whole : Bool

/-- A fraction of a second. Digits past the sixth are dropped. -/
def readFraction? (text : List Char) : Option (Nat × Bool) :=
  let count := min text.length 6
  match digits? count text with
  | some (n, rest) => some (n * Nat.pow 10 (6 - count), (rest.dropWhile isDigit).isEmpty)
  | none => none

/-- The numbers of a time after those in `before`, of which there are at most `more + 1`, then the
fraction. With colons every number but the last is followed by one. -/
def readNumbers? (before : List Nat) (colons : Bool) :
    Nat → List Char → Option (List Nat × Nat × Bool)
  | more, text =>
    match digits? 2 text with
    | none => none
    | some (n, rest) =>
      let read := before ++ [n]
      match rest with
      | [] => some (read, 0, true)
      | [c] => if c.toNat < 128 then some (read, 0, false) else none
      | c :: rest =>
        let colons := if before.isEmpty then c == ':' else colons
        let fraction (text : List Char) : Option (List Nat × Nat × Bool) :=
          (readFraction? text).map fun (micro, whole) => (read, micro, whole)
        let goOn (text : List Char) : Option (List Nat × Nat × Bool) :=
          match more with
          | 0 => fraction text
          | more + 1 => readNumbers? read colons more text
        if colons && c == ':' then goOn rest
        else if c == '.' || c == ',' then fraction rest
        else if !colons then goOn (c :: rest)
        else none

def readParts? (text : List Char) : Option Parts :=
  (readNumbers? [] false 2 text).map fun (numbers, micro, whole) =>
    ⟨numbers[0]?.getD 0, numbers[1]?.getD 0, numbers[2]?.getD 0, micro, whole⟩

def beginsOffset (c : Char) : Bool := c == '+' || c == '-' || c == 'Z'

/-- The microseconds of an offset, its sign or `Z` included. A whole offset of zero seconds is
universal time, whatever its fraction. -/
def readOffset? : List Char → Option Int
  | ['Z'] => some 0
  | sign :: text =>
    if sign == '+' || sign == '-' then
      match readParts? text with
      | some parts =>
        let seconds := (parts.hour * 60 + parts.minute) * 60 + parts.second
        let micros : Int := if seconds = 0 then 0 else (seconds * 1000000 + parts.micro : Nat)
        if parts.whole && decide (micros < Moment.microsPerDay) then
          some (if sign == '-' then -micros else micros)
        else none
      | none => none
    else none
  | [] => none

def readTime? (text : List Char) : Option (Clock × Option Int) :=
  let front := text.takeWhile (fun c => !beginsOffset c)
  let back := text.dropWhile (fun c => !beginsOffset c)
  match readParts? front with
  | none => none
  | some parts =>
    match Clock.ofParts? parts.hour parts.minute parts.second parts.micro with
    | none => none
    | some clock =>
      if back.isEmpty then if parts.whole then some (clock, none) else none
      else (readOffset? back).map fun micros => (clock, some micros)

/-- What an ISO text says: the moment its clock shows, and the microseconds of its offset. -/
def read? (text : List Char) : Option (Moment × Option Int) :=
  if text.length < 7 then none
  else
    let length := if text.length = 7 ∧ text.all (·.toNat < 128) then 7 else dayLength text
    match readDay? (text.take length) with
    | none => none
    | some date =>
      match text.drop length with
      | [] => some (Moment.startOf date, none)
      | _ :: time =>
        (readTime? time).map fun (clock, micros) => (⟨date, clock, none⟩, micros)

end NoteQuery.Iso
