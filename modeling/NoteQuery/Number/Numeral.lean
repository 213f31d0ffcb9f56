import NoteQuery.Number.Binary64
import NoteQuery.Text.Letter
import NoteQuery.Text.Blank

/-!
Numbers read from text. Digits of every script count; a whole number may have at most
`maxDigits` of them. A number with a point or an exponent is rounded once, from its exact value,
and may hold underscores between digits.
-/

namespace NoteQuery.Numeral

open NoteQuery.Text

/-- The longest whole number that is read or written in full. -/
def maxDigits : Nat := 4300

def natOfDigits (digits : List Char) : Nat :=
  digits.foldl (fun n c => 10 * n + (decimalValue? c).getD 0) 0

def readNat? (text : List Char) : Option Nat :=
  if !text.isEmpty && text.all isDecimal && text.length ≤ maxDigits then some (natOfDigits text)
  else none

def cutSign : List Char → Bool × List Char
  | '-' :: rest => (true, rest)
  | '+' :: rest => (false, rest)
  | text => (false, text)

/-- Digits with at most one sign in front of them, however many. -/
def isWhole (text : List Char) : Bool :=
  let digits := (cutSign text).2
  !digits.isEmpty && digits.all isDecimal

def readInt? (text : List Char) : Option Int :=
  let (negative, digits) := cutSign text
  (readNat? digits).map fun n => if negative then -(n : Int) else n

/-- Every underscore stands between two digits; `previous` is the character read before. -/
def underscoresFit (previous : Char) : List Char → Bool
  | [] => previous != '_'
  | c :: rest =>
    (if c == '_' then isDecimal previous else previous != '_' || isDecimal c) &&
      underscoresFit c rest

/-- The number nearest to `digits * 10 ^ exponent`. Exponents far outside the range of numbers
are answered without computing the power. -/
def ofDecimal (negative : Bool) (digits : List Char) (exponent : Int) : Binary64 :=
  let significant := digits.dropWhile (fun c => decimalValue? c == some 0)
  let n := natOfDigits significant
  let size := exponent + significant.length
  if n = 0 then .finite negative .zero
  else if 400 < size then .infinite negative
  else if size < -400 then .finite negative .zero
  else if 0 ≤ exponent then Binary64.ofRatio negative (n * Nat.pow 10 exponent.toNat) 1
  else Binary64.ofRatio negative n (Nat.pow 10 (-exponent).toNat)

def readExponent? : List Char → Option Int
  | [] => some 0
  | e :: rest =>
    if e == 'e' || e == 'E' then
      let (negative, digits) := cutSign rest
      if !digits.isEmpty && digits.all isDecimal then
        some (if negative then -(natOfDigits digits : Int) else natOfDigits digits)
      else none
    else none

private def smallLetters (text : List Char) : List Char := text.map Char.toLower

/-- A number without underscores and blanks: digits with or without a point, perhaps an exponent,
or one of the names of what is no finite number. -/
def readUnsigned? (negative : Bool) (text : List Char) : Option Binary64 :=
  let small := smallLetters text
  if small == "inf".toList || small == "infinity".toList then some (.infinite negative)
  else if small == "nan".toList then some .nan
  else
    let whole := text.takeWhile isDecimal
    let rest := text.dropWhile isDecimal
    let (part, rest) :=
      match rest with
      | '.' :: more => (more.takeWhile isDecimal, more.dropWhile isDecimal)
      | _ => ([], rest)
    if whole.isEmpty && part.isEmpty then none
    else
      (readExponent? rest).map fun exponent =>
        ofDecimal negative (whole ++ part) (exponent - part.length)

def readFloat? (text : List Char) : Option Binary64 :=
  let text := trim text
  if underscoresFit ' ' text then
    let (negative, digits) := cutSign (text.filter (· != '_'))
    readUnsigned? negative digits
  else none

end NoteQuery.Numeral
