import NoteQuery.Value
import NoteQuery.Number.Numeral
import NoteQuery.Number.Shortest
import NoteQuery.Text.Quoted

/-!
Three texts of a value. `display` is what expressions, cells and messages to the user see: null
is empty, a whole binary number loses its point, a moment at midnight is its day, and a map is
JSON. `json` is the JSON text itself, on one line or indented. `quoted` is the exact form that an
error message quotes. A whole number of more digits than may be written makes the last two fail;
on its own it is displayed by its leading digits and a power of ten.
-/

namespace NoteQuery

open NoteQuery.Text

def wholeText? (n : Int) : Option String :=
  if n.natAbs.log2 < 14284 || n.natAbs < Nat.pow 10 Numeral.maxDigits then some (toString n) else none

/-- Fifteen leading digits and the power of ten of a long whole number. -/
def scientificText (n : Int) : String :=
  let exponent := (Nat.toDigits 10 n.natAbs).length - 1
  let size :=
    match Binary64.ofQuotient? n.natAbs (Nat.pow 10 exponent) with
    | some (.finite _ m) => m.ratio
    | _ => (1, 1)
  let (num, den, exponent) :=
    if 10 * size.2 ≤ size.1 then (size.1, 10 * size.2, exponent + 1)
    else (size.1, size.2, exponent)
  (if n < 0 then "-" else "") ++ significantText 15 num den ++ "e+" ++ toString exponent

namespace Value

/-- A whole binary number below `2 ^ 53` in size becomes a whole number. -/
def collapse (x : Binary64) : Value :=
  match x.toInt? with
  | some n => if n.natAbs < Nat.pow 2 53 then int n else float x
  | none => float x

structure JsonTexts where
  moment : Moment → String

def JsonTexts.short : JsonTexts := ⟨Moment.shortText⟩

def JsonTexts.full : JsonTexts := ⟨Moment.text⟩

mutual

def json (texts : JsonTexts) : Value → Except Fault String
  | null => .ok "null"
  | bool b => .ok (if b then "true" else "false")
  | int n =>
    match wholeText? n with
    | some s => .ok s
    | none => .error .badValue
  | float x => .ok (NumberLayout.json.text x)
  | text s => .ok (jsonQuoted s)
  | moment m => .ok (jsonQuoted (texts.moment m))
  | date d => .ok (jsonQuoted d.text)
  | list items => do
    let parts ← jsonItems texts items
    .ok ("[" ++ ", ".intercalate parts ++ "]")
  | map entries => do
    let parts ← jsonEntries texts entries
    .ok ("\x7b" ++ ", ".intercalate parts ++ "\x7d")

def jsonItems (texts : JsonTexts) : List Value → Except Fault (List String)
  | [] => .ok []
  | item :: items => do
    let first ← json texts item
    let rest ← jsonItems texts items
    .ok (first :: rest)

def jsonEntries (texts : JsonTexts) : List (String × Value) → Except Fault (List String)
  | [] => .ok []
  | (name, value) :: entries => do
    let first ← json texts value
    let rest ← jsonEntries texts entries
    .ok ((jsonQuoted name ++ ": " ++ first) :: rest)

end

/-- Sets the parts of a list or a map on lines of their own, two blanks further in than `margin`. -/
def indentParts (opening closing margin : String) (parts : List String) : String :=
  if parts.isEmpty then opening ++ closing
  else
    let inner := "\n" ++ margin ++ "  "
    opening ++ inner ++ ("," ++ inner).intercalate parts ++ "\n" ++ margin ++ closing

mutual

def jsonIndented (texts : JsonTexts) (margin : String) : Value → Except Fault String
  | list items => do
    let parts ← jsonIndentedItems texts (margin ++ "  ") items
    .ok (indentParts "[" "]" margin parts)
  | map entries => do
    let parts ← jsonIndentedEntries texts (margin ++ "  ") entries
    .ok (indentParts "\x7b" "\x7d" margin parts)
  | null => json texts null
  | bool b => json texts (bool b)
  | int n => json texts (int n)
  | float x => json texts (float x)
  | text s => json texts (text s)
  | moment m => json texts (moment m)
  | date d => json texts (date d)

def jsonIndentedItems (texts : JsonTexts) (margin : String) :
    List Value → Except Fault (List String)
  | [] => .ok []
  | item :: items => do
    let first ← jsonIndented texts margin item
    let rest ← jsonIndentedItems texts margin items
    .ok (first :: rest)

def jsonIndentedEntries (texts : JsonTexts) (margin : String) :
    List (String × Value) → Except Fault (List String)
  | [] => .ok []
  | (name, value) :: entries => do
    let first ← jsonIndented texts margin value
    let rest ← jsonIndentedEntries texts margin entries
    .ok ((jsonQuoted name ++ ": " ++ first) :: rest)

end

mutual

def display : Value → Except Fault String
  | null => .ok ""
  | bool b => .ok (if b then "true" else "false")
  | int n => .ok ((wholeText? n).getD (scientificText n))
  | float x =>
    match collapse x with
    | int n => .ok (toString n)
    | _ => .ok (NumberLayout.plain.text x)
  | text s => .ok s
  | moment m => .ok m.shortText
  | date d => .ok d.text
  | list items => do
    let parts ← displayItems items
    .ok (", ".intercalate parts)
  | map entries => json .short (map entries)

def displayItems : List Value → Except Fault (List String)
  | [] => .ok []
  | item :: items => do
    let first ← display item
    let rest ← displayItems items
    .ok (first :: rest)

end

/-- The offset as a message quotes it: days and the seconds after them. -/
private def quotedOffset (o : Offset) : String :=
  if o.seconds = 0 then "datetime.timezone.utc"
  else
    let parts :=
      if o.seconds < 0 then
        "days=-1" ++ (if o.seconds = -86400 then "" else ", seconds=" ++ toString (o.seconds + 86400))
      else "seconds=" ++ toString o.seconds
    "datetime.timezone(datetime.timedelta(" ++ parts ++ "))"

private def quotedMoment (m : Moment) : String :=
  let c := m.clock
  let numbers := [m.date.year, m.date.month, m.date.day, c.hour, c.minute] ++
    (if c.second = 0 ∧ c.micro = 0 then [] else [c.second]) ++
    (if c.micro = 0 then [] else [c.micro])
  "datetime.datetime(" ++ ", ".intercalate (numbers.map toString) ++
    (match m.offset with
    | some o => ", tzinfo=" ++ quotedOffset o
    | none => "") ++ ")"

private def quotedDate (d : Date) : String :=
  "datetime.date(" ++ ", ".intercalate ([d.year, d.month, d.day].map toString) ++ ")"

mutual

def quoted : Value → Except Fault String
  | null => .ok "None"
  | bool b => .ok (if b then "True" else "False")
  | int n =>
    match wholeText? n with
    | some s => .ok s
    | none => .error .badValue
  | float x => .ok (NumberLayout.plain.text x)
  | text s => .ok (Text.quoted s)
  | moment m => .ok (quotedMoment m)
  | date d => .ok (quotedDate d)
  | list items => do
    let parts ← quotedItems items
    .ok ("[" ++ ", ".intercalate parts ++ "]")
  | map entries => do
    let parts ← quotedEntries entries
    .ok ("\x7b" ++ ", ".intercalate parts ++ "\x7d")

def quotedItems : List Value → Except Fault (List String)
  | [] => .ok []
  | item :: items => do
    let first ← quoted item
    let rest ← quotedItems items
    .ok (first :: rest)

def quotedEntries : List (String × Value) → Except Fault (List String)
  | [] => .ok []
  | (name, value) :: entries => do
    let first ← quoted value
    let rest ← quotedEntries entries
    .ok ((Text.quoted name ++ ": " ++ first) :: rest)

end

/-- The plain text of a value: a text as it is, a moment with a blank between day and time, all
else as a message quotes it. -/
def plainText : Value → Except Fault String
  | text s => .ok s
  | date d => .ok d.text
  | moment m => .ok (m.text.map fun c => if c = 'T' then ' ' else c)
  | v => quoted v

end Value

end NoteQuery
