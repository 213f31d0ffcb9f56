import NoteQuery.Number.Numeral
import NoteQuery.Value

/-!
Checking of given values against what a record wants in its fields. A check collects every problem,
in the order of the fields, each with the place where it is. Conversions are lenient: a text that
spells a whole number is one, and words such as `yes` and `off` are truth values; texts themselves
are never made from other values.
-/

namespace NoteQuery

inductive Complaint where
  | required
  | notText
  | emptyText
  | notWhole
  | unreadableWhole
  | tooLongWhole
  | fractionalWhole
  | notFinite
  | below (least : Int)
  | notTruth
  | unreadableTruth
  | notList
  | emptyList
  | notOneOf (choices : List String)
  | notRecord (name : String)
  | rule (text : String)
  deriving DecidableEq, Repr

structure Problem where
  place : List String
  complaint : Complaint
  deriving DecidableEq, Repr

/-- A checked value, or all the problems with it. -/
abbrev Checked (α : Type) := Except (List Problem) α

namespace Complaint

/-- The choices in quotes, with `or` before the last. -/
def choicesText : List String → String
  | [] => ""
  | [last] => "'" ++ last ++ "'"
  | [first, last] => "'" ++ first ++ "' or '" ++ last ++ "'"
  | first :: others => "'" ++ first ++ "', " ++ choicesText others

def message : Complaint → String
  | required => "Field required"
  | notText => "Input should be a valid string"
  | emptyText => "String should have at least 1 character"
  | notWhole => "Input should be a valid integer"
  | unreadableWhole => "Input should be a valid integer, unable to parse string as an integer"
  | tooLongWhole => "Unable to parse input string as an integer, exceeded maximum size"
  | fractionalWhole => "Input should be a valid integer, got a number with a fractional part"
  | notFinite => "Input should be a finite number"
  | below least => "Input should be greater than or equal to " ++ toString least
  | notTruth => "Input should be a valid boolean"
  | unreadableTruth => "Input should be a valid boolean, unable to interpret input"
  | notList => "Input should be a valid list"
  | emptyList => "List should have at least 1 item after validation, not 0"
  | notOneOf choices => "Input should be " ++ choicesText choices
  | notRecord name => "Input should be a valid dictionary or instance of " ++ name
  | rule text => "Value error, " ++ text

end Complaint

namespace Problem

def message (p : Problem) : String :=
  (if p.place.isEmpty then "<root>" else ".".intercalate p.place) ++ ": " ++ p.complaint.message

def messages (problems : List Problem) : String := "; ".intercalate (problems.map message)

end Problem

namespace Checked

variable {α β : Type}

def refuse (complaint : Complaint) : Checked α := .error [⟨[], complaint⟩]

/-- Two checks, with the problems of both. -/
def both : Checked α → Checked β → Checked (α × β)
  | .ok a, .ok b => .ok (a, b)
  | .ok _, .error problems => .error problems
  | .error problems, .ok _ => .error problems
  | .error first, .error second => .error (first ++ second)

def within (place : String) : Checked α → Checked α
  | .ok a => .ok a
  | .error problems => .error (problems.map fun p => { p with place := place :: p.place })

def itemsFrom (check : Value → Checked α) (i : Nat) : List Value → Checked (List α)
  | [] => .ok []
  | v :: rest =>
    (both (within (toString i) (check v)) (itemsFrom check (i + 1) rest)).map
      fun (first, others) => first :: others

def list (check : Value → Checked α) : Value → Checked (List α)
  | .list items => itemsFrom check 0 items
  | _ => refuse .notList

def optional (check : Value → Checked α) : Value → Checked (Option α)
  | .null => .ok none
  | v => (check v).map some

/-- The first of a field's names that the entries give, with the value there. -/
def given? (entries : Entries) (names : List String) : Option (String × Value) :=
  names.findSome? fun name => (entries.find? name).map fun v => (name, v)

def fieldOr (entries : Entries) (names : List String) (missing : α) (check : Value → Checked α) :
    Checked α :=
  match given? entries names with
  | some (name, v) => within name (check v)
  | none => .ok missing

def field (entries : Entries) (name : String) (check : Value → Checked α) : Checked α :=
  match entries.find? name with
  | some v => within name (check v)
  | none => within name (refuse .required)

def text : Value → Checked String
  | .text s => .ok s
  | _ => refuse .notText

def fullText : Value → Checked String
  | .text s => if s.isEmpty then refuse .emptyText else .ok s
  | _ => refuse .notText

/-- Underscores stand between digits, one at a time. -/
private def withoutUnderscores? (digits : List Char) : Option (List Char) :=
  if digits.head? = some '_' ∨ digits.getLast? = some '_' then none
  else if (digits.zip (digits.drop 1)).contains ('_', '_') then none
  else some (digits.filter (· != '_'))

/-- The whole number that a text spells. Noughts may follow a point. -/
def wholeOfText? (text : List Char) : Option Int :=
  let (negative, digits) := Numeral.cutSign (Text.trim text)
  let whole := digits.takeWhile (· != '.')
  let part := (digits.dropWhile (· != '.')).drop 1
  if part.all (· == '0') then
    match withoutUnderscores? whole with
    | some digits =>
      if !digits.isEmpty && digits.all Char.isDigit then
        let n := Numeral.natOfDigits digits
        some (if negative then -(n : Int) else n)
      else none
    | none => none
  else none

/-- A whole number that is read from another kind of number has to fit into a machine word. -/
def fitsWord (n : Int) : Bool := n.natAbs < Nat.pow 2 63

def whole : Value → Checked Int
  | .int n => .ok n
  | .bool b => .ok (if b then 1 else 0)
  | .float x =>
    if x.isFinite then
      match x.toInt? with
      | some n => if fitsWord n then .ok n else refuse .tooLongWhole
      | none => refuse .fractionalWhole
    else refuse .notFinite
  | .text s =>
    if Numeral.maxDigits < s.utf8ByteSize then refuse .tooLongWhole
    else
      match wholeOfText? s.toList with
      | some n => .ok n
      | none => refuse .unreadableWhole
  | _ => refuse .notWhole

def wholeFrom (least : Int) (v : Value) : Checked Int :=
  match whole v with
  | .ok n => if n < least then refuse (.below least) else .ok n
  | .error problems => .error problems

def truthOfText? (text : String) : Option Bool :=
  let word := String.ofList (text.toList.map Char.toLower)
  if ["1", "t", "y", "yes", "on", "true"].contains word then some true
  else if ["0", "f", "n", "no", "off", "false"].contains word then some false
  else none

private def truthOfInt (n : Int) : Checked Bool :=
  if n = 0 then .ok false
  else if n = 1 then .ok true
  else if fitsWord n then refuse .unreadableTruth
  else refuse .notTruth

def truth : Value → Checked Bool
  | .bool b => .ok b
  | .int n => truthOfInt n
  | .float x =>
    match x.toInt? with
    | some n => truthOfInt n
    | none => refuse .notTruth
  | .text s =>
    match truthOfText? s with
    | some b => .ok b
    | none => refuse .unreadableTruth
  | _ => refuse .notTruth

def choice (choices : List (String × α)) : Value → Checked α
  | .text s =>
    match choices.lookup s with
    | some a => .ok a
    | none => refuse (.notOneOf (choices.map Prod.fst))
  | _ => refuse (.notOneOf (choices.map Prod.fst))

end Checked

end NoteQuery
