import NoteQuery.Number.Numeral
import NoteQuery.Text.Case
import NoteQuery.Value.Order
import NoteQuery.Value.Text
import NoteQuery.Yaml.Document
import NoteQuery.Yaml.Kind

/-!
The data that YAML nodes stand for. Keys of mappings are scalars of any kind, so that `1` and
`1.0` are one key; the last value of a key counts, in the place of its first. A merge key puts the
entries of the mappings behind it in front of the others.
-/

namespace NoteQuery.Yaml

open NoteQuery.Text

namespace Scalar

private def digit? (c : Char) : Option Nat := (decimalValue? c).orElse fun _ => hexValue? c

private def natOf? (base : Nat) (digits : List Char) : Option Nat :=
  if digits.isEmpty then none
  else
    digits.foldlM (fun n c => do
      let d ← digit? c
      if d < base then some (base * n + d) else none) 0

private def negate (negative : Bool) (n : Int) : Int := if negative then -n else n

/-- A whole number to a base. Blanks may stand around it, and a sign and the mark of the base in
front of its digits. -/
private def based? (base : Nat) (letter : Char) (text : List Char) : Option Int :=
  let (negative, digits) := Numeral.cutSign (trim text)
  let digits :=
    match digits with
    | '0' :: c :: rest => if c.toLower == letter then rest else digits
    | _ => digits
  (natOf? base digits).map fun n => negate negative n

private def sixty (parts : List Int) : Int := parts.foldl (fun n d => 60 * n + d) 0

/-- What does not convert is a bad value. -/
def converted {α : Type} : Option α → Except Failure α
  | some a => .ok a
  | none => .error .badValue

/-- A whole number: binary, hexadecimal, octal, of base sixty or decimal. -/
def unsignedInt : List Char → Except Failure Int
  | [] => .error .noDigits
  | ['0'] => .ok 0
  | '0' :: 'b' :: digits => converted (based? 2 'b' digits)
  | '0' :: 'x' :: digits => converted (based? 16 'x' digits)
  | '0' :: digits => converted (based? 8 'o' ('0' :: digits))
  | digits =>
    if digits.contains ':' then
      converted (((pieces ':' digits).mapM fun part => Numeral.readInt? (trim part)).map sixty)
    else converted (Numeral.readInt? (trim digits))

def int (text : List Char) : Except Failure Value :=
  match text.filter (· != '_') with
  | [] => .error .noDigits
  | c :: rest =>
    (unsignedInt (Kind.dropSign (c :: rest))).map fun n => .int (negate (c == '-') n)

/-- Parts of a number of base sixty, the last first. The powers of the base have to be numbers
themselves. -/
private def sixtyFloat? (sum : Binary64) (base : Int) : List Binary64 → Option Binary64
  | [] => some sum
  | part :: parts => do
    let power ← Binary64.ofInt? base
    sixtyFloat? (Binary64.add sum (Binary64.mul part power)) (60 * base) parts

/-- A binary number: an infinity, not-a-number, of base sixty or decimal. -/
def unsignedFloat (unsigned : List Char) : Except Failure Binary64 :=
  if unsigned = ".inf".toList then .ok (.infinite false)
  else if unsigned = ".nan".toList then .ok .nan
  else if unsigned.contains ':' then do
    let parts ← converted ((pieces ':' unsigned).mapM Numeral.readFloat?)
    match sixtyFloat? Binary64.zero 1 parts.reverse with
    | none => .error .outOfRange
    | some x => .ok x
  else converted (Numeral.readFloat? unsigned)

def float (text : List Char) : Except Failure Value :=
  match text.filter (· != '_') with
  | [] => .error .noDigits
  | c :: rest =>
    (unsignedFloat (lowerChars (Kind.dropSign (c :: rest)))).map fun x =>
      .float (if c == '-' then x.neg else x)

private def micros (digits : List Char) : Nat :=
  Numeral.natOfDigits ((digits ++ List.replicate 6 '0').take 6)

private def offset? (zone : Option (Bool × List Char × List Char)) : Option (Option Offset) :=
  match zone with
  | none => some none
  | some (negative, hours, minutes) =>
    let seconds := Numeral.natOfDigits hours * 3600 + Numeral.natOfDigits minutes * 60
    (Offset.ofSeconds? (negate negative seconds)).map some

/-- The day or the moment that the parts of a text name. -/
def momentOf? (m : Kind.MomentText) : Option Value := do
  let date ← Date.ofParts? (Numeral.natOfDigits m.year) (Numeral.natOfDigits m.month)
    (Numeral.natOfDigits m.day)
  match m.time with
  | none => some (.date date)
  | some (hour, minute, second) => do
    let clock ← Clock.ofParts? (Numeral.natOfDigits hour) (Numeral.natOfDigits minute)
      (Numeral.natOfDigits second) (micros m.fraction)
    let offset ← offset? m.zone
    some (.moment ⟨date, clock, offset⟩)

def moment (text : List Char) : Except Failure Value :=
  match Kind.momentText? text with
  | none => .error .noMoment
  | some m => converted (momentOf? m)

def truth (text : String) : Except Failure Value :=
  match Kind.truths.lookup (lower text) with
  | some b => .ok (.bool b)
  | none => .error .noTruth

def value (kind : Kind) (text : String) : Except Failure Value :=
  match kind with
  | .null => .ok .null
  | .bool => truth text
  | .int => int text.toList
  | .float => float text.toList
  | .moment => moment text.toList
  | .text => .ok (.text text)
  | .merge | .equals => .error .malformed

end Scalar

inductive Data where
  | scalar (value : Value)
  | sequence (items : List Data)
  | mapping (pairs : List (Value × Data))
  deriving Repr, Inhabited

namespace Data

/-- Gives a key its value: in the place of the key's earlier value, else at the end. -/
def put (key : Value) (value : Data) : List (Value × Data) → List (Value × Data)
  | [] => [(key, value)]
  | (k, v) :: pairs =>
    if k.same key then (k, value) :: pairs else (k, v) :: put key value pairs

def distinct (pairs : List (Value × Data)) : List (Value × Data) :=
  pairs.foldl (fun found (key, value) => put key value found) []

/-- What a key is: a merge, or a scalar. -/
def keyOf (tag : ScalarTag) (text : String) : Except Failure (Option Value) :=
  match Kind.of? tag text with
  | some .merge => .ok none
  | some .equals => .ok (some (.text text))
  | some kind => (Scalar.value kind text).map some
  | none => .error .malformed

/-- A collection has no tag or the one of its kind. -/
def fits (name : String) (tag : Option String) : Bool :=
  tag.all (· == Kind.standardTag name)

mutual

def ofNode : Node → Except Failure Data
  | .scalar tag text =>
    match Kind.of? tag text with
    | some kind => (Scalar.value kind text).map scalar
    | none => .error .malformed
  | .sequence tag items => do
    if !fits "seq" tag then throw .malformed
    let items ← ofNodes items
    .ok (sequence items)
  | .mapping tag pairs => do
    if !fits "map" tag then throw .malformed
    let (taken, own) ← ofPairs pairs
    .ok (mapping (distinct (taken ++ own)))

def ofNodes : List Node → Except Failure (List Data)
  | [] => .ok []
  | node :: nodes => do
    let first ← ofNode node
    let rest ← ofNodes nodes
    .ok (first :: rest)

def ofPairs :
    List (Node × Node) → Except Failure (List (Value × Data) × List (Value × Data))
  | [] => .ok ([], [])
  | (.scalar tag text, node) :: pairs => do
    match ← keyOf tag text with
    | some key =>
      let value ← ofNode node
      let (taken, own) ← ofPairs pairs
      .ok (taken, (key, value) :: own)
    | none =>
      let entries ← mergedFrom node
      let (taken, own) ← ofPairs pairs
      .ok (entries ++ taken, own)
  | _ :: _ => .error .malformed

/-- The entries that a merge key takes in, whatever the tag: those of a mapping, or of several, of
which an earlier one counts more. -/
def mergedFrom : Node → Except Failure (List (Value × Data))
  | .mapping _ pairs => do
    let (taken, own) ← ofPairs pairs
    .ok (taken ++ own)
  | .sequence _ items => mergedFromAll items
  | .scalar _ _ => .error .malformed

def mergedFromAll : List Node → Except Failure (List (Value × Data))
  | [] => .ok []
  | .mapping _ pairs :: nodes => do
    let (taken, own) ← ofPairs pairs
    let later ← mergedFromAll nodes
    .ok (later ++ (taken ++ own))
  | _ :: _ => .error .malformed

end

def keyText (key : Value) : String :=
  match key.plainText with
  | .ok text => text
  | .error _ => ""

mutual

def toValue : Data → Value
  | scalar v => v
  | sequence items => .list (itemValues items)
  | mapping pairs => .map (Entries.ofList (pairValues pairs))

def itemValues : List Data → List Value
  | [] => []
  | item :: items => toValue item :: itemValues items

def pairValues : List (Value × Data) → List (String × Value)
  | [] => []
  | (key, value) :: pairs => (keyText key, toValue value) :: pairValues pairs

end

def ofText (d : Dialect) (text : String) : Except Failure Data := do
  match ← Node.ofText d text with
  | none => .ok (scalar .null)
  | some node => ofNode node

end Data

end NoteQuery.Yaml
