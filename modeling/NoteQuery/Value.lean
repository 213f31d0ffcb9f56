import NoteQuery.Calendar.Pattern
import NoteQuery.Number.Binary64

/-!
The values that notes hold and expressions compute: null, truth values, whole numbers of any
size, binary numbers, texts, moments, days, lists, and maps that keep the order of their keys.
-/

namespace NoteQuery

inductive Value where
  | null
  | bool (b : Bool)
  | int (n : Int)
  | float (x : Binary64)
  | text (s : String)
  | moment (m : Moment)
  | date (d : Date)
  | list (items : List Value)
  | map (entries : List (String × Value))
  deriving Repr, Inhabited

/-- Named values in the order in which the names were first given; a name has one value. -/
abbrev Entries := List (String × Value)

/-- A failure of a conversion or an operation, known by its kind alone. -/
inductive Fault where
  /-- A number or a date is outside what can be represented. -/
  | outOfRange
  /-- A value has no form of the kind that is asked for. -/
  | badValue
  /-- An operation does not take values of these kinds, or that many of them. -/
  | badType
  deriving DecidableEq, Repr

namespace Value

def kindName : Value → String
  | null => "NoneType"
  | bool _ => "bool"
  | int _ => "int"
  | float _ => "float"
  | text _ => "str"
  | moment _ => "datetime"
  | date _ => "date"
  | list _ => "list"
  | map _ => "dict"

def isNull : Value → Bool
  | null => true
  | _ => false

/-- A number; a truth value is none. -/
def isNumber : Value → Bool
  | int _ => true
  | float _ => true
  | _ => false

/-- Null, false, zero, not-a-number and what is empty do not hold; all else does. -/
def truthy : Value → Bool
  | null => false
  | bool b => b
  | int n => n != 0
  | float x => !x.isZero && !x.isNaN
  | text s => !s.isEmpty
  | list items => !items.isEmpty
  | map entries => !entries.isEmpty
  | moment _ => true
  | date _ => true

def texts (items : List String) : Value := list (items.map text)

def ofMoment? : Option Moment → Value
  | some m => moment m
  | none => null

end Value

namespace Entries

def find? (entries : Entries) (name : String) : Option Value := entries.lookup name

def get (entries : Entries) (name : String) : Value := (entries.find? name).getD .null

def has (entries : Entries) (name : String) : Bool := (entries.find? name).isSome

def names (entries : Entries) : List String := entries.map Prod.fst

/-- Gives a name its value: in the place of the name's earlier value, else at the end. -/
def put {α : Type} (name : String) (value : α) : List (String × α) → List (String × α)
  | [] => [(name, value)]
  | (other, old) :: rest =>
    if other == name then (name, value) :: rest else (other, old) :: put name value rest

/-- Takes a name away with its value. -/
def drop {α : Type} (name : String) (entries : List (String × α)) : List (String × α) :=
  entries.filter fun entry => entry.1 != name

def putAll {α : Type} (entries later : List (String × α)) : List (String × α) :=
  later.foldl (fun acc entry => put entry.1 entry.2 acc) entries

/-- Entries from pairs in which a name may come again; its last value counts. -/
def ofList {α : Type} (pairs : List (String × α)) : List (String × α) := putAll [] pairs

end Entries

end NoteQuery
