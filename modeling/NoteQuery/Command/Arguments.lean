import NoteQuery.Number.Numeral
import NoteQuery.Text.Search

/-!
Arguments of a command line. An option begins with a dash and takes the next argument as its value,
unless the value follows behind an equals sign or, for an option of one letter, at once. Two dashes
alone end the options.
-/

namespace NoteQuery.Command

open NoteQuery.Text

structure OptionName where
  names : List String
  takesValue : Bool
  deriving Repr

structure Arguments where
  options : List (String × String)
  rest : List String
  deriving Repr

namespace Arguments

def value? (a : Arguments) (name : String) : Option String := a.options.reverse.lookup name

def has (a : Arguments) (name : String) : Bool := (a.value? name).isSome

end Arguments

def findOption? (known : List OptionName) (name : String) : Option OptionName :=
  known.find? fun o => o.names.contains name

private def give (o : OptionName) (value : String) (a : Arguments) : Arguments :=
  { a with options := (o.names.headD "", value) :: a.options }

/-- Options of one letter behind one dash. The first that takes a value takes the letters after it,
or the next argument where none are left; that one is then used. -/
def letters? (known : List OptionName) (next : Option String) :
    List Char → Option (List (OptionName × String) × Bool)
  | [] => some ([], false)
  | c :: rest => do
    let o ← findOption? known (String.ofList ['-', c])
    if o.takesValue then
      if rest.isEmpty then next.map fun value => ([(o, value)], true)
      else some ([(o, String.ofList rest)], false)
    else
      let (others, used) ← letters? known next rest
      some ((o, "") :: others, used)

def options? (known : List OptionName) (argument : String) (next : Option String) :
    Option (List (OptionName × String) × Bool) :=
  let cs := argument.toList
  let name := String.ofList (cutAt '=' cs).1
  match if cs.take 2 = ['-', '-'] then findOption? known name else none with
  | some o =>
    if cs.contains '=' then
      if o.takesValue then some ([(o, String.ofList (cutAt '=' cs).2)], false) else none
    else if o.takesValue then next.map fun value => ([(o, value)], true)
    else some ([(o, "")], false)
  | none => if cs.take 2 = ['-', '-'] then none else letters? known next (cs.drop 1)

/-- Reads arguments. Options may stand behind other arguments only where `mixed` says so. -/
def readArguments (known : List OptionName) (mixed : Bool) : List String → Option Arguments
  | [] => some ⟨[], []⟩
  | argument :: rest =>
    if argument = "--" then some ⟨[], rest⟩
    else if argument.toList.head? = some '-' && 1 < argument.length then
      match options? known argument rest.head? with
      | none => none
      | some (found, used) =>
        let later :=
          match used, rest with
          | true, _ :: rest => readArguments known mixed rest
          | _, rest => readArguments known mixed rest
        later.map fun a => found.reverse.foldl (fun a (o, value) => give o value a) a
    else if mixed then
      (readArguments known mixed rest).map fun a => { a with rest := argument :: a.rest }
    else some ⟨[], argument :: rest⟩

def countOf? (text : String) : Option Nat :=
  let cs := trim text.toList
  if Numeral.underscoresFit ' ' cs then
    match Numeral.readInt? (cs.filter (· != '_')) with
    | some n => if 1 ≤ n then some n.toNat else none
    | none => none
  else none

end NoteQuery.Command
