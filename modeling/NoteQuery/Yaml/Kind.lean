import NoteQuery.Text.Search
import NoteQuery.Yaml.Node

/-!
The kind of a scalar. A plain scalar says by its text what it is: a truth value, a number in one of
several bases, a day, a moment, nothing, or else a text. A tag says the kind whatever the text.
-/

namespace NoteQuery.Yaml

open NoteQuery.Text

inductive Kind where
  | null
  | bool
  | int
  | float
  | moment
  | text
  /-- As a key, it takes in the entries of other mappings. -/
  | merge
  /-- The equals sign; only a key may be of this kind, and is then a text. -/
  | equals
  deriving DecidableEq, Repr

namespace Kind

/-- Truth values, in any of three spellings. -/
def truths : List (String × Bool) := [("yes", true), ("no", false), ("true", true),
  ("false", false), ("on", true), ("off", false)]

/-- Small letters, a capital in front, or capitals. -/
def spellings (word : String) : List String := [word, word.capitalize, word.toUpper]

def spelled (words : List String) (text : String) : Bool :=
  words.any fun word => (spellings word).contains text

/-- Not empty, and of such characters and underscores. -/
def rowOf (p : Char → Bool) (cs : List Char) : Bool :=
  !cs.isEmpty && cs.all fun c => p c || c == '_'

def isOctalDigit (c : Char) : Bool := '0' ≤ c && c ≤ '7'

def isBinaryDigit (c : Char) : Bool := c == '0' || c == '1'

def dropSign : List Char → List Char
  | c :: rest => if c == '+' || c == '-' then rest else c :: rest
  | [] => []

/-- A number below sixty, of one digit or two. -/
def isSixtieth : List Char → Bool
  | [d] => d.isDigit
  | [c, d] => '0' ≤ c && c ≤ '5' && d.isDigit
  | _ => false

/-- A digit other than nought, and digits. -/
def isCount : List Char → Bool
  | c :: rest => c.isDigit && c != '0' && rest.all fun d => d.isDigit || d == '_'
  | [] => false

def isWhole (cs : List Char) : Bool :=
  match cs with
  | ['0'] => true
  | '0' :: 'b' :: digits => rowOf isBinaryDigit digits
  | '0' :: 'x' :: digits => rowOf (fun c => (hexValue? c).isSome) digits
  | '0' :: digits => rowOf isOctalDigit digits
  | _ =>
    match pieces ':' cs with
    | first :: parts => isCount first && parts.all isSixtieth
    | [] => false

def isExponent : List Char → Bool
  | [] => true
  | e :: sign :: digits =>
    (e == 'e' || e == 'E') && (sign == '+' || sign == '-') && !digits.isEmpty &&
      digits.all Char.isDigit
  | _ => false

def isRowSign (c : Char) : Bool := c.isDigit || c == '_'

def beginsWithDigit (cs : List Char) : Bool := cs.head?.any Char.isDigit

def isPointed (cs : List Char) : Bool :=
  beginsWithDigit cs &&
    match cs.dropWhile isRowSign with
    | '.' :: part => isExponent (part.dropWhile isRowSign)
    | _ => false

def isPointedSixty (cs : List Char) : Bool :=
  let (whole, part) := cutAt '.' cs
  cs.contains '.' && part.all isRowSign &&
    match pieces ':' whole with
    | first :: p :: parts =>
      beginsWithDigit first && first.all isRowSign && (p :: parts).all isSixtieth
    | _ => false

def isFloat (cs : List Char) : Bool :=
  let unsigned := dropSign cs
  isPointed unsigned || isPointedSixty unsigned ||
    [".inf", ".Inf", ".INF"].any (·.toList == unsigned) ||
    [".nan", ".NaN", ".NAN"].any (·.toList == cs) ||
    match cs with
    | '.' :: part => beginsWithDigit part && isExponent (part.dropWhile isRowSign)
    | _ => false

structure MomentText where
  year : List Char
  month : List Char
  day : List Char
  time : Option (List Char × List Char × List Char)
  fraction : List Char
  /-- The sign, hours and minutes of the offset; universal time has no hours. -/
  zone : Option (Bool × List Char × List Char)

def takeDigits (least most : Nat) (cs : List Char) : Option (List Char × List Char) :=
  let digits := (cs.take most).takeWhile Char.isDigit
  if least ≤ digits.length then some (digits, cs.drop digits.length) else none

def sign? (sign : Char) : List Char → Option (List Char)
  | c :: rest => if c == sign then some rest else none
  | [] => none

def zone? (cs : List Char) : Option (Option (Bool × List Char × List Char)) :=
  match cs with
  | [] => some none
  | _ =>
    match cs.dropWhile isBlank with
    | ['Z'] => some (some (false, [], []))
    | c :: rest =>
      if c == '+' || c == '-' then do
        let (hours, rest) ← takeDigits 1 2 rest
        match rest with
        | [] => some (some (c == '-', hours, []))
        | ':' :: rest => do
          let (minutes, rest) ← takeDigits 2 2 rest
          if rest.isEmpty then some (some (c == '-', hours, minutes)) else none
        | _ => none
      else none
    | [] => none

def momentText? (cs : List Char) : Option MomentText := do
  let (year, rest) ← takeDigits 4 4 cs
  let (month, rest) ← takeDigits 1 2 (← sign? '-' rest)
  let (day, rest) ← takeDigits 1 2 (← sign? '-' rest)
  if rest.isEmpty then some ⟨year, month, day, none, [], none⟩
  else do
    let rest ←
      match rest with
      | c :: more =>
        if c == 'T' || c == 't' then some more
        else if isBlank c then some (more.dropWhile isBlank)
        else none
      | [] => none
    let (hour, rest) ← takeDigits 1 2 rest
    let (minute, rest) ← takeDigits 2 2 (← sign? ':' rest)
    let (second, rest) ← takeDigits 2 2 (← sign? ':' rest)
    let (fraction, rest) :=
      match rest with
      | '.' :: more => (more.takeWhile Char.isDigit, more.dropWhile Char.isDigit)
      | _ => ([], rest)
    let zone ← zone? rest
    some ⟨year, month, day, some (hour, minute, second), fraction, zone⟩

/-- A day alone needs two digits for month and day. -/
def isMoment (cs : List Char) : Bool :=
  (momentText? cs).any fun m => m.time.isSome || cs.length == 10

/-- The kind that a text itself says; nothing for the three signs of which no scalar consists. -/
def implied? (text : String) : Option Kind :=
  let cs := text.toList
  if spelled (truths.map Prod.fst) text then some bool
  else if isFloat cs then some float
  else if isWhole (dropSign cs) then some int
  else if text = "<<" then some merge
  else if text = "" || text = "~" || spelled ["null"] text then some null
  else if isMoment cs then some moment
  else if text = "=" then some equals
  else if ["!", "&", "*"].contains text then none
  else some Kind.text

def tags : List (String × Kind) := [
  ("null", null), ("bool", bool), ("int", int), ("float", float), ("timestamp", moment),
  ("str", Kind.text), ("merge", merge), ("value", equals)]

def standardTag (name : String) : String := "tag:yaml.org,2002:" ++ name

def ofTag? (tag : String) : Option Kind :=
  tags.findSome? fun (name, kind) => if tag = standardTag name then some kind else none

def of? : ScalarTag → String → Option Kind
  | .explicit tag, _ => ofTag? tag
  | .implied, written => implied? written
  | .text, _ => some Kind.text

end Kind

end NoteQuery.Yaml
