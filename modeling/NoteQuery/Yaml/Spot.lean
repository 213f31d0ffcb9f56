/-!
Characters of a YAML text with the places where they stand. Every line end counts as one line feed,
save the two separators of Unicode, which stay what they are. A text that holds a control character
has no places at all.
-/

namespace NoteQuery.Yaml

/-- How tabs and colons are read: either only blanks separate and a comma may follow a colon inside
brackets, or tabs separate as well wherever no key can begin, and the comma may not. -/
inductive Dialect where
  | strict
  | loose
  deriving DecidableEq, Repr

structure Spot where
  char : Char
  line : Nat
  column : Nat
  index : Nat
  deriving DecidableEq, Repr

def isBreak (c : Char) : Bool := c == '\n' || c == '\u2028' || c == '\u2029'

def isBlank (c : Char) : Bool := c == ' ' || c == '\t'

def isAllowed (c : Char) : Bool :=
  let n := c.toNat
  n == 0x09 || n == 0x0A || n == 0x0D || (0x20 ≤ n && n ≤ 0x7E) || n == 0x85 ||
    (0xA0 ≤ n && n ≤ 0xFFFD) || 0x10000 ≤ n

def plainBreaks : List Char → List Char
  | [] => []
  | '\r' :: '\n' :: rest => '\n' :: plainBreaks rest
  | '\r' :: rest => '\n' :: plainBreaks rest
  | '\u0085' :: rest => '\n' :: plainBreaks rest
  | c :: rest => c :: plainBreaks rest

/-- The characters with their places, the first at the given one. A byte order mark takes no
column. -/
def locate (line column index : Nat) : List Char → List Spot
  | [] => []
  | c :: rest =>
    ⟨c, line, column, index⟩ ::
      if isBreak c then locate (line + 1) 0 (index + 1) rest
      else if c = '\uFEFF' then locate line column (index + 1) rest
      else locate line (column + 1) (index + 1) rest

/-- The characters of a text, unless one of them may not stand in it. A mark at the front is
dropped. -/
def spots? (text : String) : Option (List Spot) :=
  let cs := text.toList
  if cs.all isAllowed then
    some (locate 0 0 0 (plainBreaks (if cs.head? = some '\uFEFF' then cs.drop 1 else cs)))
  else none

/-- A word ends here: at a blank, a line end or the end of the text. -/
def endsWord : List Spot → Bool
  | [] => true
  | s :: _ => isBlank s.char || isBreak s.char

/-- Only blanks other than tabs, a line end or the end of the text end a word here. -/
def endsPlainly : List Spot → Bool
  | [] => true
  | s :: _ => s.char == ' ' || isBreak s.char

/-- The three signs that stand between documents, as a word of their own. -/
def atMark (sign : Char) : List Spot → Bool
  | a :: b :: c :: rest => a.char == sign && b.char == sign && c.char == sign && endsWord rest
  | _ => false

def atBoundary (ts : List Spot) : Bool := atMark '-' ts || atMark '.' ts

def skipBlanks (ts : List Spot) : List Spot := ts.dropWhile fun s => s.char == ' '

def skipComment : List Spot → List Spot
  | s :: rest =>
    if s.char == '#' then rest.dropWhile fun s => !isBreak s.char else s :: rest
  | [] => []

/-- Passes over blanks and a comment to a line end, and over that; nothing else may stand there. -/
def skipLine? (tabs : Bool) (ts : List Spot) : Option (List Spot) :=
  let ts := if tabs then ts.dropWhile fun s => isBlank s.char else skipBlanks ts
  match skipComment ts with
  | [] => some []
  | s :: rest => if isBreak s.char then some rest else none

end NoteQuery.Yaml
