import NoteQuery.Yaml.Spot

/-!
Scalars of YAML: plain ones, ones in single and double quotes, and blocks of lines. Each reader
goes through the characters one by one and returns the text of the scalar with what follows it.
Lines of plain and quoted scalars are folded: a single line end is a blank, further ones stay.
-/

namespace NoteQuery.Yaml

/-- Why a text cannot be read as data. -/
inductive Failure where
  /-- The text is no YAML, or holds a tag that is not known here. -/
  | malformed
  | badValue
  /-- A number is too large to be converted. -/
  | outOfRange
  /-- A number without any digit. -/
  | noDigits
  | noTruth
  | noMoment
  deriving DecidableEq, Repr

/-- What can only be there or not is malformed where it is not. -/
def wellFormed {α : Type} : Option α → Except Failure α
  | some a => .ok a
  | none => .error .malformed

inductive Gap where
  | none
  /-- Blanks, the last first. -/
  | blanks (reversed : List Char)
  /-- A line end, unless it is escaped, and the empty lines after it, the last first. -/
  | lines (first : Option Char) (reversed : List Char)

namespace Gap

def fold : Gap → List Char
  | none => []
  | blanks reversed => reversed.reverse
  | lines (some '\n') [] => [' ']
  | lines (some '\n') reversed => reversed.reverse
  | lines (some c) reversed => c :: reversed.reverse
  | lines Option.none reversed => reversed.reverse

/-- A blank in the gap; behind a line end it counts for nothing. -/
def addBlank (c : Char) : Gap → Gap
  | none => blanks [c]
  | blanks reversed => blanks (c :: reversed)
  | lines first reversed => lines first reversed

/-- A line end in the gap; blanks before the first count for nothing. -/
def addBreak (c : Char) : Gap → Gap
  | lines first reversed => lines first (c :: reversed)
  | _ => lines (some c) []

def isNone : Gap → Bool
  | none => true
  | _ => false

def hasBreak : Gap → Bool
  | lines _ _ => true
  | _ => false

end Gap

def isFlowSign (c : Char) : Bool :=
  c == ',' || c == '[' || c == ']' || c == '\x7b' || c == '\x7d'

/-- A plain scalar that goes on: its text, what follows, and whether it ran over a line end. -/
structure PlainText where
  text : List Char
  rest : List Spot
  broken : Bool

/-- A character behind which a plain scalar cannot go on. -/
def endsPlain (d : Dialect) (flow : Bool) (c : Char) (rest : List Spot) : Bool :=
  (c == ':' && (endsWord rest || (d == .strict && flow && rest.head?.any (isFlowSign ·.char)))) ||
    (flow && (isFlowSign c || (d == .strict && c == '?')))

/-- Reads a plain scalar, of which `gap` has been read last. Outside of brackets its lines are
indented by at least `indent`. -/
def readPlain (d : Dialect) (flow : Bool) (indent : Int) (gap : Gap) :
    List Spot → Option PlainText
  | [] => some ⟨[], [], gap.hasBreak⟩
  | s :: rest =>
    if s.char == ' ' then readPlain d flow indent (gap.addBlank ' ') rest
    else if s.char == '\t' then
      match d with
      | .strict => some ⟨[], s :: rest, gap.hasBreak⟩
      | .loose =>
        if gap.hasBreak && decide ((s.column : Int) < indent) then none
        else readPlain d flow indent (gap.addBlank '\t') rest
    else if isBreak s.char then
      if atBoundary rest then some ⟨[], rest, true⟩
      else readPlain d flow indent (gap.addBreak s.char) rest
    else if !gap.isNone && (s.char == '#' || (!flow && decide ((s.column : Int) < indent))) then
      some ⟨[], s :: rest, gap.hasBreak⟩
    else if endsPlain d flow s.char rest then some ⟨[], s :: rest, gap.hasBreak⟩
    else if d == .loose && flow && s.char == ':' &&
        rest.head?.any (fun s => isFlowSign s.char || s.char == '?') then none
    else
      (readPlain d flow indent .none rest).map fun p =>
        { p with text := gap.fold ++ s.char :: p.text }

/-- Reads a scalar in single quotes from behind the first; a quote inside is written twice. -/
def readSingle (gap : Gap) : List Spot → Option (List Char × List Spot)
  | [] => none
  | s :: rest =>
    if s.char == '\'' then
      match rest with
      | t :: rest' =>
        if t.char == '\'' then
          (readSingle .none rest').map fun (cs, left) => (gap.fold ++ '\'' :: cs, left)
        else some (gap.fold, t :: rest')
      | [] => some (gap.fold, [])
    else if isBlank s.char then readSingle (gap.addBlank s.char) rest
    else if isBreak s.char then
      if atBoundary rest then none else readSingle (gap.addBreak s.char) rest
    else (readSingle .none rest).map fun (cs, left) => (gap.fold ++ s.char :: cs, left)

def hexValue? (c : Char) : Option Nat :=
  if '0' ≤ c ∧ c ≤ '9' then some (c.toNat - 48)
  else if 'a' ≤ c ∧ c ≤ 'f' then some (c.toNat - 87)
  else if 'A' ≤ c ∧ c ≤ 'F' then some (c.toNat - 55)
  else none

def escapes : List (Char × Char) := [
  ('0', '\x00'), ('a', '\x07'), ('b', '\x08'), ('t', '\t'), ('\t', '\t'), ('n', '\n'),
  ('v', '\x0b'), ('f', '\x0c'), ('r', '\r'), ('e', '\x1b'), (' ', ' '), ('"', '"'),
  ('\\', '\\'), ('/', '/'), ('N', '\u0085'), ('_', '\u00a0'), ('L', '\u2028'), ('P', '\u2029')]

def escapeLengths : List (Char × Nat) := [('x', 2), ('u', 4), ('U', 8)]

inductive QuoteState where
  | text (gap : Gap)
  | escape
  /-- So many digits of a character's number are still to come after `value`. -/
  | digits (left value : Nat)

/-- The character of a number. Numbers beyond those of all characters are malformed only in one of
the dialects. -/
def charOf (d : Dialect) (n : Nat) : Except Failure Char :=
  if n < 0xD800 ∨ (0xDFFF < n ∧ n < 0x110000) then .ok (Char.ofNat n)
  else
    match d with
    | .loose => .error .malformed
    | .strict =>
      if n < 0x110000 then .error .malformed
      else if n < 0x80000000 then .error .badValue
      else .error .outOfRange

/-- Text that has been read, in front of what is read after it. -/
def behind (front : List Char) (found : List Char × List Spot) : List Char × List Spot :=
  (front ++ found.1, found.2)

def readDouble (d : Dialect) (state : QuoteState) :
    List Spot → Except Failure (List Char × List Spot)
  | [] => .error .malformed
  | s :: rest =>
    match state with
    | .text gap =>
      if s.char == '"' then .ok (gap.fold, rest)
      else if s.char == '\\' then (readDouble d .escape rest).map (behind gap.fold)
      else if isBlank s.char then readDouble d (.text (gap.addBlank s.char)) rest
      else if isBreak s.char then
        if atBoundary rest then .error .malformed
        else readDouble d (.text (gap.addBreak s.char)) rest
      else (readDouble d (.text .none) rest).map (behind (gap.fold ++ [s.char]))
    | .escape =>
      if isBreak s.char then
        if atBoundary rest then .error .malformed
        else readDouble d (.text (.lines none [])) rest
      else
        match escapes.lookup s.char, escapeLengths.lookup s.char with
        | some c, _ => (readDouble d (.text .none) rest).map (behind [c])
        | none, some length => readDouble d (.digits length 0) rest
        | none, none => .error .malformed
    | .digits left value =>
      match hexValue? s.char with
      | none => .error .malformed
      | some digit =>
        let value := 16 * value + digit
        if left ≤ 1 then do
          let c ← charOf d value
          (readDouble d (.text .none) rest).map (behind [c])
        else readDouble d (.digits (left - 1) value) rest

inductive Chomp where
  | strip
  | clip
  | keep
  deriving DecidableEq, Repr

/-- How a block is introduced: which line ends stay, and by how much it is indented. -/
structure BlockHeader where
  chomp : Chomp
  increment : Option Nat

def chompOf? (c : Char) : Option Chomp :=
  if c == '+' then some .keep else if c == '-' then some .strip else none

def incrementOf? (c : Char) : Option Nat :=
  if '1' ≤ c ∧ c ≤ '9' then some (c.toNat - 48) else none

/-- The signs behind the one that begins a block, in either order, and what follows them. -/
def readHeader (ts : List Spot) : BlockHeader × List Spot :=
  match ts with
  | [] => (⟨.clip, none⟩, [])
  | s :: rest =>
    match chompOf? s.char, incrementOf? s.char with
    | some chomp, _ =>
      match rest with
      | t :: rest' =>
        match incrementOf? t.char with
        | some n => (⟨chomp, some n⟩, rest')
        | none => (⟨chomp, none⟩, rest)
      | [] => (⟨chomp, none⟩, [])
    | none, some n =>
      match rest with
      | t :: rest' =>
        match chompOf? t.char with
        | some chomp => (⟨chomp, some n⟩, rest')
        | none => (⟨.clip, some n⟩, rest)
      | [] => (⟨.clip, some n⟩, [])
    | none, none => (⟨.clip, none⟩, s :: rest)

/-- The empty lines in front of a block, the last first, the widest margin among them and the first
line that is not, and that line. -/
def readMargin (widest : Nat) (breaks : List Char) : List Spot → Nat × List Char × List Spot
  | [] => (widest, breaks, [])
  | s :: rest =>
    if s.char == ' ' then readMargin (max widest (s.column + 1)) breaks rest
    else if isBreak s.char then readMargin widest (s.char :: breaks) rest
    else (widest, breaks, s :: rest)

/-- The line of a block that has ended: its line end, and whether it began with a solid character. -/
structure BlockLine where
  lineEnd : Option Char
  solid : Bool

/-- Where the reader of a block stands: in the margin behind a line, with the empty lines since
then, the last first; or inside a line. -/
inductive BlockState where
  | margin (line : Option BlockLine) (breaks : List Char)
  | inside (solid : Bool)

def joinLines (folded : Bool) (line : Option BlockLine) (breaks : List Char) (nextSolid : Bool) :
    List Char :=
  match line with
  | none => breaks.reverse
  | some ⟨lineEnd, solid⟩ =>
    if folded && lineEnd == some '\n' && solid && nextSolid then
      if breaks.isEmpty then [' '] else breaks.reverse
    else lineEnd.toList ++ breaks.reverse

def chompTail (chomp : Chomp) (line : Option BlockLine) (breaks : List Char) : List Char :=
  let lineEnd := (line.bind BlockLine.lineEnd).toList
  match chomp with
  | .strip => []
  | .clip => lineEnd
  | .keep => lineEnd ++ breaks.reverse

def readLines (folded : Bool) (chomp : Chomp) (indent : Nat) (state : BlockState) :
    List Spot → List Char × List Spot
  | [] =>
    match state with
    | .margin line breaks => (chompTail chomp line breaks, [])
    | .inside solid => (chompTail chomp (some ⟨none, solid⟩) [], [])
  | s :: rest =>
    match state with
    | .margin line breaks =>
      if s.char == ' ' && s.column < indent then
        readLines folded chomp indent (.margin line breaks) rest
      else if isBreak s.char then
        readLines folded chomp indent (.margin line (s.char :: breaks)) rest
      else if s.column = indent then
        let solid := !isBlank s.char
        let (cs, left) := readLines folded chomp indent (.inside solid) rest
        (joinLines folded line breaks solid ++ s.char :: cs, left)
      else (chompTail chomp line breaks, s :: rest)
    | .inside solid =>
      if isBreak s.char then
        readLines folded chomp indent (.margin (some ⟨some s.char, solid⟩) []) rest
      else
        let (cs, left) := readLines folded chomp indent (.inside solid) rest
        (s.char :: cs, left)

/-- Reads a block from behind the sign that begins it, in a place indented by `indent`. Where tabs
separate, none may stand at the end of a margin that is not given. -/
def readBlock (d : Dialect) (folded : Bool) (indent : Int) (ts : List Spot) :
    Option (List Char × List Spot) := do
  let (header, rest) := readHeader ts
  if d == .strict && !endsPlainly rest then none
  let rest ← skipLine? (d == .loose) rest
  let least := (max (indent + 1) 1).toNat
  match header.increment with
  | some n => some (readLines folded header.chomp (least + n - 1) (.margin none []) rest)
  | none =>
    let (widest, breaks, rest) := readMargin 0 [] rest
    if d == .loose && rest.head?.any (·.char == '\t') then none
    some (readLines folded header.chomp (max least widest) (.margin none breaks) rest)

end NoteQuery.Yaml
