import NoteQuery.Number.Numeral
import NoteQuery.Yaml.Scalar

/-!
Tokens of YAML. Indentation shows in tokens of its own: a block begins where the first entry of a
sequence or the first key of a mapping stands further in than what surrounds it, and ends before
the first line that stands further out. That something is a key is known only at the colon behind
it; the tokens that say so are then put in front of it.
-/

namespace NoteQuery.Yaml

structure TagText where
  handle : Option String
  suffix : String
  deriving DecidableEq, Repr

inductive Directive where
  | version (major minor : Nat)
  | tag (handle start : String)
  | other
  deriving DecidableEq, Repr

inductive Token where
  | directive (d : Directive)
  | documentStart
  | documentEnd
  | blockSequence
  | blockMapping
  | blockEnd
  | openSequence
  | closeSequence
  | openMapping
  | closeMapping
  | entry
  | comma
  | key
  | value
  | alias (name : String)
  | anchor (name : String)
  | tag (t : TagText)
  | scalar (plain : Bool) (text : String)
  deriving DecidableEq, Repr

/-- A place where a key may turn out to begin. -/
structure KeyPlace where
  tokens : Nat
  required : Bool
  line : Nat
  column : Nat
  index : Nat

/-- What is known before a token: the tokens so far, how deep in brackets it stands, the margins of
the blocks around it, whether a key may begin, and where one may have begun, by depth. -/
structure ScanState where
  tokens : Array Token
  depth : Nat
  margin : Int
  outer : List Int
  keyAllowed : Bool
  places : List (Nat × KeyPlace)

namespace ScanState

def start : ScanState := ⟨#[], 0, -1, [], true, []⟩

def push (t : Token) (s : ScanState) : ScanState := { s with tokens := s.tokens.push t }

def allowKey (allowed : Bool) (s : ScanState) : ScanState := { s with keyAllowed := allowed }

/-- Forgets the place of a key at this depth. A required key must not be missed. -/
def dropPlace (s : ScanState) : Option ScanState :=
  match s.places.lookup s.depth with
  | some p =>
    if p.required then none
    else some { s with places := s.places.filter fun entry => entry.1 != s.depth }
  | none => some s

/-- Forgets the places from which the key would be too long or on another line. -/
def dropStale (line index : Nat) (s : ScanState) : Option ScanState :=
  let stale (p : KeyPlace) : Bool := p.line != line || 1024 < index - p.index
  if s.places.any fun entry => stale entry.2 && entry.2.required then none
  else some { s with places := s.places.filter fun entry => !stale entry.2 }

def savePlace (here : Spot) (s : ScanState) : Option ScanState :=
  if s.keyAllowed then do
    let s ← s.dropPlace
    let required := s.depth == 0 && decide (s.margin = here.column)
    let place : KeyPlace := ⟨s.tokens.size, required, here.line, here.column, here.index⟩
    some { s with places := (s.depth, place) :: s.places }
  else some s

def closeBlocks (column : Int) : List Int → ScanState → ScanState
  | [], s => s
  | m :: outer, s =>
    if column < s.margin then
      closeBlocks column outer { (s.push .blockEnd) with margin := m, outer := outer }
    else s

def unwind (column : Int) (s : ScanState) : ScanState :=
  if s.depth = 0 then closeBlocks column s.outer s else s

def indent (column : Nat) (at_ : Nat) (t : Token) (s : ScanState) : ScanState :=
  if s.margin < column then
    { s with
      tokens := s.tokens.insertIdxIfInBounds at_ t
      margin := column
      outer := s.margin :: s.outer }
  else s

end ScanState

def isWordSign (c : Char) : Bool := c.isAlphanum || c == '-' || c == '_'

def takeWord (ts : List Spot) : String × List Spot :=
  (String.ofList ((ts.takeWhile fun s => isWordSign s.char).map Spot.char),
    ts.dropWhile fun s => isWordSign s.char)

def readName? (ts : List Spot) : Option (String × List Spot) :=
  let (name, rest) := takeWord ts
  let ended := endsWord rest || rest.head?.any fun s => "?:,]\x7d%@`".toList.contains s.char
  if name.isEmpty || !ended then none else some (name, rest)

def isUriSign (c : Char) : Bool := c.isAlphanum || "-;/?:@&=+$,_.!~*'()[]".toList.contains c

/-- The signs of a tag that no angle brackets protect from the brackets around it. -/
def isTagSign (c : Char) : Bool := isUriSign c && !",[]".toList.contains c

def readBytes : List Spot → Option (List UInt8 × List Spot)
  | p :: a :: b :: rest =>
    if p.char == '%' then do
      let high ← hexValue? a.char
      let low ← hexValue? b.char
      let (bytes, left) ← readBytes rest
      some ((16 * high + low).toUInt8 :: bytes, left)
    else some ([], p :: a :: b :: rest)
  | p :: rest => if p.char == '%' then none else some ([], p :: rest)
  | [] => some ([], [])

/-- The signs of a tag or of what a handle stands for, with escaped characters read. -/
def readUri (isSign : Char → Bool) (ts : List Spot) : Option (List Char × List Spot) :=
  match ts with
  | [] => some ([], [])
  | s :: rest =>
    if s.char == '%' then
      match readBytes (s :: rest) with
      | none => none
      | some (bytes, left) =>
        match String.fromUTF8? ⟨bytes.toArray⟩ with
        | none => none
        | some text =>
          if left.length < (s :: rest).length then
            (readUri isSign left).map fun (cs, left) => (text.toList ++ cs, left)
          else none
    else if isSign s.char then
      (readUri isSign rest).map fun (cs, left) => (s.char :: cs, left)
    else some ([], s :: rest)
termination_by ts.length
decreasing_by
  · assumption
  · exact Nat.lt_succ_self _

def readUri? (isSign : Char → Bool) (ts : List Spot) : Option (String × List Spot) := do
  let (cs, rest) ← readUri isSign ts
  if cs.isEmpty then none else some (String.ofList cs, rest)

/-- A handle: one sign alone, or a word between two. -/
def readHandle? : List Spot → Option (String × List Spot)
  | s :: rest =>
    if s.char != '!' then none
    else if rest.head?.any (·.char == ' ') then some ("!", rest)
    else
      let (word, after) := takeWord rest
      match after with
      | t :: left =>
        if t.char == '!' then some ("!" ++ word ++ "!", left)
        else none
      | [] => none
  | [] => none

/-- A tag without angle brackets, from behind its first sign, when what is up to the next blank
tells whether it begins with a handle. -/
def readStrictTag? (first : Spot) (ts : List Spot) : Option (TagText × List Spot) :=
  if endsWord ts then some (TagText.mk none "!", ts)
  else if (ts.takeWhile fun s => !(s.char == ' ' || isBreak s.char)).any (·.char == '!') then do
    let (handle, rest) ← readHandle? (first :: ts)
    let (suffix, rest) ← readUri? isUriSign rest
    some (TagText.mk (some handle) suffix, rest)
  else do
    let (suffix, rest) ← readUri? isUriSign ts
    some (TagText.mk (some "!") suffix, rest)

/-- A tag without angle brackets, from behind its first sign, when a word and a second sign
are a handle and anything else is none. -/
def readLooseTag? (ts : List Spot) : Option (TagText × List Spot) := do
  let (word, after) := takeWord ts
  match after with
  | [] => bare ts
  | s :: rest =>
    if s.char == '!' then do
      let (suffix, rest) ← readUri? isTagSign rest
      some (TagText.mk (some ("!" ++ word ++ "!")) suffix, rest)
    else bare ts
where
  bare (ts : List Spot) : Option (TagText × List Spot) := do
    let (cs, rest) ← readUri isTagSign ts
    some (if cs.isEmpty then TagText.mk none "!" else TagText.mk (some "!") (String.ofList cs), rest)

def readBracketedTag? (ts : List Spot) : Option (TagText × List Spot) := do
  let (suffix, rest) ← readUri? isUriSign ts
  match rest with
  | s :: left => if s.char == '>' then some (TagText.mk none suffix, left) else none
  | [] => none

def readTag? (d : Dialect) (flow : Bool) (first : Spot) (ts : List Spot) :
    Option (TagText × List Spot) := do
  let (tag, rest) ←
    match ts with
    | [] => some (TagText.mk none "!", [])
    | s :: rest =>
      if s.char == '<' then readBracketedTag? rest
      else if d == .loose then readLooseTag? ts
      else readStrictTag? first ts
  let ended := endsPlainly rest ||
    (d == .loose && (endsWord rest || flow && rest.head?.any (·.char == ',')))
  if ended then some (tag, rest) else none

/-- A part of a version. Too many digits are malformed only in one of the dialects. -/
def takeNumber (d : Dialect) (ts : List Spot) : Except Failure (Nat × List Spot) :=
  let digits := (ts.takeWhile fun s => s.char.isDigit).map Spot.char
  if digits.isEmpty then .error .malformed
  else if Numeral.maxDigits < digits.length then
    match d with
    | .strict => .error .badValue
    | .loose => .error .malformed
  else
    .ok (digits.foldl (fun n c => 10 * n + (c.toNat - 48)) 0,
      ts.dropWhile fun s => s.char.isDigit)

def readVersion (d : Dialect) (ts : List Spot) : Except Failure (Directive × List Spot) := do
  let (major, rest) ← takeNumber d ts
  match rest with
  | s :: left =>
    if s.char == '.' then do
      let (minor, rest) ← takeNumber d left
      .ok (Directive.version major minor, rest)
    else .error .malformed
  | [] => .error .malformed

def readTagDirective? (ts : List Spot) : Option (Directive × List Spot) := do
  let (handle, rest) ← readHandle? ts
  if rest.head?.any (·.char == ' ') then do
    let (start, rest) ← readUri? isUriSign (skipBlanks rest)
    some (Directive.tag handle start, rest)
  else none

/-- A directive from behind its name. What the others say is passed over. -/
def readNamed (d : Dialect) (name : String) (ts : List Spot) :
    Except Failure (Directive × List Spot) :=
  if name = "YAML" then readVersion d ts
  else if name = "TAG" then wellFormed (readTagDirective? ts)
  else .ok (.other, ts.dropWhile fun s => !isBreak s.char)

def readDirective (d : Dialect) (ts : List Spot) : Except Failure (Directive × List Spot) := do
  let (name, rest) := takeWord ts
  let rest ← wellFormed (if name.isEmpty || !endsPlainly rest then none else some (skipBlanks rest))
  let (directive, rest) ← readNamed d name rest
  let rest ← wellFormed (if endsPlainly rest then skipLine? false rest else none)
  .ok (directive, rest)

/-- Passes over what separates tokens, and tells whether a line end was among it. -/
def skipGap (d : Dialect) (depth : Nat) (keyAllowed : Bool) (comment : Bool) :
    List Spot → Bool × List Spot
  | [] => (keyAllowed, [])
  | s :: rest =>
    if isBreak s.char then skipGap d depth (keyAllowed || depth = 0) false rest
    else if comment then skipGap d depth keyAllowed true rest
    else if s.char == ' ' || (d == .loose && s.char == '\t' && (0 < depth || !keyAllowed)) then
      skipGap d depth keyAllowed false rest
    else if s.char == '#' then skipGap d depth keyAllowed true rest
    else (keyAllowed, s :: rest)

def beginsPlain (depth : Nat) (c : Char) (rest : List Spot) : Bool :=
  (!isBlank c && !isBreak c && !"-?:,[]\x7b\x7d#&*!|>'\"%@`".toList.contains c) ||
    (!endsWord rest && (c == '-' || (depth == 0 && (c == '?' || c == ':'))))

def markToken (here : Spot) : Option Token :=
  if here.char == '-' then some .documentStart
  else if here.char == '.' then some .documentEnd
  else none

namespace ScanState

def opened (here : Spot) (t : Token) (s : ScanState) : Option ScanState := do
  let s ← s.savePlace here
  some { (s.push t) with depth := s.depth + 1, keyAllowed := true }

def closed (t : Token) (s : ScanState) : Option ScanState := do
  let s ← s.dropPlace
  if s.depth = 0 then none
  else some { (s.push t) with depth := s.depth - 1, keyAllowed := false }

def blockEntry (here : Spot) (s : ScanState) : Option ScanState := do
  if s.depth = 0 && !s.keyAllowed then none
  let s := if s.depth = 0 then s.indent here.column s.tokens.size .blockSequence else s
  let s ← (s.allowKey true).dropPlace
  some (s.push .entry)

def explicitKey (here : Spot) (s : ScanState) : Option ScanState := do
  if s.depth = 0 && !s.keyAllowed then none
  let s := if s.depth = 0 then s.indent here.column s.tokens.size .blockMapping else s
  let s ← (s.allowKey (s.depth = 0)).dropPlace
  some (s.push .key)

/-- The colon in front of a value. What stands at the remembered place turns out to be its key. -/
def colon (here : Spot) (s : ScanState) : Option ScanState :=
  match s.places.lookup s.depth with
  | some p =>
    let s := { s with
      places := s.places.filter fun entry => entry.1 != s.depth
      tokens := s.tokens.insertIdxIfInBounds p.tokens .key
      keyAllowed := false }
    let s := if s.depth = 0 then s.indent p.column p.tokens .blockMapping else s
    some (s.push .value)
  | none => do
    if s.depth = 0 && !s.keyAllowed then none
    let s := if s.depth = 0 then s.indent here.column s.tokens.size .blockMapping else s
    let s ← (s.allowKey (s.depth = 0)).dropPlace
    some (s.push .value)

def part (here : Spot) (t : Token) (s : ScanState) : Option ScanState := do
  let s ← s.savePlace here
  some ((s.allowKey false).push t)

end ScanState

/-- A token other than a directive and a scalar in double quotes. -/
def scanPlainly (d : Dialect) (s : ScanState) (here : Spot) (rest : List Spot) :
    Option (ScanState × List Spot) :=
  let flow := 0 < s.depth
  let c := here.char
  if here.column = 0 && (atMark c (here :: rest)) && (markToken here).isSome then do
    let s ← (s.unwind (-1)).dropPlace
    let t ← markToken here
    some ((s.allowKey false).push t, rest.drop 2)
  else if c == '[' then (s.opened here .openSequence).map (·, rest)
  else if c == '\x7b' then (s.opened here .openMapping).map (·, rest)
  else if c == ']' then (s.closed .closeSequence).map (·, rest)
  else if c == '\x7d' then (s.closed .closeMapping).map (·, rest)
  else if c == ',' then ((s.allowKey true).dropPlace).map fun s => (s.push .comma, rest)
  else if c == '-' && endsWord rest then (s.blockEntry here).map (·, rest)
  else if c == '?' && (flow || endsWord rest) then (s.explicitKey here).map (·, rest)
  else if c == ':' && (flow || endsWord rest) then (s.colon here).map (·, rest)
  else if c == '*' then do
    let (name, left) ← readName? rest
    (s.part here (.alias name)).map (·, left)
  else if c == '&' then do
    let (name, left) ← readName? rest
    (s.part here (.anchor name)).map (·, left)
  else if c == '!' then do
    let (tag, left) ← readTag? d flow here rest
    (s.part here (.tag tag)).map (·, left)
  else if (c == '|' || c == '>') && !flow then do
    let s ← (s.allowKey true).dropPlace
    let (cs, left) ← readBlock d (c == '>') s.margin rest
    some (s.push (.scalar false (String.ofList cs)), left)
  else if c == '\'' then do
    let (cs, left) ← readSingle .none rest
    (s.part here (.scalar false (String.ofList cs))).map (·, left)
  else if beginsPlain s.depth c rest then do
    let plain ← readPlain d flow (s.margin + 1) .none (here :: rest)
    let s ← s.part here (.scalar true (String.ofList plain.text))
    some (if plain.broken then s.allowKey true else s, plain.rest)
  else none

def scanToken (d : Dialect) (s : ScanState) (here : Spot) (rest : List Spot) :
    Except Failure (ScanState × List Spot) :=
  if here.column = 0 && here.char == '%' then do
    let s ← wellFormed (s.unwind (-1)).dropPlace
    let (directive, left) ← readDirective d rest
    .ok ((s.allowKey false).push (.directive directive), left)
  else if here.char == '"' then do
    let (cs, left) ← readDouble d (.text .none) rest
    let s ← wellFormed (s.part here (.scalar false (String.ofList cs)))
    .ok (s, left)
  else wellFormed (scanPlainly d s here rest)

def scanAll (d : Dialect) (s : ScanState) (ts : List Spot) : Except Failure (Array Token) :=
  let (keyAllowed, left) := skipGap d s.depth s.keyAllowed false ts
  let s := s.allowKey keyAllowed
  match left with
  | [] =>
    if s.places.any fun entry => entry.2.required then .error .malformed
    else .ok (s.unwind (-1)).tokens
  | here :: rest => do
    let s ← wellFormed (s.dropStale here.line here.index)
    let (s, next) ← scanToken d (s.unwind here.column) here rest
    if next.length < ts.length then scanAll d s next else .error .malformed
termination_by ts.length

def tokensOf (d : Dialect) (text : String) : Except Failure (List Token) := do
  let ts ← wellFormed (spots? text)
  let tokens ← scanAll d .start ts
  .ok tokens.toList

end NoteQuery.Yaml
