import NoteQuery.Number.Numeral
import NoteQuery.Text.Search
import NoteQuery.Value

/-!
Reading of JSON. A dialect has words, and says what becomes of numbers, texts, lists and objects. In
the one for notes and settings a name that comes again in an object keeps its first place and takes its
last value. Each reader takes its part from the front of the text and returns what follows; a value
takes at least one character, so reading ends.
-/

namespace NoteQuery.Json

open NoteQuery.Text

def isSpace (c : Char) : Bool := c == ' ' || c == '\t' || c == '\n' || c == '\r'

def skipSpace (text : List Char) : List Char := text.dropWhile isSpace

/-- What is left behind a part that takes at least one character. -/
abbrev After (text : List Char) := { rest : List Char // rest.length < text.length }

theorem skipSpace_length_le (text : List Char) : (skipSpace text).length ≤ text.length :=
  (List.dropWhile_sublist isSpace).length_le

def hexDigit? (c : Char) : Option Nat :=
  if '0' ≤ c ∧ c ≤ '9' then some (c.toNat - 48)
  else if 'a' ≤ c ∧ c ≤ 'f' then some (c.toNat - 87)
  else if 'A' ≤ c ∧ c ≤ 'F' then some (c.toNat - 55)
  else none

def hexFour? (a b c d : Char) : Option Nat := do
  let a ← hexDigit? a
  let b ← hexDigit? b
  let c ← hexDigit? c
  let d ← hexDigit? d
  some (((a * 16 + b) * 16 + c) * 16 + d)

/-- The character of a pair of halves, the high one first. -/
def pair? (high low : Nat) : Option Char :=
  if 0xD800 ≤ high ∧ high < 0xDC00 ∧ 0xDC00 ≤ low ∧ low < 0xE000 then
    some (Char.ofNat (0x10000 + (high - 0xD800) * 0x400 + (low - 0xDC00)))
  else none

/-- The character of a number. A half without its other half stands for no character. -/
def single (n : Nat) : Char := if 0xD800 ≤ n ∧ n < 0xE000 then '\uFFFD' else Char.ofNat n

def letter? (c : Char) : Option Char :=
  [('"', '"'), ('\\', '\\'), ('/', '/'), ('b', '\x08'), ('f', '\x0c'), ('n', '\n'), ('r', '\r'),
    ('t', '\t')].lookup c

def readText : List Char → Option (List Char × List Char)
  | [] => none
  | '"' :: rest => some ([], rest)
  | '\\' :: 'u' :: a :: b :: c :: d :: rest =>
    match hexFour? a b c d with
    | none => none
    | some high =>
      match rest with
      | '\\' :: 'u' :: e :: f :: g :: h :: more =>
        match (hexFour? e f g h).bind (pair? high) with
        | some joined => (readText more).map fun (cs, left) => (joined :: cs, left)
        | none =>
          (readText ('\\' :: 'u' :: e :: f :: g :: h :: more)).map
            fun (cs, left) => (single high :: cs, left)
      | rest => (readText rest).map fun (cs, left) => (single high :: cs, left)
  | '\\' :: c :: rest =>
    match letter? c with
    | some shown => (readText rest).map fun (cs, left) => (shown :: cs, left)
    | none => none
  | '\\' :: [] => none
  | c :: rest =>
    if c.toNat < 0x20 then none else (readText rest).map fun (cs, left) => (c :: cs, left)
termination_by text => text.length

theorem readText_length_lt {text cs rest : List Char} (h : readText text = some (cs, rest)) :
    rest.length < text.length := by
  fun_induction readText text generalizing cs with
  | case1 => simp at h
  | case2 rest' => simp only [Option.some.injEq, Prod.mk.injEq] at h; simp [h.2]
  | case3 => simp at h
  | case4 a b c d high hx e f g k more joined hj ih =>
    obtain ⟨⟨_, left⟩, hf, heq⟩ := Option.map_eq_some_iff.1 h
    simp only [Prod.mk.injEq] at heq
    have := ih (heq.2 ▸ hf)
    simp only [List.length_cons]
    omega
  | case5 a b c d high hx e f g k more hj ih =>
    obtain ⟨⟨_, left⟩, hf, heq⟩ := Option.map_eq_some_iff.1 h
    simp only [Prod.mk.injEq] at heq
    have := ih (heq.2 ▸ hf)
    simp only [List.length_cons] at this ⊢
    omega
  | case6 a b c d rest' high hx hn ih =>
    obtain ⟨⟨_, left⟩, hf, heq⟩ := Option.map_eq_some_iff.1 h
    simp only [Prod.mk.injEq] at heq
    have := ih (heq.2 ▸ hf)
    simp only [List.length_cons] at this ⊢
    omega
  | case7 c rest' hn shown hs ih =>
    obtain ⟨⟨_, left⟩, hf, heq⟩ := Option.map_eq_some_iff.1 h
    simp only [Prod.mk.injEq] at heq
    have := ih (heq.2 ▸ hf)
    simp only [List.length_cons] at this ⊢
    omega
  | case8 => simp at h
  | case9 => simp at h
  | case10 => simp at h
  | case11 c rest' _ _ _ _ _ ih =>
    obtain ⟨⟨_, left⟩, hf, heq⟩ := Option.map_eq_some_iff.1 h
    simp only [Prod.mk.injEq] at heq
    have := ih (heq.2 ▸ hf)
    simp only [List.length_cons] at this ⊢
    omega

/-- The digits of a point or an exponent behind a number, when there is at least one. -/
def takeDigits (mark text : List Char) : List Char × List Char :=
  let digits := text.takeWhile Char.isDigit
  if digits.isEmpty then ([], mark ++ text) else (mark ++ digits, text.dropWhile Char.isDigit)

def takePart : List Char → List Char × List Char
  | '.' :: rest => takeDigits ['.'] rest
  | rest => ([], rest)

def takeExponent (text : List Char) : List Char × List Char :=
  match text with
  | e :: sign :: rest =>
    if e == 'e' || e == 'E' then
      if sign == '+' || sign == '-' then takeDigits [e, sign] rest
      else takeDigits [e] (sign :: rest)
    else ([], text)
  | _ => ([], text)

/-- The digits of a whole number: nought alone, or digits that do not begin with it. -/
def takeWhole : List Char → List Char × List Char
  | '0' :: rest => (['0'], rest)
  | text => (text.takeWhile Char.isDigit, text.dropWhile Char.isDigit)

/-- What the values of JSON stand for. -/
structure Dialect (α : Type) where
  words : List (List Char × α)
  /-- A number by its sign, its whole digits, the point with its digits, and the exponent. -/
  number : (negative : Bool) → (whole part exponent : List Char) → Option α
  text : String → α
  list : List α → α
  object : List (String × α) → α

variable {α : Type}

/-- A number without its sign, and what follows it. -/
def readNumber (d : Dialect α) (negative : Bool) (text : List Char) : Option (α × List Char) :=
  let (whole, rest) := takeWhole text
  let (part, rest) := takePart rest
  let (exponent, rest) := takeExponent rest
  if whole.isEmpty then none
  else (d.number negative whole part exponent).map fun v => (v, rest)

def readSimple (d : Dialect α) (text : List Char) : Option (α × List Char) :=
  match d.words.findSome? fun (word, v) => (dropPrefix? word text).map fun rest => (v, rest) with
  | some found => some found
  | none =>
    match text with
    | '-' :: rest => readNumber d true rest
    | text => readNumber d false text

/-- Keeps what follows a part, if the part took something. -/
def after? (text : List Char) (part : α × List Char) : Option (α × After text) :=
  if h : part.2.length < text.length then some (part.1, ⟨part.2, h⟩) else none

def sign? (sign : Char) (text : List Char) : Option (After text) :=
  match h : skipSpace text with
  | c :: rest =>
    if c = sign then
      some ⟨skipSpace rest, by
        have := skipSpace_length_le rest
        have := skipSpace_length_le text
        rw [h] at this
        simp only [List.length_cons] at this
        omega⟩
    else none
  | [] => none

def readKey (text : List Char) : Option (String × After text) :=
  match text with
  | '"' :: rest =>
    (readText rest).bind fun (cs, left) => after? ('"' :: rest) (String.ofList cs, left)
  | _ => none

mutual

def readValue (d : Dialect α) (text : List Char) : Option (α × After text) :=
  match text with
  | [] => none
  | '"' :: rest =>
    (readText rest).bind fun (cs, left) => after? ('"' :: rest) (d.text (String.ofList cs), left)
  | '[' :: rest =>
    match sign? ']' rest with
    | some ⟨left, h⟩ => some (d.list [], ⟨left, Nat.lt_succ_of_lt h⟩)
    | none => do
      let (items, ⟨left, h⟩) ← readItems d rest
      some (d.list items, ⟨left, Nat.lt_succ_of_lt h⟩)
  | '\x7b' :: rest =>
    match sign? '\x7d' rest with
    | some ⟨left, h⟩ => some (d.object [], ⟨left, Nat.lt_succ_of_lt h⟩)
    | none => do
      let (entries, ⟨left, h⟩) ← readEntries d rest
      some (d.object entries, ⟨left, Nat.lt_succ_of_lt h⟩)
  | c :: rest => (readSimple d (c :: rest)).bind (after? (c :: rest))
termination_by 2 * text.length

def readItems (d : Dialect α) (text : List Char) : Option (List α × After text) := do
  have := skipSpace_length_le text
  let (item, ⟨left, h⟩) ← readValue d (skipSpace text)
  match sign? ',' left with
  | some ⟨more, h'⟩ => do
    let (items, ⟨rest, h''⟩) ← readItems d more
    some (item :: items, ⟨rest, by omega⟩)
  | none => do
    let ⟨rest, h'⟩ ← sign? ']' left
    some ([item], ⟨rest, by omega⟩)
termination_by 2 * text.length + 1

def readEntries (d : Dialect α) (text : List Char) : Option (List (String × α) × After text) := do
  have := skipSpace_length_le text
  let (key, ⟨left, h⟩) ← readKey (skipSpace text)
  let ⟨start, h'⟩ ← sign? ':' left
  let (value, ⟨left, h''⟩) ← readValue d start
  match sign? ',' left with
  | some ⟨more, h₁⟩ => do
    let (entries, ⟨rest, h₂⟩) ← readEntries d more
    some ((key, value) :: entries, ⟨rest, by omega⟩)
  | none => do
    let ⟨rest, h₁⟩ ← sign? '\x7d' left
    some ([(key, value)], ⟨rest, by omega⟩)
termination_by 2 * text.length + 1

end

/-- The whole text as one value. -/
def decode (d : Dialect α) (text : String) : Option α :=
  match readValue d (skipSpace text.toList) with
  | some (v, ⟨rest, _⟩) => if (skipSpace rest).isEmpty then some v else none
  | none => none

/-- Notes and settings also read the names of infinities and of not-a-number. A number with a point
or an exponent is binary. -/
def loose : Dialect Value where
  words := [
    ("null".toList, .null), ("true".toList, .bool true), ("false".toList, .bool false),
    ("NaN".toList, .float .nan), ("Infinity".toList, .float (.infinite false)),
    ("-Infinity".toList, .float (.infinite true))]
  number negative whole part exponent :=
    let sign := if negative then ['-'] else []
    if part.isEmpty && exponent.isEmpty then (Numeral.readInt? (sign ++ whole)).map .int
    else (Numeral.readFloat? (sign ++ whole ++ part ++ exponent)).map .float
  text := .text
  list := .list
  object entries := .map (Entries.ofList entries)

def ofText? (text : String) : Option Value := decode loose text

end NoteQuery.Json
