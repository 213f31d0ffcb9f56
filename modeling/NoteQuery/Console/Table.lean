import NoteQuery.Text.Blank
import NoteQuery.Text.Search

/-!
Text set out for a console: lines broken between words, and tables whose columns are as wide as
their widest cell, with a title in the middle above. Every character takes one column.
-/

namespace NoteQuery.Console

open NoteQuery.Text

/-- Words with the blanks behind them; the first also has those in front. -/
def wordsWithBlanks : List Char → List (List Char)
  | [] => []
  | c :: rest =>
    match wordsWithBlanks rest with
    | [] => if isBlank c then [] else [c :: rest]
    | word :: words =>
      if !isBlank c && word.head?.any isBlank then
        (c :: word.takeWhile isBlank) :: word.dropWhile isBlank :: words
      else (c :: word) :: words

def chunks (size : Nat) (text : List Char) : List (List Char) :=
  if _h : size = 0 ∨ text.length ≤ size then [text]
  else text.take size :: chunks size (text.drop size)
termination_by text.length
decreasing_by simp only [List.length_drop]; omega

/-- Lines that are full, the last one first, and the line that words are added to. -/
abbrev Filling := List (List Char) × List Char

/-- Adds a word. One that is too long for any line is cut. -/
def addWord (width : Nat) (lines : Filling) (word : List Char) : Filling :=
  let (full, current) := lines
  let size := (trimEnd word).length
  if size ≤ width - current.length then (full, current ++ word)
  else
    let full := if current.isEmpty then full else current :: full
    if size ≤ width then (full, word)
    else
      match (chunks width word).reverse with
      | last :: before => (before ++ full, last)
      | [] => (full, [])

def trimBeyond (width : Nat) (line : List Char) : List Char :=
  let blanks := line.length - (trimEnd line).length
  line.take (line.length - min (line.length - width) blanks)

def breakLine (width : Nat) (text : List Char) : List (List Char) :=
  match wordsWithBlanks text with
  | [] => [trimBeyond width text]
  | words =>
    let (full, current) := words.foldl (addWord width) ([], [])
    (full.reverse ++ [current]).map (trimBeyond width)

/-- The lines of a text, none wider than the width unless the blanks in front of a word are. -/
def linesOf (width : Nat) (text : String) : List (List Char) :=
  (pieces '\n' text.toList).flatMap (breakLine width)

def shownText (width : Nat) (text : String) : String :=
  String.ofList ((linesOf width text).flatMap fun line => line ++ ['\n'])

/-- A line with blanks around it, as many on the left as on the right or one less. -/
def centered (width : Nat) (line : List Char) : List Char :=
  let line := (trimEnd line).take width
  let space := width - line.length
  List.replicate (space / 2) ' ' ++ line ++ List.replicate (space - space / 2) ' '

structure Table where
  title : String
  header : List String
  rows : List (List String)
  deriving Repr

namespace Table

/-- The signs at the left, between columns, and at the right of a line, and what fills it. -/
structure Rule where
  left : Char
  fill : Char
  joint : Char
  right : Char

def top : Rule := ⟨'┏', '━', '┳', '┓'⟩
def headText : Rule := ⟨'┃', ' ', '┃', '┃'⟩
def headEnd : Rule := ⟨'┡', '━', '╇', '┩'⟩
def rowText : Rule := ⟨'│', ' ', '│', '│'⟩
def bottom : Rule := ⟨'└', '─', '┴', '┘'⟩

def ruled (r : Rule) (parts : List (List Char)) : List Char :=
  r.left :: [r.joint].intercalate parts ++ [r.right]

def rule (r : Rule) (widths : List Nat) : List Char :=
  ruled r (widths.map fun w => List.replicate (w + 2) r.fill)

def cellLines (cell : String) : List (List Char) := pieces '\n' cell.toList

def cellWidth (cell : String) : Nat := ((cellLines cell).map List.length).foldl max 0

def widths (t : Table) : List Nat :=
  t.header.mapIdx fun i name =>
    (t.rows.map fun row => cellWidth (row.getD i "")).foldl max (cellWidth name)

def padded (width : Nat) (line : List Char) : List Char :=
  ' ' :: line ++ List.replicate (width - line.length) ' ' ++ [' ']

/-- The lines of a row; it is as high as its highest cell. -/
def rowLines (r : Rule) (widths : List Nat) (cells : List String) : List (List Char) :=
  let columns := cells.map cellLines
  let height := (columns.map List.length).foldl max 1
  (List.range height).map fun i =>
    ruled r ((widths.zip columns).map fun (w, lines) => padded w (lines.getD i []))

def titleLines (t : Table) (width : Nat) : List (List Char) :=
  if t.title.isEmpty then [] else (linesOf width t.title).map (centered width)

def lines (t : Table) : List (List Char) :=
  let widths := t.widths
  let border := rule top widths
  t.titleLines border.length ++ [border] ++ rowLines headText widths t.header ++
    [rule headEnd widths] ++ t.rows.flatMap (rowLines rowText widths) ++ [rule bottom widths]

def text (t : Table) : String :=
  String.ofList (t.lines.flatMap fun line => line ++ ['\n'])

end Table

end NoteQuery.Console
