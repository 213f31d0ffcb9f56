import NoteQuery.Text.Blank
import NoteQuery.Text.Search

/-!
Texts with tags in square brackets, which style what stands between an opening and a closing tag. On
a console without colours the tags only disappear. Brackets whose content does not begin with a
small letter, a slash or one of a few signs are no tag, and a backslash keeps a tag as text. A
closing tag needs an open one.
-/

namespace NoteQuery.Markup

open NoteQuery.Text

inductive Piece where
  | plain (text : List Char)
  | tag (content : List Char)
  deriving DecidableEq, Repr

def beginsTag (c : Char) : Bool :=
  ('a' ≤ c && c ≤ 'z') || c == '#' || c == '/' || c == '@'

/-- What stands in a tag behind its bracket, and the number of characters up to the end of it. -/
def tag? : List Char → Option (List Char)
  | c :: rest =>
    let content := rest.takeWhile fun d => d != '[' && d != ']'
    if beginsTag c && (rest.drop content.length).head? = some ']' then some (c :: content)
    else none
  | [] => none

def plainBrackets : List Char → List Char
  | [] => []
  | '\\' :: '[' :: rest => '[' :: plainBrackets rest
  | c :: rest => c :: plainBrackets rest

/-- Cuts a text into tags and the text between them. `before` holds what was read since the last
piece, the last character first. -/
def pieces (before : List Char) (text : List Char) : List Piece :=
  match text with
  | [] => [.plain (plainBrackets before.reverse)]
  | '[' :: rest =>
    match tag? rest with
    | none => pieces ('[' :: before) rest
    | some content =>
      let slashes := before.takeWhile (· == '\\')
      let kept := .plain (plainBrackets (before.drop slashes.length).reverse) ::
        [Piece.plain (List.replicate (slashes.length / 2) '\\')]
      let left := rest.drop (content.length + 1)
      if slashes.length % 2 = 1 then
        kept ++ .plain ('[' :: content ++ [']']) :: pieces [] left
      else kept ++ .tag content :: pieces [] left
  | c :: rest => pieces (c :: before) rest
termination_by text.length
decreasing_by all_goals simp only [List.length_drop, List.length_cons]; omega

/-- The name of a style: what stands before an equals sign, in small letters. -/
def styleName (content : List Char) : List Char :=
  (trim (content.takeWhile (· != '='))).map Char.toLower

/-- Closes the last open tag of a name; without a name, the last of all. -/
def close? (name : List Char) : List (List Char) → Option (List (List Char))
  | [] => none
  | top :: opened =>
    if name.isEmpty || top = name then some opened else (close? name opened).map (top :: ·)

def join? (opened : List (List Char)) : List Piece → Option (List Char)
  | [] => some []
  | .plain text :: rest => (join? opened rest).map (text ++ ·)
  | .tag ('/' :: name) :: rest => do
    let opened ← close? (styleName name) opened
    join? opened rest
  | .tag content :: rest => join? (styleName content :: opened) rest

/-- Characters that move the cursor, which a console does not get. -/
def isControl (c : Char) : Bool := ['\x07', '\x08', '\x0b', '\x0c', '\r'].contains c

/-- What a console shows of a text, unless a tag is closed that is not open. -/
def shown? (text : String) : Option String :=
  (join? [] (pieces [] text.toList)).map fun cs =>
    String.ofList (cs.filter fun c => !isControl c)

end NoteQuery.Markup
