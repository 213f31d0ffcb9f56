import NoteQuery.Value.Text

/-!
One value as a field of a CSV record and as a cell of a markdown table. A field with a comma, a
quote or a line end is quoted, its quotes doubled. In a cell a bar is escaped and a line end
becomes a tag.
-/

namespace NoteQuery.Cell

def csvField (text : String) : String :=
  let cs := text.toList
  if cs.any fun c => c == ',' || c == '"' || c == '\n' || c == '\r' then
    String.ofList ('"' :: cs.flatMap (fun c => if c = '"' then ['"', '"'] else [c]) ++ ['"'])
  else text

def lineBreak : List Char := "<br>".toList

def markdownChars : List Char → List Char
  | [] => []
  | '|' :: rest => '\\' :: '|' :: markdownChars rest
  | '\r' :: '\n' :: rest => lineBreak ++ markdownChars rest
  | '\n' :: rest => lineBreak ++ markdownChars rest
  | c :: rest => c :: markdownChars rest

def markdownCell (text : String) : String := String.ofList (markdownChars text.toList)

def csv (v : Value) : Except Fault String := v.display.map csvField

def markdown (v : Value) : Except Fault String := v.display.map markdownCell

end NoteQuery.Cell
