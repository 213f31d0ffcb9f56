/-!
Finding one text inside another, and cutting a text at a place that is found.
-/

namespace NoteQuery.Text

def dropPrefix? : List Char → List Char → Option (List Char)
  | [], text => some text
  | _ :: _, [] => none
  | p :: start, c :: text => if p == c then dropPrefix? start text else none

def startsWith (text start : List Char) : Bool := (dropPrefix? start text).isSome

def endsWith (text ending : List Char) : Bool := startsWith text.reverse ending.reverse

def occursIn (part : List Char) : List Char → Bool
  | [] => part.isEmpty
  | c :: text => startsWith (c :: text) part || occursIn part text

def contains (text part : String) : Bool := occursIn part.toList text.toList

/-- The text before and after the first such character; all of it and nothing when there is none. -/
def cutAt (sign : Char) (text : List Char) : List Char × List Char :=
  (text.takeWhile (· != sign), (text.dropWhile (· != sign)).drop 1)

/-- The pieces between the signs, the empty ones included: always at least one. -/
def pieces (sign : Char) : List Char → List (List Char)
  | [] => [[]]
  | c :: text =>
    if c == sign then [] :: pieces sign text
    else
      match pieces sign text with
      | [] => [[c]]
      | first :: others => (c :: first) :: others

/-- The maximal runs of characters that do not separate. -/
def words (separates : Char → Bool) : List Char → List (List Char)
  | [] => []
  | c :: text =>
    if separates c then words separates text
    else
      match text with
      | [] => [[c]]
      | d :: _ =>
        if separates d then [c] :: words separates text
        else
          match words separates text with
          | [] => [[c]]
          | first :: others => (c :: first) :: others

def joinWith (separator : String) (parts : List String) : String := separator.intercalate parts

end NoteQuery.Text
