/-!
Sets of characters given as ascending ranges of code points. A search stops at the first range
that begins past the code point, so a membership test costs little for the first ranges.
-/

namespace NoteQuery.Text

def rangeOf? : List (Nat × Nat) → Nat → Option (Nat × Nat)
  | [], _ => none
  | (first, last) :: rest, n =>
    if n < first then none
    else if n ≤ last then some (first, last)
    else rangeOf? rest n

def inRanges (ranges : List (Nat × Nat)) (n : Nat) : Bool := (rangeOf? ranges n).isSome

end NoteQuery.Text
