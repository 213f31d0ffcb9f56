/-!
Sorting with a comparison that may fail, stable and by binary insertion. The leading run that is
already in order, or strictly against it, is taken as it stands; each later item goes behind the
last one that it does not precede, found by halving. The order asks for as few comparisons as a
sort of short lists can do with, and for those alone.
-/

namespace NoteQuery.Sort

variable {α ε : Type}

/-- The place of an item in a sorted array between `low` and `high`. -/
def place (precedes : α → α → Except ε Bool) (x : α) (sorted : Array α) (low high : Nat) :
    Except ε Nat :=
  if low < high then
    let middle := low + (high - low) / 2
    match sorted[middle]? with
    | none => .ok low
    | some y => do
      if ← precedes x y then place precedes x sorted low middle
      else place precedes x sorted (middle + 1) high
  else .ok low
termination_by high - low
decreasing_by all_goals omega

def insert (precedes : α → α → Except ε Bool) (sorted : Array α) (x : α) :
    Except ε (Array α) := do
  let i ← place precedes x sorted 0 sorted.size
  .ok (sorted.insertIdxIfInBounds i x)

/-- Splits off the longest front in which no item precedes the one before it, or in which each
does when `strict`. The front is returned backwards. -/
def run (precedes : α → α → Except ε Bool) (strict : Bool) (front : List α) (last : α) :
    List α → Except ε (List α × List α)
  | [] => .ok (last :: front, [])
  | x :: rest => do
    if (← precedes x last) == strict then run precedes strict (last :: front) x rest
    else .ok (last :: front, x :: rest)

def leadingRun (precedes : α → α → Except ε Bool) : List α → Except ε (List α × List α)
  | x :: y :: rest => do
    let falling ← precedes y x
    let (front, rest) ← run precedes falling [x] y rest
    .ok (if falling then front else front.reverse, rest)
  | items => .ok (items, [])

def ascending (precedes : α → α → Except ε Bool) (items : List α) : Except ε (List α) := do
  let (front, rest) ← leadingRun precedes items
  let sorted ← rest.foldlM (insert precedes) front.toArray
  .ok sorted.toList

/-- The items in order, or in the opposite order; equal ones stay as they are in both. -/
def sorted (precedes : α → α → Except ε Bool) (descending : Bool) (items : List α) :
    Except ε (List α) :=
  if descending then (ascending precedes items.reverse).map List.reverse
  else ascending precedes items

end NoteQuery.Sort
