/-!
Options of one run of a query: which page of how many documents, whether contents are returned, and
which columns. Pages are counted from one.
-/

namespace NoteQuery

structure Options where
  page : Option Nat := none
  pageSize : Option Nat := none
  includeContent : Option Bool := none
  columns : Option (List String) := none
  page_pos : ∀ n ∈ page, 1 ≤ n := by simp
  pageSize_pos : ∀ n ∈ pageSize, 1 ≤ n := by simp

inductive OptionsError where
  | page
  | pageSize
  deriving DecidableEq, Repr

namespace OptionsError

def message : OptionsError → String
  | page => "page must be >= 1"
  | pageSize => "page_size must be >= 1"

end OptionsError

namespace Options

def ofParts (page pageSize : Option Int) (includeContent : Option Bool)
    (columns : Option (List String)) : Except OptionsError Options :=
  let page := page.map Int.toNat
  let pageSize := pageSize.map Int.toNat
  if h : ∀ n ∈ page, 1 ≤ n then
    if h' : ∀ n ∈ pageSize, 1 ≤ n then .ok ⟨page, pageSize, includeContent, columns, h, h'⟩
    else .error .pageSize
  else .error .page

/-- Documents on a page when only its number is given. -/
def defaultPageSize : Nat := 50

def paging? (o : Options) : Option (Nat × Nat) :=
  if o.page.isSome || o.pageSize.isSome then
    some (o.page.getD 1, o.pageSize.getD defaultPageSize)
  else none

end Options

end NoteQuery
