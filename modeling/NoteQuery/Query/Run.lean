import NoteQuery.Note.Store
import NoteQuery.Query.Matching
import NoteQuery.Query.Options
import NoteQuery.Query.Result
import NoteQuery.Sort

/-!
Runs of a query over the notes of a source, one after the other: the filters of the definition and
of the view, the view's order with nulls last on every key, its limit, a page of what is left, and
the columns asked for. Values of formulas are kept in a table through the whole run and, if the
settings say so, from run to run. A run can be cancelled between two notes and then has no result.
-/

namespace NoteQuery

inductive RunError where
  | unknownView (e : UnknownView)
  | source (e : SourceError)
  /-- The run was cancelled before the note at this place among so many. -/
  | cancelled (done total : Nat)
  | failed (f : Failure)
  deriving Repr

namespace RunError

def message : RunError → String
  | unknownView e => e.message
  | source (.store e) => e.message
  | source _ => "Failed to enumerate documents"
  | cancelled done total =>
    "Query cancelled after " ++ toString done ++ " of " ++ toString total ++ " documents"
  | failed (.error e) => e.message
  | failed (.fault _) => "Evaluation failed"

end RunError

/-- A computation of a run. It changes the table of formula values also when it fails. -/
abbrev Run (α : Type) := ExceptT RunError (StateM FormulaTable) α

/-- A note that takes part in a run, with what is known of the cycles among its formulas. -/
structure Candidate where
  document : Document
  context : Context
  cyclic : List String
  deriving Repr

structure Query where
  definition : Definition
  view : Option View
  settings : Settings
  options : Options
  present : Moment

namespace Candidate

def evaluate {α : Type} (q : Query) (c : Candidate)
    (f : Surroundings → StateM Memo α) : StateM FormulaTable (α × Candidate) := do
  let table ← get
  let s := Surroundings.withFormulas q.present c.context q.definition.formulas
  let (a, memo) := (f s).run ⟨table, c.cyclic⟩
  set memo.table
  pure (a, { c with cyclic := memo.cyclic })

def evaluate? {α : Type} (q : Query) (c : Candidate) (f : Surroundings → Eval α) :
    Run (α × Candidate) := do
  let (result, c) ← (c.evaluate q fun s => (f s).run : StateM FormulaTable _)
  match result with
  | .ok a => pure (a, c)
  | .error e => throw (.failed e)

/-- The value at a path, null where it fails to evaluate. -/
def resolve (q : Query) (path : String) (c : Candidate) : Run (Value × Candidate) := do
  let (result, c) ← (c.evaluate q fun s => (s.resolve path).run : StateM FormulaTable _)
  match result with
  | .ok v => pure (v, c)
  | .error (.error _) => pure (.null, c)
  | .error (.fault f) => throw (.failed (.fault f))

end Candidate

namespace Query

/-- The extensions of notes, in small letters and without dots in front. -/
def extensions (q : Query) : List String :=
  q.settings.extensions.map fun e =>
    String.ofList ((Text.lower e).toList.dropWhile (· == '.'))

def wantsContent (q : Query) : Bool :=
  match q.options.includeContent with
  | some wanted => wanted
  | none => (q.view.map View.includeContent).getD false

/-- The filters that a note has to pass, the definition's before the view's. -/
def filters (q : Query) : List Filter :=
  q.definition.filter.toList ++ (q.view.bind View.filter).toList

def examine (q : Query) (source : Source) (d : Document) (content : String) :
    Run (Option Candidate) := do
  match Context.ofDocument d (source.metadata d) q.settings
      (if q.wantsContent then some content else none) with
  | .error f => throw (.failed (.fault f))
  | .ok context =>
    let (passes, c) ← (Candidate.evaluate q ⟨d, context, []⟩
      fun s => s.admitsAll q.filters : StateM FormulaTable _)
    pure (if passes then some c else none)

structure Selection where
  matched : List Candidate
  skipped : Nat

/-- Goes through the notes that are left after `done` notes and `reads` contents. A run may be cancelled
at any time, but this is looked for only before each note: `cancelled` says what is found there after so
many notes and contents. -/
def selectUnless (q : Query) (source : Source) (cancelled : Nat → Nat → Bool) (total : Nat) :
    Nat → Nat → List Document → Run Selection
  | _, _, [] => pure ⟨[], 0⟩
  | done, reads, d :: rest => do
    if cancelled done reads then throw (.cancelled done total)
    if !q.extensions.contains (Text.lower d.extension) then
      selectUnless q source cancelled total (done + 1) reads rest
    else
      match source.content d with
      | none => do
        let later ← selectUnless q source cancelled total (done + 1) (reads + 1) rest
        pure { later with skipped := later.skipped + 1 }
      | some content => do
        let candidate ← q.examine source d content
        let later ← selectUnless q source cancelled total (done + 1) (reads + 1) rest
        pure { later with matched := candidate.toList ++ later.matched }

/-- With a number in `cancelAfter` the run is cancelled once so many contents have been asked for. -/
def select (q : Query) (source : Source) (cancelAfter : Option Nat) (total : Nat) :
    Nat → Nat → List Document → Run Selection :=
  q.selectUnless source (fun _ reads => cancelAfter.any (· ≤ reads)) total

def keyed (q : Query) (path : String) : List Candidate → Run (List (Value × Candidate))
  | [] => pure []
  | c :: rest => do
    let first ← c.resolve q path
    let others ← keyed q path rest
    pure (first :: others)

/-- The candidates in the order of one key, those without a value last. -/
def sortByKey (q : Query) (key : SortKey) (candidates : List Candidate) :
    Run (List Candidate) := do
  let pairs ← q.keyed key.path candidates
  let present := pairs.filter fun p => !p.1.isNull
  let missing := pairs.filter fun p => p.1.isNull
  let precedes (a b : Value × Candidate) : Except Fault Bool := do
    .ok ((← Value.sortOrder a.1 b.1) == .lt)
  match Sort.sorted precedes key.descending present with
  | .ok sorted => pure ((sorted ++ missing).map Prod.snd)
  | .error f => throw (.failed (.fault f))

def sortBy (q : Query) : List SortKey → List Candidate → Run (List Candidate)
  | [], candidates => pure candidates
  | key :: keys, candidates => do
    let sorted ← sortBy q keys candidates
    q.sortByKey key sorted

def columns? (q : Query) : Option (List String) :=
  match q.options.columns with
  | some (c :: cs) => some (c :: cs)
  | _ =>
    match q.view.bind View.columns with
    | some (c :: cs) => some (c :: cs)
    | _ => none

def project (q : Query) : List String → Candidate → Run (Entries × Candidate)
  | [], c => pure ([], c)
  | column :: columns, c => do
    let (value, c) ← c.resolve q column
    let (others, c) ← project q columns c
    pure ((column, value) :: others, c)

def allProperties (context : Context) (formulas : Entries) : Entries :=
  let named (scope : String) (entries : Entries) : Entries :=
    entries.map fun entry => (scope ++ "." ++ entry.1, entry.2)
  Entries.putAll (Entries.putAll context.note (named "file" context.file.entries))
    (named "formula" formulas)

def present? (q : Query) (c : Candidate) : Run ResultDocument := do
  let (formulas, c) ← c.evaluate? q fun s => s.entries .formula
  let properties ←
    match q.columns? with
    | some columns => do pure (Entries.ofList (← q.project columns c).1)
    | none => pure (allProperties c.context formulas)
  pure {
    path := c.document.path
    name := c.document.name
    properties := properties
    frontmatter := c.context.frontmatter
    file := c.context.file
    formulas := formulas
    content := c.context.content }

def presentAll (q : Query) : List Candidate → Run (List ResultDocument)
  | [] => pure []
  | c :: rest => do
    let first ← q.present? c
    let others ← presentAll q rest
    pure (first :: others)

def page (paging : Option (Nat × Nat)) (candidates : List Candidate) : List Candidate × Bool :=
  match paging with
  | none => (candidates, false)
  | some (number, size) =>
    let start := (number - 1) * size
    ((candidates.drop start).take size, start + size < candidates.length)

def finish (q : Query) (selection : Selection) : Run ResultSet := do
  let sorted ← q.sortBy ((q.view.map View.order).getD []) selection.matched
  let limited := match q.view.bind View.limit with
    | some limit => sorted.take limit
    | none => sorted
  let (shown, hasMore) := page q.options.paging? limited
  let documents ← q.presentAll shown
  pure {
    documents := documents
    total := selection.matched.length
    view := q.view
    paging := q.options.paging?
    hasMore := hasMore
    skipped := selection.skipped }

def runUnless (q : Query) (source : Source) (cancelled : Nat → Nat → Bool) : Run ResultSet := do
  match source.documents with
  | .error e => throw (.source e)
  | .ok documents => do
    let selection ← q.selectUnless source cancelled documents.length 0 0 documents
    q.finish selection

def run (q : Query) (source : Source) (cancelAfter : Option Nat) : Run ResultSet :=
  q.runUnless source fun _ reads => cancelAfter.any (· ≤ reads)

end Query

namespace Definition

/-- Runs a view of the definition, or its filters alone. The table of formula values is emptied
first unless the settings keep it. -/
def runUnless (d : Definition) (viewName : Option String) (settings : Settings) (options : Options)
    (present : Moment) (source : Source) (cancelled : Nat → Nat → Bool) : Run ResultSet := do
  let view ←
    match viewName.map d.view with
    | none => pure none
    | some (.ok v) => pure (some v)
    | some (.error e) => throw (.unknownView e)
  if settings.keep = .query then set ([] : FormulaTable)
  Query.runUnless ⟨d, view, settings, options, present⟩ source cancelled

def run (d : Definition) (viewName : Option String) (settings : Settings) (options : Options)
    (present : Moment) (source : Source) (cancelAfter : Option Nat) : Run ResultSet :=
  d.runUnless viewName settings options present source fun _ reads => cancelAfter.any (· ≤ reads)

end Definition

end NoteQuery
