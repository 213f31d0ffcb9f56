import NoteQuery.Expr.Eval

/-!
Named formulas. A formula is evaluated when it is first read and its value is kept under the note
and the text of the formula; one that fails is null. A formula may read others, in any order of
definition. One whose evaluation comes back to itself is null, as is every formula on the way back;
a formula that merely reads such a cycle is not part of it.
-/

namespace NoteQuery

abbrev Formulas := List (String × String)

namespace FormulaTable

def find? (table : FormulaTable) (path text : String) : Option Value := table.lookup (path, text)

def put (path text : String) (value : Value) : FormulaTable → FormulaTable
  | [] => [((path, text), value)]
  | (key, old) :: rest =>
    if key == (path, text) then (key, value) :: rest else (key, old) :: put path text value rest

def dropNote (table : FormulaTable) (path : String) : FormulaTable :=
  table.filter fun entry => entry.1.1 != path

end FormulaTable

namespace Memo

/-- What is known when formulas are attached to a note: of their cycles, nothing. -/
def fresh (table : FormulaTable) : Memo := ⟨table, []⟩

def keep (path text : String) (value : Value) (m : Memo) : Memo :=
  { m with table := m.table.put path text value }

def mark (names : List String) (m : Memo) : Memo :=
  { m with cyclic := m.cyclic ++ names.filter fun n => !m.cyclic.contains n }

end Memo

namespace Surroundings

def formulaValue (s : Surroundings) (text : String) : StateM Memo Value := do
  let memo ← get
  match memo.table.find? s.context.path text with
  | some v => pure v
  | none => do
    let value ←
      match ← Expr.evaluateText s text with
      | .ok v => pure v
      | .error _ => pure .null
    modify (Memo.keep s.context.path text value)
    pure value

end Surroundings

namespace Formulas

def names (formulas : Formulas) : List String := formulas.map Prod.fst

/-- The formulas that are being evaluated, the innermost first, up to the one that is read again. -/
def loop (resolving : List String) (name : String) : List String :=
  resolving.takeWhile (· != name) ++ [name]

/-- The value of a formula that is read while others are being evaluated, the innermost first. The
depth bounds how many more can be entered; each is entered at most once. -/
def read (formulas : Formulas) (present : Moment) (context : Context) :
    Nat → List String → String → Eval Value
  | 0, _, _ => pure .null
  | depth + 1, resolving, name =>
    match formulas.lookup name with
    | none => pure .null
    | some text =>
      if resolving.contains name then do
        modify (Memo.mark (loop resolving name))
        Eval.fail (.circular name)
      else do
        let reader : FormulaReader :=
          ⟨formulas.names, read formulas present context depth (name :: resolving)⟩
        let value ← (Surroundings.formulaValue ⟨present, context, some reader⟩ text : StateM Memo _)
        let memo ← get
        if memo.cyclic.contains name then do
          modify (Memo.keep context.path text .null)
          if resolving.head?.any memo.cyclic.contains then Eval.fail (.circular name)
          else pure .null
        else pure value

def reader (formulas : Formulas) (present : Moment) (context : Context) : FormulaReader :=
  ⟨formulas.names, read formulas present context (formulas.length + 1) []⟩

end Formulas

namespace Surroundings

def plain (present : Moment) (context : Context) : Surroundings := ⟨present, context, none⟩

def withFormulas (present : Moment) (context : Context) (formulas : Formulas) : Surroundings :=
  ⟨present, context, some (formulas.reader present context)⟩

end Surroundings

end NoteQuery
