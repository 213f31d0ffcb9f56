import NoteQuery.Expr.Eval
import NoteQuery.Query.Filter

/-!
Which notes a filter lets pass. An expression that fails lets none pass. `admits` follows a filter
that has been read; `admitsValue` follows any value: null lets every note pass, a combinator may
have a single filter without a list around it, and a value that spells no filter lets none pass.
-/

namespace NoteQuery

namespace Surroundings

def holds (s : Surroundings) (text : String) : StateM Memo Bool := do
  match ← Expr.evaluateText s text with
  | .ok v => pure v.truthy
  | .error _ => pure false

mutual

def admits (s : Surroundings) : Filter → StateM Memo Bool
  | .test text => s.holds text
  | .combine .and filters => admitsAll s filters
  | .combine .or filters => admitsSome s filters
  | .combine .not filters => do pure !(← admitsSome s filters)

/-- The note passes each of the filters, of which no more are tried than needed. -/
def admitsAll (s : Surroundings) : List Filter → StateM Memo Bool
  | [] => pure true
  | f :: fs => do
    if ← admits s f then admitsAll s fs else pure false

def admitsSome (s : Surroundings) : List Filter → StateM Memo Bool
  | [] => pure false
  | f :: fs => do
    if ← admits s f then pure true else admitsSome s fs

end

/-- A value that is no filter lets no note pass. It has to have a form that can be reported. -/
def refuse (v : Value) : ExceptT Fault (StateM Memo) Bool :=
  match v.quoted with
  | .ok _ => pure false
  | .error f => throw f

mutual

def admitsValue (s : Surroundings) : Value → ExceptT Fault (StateM Memo) Bool
  | .null => pure true
  | .text text => (s.holds text : StateM Memo Bool)
  | .map [("and", .list filters)] => admitsAllValues s filters
  | .map [("or", .list filters)] => admitsSomeValue s filters
  | .map [("not", .list filters)] => do pure !(← admitsSomeValue s filters)
  | .map [("and", filter)] => admitsValue s filter
  | .map [("or", filter)] => admitsValue s filter
  | .map [("not", filter)] => do pure !(← admitsValue s filter)
  | v => refuse v

def admitsAllValues (s : Surroundings) : List Value → ExceptT Fault (StateM Memo) Bool
  | [] => pure true
  | filter :: filters => do
    if ← admitsValue s filter then admitsAllValues s filters else pure false

def admitsSomeValue (s : Surroundings) : List Value → ExceptT Fault (StateM Memo) Bool
  | [] => pure false
  | filter :: filters => do
    if ← admitsValue s filter then pure true else admitsSomeValue s filters

end

end Surroundings

end NoteQuery
