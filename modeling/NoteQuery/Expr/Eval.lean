import NoteQuery.Expr.Builtin
import NoteQuery.Expr.Parser
import NoteQuery.Note.Context
import NoteQuery.Note.Tag

/-!
The value of an expression in the context of a note. Names are the three scopes `file`, `note` and
`formula`, else properties of the note; what is missing is null. Reading a formula goes through the
function `formula?` of the surroundings, so that this module does not depend on how formulas are
resolved. A scope on its own is not a value; wherever a value is needed it becomes the map of its
entries.
-/

namespace NoteQuery

/-- The values of formulas that are already known, by note and by text of the formula. -/
abbrev FormulaTable := List ((String × String) × Value)

/-- What evaluation may add to: known values of formulas, and the formulas of the note that are
known to lead back to themselves. -/
structure Memo where
  table : FormulaTable
  cyclic : List String
  deriving Repr

/-- A computation that may fail and may add to what is known of formulas, also when it fails. -/
abbrev Eval (α : Type) := ExceptT Failure (StateM Memo) α

namespace Eval

def fail {α : Type} (e : EvalError) : Eval α := throw (.error e)

def ofExcept {α : Type} : Except Failure α → Eval α
  | .ok a => pure a
  | .error e => throw e

def ofFault {α : Type} (result : Except Fault α) : Eval α := ofExcept (Fault.lift result)

end Eval

inductive Scope where
  | file
  | note
  | formula
  deriving DecidableEq, Repr

namespace Scope

def name : Scope → String
  | file => "file"
  | note => "note"
  | formula => "formula"

def ofName? (name : String) : Option Scope := [file, note, formula].find? (·.name == name)

end Scope

inductive Scoped where
  | value (v : Value)
  | scope (s : Scope)
  deriving Repr

namespace Scoped

/-- A scope holds wherever a condition is asked for. -/
def truthy : Scoped → Bool
  | value v => v.truthy
  | scope _ => true

end Scoped

structure FormulaReader where
  names : List String
  read : String → Eval Value

structure Surroundings where
  present : Moment
  context : Context
  formulas : Option FormulaReader

namespace Surroundings

/-- The name of a scope in messages. Without formulas their scope has no name of its own. -/
def scopeName (s : Surroundings) : Scope → String
  | .formula => if s.formulas.isSome then "formula" else "namespace"
  | scope => scope.name

def member (s : Surroundings) (scope : Scope) (name : String) : Eval Value :=
  match scope with
  | .file => pure (s.context.file.get name)
  | .note => pure (s.context.note.get name)
  | .formula =>
    match s.formulas with
    | some formulas => formulas.read name
    | none => pure .null

def readAll (read : String → Eval Value) : List String → Eval Entries
  | [] => pure []
  | name :: names => do
    let value ← read name
    let rest ← readAll read names
    pure ((name, value) :: rest)

def entries (s : Surroundings) : Scope → Eval Entries
  | .file => pure s.context.file.entries
  | .note => pure s.context.note
  | .formula =>
    match s.formulas with
    | some formulas => readAll formulas.read formulas.names
    | none => pure []

def settle (s : Surroundings) : Scoped → Eval Value
  | .value v => pure v
  | .scope scope => do pure (.map (← s.entries scope))

/-- A name on its own: a scope, else a property of the note. -/
def lookup (s : Surroundings) (name : String) : Scoped :=
  match Scope.ofName? name with
  | some scope => .scope scope
  | none => .value (s.context.note.get name)

end Surroundings

namespace Value

/-- A member of a value: an entry of a map, or the length of a text or a list. -/
def member (v : Value) (name : String) : Value :=
  match v with
  | map entries => Entries.get entries name
  | text s => if name = "length" then int s.length else null
  | list items => if name = "length" then int items.length else null
  | _ => null

def indexOfNumber : Num → Except Fault Int
  | .int n => .ok n
  | .float x =>
    match x.truncate? with
    | some n => .ok n
    | none => .error (if x.isNaN then .badValue else .outOfRange)

def itemAt (items : List Value) (i : Int) : Value :=
  if i < 0 then null else items.getD i.toNat null

def charAt (s : String) (i : Int) : Value :=
  if i < 0 then null
  else
    match s.toList[i.toNat]? with
    | some c => text (String.ofList [c])
    | none => null

def ownNumber? : Value → Option Num
  | int n => some (.int n)
  | float x => some (.float x)
  | _ => none

/-- Lists and texts are indexed by numbers; a text as key names a member. -/
def index (v key : Value) : Except Fault Value :=
  match v, ownNumber? key, key with
  | list items, some n, _ => do .ok (itemAt items (← indexOfNumber n))
  | text s, some n, _ => do .ok (charAt s (← indexOfNumber n))
  | v, _, text name => .ok (v.member name)
  | _, _, _ => .ok null

def negate (v : Value) : Except Failure Value :=
  if v.isNull then .ok null
  else do
    match ← Fault.lift v.number? with
    | some n => .ok n.neg.collapse
    | none => do
      let shown ← Fault.lift v.quoted
      .error (.error (.cannotNegate shown))

/-- Whether a relation holds. Values that cannot be compared stand in no order. -/
def related (r : Relation) (a b : Value) : Except Fault Bool :=
  match r with
  | .equal => equals a b
  | .notEqual => do .ok !(← equals a b)
  | r => do
    match ← order a b with
    | some o => .ok (r.holds o)
    | none => .ok false

end Value

namespace Expr

def memberOf (s : Surroundings) (target : Scoped) (name : String) : Eval Scoped :=
  match target with
  | .value v => pure (.value (v.member name))
  | .scope scope => do pure (.value (← s.member scope name))

def indexOf (s : Surroundings) (target key : Scoped) : Eval Scoped :=
  match target, key with
  | .value v, .value k => do pure (.value (← Eval.ofFault (v.index k)))
  | .scope scope, .value (.text n) => do pure (.value (← s.member scope n))
  | _, _ => pure (.value .null)

def callFile (s : Surroundings) (method : String) (args : List Value) : Eval Value :=
  let named (result : Except Fault Bool) : Eval Value :=
    Eval.ofExcept (namingCall ("file." ++ method) (Fault.lift (result.map .bool)))
  let context := s.context
  match method, args with
  | "hasTag", tags => named (hasTag context.file.tags tags)
  | "inFolder", [folder] => named (isIn context.path folder)
  | "hasLink", [target] => named (hasLink context.file.links target)
  | "hasProperty", [property] => named (hasProperty context.frontmatter property)
  | "inFolder", _ => named (.error .badType)
  | "hasLink", _ => named (.error .badType)
  | "hasProperty", _ => named (.error .badType)
  | _, _ => Eval.fail (.unknownFunction (s.scopeName .file ++ "." ++ method))

def callScope (s : Surroundings) (scope : Scope) (method : String) (args : List Value) :
    Eval Value :=
  match scope with
  | .file => callFile s method args
  | scope => Eval.fail (.unknownFunction (s.scopeName scope ++ "." ++ method))

def callOn (s : Surroundings) (target : Scoped) (method : String) (args : List Value) :
    Eval Value :=
  match target with
  | .scope scope => callScope s scope method args
  | .value .null => Eval.fail (.callOnNull method)
  | .value v => Eval.ofExcept (callMethod v method args)

def settleAll (s : Surroundings) : List (Eval Scoped) → Eval (List Value)
  | [] => pure []
  | part :: parts => do
    let value ← s.settle (← part)
    let values ← settleAll s parts
    pure (value :: values)

/-- A conditional evaluates the condition and the one branch that it selects. -/
def choose (s : Surroundings) (name : String) : List (Eval Scoped) → Eval Scoped
  | [condition, yes] => do
    if (← condition).truthy then pure (.value (← s.settle (← yes))) else pure (.value .null)
  | [condition, yes, no] => do
    let branch := if (← condition).truthy then yes else no
    pure (.value (← s.settle (← branch)))
  | _ => Eval.fail (.branchCount name)

/-- A call of a function by name. The name is looked up before the arguments are evaluated. -/
def callFunction (s : Surroundings) (name : String) (args : List (Eval Scoped)) : Eval Scoped :=
  match Builtin.ofName? name with
  | some .choice => choose s name args
  | some f => do
    let values ← settleAll s args
    let value ← Eval.ofExcept (namingCall name (f.apply s.present values))
    pure (.value value)
  | none => Eval.fail (if name = "if" then .reservedIf else .unknownFunction name)

/-- An operation on operands that have not been evaluated. `and` and `or` look at the right one
only when the left one does not decide. -/
def operate (s : Surroundings) (op : BinaryOp) (left right : Eval Scoped) : Eval Value :=
  match op with
  | .and => do
    if (← left).truthy then pure (.bool (← right).truthy) else pure (.bool false)
  | .or => do
    if (← left).truthy then pure (.bool true) else pure (.bool (← right).truthy)
  | .relation r => do
    let a ← s.settle (← left)
    let b ← s.settle (← right)
    pure (.bool (← Eval.ofFault (Value.related r a b)))
  | .arith op => do
    let a ← s.settle (← left)
    let b ← s.settle (← right)
    Eval.ofExcept (Value.arithmetic op a b)

mutual

/-- The value of an expression, or the scope that it names. -/
def eval (s : Surroundings) : Expr → Eval Scoped
  | literal v => pure (.value v)
  | list items => do pure (.value (.list (← settleAll s (evalEach s items))))
  | name n => pure (s.lookup n)
  | member target n => do memberOf s (← eval s target) n
  | index target key => do
    let target ← eval s target
    let key ← eval s key
    indexOf s target key
  | call function args => callFunction s function (evalEach s args)
  | send target method args => do
    let target ← eval s target
    let values ← settleAll s (evalEach s args)
    pure (.value (← callOn s target method values))
  | not operand => do pure (.value (.bool !(← eval s operand).truthy))
  | negate operand => do
    match ← eval s operand with
    | .value v => pure (.value (← Eval.ofExcept v.negate))
    | .scope scope => Eval.fail (.cannotNegate (s.scopeName scope))
  | binary op left right => do pure (.value (← operate s op (eval s left) (eval s right)))

def evalEach (s : Surroundings) : List Expr → List (Eval Scoped)
  | [] => []
  | e :: es => eval s e :: evalEach s es

end

/-- The value of an expression text. A fault on the way fails the whole expression. -/
def evaluateText (s : Surroundings) (text : String) :
    StateM Memo (Except ExpressionError Value) := do
  let evaluation : Eval Value := do
    let e ← Eval.ofExcept (ofText text)
    s.settle (← eval s e)
  match ← evaluation.run with
  | .ok v => pure (.ok v)
  | .error (.error e) => pure (.error ⟨text, e⟩)
  | .error (.fault f) => pure (.error ⟨text, .failed f⟩)

end Expr

namespace Surroundings

private def walk (v : Value) (names : List String) : Value := names.foldl Value.member v

/-- The value at a dotted path. A path that begins with a scope is a member of it whose name may
hold dots, else a member's member; any other is a property of that name, else a property's
member. The parts of a path need not be names that an expression could hold. -/
def resolve (s : Surroundings) (path : String) : Eval Value := do
  let cs := path.toList
  let (front, rest) := Text.cutAt '.' cs
  let root := String.ofList front
  let parts := (Text.pieces '.' rest).map String.ofList
  let own : Value := s.context.note.get path
  match (if rest.isEmpty then none else Scope.ofName? root), parts with
  | some scope, first :: more => do
    let value ← s.member scope (String.ofList rest)
    match value, more with
    | .null, _ :: _ => do pure (walk (← s.member scope first) more)
    | value, _ => pure value
  | _, _ =>
    if s.context.note.has path then pure own
    else if rest.isEmpty then pure .null
    else pure (walk (s.context.note.get root) parts)

end Surroundings

end NoteQuery
