import Mathlib
import NoteQuery.Expr.Eval

/-! Evaluation as a dialogue. An expression learns of formulas only through the reader in its
surroundings, so its evaluation is a finite tree of questions: which formula is read next depends
on the answers so far and on nothing else. -/
namespace NoteQuery

/-- A computation that asks for values by name and goes on with the answers. -/
inductive Script (α : Type) where
  | done (result : Except Failure α)
  | ask (name : String) (next : Value → Script α)

namespace Script

variable {α β : Type}

/-- Puts the questions to a reader, the first failure of which ends the computation. -/
def run (read : String → Eval Value) : Script α → Eval α
  | done result => Eval.ofExcept result
  | ask name next => do (next (← read name)).run read

/-- The questions that are asked when each is answered by the valuation. -/
def asked (value : String → Value) : Script α → List String
  | done _ => []
  | ask name next => name :: (next (value name)).asked value

def result (value : String → Value) : Script α → Except Failure α
  | done result => result
  | ask name next => (next (value name)).result value

def question (name : String) : Script Value := ask name fun v => done (.ok v)

def bind : Script α → (α → Script β) → Script β
  | done (.ok a), f => f a
  | done (.error e), _ => done (.error e)
  | ask name next, f => ask name fun v => (next v).bind f

theorem run_bind (read : String → Eval Value) (t : Script α) (f : α → Script β) :
    (t.bind f).run read = t.run read >>= fun a => (f a).run read := by
  induction t with
  | done result =>
    cases result with
    | ok a => simp [bind, run, Eval.ofExcept]
    | error e => simp only [bind, run, Eval.ofExcept]; rfl
  | ask name next ih => simp only [bind, run, bind_assoc, ih]

/-- A front of the questions depends only on the answers to it: even the question after it does. -/
theorem asked_front (value other : String → Value) (t : Script α) (front : List String)
    (last : String) (asks : front ++ [last] <+: t.asked value)
    (same : ∀ m ∈ front, value m = other m) : front ++ [last] <+: t.asked other := by
  induction t generalizing front with
  | done result => simp [asked] at asks
  | ask name next ih =>
    cases front with
    | nil => simpa [asked, List.cons_prefix_cons] using asks
    | cons first front =>
      simp only [asked, List.cons_append, List.cons_prefix_cons] at asks ⊢
      obtain ⟨rfl, rest⟩ := asks
      have answer := same first (by simp)
      exact ⟨rfl, answer ▸ ih _ front rest fun m member => same m (by simp [member])⟩

theorem asked_congr (value other : String → Value) (t : Script α)
    (same : ∀ m ∈ t.asked value, value m = other m) :
    t.asked other = t.asked value ∧ t.result other = t.result value := by
  induction t with
  | done result => exact ⟨rfl, rfl⟩
  | ask name next ih =>
    have answer := same name (by simp [asked])
    have rest := ih (value name) fun m member => same m (by simp [asked, member])
    simp only [asked, result, ← answer]
    exact ⟨congrArg _ rest.1, rest.2⟩

end Script

/-- A computation that uses a reader only to ask it questions. -/
def Scripted {α : Type} (f : (String → Eval Value) → Eval α) : Prop :=
  ∃ t : Script α, ∀ read, f read = t.run read

namespace Scripted

variable {α β : Type}

theorem ofExcept (result : Except Failure α) : Scripted fun _ => Eval.ofExcept result :=
  ⟨.done result, fun _ => rfl⟩

theorem pure (a : α) : Scripted fun _ => (Pure.pure a : Eval α) := ⟨.done (.ok a), fun _ => rfl⟩

theorem fail (e : EvalError) : Scripted fun _ => (Eval.fail e : Eval α) :=
  ⟨.done (.error (.error e)), fun _ => rfl⟩

theorem ofFault (result : Except Fault α) : Scripted fun _ => Eval.ofFault result :=
  ofExcept (Fault.lift result)

theorem read (name : String) : Scripted fun read => read name :=
  ⟨.question name, fun read => by simp [Script.question, Script.run, Eval.ofExcept]⟩

theorem bind {f : (String → Eval Value) → Eval α} {g : (String → Eval Value) → α → Eval β}
    (first : Scripted f) (rest : ∀ a, Scripted fun read => g read a) :
    Scripted fun read => f read >>= g read := by
  obtain ⟨t, runs⟩ := first
  choose next continues using rest
  refine ⟨t.bind next, fun read => ?_⟩
  simp only [Script.run_bind, runs read]
  exact bind_congr fun a => continues a read

theorem map {f : (String → Eval Value) → Eval α} (g : α → β) (first : Scripted f) :
    Scripted fun read => (do let a ← f read; Pure.pure (g a)) :=
  first.bind fun a => pure (g a)

end Scripted

namespace Surroundings

def reading (present : Moment) (context : Context) (names : List String)
    (read : String → Eval Value) : Surroundings := ⟨present, context, some ⟨names, read⟩⟩

variable (present : Moment) (context : Context) (names : List String)

theorem reading_scopeName (read : String → Eval Value) (scope : Scope) :
    (reading present context names read).scopeName scope = scope.name := by
  cases scope <;> rfl

theorem reading_present (read : String → Eval Value) :
    (reading present context names read).present = present := rfl

theorem reading_context (read : String → Eval Value) :
    (reading present context names read).context = context := rfl

theorem member_scripted (scope : Scope) (name : String) :
    Scripted fun read => (reading present context names read).member scope name := by
  cases scope with
  | file => exact .pure (context.file.get name)
  | note => exact .pure (context.note.get name)
  | formula => exact .read name

theorem readAll_scripted (wanted : List String) : Scripted fun read => readAll read wanted := by
  induction wanted with
  | nil => exact .pure _
  | cons name wanted ih => exact (Scripted.read name).bind fun _ => ih.map _

theorem entries_scripted (scope : Scope) :
    Scripted fun read => (reading present context names read).entries scope := by
  cases scope with
  | file => exact .pure context.file.entries
  | note => exact .pure context.note
  | formula => exact readAll_scripted names

theorem settle_scripted (v : Scoped) :
    Scripted fun read => (reading present context names read).settle v := by
  cases v with
  | value v => exact .pure v
  | scope scope => exact (entries_scripted present context names scope).map _

theorem resolve_scripted (path : String) :
    Scripted fun read => (reading present context names read).resolve path := by
  unfold resolve
  dsimp only
  split
  · rename_i scope first more _ _
    refine (member_scripted present context names scope _).bind fun value => ?_
    split
    · exact (member_scripted present context names scope first).map _
    · exact .pure _
  · by_cases own : context.note.has path = true
    · simp only [reading, own, if_true]
      exact .pure _
    · simp only [reading, own, if_false, Bool.false_eq_true]
      split <;> exact .pure _

end Surroundings

namespace Expr

open Surroundings

variable (present : Moment) (context : Context) (names : List String)

theorem memberOf_scripted (target : Scoped) (name : String) :
    Scripted fun read => memberOf (reading present context names read) target name := by
  cases target with
  | value v => exact .pure (Scoped.value (v.member name))
  | scope scope => exact (member_scripted present context names scope name).map _

theorem indexOf_scripted (target key : Scoped) :
    Scripted fun read => indexOf (reading present context names read) target key := by
  unfold indexOf
  split
  · exact (Scripted.ofFault _).map _
  · exact (member_scripted present context names _ _).map _
  · exact .pure _

theorem callFile_scripted (method : String) (args : List Value) :
    Scripted fun read => callFile (reading present context names read) method args := by
  simp only [callFile, reading_scopeName, reading_context]
  split
  case h_8 => exact .fail _
  all_goals exact .ofExcept _

theorem callOn_scripted (target : Scoped) (method : String) (args : List Value) :
    Scripted fun read => callOn (reading present context names read) target method args := by
  unfold callOn
  split
  · simp only [callScope, reading_scopeName]
    split
    · exact callFile_scripted present context names method args
    · exact .fail _
  · exact .fail _
  · exact .ofExcept _

theorem settleAll_scripted (parts : List Expr)
    (each : ∀ e ∈ parts, Scripted fun read => eval (reading present context names read) e) :
    Scripted fun read => settleAll (reading present context names read)
      (evalEach (reading present context names read) parts) := by
  induction parts with
  | nil => exact .pure []
  | cons e parts ih =>
    have rest := ih fun e member => each e (by simp [member])
    exact (each e (by simp)).bind fun v =>
      (settle_scripted present context names v).bind fun _ => rest.map _

theorem choose_scripted (name : String) (parts : List Expr)
    (each : ∀ e ∈ parts, Scripted fun read => eval (reading present context names read) e) :
    Scripted fun read => choose (reading present context names read) name
      (evalEach (reading present context names read) parts) := by
  have settled (e : Expr) (member : e ∈ parts) : Scripted fun read => (do
      let v ← eval (reading present context names read) e
      let v ← (reading present context names read).settle v
      pure (Scoped.value v) : Eval Scoped) :=
    (each e member).bind fun v => (settle_scripted present context names v).map _
  match parts with
  | [] | [_] | _ :: _ :: _ :: _ :: _ => exact .fail (.branchCount name)
  | [condition, yes] =>
    refine (each condition (by simp)).bind fun v => ?_
    split
    · exact settled yes (by simp)
    · exact .pure _
  | [condition, yes, no] =>
    refine (each condition (by simp)).bind fun v => ?_
    dsimp only
    cases v.truthy
    · exact settled no (by simp)
    · exact settled yes (by simp)

theorem callFunction_scripted (name : String) (parts : List Expr)
    (each : ∀ e ∈ parts, Scripted fun read => eval (reading present context names read) e) :
    Scripted fun read => callFunction (reading present context names read) name
      (evalEach (reading present context names read) parts) := by
  simp only [callFunction, reading_present]
  split
  · exact choose_scripted present context names name parts each
  · exact (settleAll_scripted present context names parts each).bind fun values =>
      (Scripted.ofExcept _).map _
  · exact .fail _

theorem operate_scripted (op : BinaryOp) (left right : (String → Eval Value) → Eval Scoped)
    (first : Scripted left) (second : Scripted right) :
    Scripted fun read =>
      operate (reading present context names read) op (left read) (right read) := by
  have both {α : Type} (f : Value → Value → Eval α)
      (last : ∀ a b, Scripted fun _ => f a b) : Scripted fun read => (do
        let a ← (reading present context names read).settle (← left read)
        let b ← (reading present context names read).settle (← right read)
        f a b : Eval α) :=
    first.bind fun v => (settle_scripted present context names v).bind fun a =>
      second.bind fun w => (settle_scripted present context names w).bind fun b => last a b
  cases op with
  | or =>
    refine first.bind fun v => ?_
    split
    · exact .pure _
    · exact second.map _
  | and =>
    refine first.bind fun v => ?_
    split
    · exact second.map _
    · exact .pure _
  | relation r => exact both _ fun a b => (Scripted.ofFault (Value.related r a b)).map _
  | arith op => exact both _ fun a b => .ofExcept (Value.arithmetic op a b)

mutual

theorem eval_scripted : ∀ e : Expr, Scripted fun read => eval (reading present context names read) e
  | literal v => .pure (Scoped.value v)
  | list items =>
    (settleAll_scripted present context names items (evalEach_scripted items)).map _
  | name n => .pure ((reading present context names fun _ => Eval.fail .notCallable).lookup n)
  | member target n =>
    (eval_scripted target).bind fun v => memberOf_scripted present context names v n
  | index target key =>
    (eval_scripted target).bind fun v => (eval_scripted key).bind fun w =>
      indexOf_scripted present context names v w
  | call function args =>
    callFunction_scripted present context names function args (evalEach_scripted args)
  | send target method args =>
    (eval_scripted target).bind fun v =>
      (settleAll_scripted present context names args (evalEach_scripted args)).bind fun values =>
        (callOn_scripted present context names v method values).map _
  | not operand => (eval_scripted operand).map _
  | negate operand => (eval_scripted operand).bind fun v => by
    cases v with
    | value v => exact (Scripted.ofExcept v.negate).map _
    | scope scope =>
      simp only [reading_scopeName]
      exact .fail _
  | binary op left right =>
    (operate_scripted present context names op _ _ (eval_scripted left)
      (eval_scripted right)).map _

theorem evalEach_scripted : ∀ es : List Expr, ∀ e ∈ es,
    Scripted fun read => eval (reading present context names read) e
  | [], e, inside => by simp at inside
  | first :: rest, e, inside => by
    rcases List.mem_cons.mp inside with same | later
    · exact same ▸ eval_scripted first
    · exact evalEach_scripted rest e later

end

/-- What an expression text comes to in its surroundings, before a failure is given its text. -/
def ofTextIn (s : Surroundings) (text : String) : Eval Value := do
  s.settle (← eval s (← Eval.ofExcept (ofText text)))

theorem ofTextIn_scripted (text : String) :
    Scripted fun read => ofTextIn (reading present context names read) text :=
  (Scripted.ofExcept (ofText text)).bind fun e => (eval_scripted present context names e).bind
    fun v => settle_scripted present context names v

section References

variable {text n : String} (read : String → Eval Value)

/-- A text that names a formula asks for it and for nothing else. -/
theorem ofTextIn_formula (parsed : ofText text = .ok (.member (.name "formula") n)) :
    ofTextIn (reading present context names read) text = read n := by
  simp [ofTextIn, parsed, Eval.ofExcept, eval, Surroundings.lookup, Scope.ofName?, Scope.name,
    memberOf, reading, Surroundings.member, settle]

theorem ofTextIn_not_formula (parsed : ofText text = .ok (.not (.member (.name "formula") n))) :
    ofTextIn (reading present context names read) text =
      (do pure (.bool !(← read n).truthy)) := by
  simp [ofTextIn, parsed, Eval.ofExcept, eval, Surroundings.lookup, Scope.ofName?, Scope.name,
    memberOf, reading, Surroundings.member, settle, Scoped.truthy]

theorem ofTextIn_formulas (parsed : ofText text = .ok (.name "formula")) :
    ofTextIn (reading present context names read) text =
      (do pure (.map (← readAll read names))) := by
  simp [ofTextIn, parsed, Eval.ofExcept, eval, Surroundings.lookup, Scope.ofName?, Scope.name,
    reading, settle, entries]

theorem ofTextIn_literal {v : Value} (parsed : ofText text = .ok (.literal v)) :
    ofTextIn (reading present context names read) text = pure v := by
  simp [ofTextIn, parsed, Eval.ofExcept, eval, settle]

end References

end Expr

end NoteQuery
