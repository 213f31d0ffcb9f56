import NoteQuery.Query.Matching

/-! A filter is followed by evaluating its expressions and in no other way. So what relates the evaluations
of every expression in it, in one surroundings and in another, relates what becomes of the filter. -/
namespace NoteQuery

namespace Filter

mutual

/-- The expressions of a filter, in the order in which they stand in it. -/
def texts : Filter → List String
  | test text => [text]
  | combine _ filters => textsOfAll filters

def textsOfAll : List Filter → List String
  | [] => []
  | f :: fs => texts f ++ textsOfAll fs

end

end Filter

/-- A relation of computations that passes from the parts of a computation to the whole. -/
structure Congruent (R : (α : Type) → StateM Memo α → StateM Memo α → Prop) : Prop where
  pure : ∀ {α : Type} (a : α), R α (pure a) (pure a)
  bind : ∀ {α β : Type} {x x' : StateM Memo α} {f f' : α → StateM Memo β},
    R α x x' → (∀ a, R β (f a) (f' a)) → R β (x >>= f) (x' >>= f')

namespace Congruent

variable {R : (α : Type) → StateM Memo α → StateM Memo α → Prop} (congruent : Congruent R)
  {s t : Surroundings}

include congruent

theorem holds {text : String}
    (evaluated : R (Except ExpressionError Value) (Expr.evaluateText s text)
      (Expr.evaluateText t text)) : R Bool (s.holds text) (t.holds text) := by
  refine congruent.bind evaluated fun result => ?_
  cases result with
  | ok v => exact congruent.pure _
  | error e => exact congruent.pure _

mutual

theorem admits : ∀ f : Filter, (∀ text ∈ f.texts, R Bool (s.holds text) (t.holds text)) →
    R Bool (s.admits f) (t.admits f)
  | .test text, each => by
    rw [Surroundings.admits, Surroundings.admits]
    exact each text (by simp [Filter.texts])
  | .combine .and filters, each => by
    rw [Filter.texts] at each
    rw [Surroundings.admits, Surroundings.admits]
    exact admitsAll filters each
  | .combine .or filters, each => by
    rw [Filter.texts] at each
    rw [Surroundings.admits, Surroundings.admits]
    exact admitsSome filters each
  | .combine .not filters, each => by
    rw [Filter.texts] at each
    rw [Surroundings.admits, Surroundings.admits]
    exact congruent.bind (admitsSome filters each) fun _ => congruent.pure _

theorem admitsAll : ∀ filters : List Filter,
    (∀ text ∈ Filter.textsOfAll filters, R Bool (s.holds text) (t.holds text)) →
    R Bool (s.admitsAll filters) (t.admitsAll filters)
  | [], _ => by
    rw [Surroundings.admitsAll, Surroundings.admitsAll]
    exact congruent.pure true
  | f :: filters, each => by
    rw [Filter.textsOfAll, List.forall_mem_append] at each
    rw [Surroundings.admitsAll, Surroundings.admitsAll]
    refine congruent.bind (admits f each.1) fun passes => ?_
    cases passes with
    | false => exact congruent.pure false
    | true => exact admitsAll filters each.2

theorem admitsSome : ∀ filters : List Filter,
    (∀ text ∈ Filter.textsOfAll filters, R Bool (s.holds text) (t.holds text)) →
    R Bool (s.admitsSome filters) (t.admitsSome filters)
  | [], _ => by
    rw [Surroundings.admitsSome, Surroundings.admitsSome]
    exact congruent.pure false
  | f :: filters, each => by
    rw [Filter.textsOfAll, List.forall_mem_append] at each
    rw [Surroundings.admitsSome, Surroundings.admitsSome]
    refine congruent.bind (admits f each.1) fun passes => ?_
    cases passes with
    | false => exact admitsSome filters each.2
    | true => exact congruent.pure true

end

end Congruent

end NoteQuery
