import NoteQuery.Proofs.Query.Truth

/-! The one form of filters. A value is read exactly when it spells a filter, and then it is read as
the filter that it spells; written out again, a filter that was read is a value in its one form, is
read as itself, and is followed like the value that it came from. -/
namespace NoteQuery

theorem Combinator.ofName?_name (c : Combinator) : ofName? c.name = some c := by
  cases c <;> rfl

namespace Filter

mutual

/-- The value spells the filter: an expression that is more than blanks, or filters in a list behind
one of the three words. -/
inductive Spells : Value → Filter → Prop
  | test {text : String} (full : Text.isBlankText text = false) : Spells (.text text) (test text)
  | combine (c : Combinator) {items : List Value} {filters : List Filter}
      (each : SpellsEach items filters) :
      Spells (.map [(c.name, .list items)]) (combine c filters)
  /-- A single filter that may not pass can stand without the list around it. -/
  | single {v : Value} {f : Filter} (alone : ∀ items, v ≠ .list items) (inside : Spells v f) :
      Spells (.map [(Combinator.not.name, v)]) (combine .not [f])

inductive SpellsEach : List Value → List Filter → Prop
  | nil : SpellsEach [] []
  | cons {v : Value} {f : Filter} {items : List Value} {filters : List Filter}
      (first : Spells v f) (others : SpellsEach items filters) :
      SpellsEach (v :: items) (f :: filters)

end

/-- A filter in its one form: a text of more than blanks, or a map with nothing but one of the three
words and, behind it, a list of filters in their one form. -/
inductive Canonical : Value → Prop
  | test {text : String} (full : Text.isBlankText text = false) : Canonical (.text text)
  | combine (c : Combinator) {items : List Value} (each : ∀ v ∈ items, Canonical v) :
      Canonical (.map [(c.name, .list items)])

mutual

theorem Spells.canonical : ∀ {v : Value} {f : Filter}, Spells v f → Canonical f.toValue
  | _, _, .test full => .test full
  | _, _, .combine c each => .combine c each.canonical
  | _, _, .single _ inside => by
    apply Canonical.combine
    intro v member
    rw [toValues, toValues, List.mem_singleton] at member
    rw [member]
    exact inside.canonical

theorem SpellsEach.canonical : ∀ {items : List Value} {filters : List Filter},
    SpellsEach items filters → ∀ v ∈ toValues filters, Canonical v
  | _, _, .nil => List.forall_mem_nil _
  | _, _, .cons first others => by
    rw [toValues, List.forall_mem_cons]
    exact ⟨first.canonical, others.canonical⟩

end

theorem Canonical.items {key : String} {items : List Value}
    (canonical : Canonical (.map [(key, .list items)])) : ∀ v ∈ items, Canonical v := by
  cases canonical with
  | combine _ each => exact each

mutual

/-- What a filter is written as spells that filter, if it is in the one form. -/
theorem spells_toValue : ∀ {f : Filter}, Canonical f.toValue → Spells f.toValue f
  | test text, canonical => by
    rw [toValue] at canonical ⊢
    cases canonical with
    | test full => exact .test full
  | combine c filters, canonical => by
    rw [toValue] at canonical ⊢
    exact .combine c (spellsEach_toValues canonical.items)

theorem spellsEach_toValues : ∀ {filters : List Filter},
    (∀ v ∈ toValues filters, Canonical v) → SpellsEach (toValues filters) filters
  | [], _ => .nil
  | f :: filters, canonical => by
    rw [toValues, List.forall_mem_cons] at canonical
    exact .cons (spells_toValue canonical.1) (spellsEach_toValues canonical.2)

end

theorem SpellsEach.of_forall {items : List Value}
    (each : ∀ v ∈ items, ∃ f, Spells v f ∧ f.toValue = v) :
    ∃ filters, SpellsEach items filters ∧ toValues filters = items := by
  induction items with
  | nil => exact ⟨[], .nil, rfl⟩
  | cons v items ih =>
    rw [List.forall_mem_cons] at each
    obtain ⟨f, first, same⟩ := each.1
    obtain ⟨filters, others, sames⟩ := ih each.2
    exact ⟨f :: filters, .cons first others, by rw [toValues, same, sames]⟩

/-- A value in the one form spells a filter, and is what that filter is written as. -/
theorem Canonical.spells {v : Value} (canonical : Canonical v) : ∃ f, Spells v f ∧ f.toValue = v := by
  induction canonical with
  | test full => exact ⟨_, .test full, by rw [toValue]⟩
  | combine c _ ih =>
    obtain ⟨filters, each, same⟩ := SpellsEach.of_forall ih
    exact ⟨_, .combine c each, by rw [toValue, same]⟩

mutual

theorem Spells.read : ∀ {v : Value} {f : Filter}, Spells v f → ∀ location, ofValue location v = .ok f
  | _, _, .test full, location => by
    rw [ofValue, full]
    rfl
  | _, _, .combine c each, location => by
    rw [ofValue, Combinator.ofName?_name, each.read]
    rfl
  | _, _, .single (v := v) alone inside, location => by
    have within := inside.read (location ++ "." ++ Combinator.not.name ++ "[0]")
    rw [ofValue, Combinator.ofName?_name, within]
    · rfl
    · intro items same
      exact alone items same

theorem SpellsEach.read : ∀ {items : List Value} {filters : List Filter}, SpellsEach items filters →
    ∀ location i, ofItems location i items = .ok filters
  | _, _, .nil, _, _ => by rw [ofItems]
  | _, _, .cons first others, location, i => by
    rw [ofItems, first.read, others.read]
    rfl

end

/-- What is read spells the filter as which it is read. -/
theorem spells_of_read :
    (∀ location v f, ofValue location v = .ok f → Spells v f) ∧
      ∀ location i items filters, ofItems location i items = .ok filters →
        SpellsEach items filters := by
  apply ofValue.mutual_induct
    (fun location v => ∀ f, ofValue location v = .ok f → Spells v f)
    (fun location i items => ∀ filters, ofItems location i items = .ok filters →
      SpellsEach items filters)
  case case1 =>
    intro location text blank f read
    simp [ofValue, blank] at read
  case case2 =>
    intro location text full f read
    simp only [ofValue, full, Bool.false_eq_true, if_false, Except.ok.injEq] at read
    rw [← read]
    exact .test (Bool.eq_false_iff.mpr full)
  case case3 =>
    intro location key items c known ih f read
    simp only [ofValue, known] at read
    obtain ⟨filters, inner, rfl⟩ := Except.map_eq_ok.mp read
    rw [Combinator.ofName?_eq_some known]
    exact .combine c (ih filters inner)
  case case5 =>
    intro location key v alone known ih f read
    simp only [ofValue, known] at read
    obtain ⟨g, inner, rfl⟩ := Except.map_eq_ok.mp read
    rw [Combinator.ofName?_eq_some known]
    exact .single alone (ih g inner)
  case case10 =>
    intro location i filters read
    cases read
    exact .nil
  case case11 =>
    intro location i item items first rest filters read
    obtain ⟨f, head, read⟩ := Except.bind_eq_ok.mp read
    obtain ⟨others, tail, read⟩ := Except.bind_eq_ok.mp read
    cases read
    exact .cons (first f head) (rest others tail)
  -- The other forms of a value are refused.
  all_goals
    intros
    simp_all [ofValue]

theorem ofValue_eq_ok_iff {location : String} {v : Value} {f : Filter} :
    ofValue location v = .ok f ↔ Spells v f :=
  ⟨spells_of_read.1 location v f, fun spelled => spelled.read location⟩

theorem Spells.unique {v : Value} {f g : Filter} (spelled : Spells v f) (other : Spells v g) :
    f = g :=
  Except.ok.inj ((spelled.read "").symm.trans (other.read ""))

end Filter

namespace Surroundings

mutual

/-- Follows a value as `admitsValue` does, and leaves it to `other` what a value that is no filter
comes to. -/
def follow (s : Surroundings) (other : Value → ExceptT Fault (StateM Memo) Bool) :
    Value → ExceptT Fault (StateM Memo) Bool
  | .null => pure true
  | .text text => (s.holds text : StateM Memo Bool)
  | .map [("and", .list filters)] => followAll s other filters
  | .map [("or", .list filters)] => followSome s other filters
  | .map [("not", .list filters)] => do pure !(← followSome s other filters)
  | .map [("and", filter)] => follow s other filter
  | .map [("or", filter)] => follow s other filter
  | .map [("not", filter)] => do pure !(← follow s other filter)
  | v => other v

def followAll (s : Surroundings) (other : Value → ExceptT Fault (StateM Memo) Bool) :
    List Value → ExceptT Fault (StateM Memo) Bool
  | [] => pure true
  | filter :: filters => do
    if ← follow s other filter then followAll s other filters else pure false

def followSome (s : Surroundings) (other : Value → ExceptT Fault (StateM Memo) Bool) :
    List Value → ExceptT Fault (StateM Memo) Bool
  | [] => pure false
  | filter :: filters => do
    if ← follow s other filter then pure true else followSome s other filters

end

variable (s : Surroundings)

/-- Following a value is the same as following it with what is no filter refused. -/
theorem follow_refuse :
    (∀ v, s.follow refuse v = s.admitsValue v) ∧
      (∀ items, s.followSome refuse items = s.admitsSomeValue items) ∧
        ∀ items, s.followAll refuse items = s.admitsAllValues items := by
  apply admitsValue.mutual_induct
    (fun v => s.follow refuse v = s.admitsValue v)
    (fun items => s.followSome refuse items = s.admitsSomeValue items)
    (fun items => s.followAll refuse items = s.admitsAllValues items)
  all_goals
    intros
    simp_all [follow, followAll, followSome, admitsValue, admitsAllValues, admitsSomeValue]

theorem liftM_ite (passes : Bool) (yes no : StateM Memo Bool) :
    (liftM (if passes = true then yes else no) : ExceptT Fault (StateM Memo) Bool) =
      if passes = true then liftM yes else liftM no := by
  cases passes <;> rfl

variable (other : Value → ExceptT Fault (StateM Memo) Bool)

mutual

/-- What spells a filter is followed as that filter is, and nothing in it is left to `other`. -/
theorem follow_spelled : ∀ {v : Value} {f : Filter}, Filter.Spells v f →
    s.follow other v = liftM (s.admits f)
  | _, _, .test _ => by rw [follow, admits]
  | _, _, .combine .and each => by
    rw [Combinator.name, follow, admits]
    exact (followEach_spelled each).1
  | _, _, .combine .or each => by
    rw [Combinator.name, follow, admits]
    exact (followEach_spelled each).2
  | _, _, .combine .not each => by
    rw [Combinator.name, follow, admits, (followEach_spelled each).2]
    rfl
  | _, _, .single alone inside => by
    have within := follow_spelled inside
    rw [Combinator.name, follow, admits, admitsSome_single, within]
    · rfl
    · intro items same
      exact alone items same

theorem followEach_spelled : ∀ {items : List Value} {filters : List Filter},
    Filter.SpellsEach items filters →
      s.followAll other items = liftM (s.admitsAll filters) ∧
        s.followSome other items = liftM (s.admitsSome filters)
  | _, _, .nil => by
    rw [followAll, followSome, admitsAll, admitsSome]
    exact ⟨rfl, rfl⟩
  | _, _, .cons first others => by
    obtain ⟨all, some⟩ := followEach_spelled others
    simp only [followAll, followSome, admitsAll, admitsSome, follow_spelled first, all, some,
      liftM_bind, liftM_ite]
    exact ⟨rfl, rfl⟩

end

end Surroundings

namespace Filter

/-- Reading a filter brings it into its one form and changes nothing else. What is read spells the
filter; written out it is in the one form, as it was if it was before, is read as itself wherever
it stands, and is followed like the value that was read, in which nothing has to be refused. What
spells no filter is not read. -/
theorem ofValue_normalizes (location : String) (v : Value) :
    (∃ f, ofValue location v = .ok f ∧ Spells v f ∧ Canonical f.toValue ∧
      (Canonical v → f.toValue = v) ∧ (∀ location', ofValue location' f.toValue = .ok f) ∧
      ∀ s : Surroundings, s.admitsValue f.toValue = s.admitsValue v ∧
        ∀ other, s.follow other f.toValue = s.admitsValue f.toValue) ∨
    ((∃ e, ofValue location v = .error e) ∧ ∀ f, ¬ Spells v f) := by
  cases read : ofValue location v with
  | error e =>
    refine .inr ⟨⟨e, rfl⟩, ?_⟩
    intro f spelled
    cases read.symm.trans (spelled.read location)
  | ok f =>
    have spelled : Spells v f := ofValue_eq_ok_iff.mp read
    have settled : Spells f.toValue f := spells_toValue spelled.canonical
    refine .inl ⟨f, rfl, spelled, spelled.canonical, ?_, settled.read, ?_⟩
    · intro canonical
      obtain ⟨g, spelled', same⟩ := canonical.spells
      rwa [spelled.unique spelled']
    · intro s
      have followed (other : Value → ExceptT Fault (StateM Memo) Bool) :
          s.follow other f.toValue = liftM (s.admits f) := s.follow_spelled other settled
      have before : s.admitsValue v = liftM (s.admits f) := by
        rw [← s.follow_refuse.1, s.follow_spelled _ spelled]
      have after : s.admitsValue f.toValue = liftM (s.admits f) := by
        rw [← s.follow_refuse.1, followed]
      refine ⟨after.trans before.symm, ?_⟩
      intro other
      rw [followed, after]

end Filter

end NoteQuery
