import NoteQuery.Query.Run
import NoteQuery.Proofs.Sort
import NoteQuery.Proofs.Value.Order
import NoteQuery.Proofs.Query.Candidate

/-! The order of several keys. One pass over a key puts the items with a value in order and the others
behind them, and leaves items that are equal on the key as they were. Passes from the last key to
the first therefore come to the lexicographic order of all keys. -/
namespace NoteQuery

namespace Value

/-- The first value comes before the second in a sorted column, or is equal to it. -/
def NotAfter (a b : Value) : Prop := ∃ o, sortOrder a b = .ok o ∧ o ≠ .gt

/-- All these values can be compared, and not to come after is transitive among them. -/
structure Orderly (among : Value → Prop) : Prop where
  returns : ∀ a b, among a → among b → ∃ o, sortOrder a b = .ok o
  trans : ∀ a b c, among a → among b → among c → NotAfter a b → NotAfter b c → NotAfter a c

def less (a b : Value) : Bool :=
  match sortOrder a b with
  | .ok .lt => true
  | _ => false

/-- The first value comes before the second on a key. What has no value comes last in both
directions. -/
def precedes (descending : Bool) (a b : Value) : Bool :=
  !a.isNull && (b.isNull || if descending then less b a else less a b)

theorem Orderly.mono {among fewer : Value → Prop} (orderly : Orderly among)
    (inside : ∀ v, fewer v → among v) : Orderly fewer :=
  ⟨fun a b first second => orderly.returns a b (inside a first) (inside b second),
    fun a b c first second third =>
      orderly.trans a b c (inside a first) (inside b second) (inside c third)⟩

theorem less_of_ok {a b : Value} {o : Ordering} (compared : sortOrder a b = .ok o) :
    less a b = (o == .lt) := by
  cases o <;> simp [less, compared]

theorem Orderly.less_eq_false {among : Value → Prop} (orderly : Orderly among) {a b : Value}
    (first : among a) (second : among b) : less b a = false ↔ NotAfter a b := by
  obtain ⟨o, compared⟩ := orderly.returns a b first second
  have back : sortOrder b a = .ok o.swap := by rw [sortOrder_swap a b, compared]; rfl
  rw [less_of_ok back, NotAfter]
  constructor
  · intro not
    exact ⟨o, compared, by rintro rfl; cases not⟩
  · rintro ⟨o', same, le⟩
    rw [compared, Except.ok.injEq] at same
    subst same
    cases o with
    | gt => exact absurd rfl le
    | _ => rfl

theorem Orderly.strictWeak {among : Value → Prop} (orderly : Orderly among) :
    Sort.StrictWeak fun a b : { v // among v } => less a.1 b.1 := by
  refine ⟨fun a b before => ?_, fun a b c first second => ?_⟩
  · obtain ⟨o, compared⟩ := orderly.returns a.1 b.1 a.2 b.2
    have back : sortOrder b.1 a.1 = .ok o.swap := by rw [sortOrder_swap a.1 b.1, compared]; rfl
    rw [less_of_ok compared, beq_iff_eq] at before
    rw [less_of_ok back, before]
    rfl
  · rw [orderly.less_eq_false a.2 b.2] at first
    rw [orderly.less_eq_false b.2 c.2] at second
    rw [orderly.less_eq_false a.2 c.2]
    exact orderly.trans a.1 b.1 c.1 a.2 b.2 c.2 first second

end Value

/-- On the first key on which two lists of values differ the first comes before the second. Where
they differ on none, the tie decides. -/
def Lexicographic : List SortKey → List Value → List Value → Prop → Prop
  | key :: keys, v :: vs, w :: ws, tie =>
    Value.precedes key.descending v w = true ∨
      Value.precedes key.descending w v = false ∧ Lexicographic keys vs ws tie
  | _, _, _, tie => tie

section Pass

variable {α β : Type}

def comparison (value : α → Value) (a b : α) : Except Fault Bool := do
  .ok ((← Value.sortOrder (value a) (value b)) == .lt)

/-- One pass of a sort by a value of the items: those that have none come last. -/
def pass (value : α → Value) (descending : Bool) (items : List α) : Except Fault (List α) :=
  (Sort.sorted (comparison value) descending (items.filter fun a => !(value a).isNull)).map
    (· ++ items.filter fun a => (value a).isNull)

theorem pass_map (value : β → Value) (f : α → β) (descending : Bool) (items : List α) :
    pass value descending (items.map f) =
      (pass (fun a => value (f a)) descending items).map (List.map f) := by
  have same : (fun a b => comparison value (f a) (f b)) = comparison fun a => value (f a) := rfl
  simp only [pass, List.filter_map, Sort.sorted_map, same, Function.comp_def]
  cases Sort.sorted (comparison fun a => value (f a)) descending
      (items.filter fun a => !(value (f a)).isNull) with
  | error f => rfl
  | ok sorted => simp [Except.map]

variable {value : α → Value} {tie : α → α → Prop} {items : List α}

theorem pass_perm {descending : Bool} {result : List α}
    (made : pass value descending items = .ok result) : result.Perm items := by
  obtain ⟨front, sorted, rfl⟩ := Except.map_eq_ok.mp made
  refine ((Sort.sorted_perm sorted).append_right _).trans (List.perm_append_comm.trans ?_)
  simpa using List.filter_append_perm (fun a => (value a).isNull) items

theorem sorted_orderly (descending : Bool)
    (orderly : Value.Orderly fun v => ∃ a ∈ items, value a = v) (tied : items.Pairwise tie) :
    ∃ result, Sort.sorted (comparison value) descending items = .ok result ∧ result.Perm items ∧
      result.Pairwise (Sort.Before (fun a b =>
        if descending then Value.less (value b) (value a) else Value.less (value a) (value b))
        tie) := by
  have order : Sort.StrictWeak fun a b : { a // a ∈ items } => Value.less (value a.1) (value b.1) :=
    orderly.strictWeak.comap fun a : { a // a ∈ items } => ⟨value a.1, a.1, a.2, rfl⟩
  have compared : (fun a b : { a // a ∈ items } => comparison value a.1 b.1) =
      Sort.total Fault fun a b => Value.less (value a.1) (value b.1) := by
    funext a b
    obtain ⟨o, compared⟩ := orderly.returns (value a.1) (value b.1) ⟨a.1, a.2, rfl⟩ ⟨b.1, b.2, rfl⟩
    simp [comparison, Sort.total, compared, Value.less_of_ok compared, bind, Except.bind]
  have tied' : items.attach.Pairwise fun a b => tie a.1 b.1 :=
    List.pairwise_map.mp (by rwa [List.attach_map_subtype_val])
  obtain ⟨result, sorted, permuted, ordered⟩ := Sort.sorted_before Fault order descending
    items.attach tied'
  refine ⟨result.map Subtype.val, ?_, ?_, List.pairwise_map.mpr ordered⟩
  · conv_lhs => rw [← List.attach_map_subtype_val items]
    rw [Sort.sorted_map, compared, sorted]
    rfl
  · have mapped := permuted.map Subtype.val
    rwa [List.attach_map_subtype_val] at mapped

/-- After a pass items stand in the order of the key, and as before where they are equal on it. -/
theorem pass_orderly (descending : Bool)
    (orderly : Value.Orderly fun v => ∃ a ∈ items, value a = v ∧ v.isNull = false)
    (tied : items.Pairwise tie) :
    ∃ result, pass value descending items = .ok result ∧ result.Perm items ∧
      result.Pairwise (Sort.Before
        (fun a b => Value.precedes descending (value a) (value b)) tie) := by
  have inside : ∀ v, (∃ a ∈ items.filter fun a => !(value a).isNull, value a = v) →
      ∃ a ∈ items, value a = v ∧ v.isNull = false := by
    rintro v ⟨a, member, rfl⟩
    obtain ⟨member, present⟩ := List.mem_filter.mp member
    exact ⟨a, member, rfl, by simpa using present⟩
  obtain ⟨sorted, result, permuted, ordered⟩ := sorted_orderly descending (orderly.mono inside)
    (tied.filter fun a => !(value a).isNull)
  have present {a : α} (member : a ∈ sorted) : (value a).isNull = false := by
    simpa using (List.mem_filter.mp (permuted.mem_iff.mp member)).2
  have made : pass value descending items =
      .ok (sorted ++ items.filter fun a => (value a).isNull) := by
    simp only [pass, result, Except.map]
  refine ⟨_, made, pass_perm made, List.pairwise_append.mpr ⟨?_, ?_, fun a first b second => .inl ?_⟩⟩
  · refine ordered.imp_of_mem fun first second before => ?_
    simpa [Sort.Before, Value.precedes, present first, present second] using before
  · refine (tied.filter _).imp_of_mem fun {a b} first second tied => .inr ⟨?_, tied⟩
    have null := (List.mem_filter.mp second).2
    simp [Value.precedes, null]
  · have null := (List.mem_filter.mp second).2
    simp [Value.precedes, present first, null]

end Pass

namespace Query

theorem keyed_ok (q : Query) (path : String) (candidates : List Candidate) (table : FormulaTable) :
    ∃ pairs after, (q.keyed path candidates).on table = (.ok pairs, after) ∧
      pairs.map (fun p => p.2.bare) = candidates.map Candidate.bare := by
  induction candidates generalizing table with
  | nil => exact ⟨[], table, rfl, rfl⟩
  | cons c candidates ih =>
    obtain ⟨v, c', middle, run, same⟩ := c.resolve_ok q path table
    obtain ⟨pairs, after, run', same'⟩ := ih middle
    refine ⟨(v, c') :: pairs, after, ?_, by simp [same, same']⟩
    simp only [keyed, ExceptT.on_bind, run, run', ExceptT.on_pure]

theorem sortByKey_on (q : Query) (key : SortKey) (candidates : List Candidate)
    (table : FormulaTable) :
    (q.sortByKey key candidates).on table =
      match (q.keyed key.path candidates).on table with
      | (.ok pairs, after) =>
        match pass Prod.fst key.descending pairs with
        | .ok sorted => (.ok (sorted.map Prod.snd), after)
        | .error f => (.error (.failed (.fault f)), after)
      | (.error e, after) => (.error e, after) := by
  unfold sortByKey
  rw [ExceptT.on_bind]
  rcases (q.keyed key.path candidates).on table with ⟨_ | pairs, after⟩
  · rfl
  · have same : (fun a b : Value × Candidate =>
        (do .ok ((← Value.sortOrder a.1 b.1) == .lt) : Except Fault Bool)) =
        comparison Prod.fst := rfl
    simp only [same, pass]
    cases Sort.sorted (comparison Prod.fst) key.descending (pairs.filter fun p => !p.1.isNull) with
    | error f => rfl
    | ok sorted => rfl

end Query

end NoteQuery
