import NoteQuery.Proofs.Query.Order

/-! A pool of candidates at rest. Reading one of them leaves the others at rest, since no two are of
the same note. What a run does to a pool, step by step, is what plain functions of lists do to the
notes. -/
namespace NoteQuery

namespace Query

variable (q : Query)

/-- Candidates of different notes, of which nothing is known but what reads have left. -/
structure Pool (table : FormulaTable) (candidates : List Candidate) : Prop where
  apart : (candidates.map fun c => c.context.path).Nodup
  rested : ∀ c ∈ candidates, c.Rested q table

def orderedByKey (key : SortKey) (notes : List Candidate) : Except Fault (List Candidate) :=
  pass (fun c => q.valueAt key.path c.context) key.descending notes

/-- The notes in the order of several keys: a pass for each, from the last to the first. -/
def ordered : List SortKey → List Candidate → Except Fault (List Candidate)
  | [], notes => .ok notes
  | key :: keys, notes => do q.orderedByKey key (← ordered keys notes)

variable {q} {table : FormulaTable}

theorem contexts_bare (candidates : List Candidate) :
    (candidates.map Candidate.bare).map Candidate.context = candidates.map Candidate.context := by
  rw [List.map_map]
  rfl

theorem paths_bare {before after : List Candidate}
    (same : after.map Candidate.bare = before.map Candidate.bare) :
    (after.map fun c => c.context.path) = before.map fun c => c.context.path := by
  have paths := congrArg (List.map fun c : Candidate => c.context.path) same
  simpa only [List.map_map, Function.comp_def, Candidate.bare] using paths

def valuesAt (q : Query) (keys : List SortKey) (c : Candidate) : List Value :=
  keys.map fun key => q.valueAt key.path c.context

def ValueAmong (q : Query) (notes : List Candidate) (key : SortKey) (v : Value) : Prop :=
  ∃ c ∈ notes, q.valueAt key.path c.context = v ∧ v.isNull = false

/-- Where the values of every key are orderly, passes come to the lexicographic order. -/
theorem ordered_lexicographic {tie : Candidate → Candidate → Prop} (keys : List SortKey)
    (notes : List Candidate) (tied : notes.Pairwise tie)
    (orderly : ∀ key ∈ keys, Value.Orderly (q.ValueAmong notes key)) :
    ∃ result, q.ordered keys notes = .ok result ∧ result.Perm notes ∧
      result.Pairwise fun a b =>
        Lexicographic keys (q.valuesAt keys a) (q.valuesAt keys b) (tie a b) := by
  induction keys with
  | nil => exact ⟨notes, rfl, .refl _, tied⟩
  | cons key keys ih =>
    obtain ⟨sorted, made, permuted, lexicographic⟩ := ih fun key member =>
      orderly key (List.mem_cons_of_mem _ member)
    have inside : ∀ v, (∃ c ∈ sorted, q.valueAt key.path c.context = v ∧ v.isNull = false) →
        q.ValueAmong notes key v := by
      rintro v ⟨c, member, value⟩
      exact ⟨c, permuted.mem_iff.mp member, value⟩
    obtain ⟨result, made', permuted', before⟩ := pass_orderly key.descending
      ((orderly key (by simp)).mono inside) lexicographic
    refine ⟨result, ?_, permuted'.trans permuted, before⟩
    simp only [ordered, made, orderedByKey, made', bind, Except.bind]

namespace Pool

variable {c c' : Candidate} {candidates sorted : List Candidate} {table' : FormulaTable}

theorem perm (pool : Pool q table candidates) (permuted : sorted.Perm candidates) :
    Pool q table sorted :=
  ⟨(permuted.map _).nodup_iff.mpr pool.apart, fun c member =>
    pool.rested c (permuted.mem_iff.mp member)⟩

theorem sublist (pool : Pool q table candidates) (fewer : sorted.Sublist candidates) :
    Pool q table sorted :=
  ⟨pool.apart.sublist (fewer.map _), fun c member => pool.rested c (fewer.subset member)⟩

theorem frame (pool : Pool q table candidates)
    (same : ∀ c ∈ candidates, ∀ text, table'.find? c.context.path text =
      table.find? c.context.path text) : Pool q table' candidates :=
  ⟨pool.apart, fun c member => (pool.rested c member).congr (same c member)⟩

theorem cons (pool : Pool q table candidates) (rested : c.Rested q table)
    (apart : c.context.path ∉ candidates.map fun c => c.context.path) :
    Pool q table (c :: candidates) :=
  ⟨List.nodup_cons.mpr ⟨apart, pool.apart⟩, List.forall_mem_cons.mpr ⟨rested, pool.rested⟩⟩

theorem tail (pool : Pool q table (c :: candidates)) (step : Candidate.Step q c c' table table') :
    Pool q table' candidates := by
  have fewer := pool.sublist (List.sublist_cons_self c candidates)
  refine fewer.frame fun other member text => step.others _ text fun same => ?_
  have apart := (List.nodup_cons.mp pool.apart).1
  exact apart (List.mem_map.mpr ⟨other, member, same⟩)

end Pool

theorem ordered_perm {keys : List SortKey} {notes result : List Candidate}
    (made : q.ordered keys notes = .ok result) : result.Perm notes := by
  induction keys generalizing result with
  | nil =>
    cases made
    exact .refl _
  | cons key keys ih =>
    obtain ⟨sorted, first, made⟩ := Except.bind_eq_ok.mp made
    exact (pass_perm made).trans (ih first)

section Runs

variable {candidates : List Candidate}

/-- Reading a key of every candidate finds the value that each note has by itself. -/
theorem keyed_pool (distinct : (q.definition.formulas.map Prod.snd).Nodup) (path : String)
    (pool : Pool q table candidates) :
    ∃ after table', (q.keyed path candidates).on table =
        (.ok (after.map fun c => (q.valueAt path c.context, c)), table') ∧
      after.map Candidate.bare = candidates.map Candidate.bare ∧ Pool q table' after ∧
      (∀ path' text, path' ∉ (candidates.map fun c => c.context.path) →
        table'.find? path' text = table.find? path' text) ∧
      Candidate.Steps q (· ∈ candidates.map Candidate.context) table table' := by
  induction candidates generalizing table with
  | nil => exact ⟨[], table, rfl, rfl, pool, fun _ _ _ => rfl, .refl⟩
  | cons c candidates ih =>
    obtain ⟨c', middle, run, step⟩ := Candidate.resolve_step distinct path (pool.rested c (by simp))
    obtain ⟨rest, table', run', same, pool', others, steps⟩ := ih (pool.tail step)
    have apart := (List.nodup_cons.mp pool.apart).1
    refine ⟨c' :: rest, table', ?_, by simp [step.same, same], ⟨?_, ?_⟩, fun path' text off => ?_,
      (step.steps (by simp)).trans (steps.mono fun _ => List.mem_cons_of_mem _)⟩
    · simp only [keyed, ExceptT.on_bind, run, run', ExceptT.on_pure, List.map_cons, step.context]
    · have paths : ((c' :: rest).map fun c => c.context.path) =
          (c :: candidates).map fun c => c.context.path :=
        paths_bare (by simp [step.same, same])
      exact paths ▸ pool.apart
    · refine List.forall_mem_cons.mpr ⟨step.rested.congr fun text => ?_, pool'.rested⟩
      rw [step.context]
      exact others _ text apart
    · rw [List.map_cons, List.mem_cons, not_or] at off
      exact (others path' text off.2).trans (step.others path' text off.1)

theorem sortByKey_pool (distinct : (q.definition.formulas.map Prod.snd).Nodup) (key : SortKey)
    (pool : Pool q table candidates) :
    ∃ outcome table', (q.sortByKey key candidates).on table = (outcome, table') ∧
      outcome.map (List.map Candidate.bare) =
        (q.orderedByKey key (candidates.map Candidate.bare)).mapError (fun f => .failed (.fault f)) ∧
      (∀ sorted, outcome = .ok sorted → Pool q table' sorted) ∧
      Candidate.Steps q (· ∈ candidates.map Candidate.context) table table' := by
  obtain ⟨after, table', run, same, pool', _, steps⟩ := keyed_pool distinct key.path pool
  have notes : q.orderedByKey key (candidates.map Candidate.bare) =
      (pass (fun c => q.valueAt key.path c.context) key.descending after).map
        (List.map Candidate.bare) := by
    rw [← same, orderedByKey, pass_map]
    rfl
  rw [sortByKey_on, run]
  simp only [pass_map, notes]
  cases made : pass (fun c => q.valueAt key.path c.context) key.descending after with
  | error f => exact ⟨_, table', rfl, rfl, by simp, steps⟩
  | ok sorted =>
    refine ⟨_, table', rfl, by simp [Except.map, Except.mapError, Function.comp_def], ?_, steps⟩
    intro sorted' same
    simp only [Except.ok.injEq, List.map_map, Function.comp_def, List.map_id'] at same
    exact same ▸ pool'.perm (pass_perm made)

theorem sortBy_pool (distinct : (q.definition.formulas.map Prod.snd).Nodup) (keys : List SortKey)
    (pool : Pool q table candidates) :
    ∃ outcome table', (q.sortBy keys candidates).on table = (outcome, table') ∧
      outcome.map (List.map Candidate.bare) =
        (q.ordered keys (candidates.map Candidate.bare)).mapError (fun f => .failed (.fault f)) ∧
      (∀ sorted, outcome = .ok sorted → Pool q table' sorted) ∧
      Candidate.Steps q (· ∈ candidates.map Candidate.context) table table' := by
  induction keys with
  | nil =>
    refine ⟨.ok candidates, table, rfl, rfl, fun sorted same => ?_, .refl⟩
    cases same
    exact pool
  | cons key keys ih =>
    obtain ⟨outcome, middle, run, same, kept, steps⟩ := ih
    simp only [sortBy, ordered, ExceptT.on_bind, run]
    cases outcome with
    | error e =>
      cases notes : q.ordered keys (candidates.map Candidate.bare) with
      | ok notes => simp [notes, Except.map, Except.mapError] at same
      | error f =>
        simp only [notes, Except.map, Except.mapError, Except.error.injEq] at same
        exact ⟨_, middle, rfl, by rw [same]; rfl, by simp, steps⟩
    | ok sorted =>
      cases made : q.ordered keys (candidates.map Candidate.bare) with
      | error f => simp [made, Except.map, Except.mapError] at same
      | ok notes =>
        simp only [made, Except.map, Except.mapError, Except.ok.injEq] at same
        subst same
        have contexts := (ordered_perm made).map Candidate.context
        rw [contexts_bare, contexts_bare] at contexts
        obtain ⟨outcome, table', run', same', kept', steps'⟩ :=
          sortByKey_pool distinct key (kept sorted rfl)
        exact ⟨outcome, table', run', same', kept',
          steps.trans (steps'.mono fun _ => contexts.mem_iff.mp)⟩

theorem presentAll_pool (distinct : (q.definition.formulas.map Prod.snd).Nodup)
    (pool : Pool q table candidates) :
    ∃ table', (q.presentAll candidates).on table = (.ok (candidates.map q.shown), table') ∧
      Candidate.Steps q (· ∈ candidates.map Candidate.context) table table' := by
  induction candidates generalizing table with
  | nil => exact ⟨table, rfl, .refl⟩
  | cons c candidates ih =>
    obtain ⟨c', middle, run, step⟩ := Candidate.present_step distinct (pool.rested c (by simp))
    obtain ⟨table', run', steps⟩ := ih (pool.tail step)
    refine ⟨table', ?_, (step.steps (by simp)).trans (steps.mono fun _ => List.mem_cons_of_mem _)⟩
    simp only [presentAll, ExceptT.on_bind, run, run', ExceptT.on_pure, List.map_cons]

end Runs

end Query

end NoteQuery
