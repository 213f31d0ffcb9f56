import NoteQuery.Proofs.Query.Alike
import NoteQuery.Proofs.Query.Locality

/-! Notes do not influence each other. Of all that a run does, the part that has to do with one note is
what a run over this note alone does: the filters, a sort, and what is shown all come to the same. So
over any two sources that agree on a note it is in both results or in neither, and looks the same. -/
namespace NoteQuery

/-- The second run does for the note at a path what the first does among others. If the first returns,
so does the second, and both have kept the same for the path. -/
def Narrows (path : String) {α β : Type} (R : α → β → Prop) (x : Run α) (y : Run β) : Prop :=
  ∀ table table' a after, FormulaTable.own path table = FormulaTable.own path table' →
    x.on table = (.ok a, after) →
    ∃ b after', y.on table' = (.ok b, after') ∧ R a b ∧
      FormulaTable.own path after = FormulaTable.own path after'

namespace Narrows

variable {path other : String} {α β γ δ : Type} {R : α → β → Prop} {S : γ → δ → Prop}
  {x : Run α} {y : Run β} {f : α → Run γ} {g : β → Run δ}

theorem pure {a : α} {b : β} (related : R a b) : Narrows path R (Pure.pure a) (Pure.pure b) := by
  intro table table' a' after same returned
  cases returned
  exact ⟨b, table', rfl, related, same⟩

theorem throw (e : RunError) : Narrows path R (MonadExcept.throw e) y := by
  intro table table' a after same returned
  cases returned

theorem bind (first : Narrows path R x y)
    (later : ∀ a b, x.Gives a → R a b → Narrows path S (f a) (g b)) :
    Narrows path S (x >>= f) (y >>= g) := by
  intro table table' c after same returned
  obtain ⟨a, middle, run, rest⟩ := ExceptT.on_bind_ok.mp returned
  obtain ⟨b, middle', run', related, same'⟩ := first table table' a middle same run
  obtain ⟨d, after', rest', result⟩ :=
    later a b ⟨table, middle, run⟩ related middle middle' c after same' rest
  exact ⟨d, after', ExceptT.on_bind_ok.mpr ⟨b, middle', run', rest'⟩, result⟩

/-- What is done for the note at the path is done in both. -/
theorem here (stays : StaysAt path x.run) : Narrows path (fun a b => b = a) x x := by
  intro table table' a after same returned
  obtain ⟨result, kept⟩ := stays.same_on same
  rw [returned] at result kept
  exact ⟨a, (x.on table').2, Prod.ext result.symm rfl, rfl, kept⟩

/-- What is done for another note is left out. -/
theorem elsewhere {z : Run δ} (stays : StaysAt other x.run) (apart : path ≠ other)
    (later : ∀ a, x.Gives a → Narrows path S (f a) z) : Narrows path S (x >>= f) z := by
  intro table table' c after same returned
  obtain ⟨a, middle, run, rest⟩ := ExceptT.on_bind_ok.mp returned
  have kept := stays.apart_on apart table
  rw [run] at kept
  exact later a ⟨table, middle, run⟩ middle table' c after (kept.trans same) rest

theorem map {g : α → γ} {T : γ → β → Prop} (first : Narrows path R x y)
    (related : ∀ a b, x.Gives a → R a b → T (g a) b) :
    Narrows path T (x >>= fun a => Pure.pure (g a)) y := by
  have whole : Narrows path T (x >>= fun a => Pure.pure (g a)) (y >>= Pure.pure) :=
    first.bind fun a b given same => .pure (related a b given same)
  rwa [bind_pure] at whole

end Narrows

section Passes

variable {α : Type} {place : α → String} {items : List α}

theorem filter_place_le (apart : (items.map place).Nodup) (path : String) :
    (items.filter fun a => place a = path).length ≤ 1 := by
  have once := List.nodup_iff_count_le_one.mp apart path
  rw [List.count_eq_countP, List.countP_map, List.countP_eq_length_filter] at once
  exact once

theorem filter_place_self (apart : (items.map place).Nodup) {a : α} (member : a ∈ items) :
    (items.filter fun b => place b = place a) = [a] := by
  have inside : a ∈ items.filter fun b => place b = place a := List.mem_filter.mpr ⟨member, by simp⟩
  have single : (items.filter fun b => place b = place a).length = 1 :=
    le_antisymm (filter_place_le apart (place a)) (List.length_pos_of_mem inside)
  obtain ⟨b, found⟩ := List.length_eq_one_iff.mp single
  rw [found, List.mem_singleton] at inside
  rw [found, inside]

theorem pass_single (value : α → Value) (descending : Bool) {few : List α} (single : few.length ≤ 1) :
    pass value descending few = .ok few := by
  match few, single with
  | [], _ => cases descending <;> rfl
  | [a], _ =>
    cases null : (value a).isNull <;> cases descending <;> simp [pass, null] <;> rfl

/-- With one item at each path, a pass does to the item at a path what a pass over it alone does. -/
theorem pass_filter {value : α → Value} {descending : Bool} {sorted : List α}
    (apart : (items.map place).Nodup) (made : pass value descending items = .ok sorted)
    (path : String) :
    pass value descending (items.filter fun a => place a = path) =
      .ok (sorted.filter fun a => place a = path) := by
  have single := filter_place_le apart path
  have permuted := (pass_perm made).filter fun a => decide (place a = path)
  have same : (sorted.filter fun a => place a = path) = items.filter fun a => place a = path := by
    match found : items.filter fun a => place a = path, single with
    | [], _ => exact (found ▸ permuted).eq_nil
    | [a], _ => exact List.perm_singleton.mp (found ▸ permuted)
  rw [pass_single value descending single, same]

end Passes

namespace Source

/-- The source lists this note, and no two notes at one path. -/
def Lists (source : Source) (n : Document) : Prop := ∃ documents, source.documents = .ok documents ∧
  (documents.map Document.path).Nodup ∧ n ∈ documents

theorem Lists.apart {source : Source} {n : Document} (lists : source.Lists n) (documents : List Document)
    (listed : source.documents = .ok documents) : (documents.map Document.path).Nodup := by
  obtain ⟨documents', listed', apart, _⟩ := lists
  rw [listed, Except.ok.injEq] at listed'
  exact listed' ▸ apart

/-- A source of one note alone. -/
def only (source : Source) (n : Document) : Source :=
  ⟨.ok [n], fun _ => source.content n, fun _ => source.metadata n⟩

end Source

namespace Query

variable {q : Query} {source source' : Source}

theorem select_narrows {path : String} {documents : List Document}
    (agree : ∀ d ∈ documents, d.path = path →
      source'.content d = source.content d ∧ source'.metadata d = source.metadata d)
    (cancelAfter : Option Nat) (total done reads total' done' reads' : Nat) :
    Narrows path (fun s t => t.matched = s.matched.filter fun c => c.context.path = path)
      (q.select source cancelAfter total done reads documents)
      (q.select source' none total' done' reads' (documents.filter fun d => d.path = path)) := by
  induction documents generalizing done reads done' reads' with
  | nil => exact .pure rfl
  | cons d documents ih =>
    obtain ⟨agreed, agree⟩ := List.forall_mem_cons.mp agree
    rw [select_cons]
    split
    · exact .throw _
    · by_cases here : d.path = path
      · -- What is read of the note at the path is the same in both sources.
        obtain ⟨content, metadata⟩ := agreed here
        have same : q.contribution source' d = q.contribution source d := by
          simp only [contribution, examine, content, metadata]
        rw [List.filter_cons_of_pos (by simpa using here), select_cons, same]
        simp only [Option.any_none, Bool.false_eq_true, if_false]
        refine (Narrows.here (here ▸ q.contribution_stays source d)).bind fun own own' given equal => ?_
        subst equal
        refine (ih agree (done + 1) _ (done' + 1) _).bind fun later later' _ related => .pure ?_
        have own : own'.matched.filter (fun c => c.context.path = path) = own'.matched := by
          refine List.filter_eq_self.mpr fun c member => ?_
          simpa [← here] using ((contribution_gives given).2 c member).2
        rw [related, List.filter_append, own]
      · -- Another note changes nothing that is kept for the path and adds no candidate there.
        rw [List.filter_cons_of_neg (by simpa using here)]
        refine Narrows.elsewhere (q.contribution_stays source d) (Ne.symm here) fun own given => ?_
        refine (ih agree (done + 1) _ done' _).map fun later later' _ related => ?_
        have own : own.matched.filter (fun c => c.context.path = path) = [] := by
          refine List.filter_eq_nil_iff.mpr fun c member => ?_
          simpa [((contribution_gives given).2 c member).2] using here
        rw [related, List.filter_append, own, List.nil_append]

theorem keyed_narrows (path key : String) (candidates : List Candidate) :
    Narrows path (fun s t => t = s.filter fun p => p.2.context.path = path)
      (q.keyed key candidates)
      (q.keyed key (candidates.filter fun c => c.context.path = path)) := by
  induction candidates with
  | nil => exact .pure rfl
  | cons c candidates ih =>
    have kept {read : Value × Candidate} (given : (c.resolve q key).Gives read) :
        read.2.context.path = c.context.path := by
      obtain ⟨table, after, returned⟩ := given
      obtain ⟨v, c', after', run, same⟩ := c.resolve_ok q key table
      rw [returned] at run
      cases run
      exact congrArg (fun c => c.context.path) same
    by_cases here : c.context.path = path
    · rw [List.filter_cons_of_pos (by simpa using here), keyed, keyed]
      refine (Narrows.here (here ▸ c.resolve_stays q key)).bind fun read read' given equal => ?_
      subst equal
      refine ih.bind fun pairs pairs' _ related => .pure ?_
      rw [related, List.filter_cons_of_pos (by simpa using (kept given).trans here)]
    · rw [List.filter_cons_of_neg (by simpa using here), keyed]
      refine Narrows.elsewhere (c.resolve_stays q key) (Ne.symm here) fun read given => ?_
      refine ih.map fun pairs pairs' _ related => ?_
      rw [related, List.filter_cons_of_neg (by simpa [kept given] using here)]

theorem sortByKey_narrows (path : String) (key : SortKey) {candidates : List Candidate}
    (apart : (candidates.map fun c => c.context.path).Nodup) :
    Narrows path (fun s t => t = s.filter fun c => c.context.path = path)
      (q.sortByKey key candidates)
      (q.sortByKey key (candidates.filter fun c => c.context.path = path)) := by
  intro table table' sorted after same returned
  obtain ⟨pairs, middle, run, bare⟩ := q.keyed_ok key.path candidates table
  obtain ⟨pairs', middle', run', rfl, same'⟩ := keyed_narrows path key.path candidates table table'
    pairs middle same run
  have apart' : (pairs.map fun p => p.2.context.path).Nodup := by
    have paths := congrArg (List.map fun c : Candidate => c.context.path) bare
    simp only [List.map_map] at paths
    exact paths ▸ apart
  rw [sortByKey_on, run] at returned
  cases made : pass Prod.fst key.descending pairs with
  | error f => simp [made] at returned
  | ok result =>
    simp only [made, Prod.mk.injEq, Except.ok.injEq] at returned
    obtain ⟨rfl, rfl⟩ := returned
    refine ⟨_, middle', ?_, rfl, same'⟩
    simp only [sortByKey_on, run', pass_filter apart' made path, List.filter_map]
    rfl

theorem sortBy_narrows (path : String) (keys : List SortKey) {candidates : List Candidate}
    (apart : (candidates.map fun c => c.context.path).Nodup) :
    Narrows path (fun s t => t = s.filter fun c => c.context.path = path)
      (q.sortBy keys candidates)
      (q.sortBy keys (candidates.filter fun c => c.context.path = path)) := by
  induction keys with
  | nil => exact .pure rfl
  | cons key keys ih =>
    refine ih.bind fun sorted sorted' given related => ?_
    subst related
    exact sortByKey_narrows path key (apart_of_bare apart (sortBy_gives given))

theorem presentAll_narrows (path : String) {candidates : List Candidate}
    (placed : ∀ c ∈ candidates, c.context.path = c.document.path) :
    Narrows path (fun s t => t = s.filter fun d => d.path = path)
      (q.presentAll candidates)
      (q.presentAll (candidates.filter fun c => c.context.path = path)) := by
  induction candidates with
  | nil => exact .pure rfl
  | cons c candidates ih =>
    obtain ⟨first, placed⟩ := List.forall_mem_cons.mp placed
    have kept {document : ResultDocument} (given : (q.present? c).Gives document) :
        document.path = c.context.path :=
      (congrArg ResultDocument.path (present_gives given)).trans first.symm
    by_cases here : c.context.path = path
    · rw [List.filter_cons_of_pos (by simpa using here), presentAll, presentAll]
      refine (Narrows.here (here ▸ q.present_stays c)).bind fun shown shown' given equal => ?_
      subst equal
      refine (ih placed).bind fun others others' _ related => .pure ?_
      rw [related, List.filter_cons_of_pos (by simpa using (kept given).trans here)]
    · rw [List.filter_cons_of_neg (by simpa using here), presentAll]
      refine Narrows.elsewhere (q.present_stays c) (Ne.symm here) fun shown given => ?_
      refine (ih placed).map fun others others' _ related => ?_
      rw [related, List.filter_cons_of_neg (by simpa [kept given] using here)]

theorem finish_narrows (unlimited : q.view.bind View.limit = none) (whole : q.options.paging? = none)
    (path : String) {selection selection' : Selection}
    (apart : (selection.matched.map fun c => c.context.path).Nodup)
    (placed : ∀ c ∈ selection.matched, c.context.path = c.document.path)
    (narrowed : selection'.matched = selection.matched.filter fun c => c.context.path = path) :
    Narrows path (fun r s => s.documents = r.documents.filter fun d => d.path = path)
      (q.finish selection) (q.finish selection') := by
  simp only [finish, unlimited, whole, page, narrowed]
  refine (sortBy_narrows path _ apart).bind fun sorted sorted' given related => ?_
  subst related
  have placed' := placed_of_bare placed (sortBy_gives given)
  exact (presentAll_narrows path placed').bind fun shown shown' _ related => .pure related

/-- What a run has to do with a note is a run over the note alone. -/
theorem run_narrows (unlimited : q.view.bind View.limit = none) (whole : q.options.paging? = none)
    {n : Document} (lists : source.Lists n) (cancelAfter : Option Nat) :
    Narrows n.path (fun r s => s.documents = r.documents.filter fun d => d.path = n.path)
      (q.run source cancelAfter) (q.run (source.only n) none) := by
  obtain ⟨documents, listed, apart, member⟩ := lists
  have alone : documents.filter (fun d => d.path = n.path) = [n] :=
    filter_place_self apart member
  have agree : ∀ d ∈ documents, d.path = n.path →
      (source.only n).content d = source.content d ∧
        (source.only n).metadata d = source.metadata d := by
    intro d listed path
    rw [List.inj_on_of_nodup_map apart listed member path]
    exact ⟨rfl, rfl⟩
  have selects := select_narrows (q := q) agree cancelAfter documents.length 0 0 [n].length 0 0
  rw [alone] at selects
  simp only [run, runUnless, listed]
  refine selects.bind fun selection selection' given narrowed => ?_
  obtain ⟨fewer, placed⟩ := select_gives given
  have paths : (selection.matched.map fun c => c.context.path).Nodup := by
    have sub := fewer.map Document.path
    rw [List.map_map] at sub
    rw [List.map_congr_left placed]
    exact apart.sublist sub
  exact finish_narrows unlimited whole n.path paths placed narrowed

end Query

namespace Definition

section Sample

/-- The formulas of the sample with a view of all notes that pass. -/
def passing : Definition :=
  { sample with views := [⟨"Passing", .table, some (.test "formula.next < 9"), [], none, none, false⟩] }

theorem passing_returns (store : Store) (present : Moment)
    (whole : ∀ d ∈ store.documents, ∀ entry ∈ d.properties, ∃ n, entry.2 = .int n) : ∃ result,
    ((passing.run (some "Passing") {} {} present store.source none).on []).1 = .ok result := by
  rw [run_on]
  refine Query.run_returns _ rfl (fun d member => ?_) rfl _
  rintro ⟨entry, inside, leaves⟩
  obtain ⟨n, number⟩ := whole d member entry inside
  rw [number] at leaves
  exact leaves

end Sample

end Definition

end NoteQuery
