import NoteQuery.Proofs.Query.Order
import NoteQuery.Proofs.Query.Stages

/-! Runs that fail. Reading a path, a filter or a column of a note cannot fail, so only two things can
end a run that is neither refused nor cancelled: a note with a date that leaves the calendar, and a
sort that meets two values which it cannot compare. -/
namespace NoteQuery

namespace Value

/-- The value is read as a moment whose offset leads out of the calendar. -/
def LeavesCalendar (isDate : Bool) : Value → Prop
  | moment m => m.universal? = none
  | text s => isDate = true ∧ readDate s = .outOfRange
  | _ => False

theorem withDate_error_iff (isDate : Bool) (v : Value) (f : Fault) :
    v.withDate isDate = .error f ↔ f = .outOfRange ∧ v.LeavesCalendar isDate := by
  cases v with
  | moment m =>
    cases found : m.universal? with
    | none => simp [withDate, moment?, LeavesCalendar, found, bind, Except.bind, eq_comm]
    | some u => simp [withDate, moment?, LeavesCalendar, found, bind, Except.bind]
  | date d => simp [withDate, moment?, LeavesCalendar, bind, Except.bind]
  | text s =>
    cases isDate with
    | false => simp [withDate, LeavesCalendar]
    | true =>
      cases read : readDate s with
      | none => simp [withDate, moment?, LeavesCalendar, read, bind, Except.bind]
      | moment m => simp [withDate, moment?, LeavesCalendar, read, bind, Except.bind]
      | outOfRange => simp [withDate, moment?, LeavesCalendar, read, bind, Except.bind, eq_comm]
  | _ => simp [withDate, LeavesCalendar]

/-- Five hours before its clock shows the first midnight of the calendar there is no calendar. -/
example : (moment ⟨⟨1, 1, 1, by decide, by decide, by decide⟩, .midnight,
    some ⟨18000, by decide⟩⟩).LeavesCalendar false := by
  rw [LeavesCalendar]
  decide +kernel

end Value

namespace Entries

theorem withDates_error_iff (settings : Settings) (entries : Entries) (f : Fault) :
    entries.withDates settings = .error f ↔ f = .outOfRange ∧
      ∃ entry ∈ entries, entry.2.LeavesCalendar (settings.isDateProperty entry.1) := by
  induction entries with
  | nil => simp [withDates]
  | cons entry entries ih =>
    obtain ⟨name, v⟩ := entry
    cases first : v.withDate (settings.isDateProperty name) with
    | error f' =>
      have leaves := (Value.withDate_error_iff _ v f').mp first
      simp [withDates, first, bind, Except.bind, leaves.1, leaves.2, eq_comm]
    | ok v' =>
      have stays : ¬ v.LeavesCalendar (settings.isDateProperty name) := fun leaves => by
        rw [(Value.withDate_error_iff _ v .outOfRange).mpr ⟨rfl, leaves⟩] at first
        cases first
      cases rest : withDates settings entries with
      | error f' =>
        rw [rest] at ih
        simp only [withDates, first, rest, bind, Except.bind, List.exists_mem_cons_iff, stays,
          false_or]
        exact ih
      | ok entries' =>
        rw [rest] at ih
        simp only [withDates, first, rest, bind, Except.bind, List.exists_mem_cons_iff, stays,
          false_or]
        simpa using ih

end Entries

namespace Query

variable {q : Query}

def LeavesCalendar (q : Query) (d : Document) : Prop :=
  ∃ entry ∈ d.properties, entry.2.LeavesCalendar (q.settings.isDateProperty entry.1)

theorem contextOf_error_iff (source : Source) (d : Document) (content : String) (f : Fault) :
    q.contextOf source d content = .error f ↔ f = .outOfRange ∧ q.LeavesCalendar d := by
  rw [LeavesCalendar, ← Entries.withDates_error_iff]
  unfold contextOf Context.ofDocument
  cases d.properties.withDates q.settings with
  | error f' => simp [bind, Except.bind]
  | ok note => simp [bind, Except.bind]

/-- A note is reached before the run is cancelled, is read, and leaves the calendar. -/
def ContextBreaks (q : Query) (source : Source) (cancelAfter : Option Nat) (reads : Nat)
    (documents : List Document) : Prop :=
  ∃ before d later, documents = before ++ d :: later ∧ q.recognises d = true ∧
    (source.content d).isSome = true ∧ q.LeavesCalendar d ∧
    ∀ n ∈ cancelAfter, reads + before.countP q.recognises < n

theorem contextBreaks_nil (source : Source) (cancelAfter : Option Nat) (reads : Nat) :
    ¬ q.ContextBreaks source cancelAfter reads [] := by
  rintro ⟨before, d, later, split, _⟩
  simp at split

theorem contextBreaks_cons (source : Source) (cancelAfter : Option Nat) (reads : Nat)
    (d : Document) (rest : List Document) :
    q.ContextBreaks source cancelAfter reads (d :: rest) ↔ (∀ n ∈ cancelAfter, reads < n) ∧
      (q.recognises d = true ∧ (source.content d).isSome = true ∧ q.LeavesCalendar d ∨
        q.ContextBreaks source cancelAfter (if q.recognises d then reads + 1 else reads) rest) := by
  have count (before : List Document) : reads + (d :: before).countP q.recognises =
      (if q.recognises d then reads + 1 else reads) + before.countP q.recognises := by
    rw [List.countP_cons]
    split <;> omega
  constructor
  · rintro ⟨before, d', later, split, known, read, leaves, going⟩
    refine ⟨fun n member => by have := going n member; omega, ?_⟩
    cases before with
    | nil =>
      simp only [List.nil_append, List.cons.injEq] at split
      exact .inl ⟨split.1 ▸ known, split.1 ▸ read, split.1 ▸ leaves⟩
    | cons first before =>
      simp only [List.cons_append, List.cons.injEq] at split
      obtain ⟨rfl, rest⟩ := split
      refine .inr ⟨before, d', later, rest, known, read, leaves, fun n member => ?_⟩
      rw [← count]
      exact going n member
  · rintro ⟨going, ⟨known, read, leaves⟩ | ⟨before, d', later, split, known, read, leaves, bound⟩⟩
    · exact ⟨[], d, rest, rfl, known, read, leaves, by simpa using going⟩
    · refine ⟨d :: before, d', later, by rw [split]; rfl, known, read, leaves, fun n member => ?_⟩
      rw [count]
      exact bound n member

private theorem going_iff (cancelAfter : Option Nat) (reads : Nat) :
    cancelAfter.any (· ≤ reads) = false ↔ ∀ n ∈ cancelAfter, reads < n := by
  cases cancelAfter <;> simp

/-- A selection fails exactly when a note that it reaches leaves the calendar. -/
theorem select_failed_iff (source : Source) (cancelAfter : Option Nat) (total done reads : Nat)
    (documents : List Document) (table : FormulaTable) (e : Failure) :
    ((q.select source cancelAfter total done reads documents).on table).1 = .error (.failed e) ↔
      e = .fault .outOfRange ∧ q.ContextBreaks source cancelAfter reads documents := by
  induction documents generalizing done reads table with
  | nil => simp [select, selectUnless, ExceptT.on_pure, contextBreaks_nil]
  | cons d documents ih =>
    rw [select_on, contextBreaks_cons, ← going_iff]
    cases cancelled : cancelAfter.any (· ≤ reads) with
    | true => simp
    | false =>
      by_cases known : q.recognises d = true
      · simp only [known, if_true, true_and]
        cases read : source.content d with
        | none =>
          simp only [Prod.map_fst, Except.map_eq_error, ih, Option.isSome_none, false_and, false_or,
            Bool.false_eq_true, if_false]
        | some content =>
          simp only [examine_on, Option.isSome_some, true_and]
          cases made : q.contextOf source d content with
          | error f =>
            obtain ⟨rfl, leaves⟩ := (contextOf_error_iff source d content f).mp made
            simp [leaves, eq_comm]
          | ok context =>
            have stays : ¬ q.LeavesCalendar d := fun leaves => by
              rw [(contextOf_error_iff source d content .outOfRange).mpr ⟨rfl, leaves⟩] at made
              cases made
            simp only [Prod.map_fst, Except.map_eq_error, ih, stays, false_or, Bool.false_eq_true, if_false]
      · simp only [known, if_false, Bool.false_eq_true, false_and, false_or, true_and, ih]

/-- A selection that does not fail is complete or cancelled. -/
theorem select_error {source : Source} {cancelAfter : Option Nat} {total done reads : Nat}
    {documents : List Document} {table : FormulaTable} {e : RunError}
    (ended : ((q.select source cancelAfter total done reads documents).on table).1 = .error e) :
    (cancelAfter.isSome = true ∧ ∃ done', e = .cancelled done' total) ∨ ∃ f, e = .failed f := by
  induction documents generalizing done reads table with
  | nil => simp [select, selectUnless, ExceptT.on_pure] at ended
  | cons d documents ih =>
    rw [select_on] at ended
    split at ended
    · rename_i cancelled
      refine .inl ⟨?_, done, (Except.error.inj ended).symm⟩
      cases cancelAfter with
      | none => cases cancelled
      | some n => rfl
    · split at ended
      · cases read : source.content d with
        | none =>
          simp only [read, Prod.map_fst, Except.map_eq_error] at ended
          exact ih ended
        | some content =>
          simp only [read, examine_on] at ended
          cases made : q.contextOf source d content with
          | error f =>
            simp only [made, Except.error.injEq] at ended
            exact .inr ⟨_, ended.symm⟩
          | ok context =>
            simp only [made, Prod.map_fst, Except.map_eq_error] at ended
            exact ih ended
      · exact ih ended

/-- A pass over a key meets values that cannot be compared, after the passes for later keys. -/
def SortBreaks (q : Query) (candidates : List Candidate) (table : FormulaTable)
    (keys : List SortKey) (f : Fault) : Prop :=
  ∃ key later, key :: later <:+ keys ∧ ∃ sorted middle pairs after,
    (q.sortBy later candidates).on table = (.ok sorted, middle) ∧
    (q.keyed key.path sorted).on middle = (.ok pairs, after) ∧
    pass Prod.fst key.descending pairs = .error f

theorem sortBreaks_cons (q : Query) (candidates : List Candidate) (table : FormulaTable)
    (key : SortKey) (keys : List SortKey) (f : Fault) :
    q.SortBreaks candidates table (key :: keys) f ↔ q.SortBreaks candidates table keys f ∨
      ∃ sorted middle pairs after, (q.sortBy keys candidates).on table = (.ok sorted, middle) ∧
        (q.keyed key.path sorted).on middle = (.ok pairs, after) ∧
        pass Prod.fst key.descending pairs = .error f := by
  constructor
  · rintro ⟨key', later, inside, rest⟩
    rcases List.suffix_cons_iff.mp inside with same | inside
    · obtain ⟨rfl, rfl⟩ := List.cons.inj same
      exact .inr rest
    · exact .inl ⟨key', later, inside, rest⟩
  · rintro (⟨key', later, inside, rest⟩ | last)
    · exact ⟨key', later, inside.trans (List.suffix_cons key keys), rest⟩
    · exact ⟨key, keys, List.suffix_rfl, last⟩

theorem sortByKey_error_iff (q : Query) (key : SortKey) (sorted : List Candidate)
    (middle : FormulaTable) (e : RunError) :
    ((q.sortByKey key sorted).on middle).1 = .error e ↔ ∃ f, e = .failed (.fault f) ∧
      ∃ pairs after, (q.keyed key.path sorted).on middle = (.ok pairs, after) ∧
        pass Prod.fst key.descending pairs = .error f := by
  obtain ⟨pairs, after, reads, _⟩ := q.keyed_ok key.path sorted middle
  simp only [sortByKey_on, reads, Prod.mk.injEq, Except.ok.injEq]
  constructor
  · intro failed
    cases made : pass Prod.fst key.descending pairs with
    | ok result => simp [made] at failed
    | error f =>
      simp only [made, Except.error.injEq] at failed
      exact ⟨f, failed.symm, pairs, after, ⟨rfl, rfl⟩, made⟩
  · rintro ⟨f, rfl, _, _, ⟨rfl, rfl⟩, made⟩
    simp only [made]

theorem sortBy_error_iff (q : Query) (keys : List SortKey) (candidates : List Candidate)
    (table : FormulaTable) (e : RunError) :
    ((q.sortBy keys candidates).on table).1 = .error e ↔
      ∃ f, e = .failed (.fault f) ∧ q.SortBreaks candidates table keys f := by
  induction keys with
  | nil =>
    constructor
    · intro failed
      simp [sortBy, ExceptT.on_pure] at failed
    · rintro ⟨f, _, key, later, inside, _⟩
      simp at inside
  | cons key keys ih =>
    simp only [sortBreaks_cons]
    rw [sortBy, ExceptT.on_bind]
    generalize (q.sortBy keys candidates).on table = outcome at ih
    obtain ⟨e' | sorted, middle⟩ := outcome
    · refine ih.trans ⟨?_, ?_⟩
      · rintro ⟨f, same, breaks⟩
        exact ⟨f, same, .inl breaks⟩
      · rintro ⟨f, same, breaks | ⟨_, _, _, _, returned, _⟩⟩
        · exact ⟨f, same, breaks⟩
        · cases returned
    · refine (sortByKey_error_iff q key sorted middle e).trans ⟨?_, ?_⟩
      · rintro ⟨f, same, pairs, after, last⟩
        exact ⟨f, same, .inr ⟨sorted, middle, pairs, after, rfl, last⟩⟩
      · rintro ⟨f, rfl, breaks | ⟨_, _, pairs, after, returned, last⟩⟩
        · cases ih.mpr ⟨f, rfl, breaks⟩
        · cases returned
          exact ⟨f, rfl, pairs, after, last⟩

theorem pass_error {α : Type} {value : α → Value} {descending : Bool} {items : List α} {f : Fault}
    (failed : pass value descending items = .error f) :
    ∃ a ∈ items, ∃ b ∈ items, (value a).isNull = false ∧ (value b).isNull = false ∧
      Value.sortOrder (value a) (value b) = .error f := by
  obtain ⟨a, first, b, second, compared⟩ := Sort.sorted_error (Except.map_eq_error.mp failed)
  obtain ⟨first, present⟩ := List.mem_filter.mp first
  obtain ⟨second, present'⟩ := List.mem_filter.mp second
  refine ⟨a, first, b, second, by simpa using present, by simpa using present', ?_⟩
  rcases Except.bind_eq_error.mp compared with order | ⟨o, -, ended⟩
  · exact order
  · cases ended

/-- The data of a note ends a run: a note that is reached leaves the calendar, or the order of the
view cannot compare what was selected. -/
def Breaks (q : Query) (source : Source) (cancelAfter : Option Nat) (table : FormulaTable)
    (f : Fault) : Prop :=
  ∃ documents, source.documents = .ok documents ∧
    (f = .outOfRange ∧ q.ContextBreaks source cancelAfter 0 documents ∨
      ∃ selection after, (q.select source cancelAfter documents.length 0 0 documents).on table =
        (.ok selection, after) ∧ q.SortBreaks selection.matched after q.order f)

/-- Where data ends a run, a note leaves the calendar or two values of a sort key other than null
cannot be compared. -/
theorem Breaks.data {source : Source} {cancelAfter : Option Nat} {table : FormulaTable} {f : Fault}
    (breaks : q.Breaks source cancelAfter table f) : ∃ documents, source.documents = .ok documents ∧
      ((∃ d ∈ documents, q.LeavesCalendar d) ∨ ∃ key ∈ q.order, ∃ a b : Value,
        a.isNull = false ∧ b.isNull = false ∧ Value.sortOrder a b = .error f) := by
  obtain ⟨documents, listed, ⟨_, before, d, later, rfl, _, _, leaves, _⟩ | ⟨selection, after, _, key,
    later, inside, sorted, middle, pairs, last, _, _, failed⟩⟩ := breaks
  · exact ⟨_, listed, .inl ⟨d, by simp, leaves⟩⟩
  · obtain ⟨p, _, p', _, present, present', compared⟩ := pass_error failed
    exact ⟨documents, listed, .inr ⟨key, inside.subset (by simp), p.1, p'.1, present, present',
      compared⟩⟩

/-- The outcome of a run that comes to its end, is refused or is cancelled. -/
def Expected : Except RunError ResultSet → Prop
  | .ok _ | .error (.unknownView _) | .error (.source (.store _)) | .error (.cancelled _ _) => True
  | _ => False

theorem finish_failed_iff (q : Query) (selection : Selection) (table : FormulaTable) (e : RunError) :
    ((q.finish selection).on table).1 = .error e ↔
      ∃ f, e = .failed (.fault f) ∧ q.SortBreaks selection.matched table q.order f := by
  rw [← sortBy_error_iff, finish_on]
  rcases (q.sortBy q.order selection.matched).on table with ⟨e' | sorted, after⟩
  · simp
  · obtain ⟨shown, after', run⟩ :=
      q.presentAll_returns (page q.options.paging? (q.limited sorted)).1 after
    simp [run, Except.map]

theorem run_failed_iff (q : Query) (source : Source) (cancelAfter : Option Nat) (table : FormulaTable)
    (e : Failure) : ((q.run source cancelAfter).on table).1 = .error (.failed e) ↔
      ∃ f, e = .fault f ∧ q.Breaks source cancelAfter table f := by
  rw [run_on]
  unfold Breaks
  cases listed : source.documents with
  | error e' => simp
  | ok documents =>
    have selects := q.select_failed_iff source cancelAfter documents.length 0 0 documents table e
    simp only [Except.ok.injEq, exists_eq_left']
    generalize (q.select source cancelAfter documents.length 0 0 documents).on table = outcome
      at selects
    obtain ⟨e' | selection, after⟩ := outcome
    · refine Iff.trans (by simp) (selects.trans ⟨?_, ?_⟩)
      · rintro ⟨same, breaks⟩
        exact ⟨.outOfRange, same, .inl ⟨rfl, breaks⟩⟩
      · rintro ⟨f, same, ⟨rfl, breaks⟩ | ⟨_, _, returned, _⟩⟩
        · exact ⟨same, breaks⟩
        · cases returned
    · refine (q.finish_failed_iff selection after _).trans ⟨?_, ?_⟩
      · rintro ⟨f, same, breaks⟩
        exact ⟨f, RunError.failed.inj same, .inr ⟨selection, after, rfl, breaks⟩⟩
      · rintro ⟨f, rfl, ⟨rfl, breaks⟩ | ⟨_, _, returned, breaks⟩⟩
        · cases selects.mpr ⟨rfl, breaks⟩
        · cases returned
          exact ⟨f, rfl, breaks⟩

/-- A run over a store in memory either ends as expected or fails. -/
theorem run_expected (q : Query) {source : Source} (cancelAfter : Option Nat) (table : FormulaTable)
    (stored : ∀ e, source.documents = .error e → ∃ e', e = .store e') :
    Expected ((q.run source cancelAfter).on table).1 ∨
      ∃ f, ((q.run source cancelAfter).on table).1 = .error (.failed f) := by
  rw [run_on]
  cases listed : source.documents with
  | error e =>
    obtain ⟨e', rfl⟩ := stored e listed
    exact .inl trivial
  | ok documents =>
    cases selected : (q.select source cancelAfter documents.length 0 0 documents).on table with
    | mk result after =>
      cases result with
      | error e =>
        rcases select_error (congrArg Prod.fst selected) with ⟨_, done, rfl⟩ | ⟨f, rfl⟩
        · simp [Expected, selected]
        · simp [selected]
      | ok selection =>
        simp only [selected]
        cases finished : ((q.finish selection).on after).1 with
        | ok result => exact .inl trivial
        | error e =>
          obtain ⟨f, rfl, _⟩ := (q.finish_failed_iff selection after e).mp finished
          exact .inr ⟨.fault f, rfl⟩

theorem run_returns (q : Query) {source : Source} {documents : List Document}
    (listed : source.documents = .ok documents) (stays : ∀ d ∈ documents, ¬ q.LeavesCalendar d)
    (unordered : q.order = []) (table : FormulaTable) :
    ∃ result, ((q.run source none).on table).1 = .ok result := by
  have whole : ¬ q.ContextBreaks source none 0 documents := by
    rintro ⟨before, d, later, rfl, _, _, leaves, _⟩
    exact stays d (by simp) leaves
  rw [run_on]
  simp only [listed]
  cases selected : (q.select source none documents.length 0 0 documents).on table with
  | mk outcome after =>
    cases outcome with
    | error e =>
      have ended := congrArg Prod.fst selected
      rcases select_error ended with ⟨cancelled, _⟩ | ⟨f, rfl⟩
      · cases cancelled
      · exact absurd ((select_failed_iff _ _ _ _ _ _ _ _).mp ended).2 whole
    | ok selection =>
      cases finished : ((q.finish selection).on after).1 with
      | ok result => exact ⟨result, rfl⟩
      | error e =>
        obtain ⟨f, _, key, later, inside, _⟩ := (q.finish_failed_iff selection after e).mp finished
        rw [unordered] at inside
        simp at inside

end Query

theorem Outage.apply_stored (o : Outage) (s : Store) :
    ∀ e, (o.apply s.source).documents = .error e → ∃ e', e = .store e' := by
  intro e listed
  unfold Outage.apply at listed
  cases given : o.list with
  | none => simp [given, Store.source] at listed
  | some e' => exact ⟨e', by simpa [given, eq_comm] using listed⟩

namespace Definition

end Definition

end NoteQuery
