import NoteQuery.Proofs.Query.Failure

/-! Runs that may be cancelled at any time. Before each note that is listed it is looked whether the run
was cancelled, whatever is done with the note afterwards. So a run is cancelled exactly if it comes to a
note and is then found cancelled, and in all other cases it is the run that nobody could cancel. -/
namespace NoteQuery

namespace Query

variable (q : Query) (source : Source)

/-- Of a note that is read and has a date outside the calendar no run comes to an end. -/
def Ends (d : Document) : Prop :=
  q.recognises d = true ∧ (source.content d).isSome = true ∧ q.LeavesCalendar d

/-- The contents that are asked for before the run comes to the note at this place. -/
def readsBefore (documents : List Document) (place : Nat) : Nat :=
  (documents.take place).countP q.recognises

variable (cancelled : Nat → Nat → Bool)

/-- The run comes to the note at this place: it was not found cancelled at any before, and none of the
notes before ended it. -/
structure Reaches (documents : List Document) (place : Nat) : Prop where
  listed : place < documents.length
  going : ∀ earlier < place, cancelled earlier (q.readsBefore documents earlier) = false
  whole : ∀ d ∈ documents.take place, ¬ q.Ends source d

/-- The run comes to the note at this place and is found cancelled. -/
def CancelledAt (documents : List Document) (place : Nat) : Prop :=
  q.Reaches source cancelled documents place ∧ cancelled place (q.readsBefore documents place) = true

variable {q source cancelled} {d : Document} {rest : List Document}

theorem readsBefore_cons (place : Nat) : q.readsBefore (d :: rest) (place + 1) =
    (if q.recognises d then 1 else 0) + q.readsBefore rest place := by
  rw [readsBefore, List.take_succ_cons, List.countP_cons, Nat.add_comm, readsBefore]

theorem not_cancelledAt_nil (place : Nat) : ¬ q.CancelledAt source cancelled [] place :=
  fun met => absurd met.1.listed (Nat.not_lt_zero place)

theorem cancelledAt_zero :
    q.CancelledAt source cancelled (d :: rest) 0 ↔ cancelled 0 0 = true :=
  ⟨fun met => met.2, fun met => ⟨⟨Nat.succ_pos _, nofun, by simp⟩, met⟩⟩

theorem cancelledAt_succ (place : Nat) :
    q.CancelledAt source cancelled (d :: rest) (place + 1) ↔
      cancelled 0 0 = false ∧ ¬ q.Ends source d ∧ q.CancelledAt source
        (fun done reads => cancelled (done + 1) ((if q.recognises d then 1 else 0) + reads)) rest
        place := by
  constructor
  · rintro ⟨⟨listed, going, whole⟩, met⟩
    rw [List.take_succ_cons, List.forall_mem_cons] at whole
    rw [readsBefore_cons] at met
    refine ⟨going 0 (Nat.succ_pos _), whole.1, ⟨Nat.lt_of_succ_lt_succ listed, ?_, whole.2⟩, met⟩
    intro earlier before
    have open' := going (earlier + 1) (Nat.succ_lt_succ before)
    rwa [readsBefore_cons] at open'
  · rintro ⟨first, stays, ⟨listed, going, whole⟩, met⟩
    refine ⟨⟨Nat.succ_lt_succ listed, ?_, ?_⟩, ?_⟩
    · intro earlier before
      cases earlier with
      | zero => exact first
      | succ earlier =>
        rw [readsBefore_cons]
        exact going earlier (Nat.lt_of_succ_lt_succ before)
    · rw [List.take_succ_cons, List.forall_mem_cons]
      exact ⟨stays, whole⟩
    · rwa [readsBefore_cons]

/-- Of a note that ends no run the context can be made. -/
theorem exists_contextOf {content : String} (known : q.recognises d = true)
    (read : source.content d = some content) (stays : ¬ q.Ends source d) :
    ∃ context, q.contextOf source d content = .ok context := by
  cases made : q.contextOf source d content with
  | ok context => exact ⟨context, rfl⟩
  | error f =>
    have leaves := ((contextOf_error_iff source d content f).mp made).2
    exact absurd ⟨known, by rw [read]; rfl, leaves⟩ stays

variable {documents : List Document} {total done reads place : Nat} {table : FormulaTable}

/-- The steps of a loop that is `done` notes and `reads` contents ahead, seen from its first note. -/
theorem ahead_succ (known : Bool) :
    (fun i r => cancelled (done + (i + 1)) (reads + ((if known then 1 else 0) + r))) =
      fun i r => cancelled (done + 1 + i) ((if known then reads + 1 else reads) + r) := by
  funext i r
  rw [Nat.add_assoc done 1 i, Nat.add_comm 1 i, ← Nat.add_assoc reads]
  cases known <;> rfl

theorem selectUnless_cancelled
    (met : q.CancelledAt source (fun i r => cancelled (done + i) (reads + r)) documents place) :
    ((q.selectUnless source cancelled total done reads documents).on table).1 =
      .error (.cancelled (done + place) total) := by
  induction documents generalizing done reads place table with
  | nil => exact absurd met (not_cancelledAt_nil place)
  | cons d documents ih =>
    rw [selectUnless_on]
    cases place with
    | zero =>
      have found : cancelled done reads = true := cancelledAt_zero.mp met
      rw [found]
      rfl
    | succ place =>
      obtain ⟨first, stays, later⟩ := (cancelledAt_succ place).mp met
      have going : cancelled done reads = false := first
      rw [ahead_succ] at later
      rw [going, ← Nat.add_assoc, Nat.add_right_comm]
      by_cases known : q.recognises d = true
      · simp only [known, if_true] at later ⊢
        cases read : source.content d with
        | none => exact Except.map_eq_error.mpr (ih later)
        | some content =>
          obtain ⟨context, made⟩ := exists_contextOf known read stays
          simp only [examine_on, made]
          exact Except.map_eq_error.mpr (ih later)
      · simp only [known, Bool.false_eq_true, if_false] at later ⊢
        exact ih later

/-- A loop that is never found cancelled is the loop that nobody can cancel. -/
theorem selectUnless_whole (never : ∀ place, ¬ q.CancelledAt source
      (fun i r => cancelled (done + i) (reads + r)) documents place) :
    (q.selectUnless source cancelled total done reads documents).on table =
      (q.select source none total done reads documents).on table := by
  induction documents generalizing done reads table with
  | nil => rfl
  | cons d documents ih =>
    have first : cancelled done reads = false := by
      simpa [cancelledAt_zero] using never 0
    have later (stays : ¬ q.Ends source d) (place : Nat) : ¬ q.CancelledAt source
        (fun i r => cancelled (done + 1 + i)
          ((if q.recognises d then reads + 1 else reads) + r)) documents place := by
      have apart := never (place + 1)
      rw [cancelledAt_succ, ahead_succ] at apart
      exact fun met => apart ⟨first, stays, met⟩
    rw [selectUnless_on, select_on, first]
    by_cases known : q.recognises d = true
    · simp only [known, if_true] at later ⊢
      cases read : source.content d with
      | none => exact congrArg (Prod.map _ id) (ih (later fun ends => by simp [Ends, read] at ends))
      | some content =>
        by_cases ends : q.Ends source d
        · have made := (contextOf_error_iff source d content .outOfRange).mpr ⟨rfl, ends.2.2⟩
          simp only [examine_on, made]
          rfl
        · obtain ⟨context, made⟩ := exists_contextOf known read ends
          simp only [examine_on, made]
          exact congrArg (Prod.map _ id) (ih (later ends))
    · simp only [known, Bool.false_eq_true, if_false] at later ⊢
      exact ih (later fun ends => known ends.1)

theorem run_not_cancelled (q : Query) (source : Source) (table : FormulaTable) (place total : Nat) :
    ((q.run source none).on table).1 ≠ .error (.cancelled place total) := by
  intro ended
  rw [run_on] at ended
  cases listed : source.documents with
  | error e => simp [listed] at ended
  | ok documents =>
    simp only [listed] at ended
    rcases selects : (q.select source none documents.length 0 0 documents).on table with
      ⟨e | selection, after⟩
    · simp only [selects, Except.error.injEq] at ended
      rcases select_error (congrArg Prod.fst selects) with ⟨cancellable, _⟩ | ⟨f, failed⟩
      · cases cancellable
      · rw [ended] at failed
        cases failed
    · simp only [selects] at ended
      obtain ⟨f, failed, _⟩ := (q.finish_failed_iff selection after _).mp ended
      cases failed

theorem runUnless_cancelled (listed : source.documents = .ok documents)
    (met : q.CancelledAt source cancelled documents place) :
    ((q.runUnless source cancelled).on table).1 = .error (.cancelled place documents.length) := by
  have ended : ((q.selectUnless source cancelled documents.length 0 0 documents).on table).1 =
      .error (.cancelled (0 + place) documents.length) :=
    selectUnless_cancelled (by simpa only [Nat.zero_add] using met)
  simp only [runUnless_on, listed]
  generalize (q.selectUnless source cancelled documents.length 0 0 documents).on table = outcome
    at ended
  obtain ⟨result, after⟩ := outcome
  rw [Nat.zero_add] at ended
  cases ended
  rfl

theorem runUnless_whole (never : ∀ documents, source.documents = .ok documents →
      ∀ place, ¬ q.CancelledAt source cancelled documents place) :
    (q.runUnless source cancelled).on table = (q.run source none).on table := by
  rw [runUnless_on, run_on]
  cases listed : source.documents with
  | error e => rfl
  | ok documents =>
    have whole : (q.selectUnless source cancelled documents.length 0 0 documents).on table =
        (q.select source none documents.length 0 0 documents).on table :=
      selectUnless_whole (by simpa only [Nat.zero_add] using never documents listed)
    simp only [whole]

theorem runUnless_cancelled_iff (total : Nat) :
    ((q.runUnless source cancelled).on table).1 = .error (.cancelled place total) ↔
      ∃ documents, source.documents = .ok documents ∧ total = documents.length ∧
        q.CancelledAt source cancelled documents place := by
  constructor
  · intro ended
    by_cases found : ∃ documents, source.documents = .ok documents ∧
        ∃ place, q.CancelledAt source cancelled documents place
    · obtain ⟨documents, listed, place', met⟩ := found
      rw [runUnless_cancelled listed met] at ended
      cases ended
      exact ⟨documents, listed, rfl, met⟩
    · rw [runUnless_whole fun documents listed place met => found ⟨documents, listed, place, met⟩]
        at ended
      exact absurd ended (q.run_not_cancelled source table place total)
  · rintro ⟨documents, listed, rfl, met⟩
    exact runUnless_cancelled listed met

end Query

namespace Definition

/-- A run that may be cancelled at any time is cancelled exactly if it comes to a note and is then found
cancelled. In all other cases it ends as the run that nobody can cancel, with the same values kept. -/
theorem runUnless_whole_or_cancelled (d : Definition) (viewName : Option String)
    (settings : Settings) (options : Options) (present : Moment) (source : Source)
    (cancelled : Nat → Nat → Bool) (table : FormulaTable) :
    let outcome := (d.runUnless viewName settings options present source cancelled).on table
    (∀ place total, outcome.1 = .error (.cancelled place total) ↔
      ∃ view documents, d.chosen viewName = .ok view ∧ source.documents = .ok documents ∧
        total = documents.length ∧
        Query.CancelledAt ⟨d, view, settings, options, present⟩ source cancelled documents place) ∧
    ((∀ place total, outcome.1 ≠ .error (.cancelled place total)) →
      outcome = (d.run viewName settings options present source none).on table) := by
  intro outcome
  have run : outcome = _ :=
    d.runUnless_on viewName settings options present source cancelled table
  have whole := d.run_on viewName settings options present source none table
  cases chosen : d.chosen viewName with
  | error e =>
    simp only [chosen] at run whole
    simp [run, whole]
  | ok view =>
    simp only [chosen] at run whole
    refine ⟨fun place total => ?_, fun never => ?_⟩
    · rw [run, Query.runUnless_cancelled_iff]
      simp
    · rw [run] at never
      rw [run, whole, Query.runUnless_whole fun documents listed place met =>
        never place documents.length (Query.runUnless_cancelled listed met)]

end Definition

end NoteQuery
