import NoteQuery.Proofs.Note.Store
import NoteQuery.Proofs.Query.Session

/-! Notes that change between runs. After a change all is forgotten that was kept for its path. What
is kept for the other notes stays, and belongs to these notes as they are. So runs that keep the
values of formulas have the outcomes of runs that do not, however far the runs before them came. -/
namespace NoteQuery

theorem FormulaTable.find?_dropNote (table : FormulaTable) (path path' text : String) :
    (table.dropNote path).find? path' text =
      if path' = path then none else table.find? path' text := by
  rw [find?, dropNote, lookup_filter fun key : String × String => key.1 != path]
  by_cases here : path' = path
  · simp [here]
  · simp [here, find?]

namespace Store

variable {s : Store}

/-- What is given for another path than that of the change was given before. -/
theorem gives_change (change : Change) {settings : Settings} {c : Context}
    (given : (change.apply s).source.Gives settings c) (other : c.path ≠ change.path) :
    s.source.Gives settings c := by
  obtain ⟨documents, d, content, listed, member, made⟩ := given
  have path : c.path = d.path := by
    obtain ⟨note, -, made⟩ := Except.bind_eq_ok.mp made
    rw [Except.ok.injEq] at made
    rw [← made]
  rw [path] at other
  cases listed
  refine ⟨s.documents, d, content, rfl, documents_change change member other, ?_⟩
  rw [← made]
  exact congrArg (Context.ofDocument d · settings content) (metadata_change change other).symm

end Store

namespace Formulas

/-- What is kept for the notes that are listed is what reads of them have left. -/
def Coherent (formulas : Formulas) (settings : Settings) (source : Source) (table : FormulaTable) :
    Prop :=
  ∀ c, source.Gives settings c → ∀ present, formulas.Rested present c (.fresh table)

variable {formulas : Formulas} {settings : Settings} {table : FormulaTable}

theorem Coherent.empty (formulas : Formulas) (settings : Settings) (source : Source) :
    formulas.Coherent settings source [] := fun c _ present => rested_empty formulas present c

/-- What is kept for a path may be forgotten. -/
theorem Rested.drop {present : Moment} {c : Context} (rested : formulas.Rested present c (.fresh table))
    (path : String) : formulas.Rested present c (.fresh (table.dropNote path)) := by
  by_cases here : c.path = path
  · exact rested_fresh fun text => by rw [FormulaTable.find?_dropNote, if_pos here]
  · exact rested.congr fun text => by rw [FormulaTable.find?_dropNote, if_neg here]; rfl

/-- After a change it is enough to forget what was kept for its path. -/
theorem Coherent.change {s : Store} (coherent : formulas.Coherent settings s.source table)
    (change : Change) :
    formulas.Coherent settings (change.apply s).source (table.dropNote change.path) := by
  intro c given present
  by_cases here : c.path = change.path
  · exact rested_fresh fun text => by rw [FormulaTable.find?_dropNote, if_pos here]
  · exact (coherent c (Store.gives_change change given here) present).drop change.path

variable {source : Source} {q : Query}
  (apart : ∀ documents, source.documents = .ok documents → (documents.map Document.path).Nodup)
  (untimed : ∀ text ∈ q.definition.formulas.map Prod.snd, Expr.textWithin timeless text = true)

include apart untimed

theorem Coherent.step {c c' : Candidate} {table' : FormulaTable}
    (coherent : q.definition.formulas.Coherent settings source table)
    (given : source.Gives settings c.context) (step : Candidate.Step q c c' table table') :
    q.definition.formulas.Coherent settings source table' := by
  intro other given' present
  by_cases here : other.path = c.context.path
  · -- There is no other note at this path, so it is the one that was read, perhaps with its content.
    have rested := (Rested.fresh step.rested).timeless untimed present other.content
    rw [step.context] at rested
    rw [given.same apart given' here]
    exact rested
  · exact (coherent other given' present).congr fun text => step.others _ text here

theorem Coherent.steps {table' : FormulaTable}
    (coherent : q.definition.formulas.Coherent settings source table)
    (steps : Candidate.Steps q (source.Gives settings) table table') :
    q.definition.formulas.Coherent settings source table' := by
  induction steps with
  | refl => exact coherent
  | tail _ last ih =>
    obtain ⟨c, c', given, step⟩ := last
    exact ih.step apart untimed given step

end Formulas

namespace Query

variable {q : Query} {source : Source} {table : FormulaTable}

/-- Whether a selection comes to an end does not depend on what is known. -/
theorem select_ends (q : Query) (source : Source) (cancelAfter : Option Nat)
    (total done reads : Nat) (documents : List Document) (table table' : FormulaTable) :
    ((q.select source cancelAfter total done reads documents).on table).1.map (fun _ => ()) =
      ((q.select source cancelAfter total done reads documents).on table').1.map (fun _ => ()) := by
  induction documents generalizing done reads table table' with
  | nil => rfl
  | cons d documents ih =>
    have bare (t : FormulaTable) (f : Selection → Selection) (done reads : Nat) :
        (((q.select source cancelAfter total done reads documents).on t).1.map f).map (fun _ => ()) =
          ((q.select source cancelAfter total done reads documents).on t).1.map (fun _ => ()) := by
      cases ((q.select source cancelAfter total done reads documents).on t).1 <;> rfl
    simp only [select_on, examine_on]
    split
    · rfl
    · split
      · cases source.content d with
        | none => simpa only [Prod.map_fst, bare] using ih (done + 1) (reads + 1) table table'
        | some content =>
          dsimp only
          cases q.contextOf source d content with
          | error f => rfl
          | ok context => simpa only [Prod.map_fst, bare] using ih (done + 1) (reads + 1) _ _
      · exact ih (done + 1) reads table table'

theorem ContextOf.gives {documents : List Document} (listed : source.documents = .ok documents)
    {c : Context} (given : q.ContextOf source documents c) : source.Gives q.settings c := by
  obtain ⟨d, member, content, made⟩ := given
  exact ⟨documents, d, _, listed, member, made⟩

theorem Selected.given {documents : List Document} {selection : Selection} {after : FormulaTable}
    (selected : Selected q source documents table selection after) {c : Context}
    (member : c ∈ selection.matched.map Candidate.context) : q.ContextOf source documents c := by
  rw [← contexts_bare, selected.matched] at member
  obtain ⟨c', found, rfl⟩ := List.mem_map.mp member
  obtain ⟨d, listed, matched⟩ := List.mem_filterMap.mp found
  obtain ⟨_, content, made⟩ := matched?_made matched
  exact ⟨d, listed, content, made⟩

/-- A run from what reads have left has the outcome of one that begins with nothing known. -/
theorem run_coherent (distinct : (q.definition.formulas.map Prod.snd).Nodup)
    (untimed : ∀ text ∈ q.definition.formulas.map Prod.snd,
      Expr.textWithin Formulas.timeless text = true)
    (apart : ∀ documents, source.documents = .ok documents → (documents.map Document.path).Nodup)
    (coherent : q.definition.formulas.Coherent q.settings source table) (cancelAfter : Option Nat) :
    ∃ after, (q.run source cancelAfter).on table = (((q.run source cancelAfter).on []).1, after) ∧
      q.definition.formulas.Coherent q.settings source after := by
  simp only [run_on]
  cases listed : source.documents with
  | error e => exact ⟨table, rfl, coherent⟩
  | ok documents =>
    have rested {t : FormulaTable} (coherent : q.definition.formulas.Coherent q.settings source t)
        (d : Document) (member : d ∈ documents) (content : String) (context : Context)
        (made : q.contextOf source d content = .ok context) :
        Candidate.Rested q t ⟨d, context, []⟩ :=
      coherent context (ContextOf.gives listed ⟨d, member, content, made⟩) q.present
    obtain ⟨outcome, middle, run, selected, steps⟩ := select_pool distinct cancelAfter
      documents.length 0 0 (apart documents listed) (rested coherent)
    obtain ⟨alone, middle', run', selected', _⟩ := select_pool distinct cancelAfter
      documents.length 0 0 (apart documents listed) (rested (.empty q.definition.formulas q.settings source))
    have ends := q.select_ends source cancelAfter documents.length 0 0 documents table []
    have coherent' := coherent.steps apart untimed (steps.mono fun _ => ContextOf.gives listed)
    rw [run, run'] at ends
    simp only [run, run']
    cases outcome with
    | error e =>
      cases alone with
      | error e' => exact ⟨middle, by rw [Except.error.inj ends], coherent'⟩
      | ok selection => cases ends
    | ok selection =>
      cases alone with
      | error e' => cases ends
      | ok selection' =>
        have found := selected selection rfl
        have found' := selected' selection' rfl
        obtain ⟨after, finish, steps'⟩ := finish_pool distinct found.pool
        obtain ⟨after', finish', _⟩ := finish_pool distinct found'.pool
        refine ⟨after, ?_, coherent'.steps apart untimed (steps'.mono fun _ member =>
          ContextOf.gives listed (found.given member))⟩
        simp only [finish, finish', found.matched, found'.matched, found.skipped, found'.skipped]

end Query

/-- All that happens to a store and to the values that are kept: its notes change, and views of one
definition are run, some to the end and some until they are cancelled. -/
inductive Event where
  | change (change : Change)
  | run (viewName : Option String) (options : Options) (present : Moment) (cancelAfter : Option Nat)

structure Session where
  store : Store
  table : FormulaTable

namespace Session

variable (d : Definition) (settings : Settings)

/-- Nothing is stored and nothing is kept. -/
def start : Session := ⟨.empty, []⟩

/-- After a change all is forgotten that was kept for its path. -/
def after (s : Session) : Event → Session
  | .change change => ⟨change.apply s.store, s.table.dropNote change.path⟩
  | .run viewName options present cancelAfter =>
    ⟨s.store, ((Request.mk d viewName options present cancelAfter).run settings s.store.source).on
      s.table |>.2⟩

def outcome? (s : Session) : Event → Option (Except RunError ResultSet)
  | .change _ => none
  | .run viewName options present cancelAfter =>
    some (((Request.mk d viewName options present cancelAfter).run settings s.store.source).on
      s.table).1

/-- The outcomes of all runs. -/
def outcomes (s : Session) : List Event → List (Except RunError ResultSet)
  | [] => []
  | event :: later => (s.outcome? d settings event).toList ++ outcomes (s.after d settings event) later

def afterAll (s : Session) (events : List Event) : Session := events.foldl (after d settings) s

/-- Inquiries about a note that is stored are answered as if nothing had been kept. To forget what is
kept for a path leaves nothing of it, leaves all that is kept for other paths, and changes no answer. -/
structure Truthful (s : Session) : Prop where
  answers : ∀ c, s.store.source.Gives settings c → ∀ present inquiries,
    ((Inquiry.askAll (.withFormulas present c d.formulas) inquiries).run (.fresh s.table)).1 =
      ((Inquiry.askAll (.withFormulas present c d.formulas) inquiries).run (.fresh [])).1
  forgotten : ∀ path other text, (s.table.dropNote path).find? other text =
    if other = path then none else s.table.find? other text
  unchanged : ∀ path c, s.store.source.Gives settings c → ∀ present inquiries,
    ((Inquiry.askAll (.withFormulas present c d.formulas) inquiries).run
        (.fresh (s.table.dropNote path))).1 =
      ((Inquiry.askAll (.withFormulas present c d.formulas) inquiries).run (.fresh s.table)).1

/-- The invariant of a session. -/
structure Sound (s : Session) : Prop where
  filed : s.store.Filed
  coherent : d.formulas.Coherent settings s.store.source s.table

variable {d settings} {s : Session}

theorem Sound.start : Sound d settings start := ⟨.empty, .empty _ _ _⟩

theorem Sound.truthful (sound : s.Sound d settings) (distinct : (d.formulas.map Prod.snd).Nodup) :
    s.Truthful d settings := by
  refine ⟨fun c given present inquiries => ?_, s.table.find?_dropNote,
    fun path c given present inquiries => ?_⟩
  · exact (sound.coherent c given present).answersAll distinct inquiries
  · rw [(sound.coherent c given present).answersAll distinct inquiries]
    exact ((sound.coherent c given present).drop path).answersAll distinct inquiries

section Events

variable (distinct : (d.formulas.map Prod.snd).Nodup)
  (untimed : ∀ text ∈ d.formulas.map Prod.snd, Expr.textWithin Formulas.timeless text = true)

include distinct untimed

/-- A run that goes on with what is kept has the outcome of one that first forgets all. -/
theorem Sound.run (sound : s.Sound d settings) (other : FormulaTable) (r : Request)
    (same : r.definition = d) :
    ∃ after, (r.run { settings with keep := .persistent } s.store.source).on s.table =
        (((r.run { settings with keep := .query } s.store.source).on other).1, after) ∧
      d.formulas.Coherent settings s.store.source after := by
  subst same
  simp only [Request.run_on, reduceCtorEq, if_false, if_true]
  cases r.definition.chosen r.viewName with
  | error e => exact ⟨s.table, rfl, sound.coherent⟩
  | ok view =>
    exact Query.run_coherent (q := ⟨r.definition, view, settings, r.options, r.present⟩) distinct
      untimed sound.filed.apart sound.coherent r.cancelAfter

theorem Sound.after (sound : s.Sound d settings) (event : Event) :
    (s.after d { settings with keep := .persistent } event).Sound d settings := by
  cases event with
  | change change => exact ⟨sound.filed.change change, sound.coherent.change change⟩
  | run viewName options present cancelAfter =>
    obtain ⟨after, run, coherent⟩ := sound.run distinct untimed []
      ⟨d, viewName, options, present, cancelAfter⟩ rfl
    refine ⟨sound.filed, ?_⟩
    simp only [Session.after, run]
    exact coherent

theorem Sound.afterAll (sound : s.Sound d settings) (events : List Event) :
    (s.afterAll d { settings with keep := .persistent } events).Sound d settings := by
  induction events generalizing s with
  | nil => exact sound
  | cons event events ih => exact ih (sound.after distinct untimed event)

/-- Whatever the other session keeps, it forgets it before each run. -/
theorem Sound.outcomes (sound : s.Sound d settings) {other : Session} (same : other.store = s.store)
    (events : List Event) :
    s.outcomes d { settings with keep := .persistent } events =
      other.outcomes d { settings with keep := .query } events := by
  induction events generalizing s other with
  | nil => rfl
  | cons event events ih =>
    have stored : (other.after d { settings with keep := .query } event).store =
        (s.after d { settings with keep := .persistent } event).store := by
      cases event <;> simp only [Session.after, same]
    rw [Session.outcomes, Session.outcomes, ih (sound.after distinct untimed event) stored]
    cases event with
    | change change => rfl
    | run viewName options present cancelAfter =>
      obtain ⟨after, run, _⟩ := sound.run distinct untimed other.table
        ⟨d, viewName, options, present, cancelAfter⟩ rfl
      simp only [outcome?, run, same]

end Events

/-- Runs of one definition that keep the values of formulas have the outcomes of runs that do not,
whatever notes are added, replaced and removed in between, and no value that is kept is ever
another than the one it stands for. -/
theorem outcomes_coherent (d : Definition) (settings : Settings) (events : List Event)
    (distinct : (d.formulas.map Prod.snd).Nodup)
    (untimed : ∀ text ∈ d.formulas.map Prod.snd, Expr.textWithin Formulas.timeless text = true) :
    start.outcomes d { settings with keep := .persistent } events =
        start.outcomes d { settings with keep := .query } events ∧
      (start.afterAll d { settings with keep := .persistent } events).Truthful d settings :=
  ⟨Sound.start.outcomes distinct untimed rfl events,
    (Sound.start.afterAll distinct untimed events).truthful distinct⟩

section Sample

open Definition

/-- A formula of the note beside two that lead to each other. -/
def counting : Definition := plain (("count", "n") :: Formulas.circling) none

theorem counting_timeless :
    ∀ text ∈ counting.formulas.map Prod.snd, Expr.textWithin Formulas.timeless text = true := by
  have count : Expr.ofText "n" = .ok (.name "n") :=
    Expr.ofText_of_tokens [⟨.name, "n", ⟨1, 1⟩⟩, ⟨.stop, "", ⟨1, 2⟩⟩] (by decide +kernel)
      (by decide +kernel) (Expr.ofTokens_name ..)
  have free : Scope.ofName? "n" = none := by decide
  simp [counting, plain, Formulas.circling, Expr.textWithin, count, Expr.ofText_formula_a,
    Expr.ofText_formula_b, Expr.ofText_not_formula_a, Expr.within, Expr.settles, free]

theorem outcomes_coherent_counting : ∃ present, ∃ events : List Event,
    events = [.change (.add (numbered "a.md" 1).2), .change (.add (numbered "b.md" 2).2),
      .run (some "Notes") {} present (some 1), .change (.add (numbered "a.md" 3).2),
      .run (some "Notes") {} present none, .change (.remove "b.md"),
      .run (some "Notes") {} present none] ∧
    (counting.formulas.map Prod.snd).Nodup ∧
    (∀ text ∈ counting.formulas.map Prod.snd, Expr.textWithin Formulas.timeless text = true) ∧
    start.outcomes counting { keep := .persistent } events =
        start.outcomes counting { keep := .query } events ∧
      (start.afterAll counting { keep := .persistent } events).Truthful counting {} := by
  have distinct : (counting.formulas.map Prod.snd).Nodup := by decide
  let present : Moment := .startOf ⟨2024, 1, 1, by decide, by decide, by decide⟩
  exact ⟨present, _, rfl, distinct, counting_timeless,
    outcomes_coherent counting {} _ distinct counting_timeless⟩

end Sample

end Session

end NoteQuery
