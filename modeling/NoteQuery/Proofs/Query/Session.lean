import NoteQuery.Proofs.Query.Alike
import NoteQuery.Proofs.Query.Firm
import NoteQuery.Proofs.Query.Projection

/-! Runs one after the other over the same notes. Values of formulas that are kept from run to run are
found again under the text of a formula, whatever definition it stands in. As long as every text
means the same in all definitions in which it stands, each run has the outcome that it has by
itself. -/
namespace NoteQuery

/-- A run that is asked for. -/
structure Request where
  definition : Definition
  viewName : Option String
  options : Options
  present : Moment
  cancelAfter : Option Nat

namespace Request

def run (r : Request) (settings : Settings) (source : Source) : Run ResultSet :=
  r.definition.run r.viewName settings r.options r.present source r.cancelAfter

def formulas (r : Request) : Formulas := r.definition.formulas

/-- How values are kept decides only which are known when a run begins. -/
theorem run_on (r : Request) (settings : Settings) (keep : Keep) (source : Source)
    (table : FormulaTable) : (r.run { settings with keep := keep } source).on table =
      match r.definition.chosen r.viewName with
      | .error e => (.error (.unknownView e), table)
      | .ok view => (Query.run ⟨r.definition, view, settings, r.options, r.present⟩ source
          r.cancelAfter).on (if keep = .query then [] else table) := by
  rw [run, Definition.run_on]
  cases r.definition.chosen r.viewName with
  | error e => rfl
  | ok view =>
    have alike := Query.keeping_alike ⟨r.definition, view, settings, r.options, r.present⟩ keep
    have other := alike.run rfl source r.cancelAfter
    exact congrArg (ExceptT.on _) other

/-- The outcomes of runs one after the other, each with the values that those before it have left. -/
def outcomes (settings : Settings) (source : Source) :
    List Request → FormulaTable → List (Except RunError ResultSet)
  | [], _ => []
  | r :: later, table =>
    let (outcome, after) := (r.run settings source).on table
    outcome :: outcomes settings source later after

end Request

namespace Source

variable (source : Source) (settings : Settings)

/-- The context is that of a note which is listed. -/
def Gives (c : Context) : Prop := ∃ documents d content, source.documents = .ok documents ∧
  d ∈ documents ∧ Context.ofDocument d (source.metadata d) settings content = .ok c

theorem Gives.same {source : Source} {settings : Settings} {c c' : Context}
    (apart : ∀ documents, source.documents = .ok documents → (documents.map Document.path).Nodup)
    (given : source.Gives settings c) (given' : source.Gives settings c') (path : c'.path = c.path) :
    c' = { c with content := c'.content } := by
  obtain ⟨documents, d, content, listed, member, made⟩ := given
  obtain ⟨documents', d', content', listed', member', made'⟩ := given'
  rw [listed, Except.ok.injEq] at listed'
  subst listed'
  obtain ⟨note, dated, made⟩ := Except.bind_eq_ok.mp made
  obtain ⟨note', dated', made'⟩ := Except.bind_eq_ok.mp made'
  cases made
  cases made'
  -- The path tells which note it is, and how it is read decides over its content alone.
  have document : d' = d := List.inj_on_of_nodup_map (apart documents listed) member' member path
  subst document
  rw [dated, Except.ok.injEq] at dated'
  rw [dated']

end Source

namespace Request

variable (settings : Settings) (source : Source) (requests : List Request)

/-- Every value in the table is right for all formulas with its text, in whatever definition. -/
def Right (table : FormulaTable) : Prop := ∀ r ∈ requests, ∀ c, source.Gives settings c →
  r.formulas.Right r.present c table

variable {settings source requests}
  (apart : ∀ documents, source.documents = .ok documents → (documents.map Document.path).Nodup)
  (distinct : ∀ r ∈ requests, (r.formulas.map Prod.snd).Nodup)
  (untimed : ∀ r ∈ requests, ∀ text ∈ r.formulas.map Prod.snd,
    Expr.textWithin Formulas.timeless text = true)
  (acyclic : ∀ r ∈ requests, ∀ c, source.Gives settings c → r.formulas.Acyclic r.present c)
  (agree : ∀ r ∈ requests, ∀ r' ∈ requests, ∀ c, source.Gives settings c →
    ∀ present n n' text, r.formulas.lookup n = some text → r'.formulas.lookup n' = some text →
    r.formulas.meaning present c n = r'.formulas.meaning present c n')

include apart distinct untimed acyclic agree

theorem Right.firmFor {r : Request} (asked : r ∈ requests) {q : Query}
    (definition : q.definition = r.definition) (present : q.present = r.present) {c : Candidate}
    (given : source.Gives settings c.context) (fresh : c.cyclic = []) :
    q.FirmFor (Right settings source requests) c := by
  intro α f steady
  have formulas : q.definition.formulas = r.formulas := by rw [definition, formulas]
  rw [formulas, present] at steady
  refine ⟨(f (.withFormulas r.present c.context r.formulas)).run (.fresh []) |>.1, ?_⟩
  intro table right
  have rested : r.formulas.Rested r.present c.context ⟨table, c.cyclic⟩ := by
    rw [fresh]
    exact (right r asked c.context given).rested (distinct r asked) (acyclic r asked c.context given)
  obtain ⟨after, run, rested', keeps⟩ := steady.run rested
  have unmarked : after.cyclic = c.cyclic := by
    rw [fresh]
    exact rested'.unmarked (acyclic r asked c.context given)
  refine ⟨after.table, ?_, ?_⟩
  · rw [Candidate.evaluate_run, formulas, present]
    simp only [run, unmarked]
  · -- Only values of texts that stand in this definition are new in the table, and only for this note.
    intro r' asked' c' given' n text v found kept
    by_cases path : c'.path = c.context.path
    · have same : c' = { c.context with content := c'.content } := given.same apart given' path
      rw [path] at kept
      by_cases stands : ∃ m, r.formulas.lookup m = some text
      · obtain ⟨m, found'⟩ := stands
        calc v = r.formulas.meaning r.present c.context m :=
            rested'.right (distinct r asked) m text v found' kept
          _ = r'.formulas.meaning r.present c.context n :=
            agree r asked r' asked' c.context given r.present m n text found' found
          _ = r'.formulas.meaning r'.present c' n := by
            rw [same]
            exact congrFun (Formulas.meaning_timeless (distinct r' asked') (untimed r' asked') ..) n
      · rw [keeps.foreign text fun m found' => stands ⟨m, found'⟩, ← path] at kept
        exact right r' asked' c' given' n text v found kept
    · rw [keeps.others c'.path text path] at kept
      exact right r' asked' c' given' n text v found kept

theorem outcomes_right {later : List Request} (asked : later ⊆ requests) {table : FormulaTable}
    (right : Right settings source requests table) :
    outcomes { settings with keep := .persistent } source later table =
      later.map fun r => ((r.run { settings with keep := .query } source).on []).1 := by
  induction later generalizing table with
  | nil => rfl
  | cons r later ih =>
    obtain ⟨here, further⟩ := List.cons_subset.mp asked
    have blank : Right settings source requests [] := by
      intro r _ c _ n text v _ kept
      cases kept
    have kept := run_on r settings .persistent source table
    have alone := run_on r settings .query source []
    cases chosen : r.definition.chosen r.viewName with
    | error e =>
      simp only [chosen] at kept alone
      simp only [outcomes, List.map_cons, kept, alone, ih further right]
    | ok view =>
      obtain ⟨outcome, _, runs⟩ : Firm (Right settings source requests) (fun _ => True)
          (Query.run ⟨r.definition, view, settings, r.options, r.present⟩ source r.cancelAfter) := by
        refine Query.run_firm (distinct r here) r.cancelAfter ?_
        intro documents listed d member content c made
        exact Right.firmFor apart distinct untimed acyclic agree here rfl rfl
          ⟨documents, d, _, listed, member, made⟩ rfl
      obtain ⟨after, run, right'⟩ := runs table right
      obtain ⟨after', run', _⟩ := runs [] blank
      simp only [chosen, reduceCtorEq, if_false, if_true, run, run'] at kept alone
      simp only [outcomes, List.map_cons, kept, alone, ih further right']

end Request

/-- Where every text means the same in all definitions in which it stands, runs that keep the values
of formulas have the outcomes of runs that do not. -/
theorem Request.outcomes_persistent (settings : Settings) (source : Source) (requests : List Request)
    (apart : ∀ documents, source.documents = .ok documents → (documents.map Document.path).Nodup)
    (distinct : ∀ r ∈ requests, (r.formulas.map Prod.snd).Nodup)
    (untimed : ∀ r ∈ requests, ∀ text ∈ r.formulas.map Prod.snd,
      Expr.textWithin Formulas.timeless text = true)
    (acyclic : ∀ r ∈ requests, ∀ c, source.Gives settings c → r.formulas.Acyclic r.present c)
    (agree : ∀ r ∈ requests, ∀ r' ∈ requests, ∀ c, source.Gives settings c →
      ∀ present n n' text, r.formulas.lookup n = some text → r'.formulas.lookup n' = some text →
      r.formulas.meaning present c n = r'.formulas.meaning present c n') :
    outcomes { settings with keep := .persistent } source requests [] =
      requests.map fun r => ((r.run { settings with keep := .query } source).on []).1 := by
  have blank : Request.Right settings source requests [] := by
    intro r _ c _ n text v _ kept
    cases kept
  exact outcomes_right apart distinct untimed acyclic agree (List.Subset.refl _) blank

namespace Request

section Sample

open Formulas Definition

/-- A formula that is another one, whose text is given. -/
def chained (text : String) (rest : Formulas) : Formulas :=
  ("a", "formula.b") :: ("b", text) :: rest

def lengthened : Formulas := chained "1" [("c", "!formula.a")]

def asking (formulas : Formulas) (options : Options) (present : Moment) : Request :=
  ⟨plain formulas none, some "Notes", options, present, none⟩

theorem chained_meaning {text : String} {v : Value} (parsed : Expr.ofText text = .ok (.literal v))
    (rest : Formulas) (present : Moment) (context : Context) :
    (chained text rest).meaning present context "a" = v ∧
    (chained text rest).meaning present context "b" = v := by
  simp [meaning, reader, read_on, chained, List.lookup, Surroundings.formulaValue_run,
    Surroundings.reading_context, Expr.ofTextIn_formula _ _ _ _ Expr.ofText_formula_b,
    Expr.ofTextIn_literal _ _ _ _ parsed, ExceptT.on_pure, Memo.fresh,
    FormulaTable.find?_nil, Memo.keep, worth, conclude, -bind_pure_comp, -map_bind]

theorem lengthened_meaning (present : Moment) (context : Context) :
    lengthened.meaning present context "c" = .bool false := by
  simp [meaning, reader, read_on, lengthened, chained, List.lookup, Surroundings.formulaValue_run,
    Surroundings.reading_context, Expr.ofTextIn_formula _ _ _ _ Expr.ofText_formula_b,
    Expr.ofTextIn_not_formula _ _ _ _ Expr.ofText_not_formula_a,
    Expr.ofTextIn_literal _ _ _ _ Expr.ofText_one, ExceptT.on_bind, ExceptT.on_pure, Memo.fresh,
    FormulaTable.find?_nil, Memo.keep, worth, conclude, Value.truthy, -bind_pure_comp, -map_bind]

theorem chained_texts {text : String} (other : text ≠ "formula.b") :
    ((chained text []).map Prod.snd).Nodup := by
  simpa [chained] using other.symm

theorem chained_timeless {text : String} {v : Value} (parsed : Expr.ofText text = .ok (.literal v))
    {rest : Formulas} (others : ∀ t ∈ rest.map Prod.snd, Expr.textWithin timeless t = true) :
    ∀ t ∈ (chained text rest).map Prod.snd, Expr.textWithin timeless t = true := by
  simp only [chained, List.map_cons, List.forall_mem_cons]
  refine ⟨?_, ?_, others⟩
  · simp [Expr.textWithin, Expr.ofText_formula_b, Expr.within, Expr.settles]
  · simp [Expr.textWithin, parsed, Expr.within, Expr.settles]

theorem chained_acyclic {text : String} {v : Value} (parsed : Expr.ofText text = .ok (.literal v))
    (full : v ≠ .null) (other : text ≠ "formula.b") (present : Moment) (context : Context) :
    (chained text []).Acyclic present context := by
  obtain ⟨a, b⟩ := chained_meaning parsed [] present context
  refine .of_meaning (chained_texts other) ?_
  simp [chained, names] at a b ⊢
  exact ⟨a ▸ full, b ▸ full⟩

theorem lengthened_acyclic (present : Moment) (context : Context) :
    lengthened.Acyclic present context := by
  obtain ⟨a, b⟩ := chained_meaning Expr.ofText_one [("c", "!formula.a")] present context
  have c := lengthened_meaning present context
  refine .of_meaning (by decide) ?_
  simp [lengthened, chained, names] at a b c ⊢
  simp [a, b, c]

theorem meaning_of_text {formulas : Formulas} (among : formulas ∈ [chained "1" [], lengthened])
    (present : Moment) (context : Context) {n text : String} (found : formulas.lookup n = some text) :
    formulas.meaning present context n = if text = "!formula.a" then .bool false else .int 1 := by
  obtain ⟨a, b⟩ := chained_meaning Expr.ofText_one [] present context
  obtain ⟨a', b'⟩ := chained_meaning Expr.ofText_one [("c", "!formula.a")] present context
  have c := lengthened_meaning present context
  have inside := lookup_mem found
  simp only [List.mem_cons, List.not_mem_nil, or_false] at among
  rcases among with rfl | rfl
  · simp only [chained, List.mem_cons, List.not_mem_nil, or_false, Prod.mk.injEq] at inside
    rcases inside with ⟨rfl, rfl⟩ | ⟨rfl, rfl⟩
    · rw [if_neg (by decide)]
      exact a
    · rw [if_neg (by decide)]
      exact b
  · simp only [lengthened, chained, List.mem_cons, List.not_mem_nil, or_false,
      Prod.mk.injEq] at inside
    rcases inside with ⟨rfl, rfl⟩ | ⟨rfl, rfl⟩ | ⟨rfl, rfl⟩
    · rw [if_neg (by decide)]
      exact a'
    · rw [if_neg (by decide)]
      exact b'
    · rw [if_pos rfl]
      exact c

theorem outcomes_persistent_chained : ∃ present, ∃ requests : List Request,
    requests = [asking (chained "1" []) {} present, asking lengthened {} present] ∧
    (∀ documents, blankSource.documents = .ok documents → (documents.map Document.path).Nodup) ∧
    (∀ r ∈ requests, (r.formulas.map Prod.snd).Nodup) ∧
    (∀ r ∈ requests, ∀ text ∈ r.formulas.map Prod.snd,
      Expr.textWithin Formulas.timeless text = true) ∧
    (∀ r ∈ requests, ∀ c, blankSource.Gives {} c → r.formulas.Acyclic r.present c) ∧
    (∀ r ∈ requests, ∀ r' ∈ requests, ∀ c, blankSource.Gives {} c →
      ∀ present n n' text, r.formulas.lookup n = some text → r'.formulas.lookup n' = some text →
      r.formulas.meaning present c n = r'.formulas.meaning present c n') ∧
    outcomes { keep := .persistent } blankSource requests [] =
      requests.map fun r => ((r.run { keep := .query } blankSource).on []).1 := by
  let present : Moment := .startOf ⟨2024, 1, 1, by decide, by decide, by decide⟩
  let requests := [asking (chained "1" []) {} present, asking lengthened {} present]
  have formulas (r : Request) (asked : r ∈ requests) :
      r.formulas ∈ [chained "1" [], lengthened] := by
    simp only [requests, List.mem_cons, List.not_mem_nil, or_false] at asked
    rcases asked with rfl | rfl
    · exact .head _
    · exact .tail _ (.head _)
  have apart : ∀ documents, blankSource.documents = .ok documents →
      (documents.map Document.path).Nodup := by
    intro documents listed
    cases listed
    simp
  have distinct : ∀ r ∈ requests, (r.formulas.map Prod.snd).Nodup := by
    simp only [requests, List.forall_mem_cons]
    exact ⟨chained_texts (by decide), by decide, by simp⟩
  have untimed : ∀ r ∈ requests, ∀ text ∈ r.formulas.map Prod.snd,
      Expr.textWithin Formulas.timeless text = true := by
    simp only [requests, List.forall_mem_cons]
    refine ⟨chained_timeless Expr.ofText_one (by simp), chained_timeless Expr.ofText_one ?_, by simp⟩
    simp [Expr.textWithin, Expr.ofText_not_formula_a, Expr.within, Expr.settles]
  have acyclic : ∀ r ∈ requests, ∀ c, blankSource.Gives {} c → r.formulas.Acyclic r.present c := by
    simp only [requests, List.forall_mem_cons]
    refine ⟨fun c _ => ?_, fun c _ => lengthened_acyclic present c, by simp⟩
    exact chained_acyclic Expr.ofText_one (by simp) (by decide) present c
  have agree : ∀ r ∈ requests, ∀ r' ∈ requests, ∀ c, blankSource.Gives {} c →
      ∀ present n n' text, r.formulas.lookup n = some text → r'.formulas.lookup n' = some text →
      r.formulas.meaning present c n = r'.formulas.meaning present c n' := by
    intro r asked r' asked' c _ present n n' text found found'
    rw [meaning_of_text (formulas r asked) present c found,
      meaning_of_text (formulas r' asked') present c found']
  exact ⟨present, requests, rfl, apart, distinct, untimed, acyclic, agree,
    outcomes_persistent {} blankSource requests apart distinct untimed acyclic agree⟩

/-- The first formula keeps the value that it has under the other definition. -/
theorem chained_apart (present : Moment) :
    let first := ((Surroundings.withFormulas present blankNote (chained "1" [])).entries .formula).on
      (.fresh [])
    (((Surroundings.withFormulas present blankNote (chained "2" [])).entries .formula).on
      (.fresh first.2.table)).1 = .ok [("a", .int 1), ("b", .int 2)] ∧
    (((Surroundings.withFormulas present blankNote (chained "2" [])).entries .formula).on
      (.fresh [])).1 = .ok [("a", .int 2), ("b", .int 2)] := by
  simp [Surroundings.withFormulas, Surroundings.entries, Surroundings.readAll, reader, names,
    read_on, chained, List.lookup, Surroundings.formulaValue_run, Surroundings.reading_context,
    Expr.ofTextIn_formula _ _ _ _ Expr.ofText_formula_b,
    Expr.ofTextIn_literal _ _ _ _ Expr.ofText_one, Expr.ofTextIn_literal _ _ _ _ Expr.ofText_two,
    ExceptT.on_bind, ExceptT.on_pure, FormulaTable.find?_nil, FormulaTable.find?_put, Memo.keep,
    worth, conclude, blankNote, Memo.fresh, -bind_pure_comp, -map_bind]

/-- A run over a single note returns it with the values of its formulas, which stay known. -/
theorem asking_returns (formulas : Formulas) (present : Moment) (keep : Keep)
    (table : FormulaTable) :
    let all := ((Surroundings.withFormulas present blankNote formulas).entries .formula).on
      (.fresh (if keep = .query then [] else table))
    ∃ result document,
      ((asking formulas {} present).run { keep := keep } blankSource).on table =
        (.ok result, all.2.table) ∧
      result.documents = [document] ∧ all.1 = .ok document.formulas := by
  generalize asked : Query.mk (plain formulas none) (some (plainView none)) { keep := keep } {}
    present = q
  generalize known : (if keep = .query then [] else table) = start
  obtain ⟨entries, middle, read, run⟩ := blankCandidate.entries_runs q start
  have columns : q.columns? = none := by rw [← asked]; rfl
  have presented : ∃ document, (q.present? blankCandidate).on start =
      (.ok document, middle.table) ∧ document.formulas = entries := by
    simp only [Query.present?, ExceptT.on_bind, run, columns, ExceptT.on_pure]
    exact ⟨_, rfl, rfl⟩
  obtain ⟨document, presented, values⟩ := presented
  rw [← asked] at read presented
  rw [← known] at presented
  have read' : ((Surroundings.withFormulas present blankNote formulas).entries .formula).on
      (.fresh start) = (.ok entries, middle) := read
  intro all
  have all_eq : all = (.ok entries, middle) := read'
  rw [all_eq, ← values]
  exact ⟨_, document, plain_returns presented, rfl, rfl⟩

/-- A text that means something else under another definition brings the value from there. -/
theorem outcomes_persistent_differ : ¬ ∀ (settings : Settings) (source : Source)
    (requests : List Request),
    (∀ documents, source.documents = .ok documents → (documents.map Document.path).Nodup) →
    (∀ r ∈ requests, (r.formulas.map Prod.snd).Nodup) →
    (∀ r ∈ requests, ∀ text ∈ r.formulas.map Prod.snd,
      Expr.textWithin Formulas.timeless text = true) →
    (∀ r ∈ requests, ∀ c, source.Gives settings c → r.formulas.Acyclic r.present c) →
    outcomes { settings with keep := .persistent } source requests [] =
      requests.map fun r => ((r.run { settings with keep := .query } source).on []).1 := by
  intro same
  let present : Moment := .startOf ⟨2024, 1, 1, by decide, by decide, by decide⟩
  let requests := [asking (chained "1" []) {} present, asking (chained "2" []) {} present]
  have apart : ∀ documents, blankSource.documents = .ok documents →
      (documents.map Document.path).Nodup := by
    intro documents listed
    cases listed
    simp
  have distinct : ∀ r ∈ requests, (r.formulas.map Prod.snd).Nodup := by
    simp only [requests, List.forall_mem_cons]
    exact ⟨chained_texts (by decide), chained_texts (by decide), by simp⟩
  have untimed : ∀ r ∈ requests, ∀ text ∈ r.formulas.map Prod.snd,
      Expr.textWithin Formulas.timeless text = true := by
    simp only [requests, List.forall_mem_cons]
    exact ⟨chained_timeless Expr.ofText_one (by simp), chained_timeless Expr.ofText_two (by simp),
      by simp⟩
  have acyclic : ∀ r ∈ requests, ∀ c, blankSource.Gives {} c → r.formulas.Acyclic r.present c := by
    simp only [requests, List.forall_mem_cons]
    refine ⟨fun c _ => ?_, fun c _ => ?_, by simp⟩
    · exact chained_acyclic Expr.ofText_one (by simp) (by decide) present c
    · exact chained_acyclic Expr.ofText_two (by simp) (by decide) present c
  have equal := same {} blankSource requests apart distinct untimed acyclic
  obtain ⟨first, _, run, _⟩ := asking_returns (chained "1" []) present .persistent []
  obtain ⟨second, later, run', documents, values⟩ := asking_returns (chained "2" []) present
    .persistent (((Surroundings.withFormulas present blankNote (chained "1" [])).entries .formula).on
      (.fresh [])).2.table
  obtain ⟨alone, document, run'', documents', values'⟩ :=
    asking_returns (chained "2" []) present .query []
  simp only [reduceCtorEq, if_false, if_true] at run run' run'' values values'
  simp only [requests, outcomes, run, run', List.map_cons, run'', List.cons.injEq,
    Except.ok.injEq] at equal
  obtain ⟨-, rfl, -⟩ := equal
  rw [documents] at documents'
  cases documents'
  rw [(chained_apart present).1] at values
  rw [(chained_apart present).2, ← values] at values'
  simp at values'

end Sample

end Request

end NoteQuery
