import NoteQuery.Proofs.Query.Refinement

/-! Runs whose outcome does not depend on the table. If every evaluation for a candidate comes to the
same from all tables of some kind, leaves a table of that kind and brings no cycle to light, then so
does each stage of a run, and the run itself. -/
namespace NoteQuery

/-- A computation with one outcome from all tables of a kind. It leaves a table of that kind. -/
def Firm (P : FormulaTable → Prop) {α : Type} (post : α → Prop) (x : Run α) : Prop :=
  ∃ outcome, (∀ a, outcome = .ok a → post a) ∧
    ∀ table, P table → ∃ after, x.on table = (outcome, after) ∧ P after

namespace Firm

variable {P : FormulaTable → Prop} {α β : Type} {post : α → Prop} {post' : β → Prop}

theorem pure {a : α} (holds : post a) : Firm P post (Pure.pure a) :=
  ⟨.ok a, fun _ same => Except.ok.inj same ▸ holds, fun table kind => ⟨table, rfl, kind⟩⟩

theorem throw (e : RunError) : Firm P post (MonadExcept.throw e : Run α) :=
  ⟨.error e, by simp, fun table kind => ⟨table, rfl, kind⟩⟩

theorem bind {x : Run α} {f : α → Run β} (first : Firm P post x)
    (rest : ∀ a, post a → Firm P post' (f a)) : Firm P post' (x >>= f) := by
  obtain ⟨outcome, holds, runs⟩ := first
  cases outcome with
  | error e =>
    refine ⟨.error e, by simp, fun table kind => ?_⟩
    obtain ⟨after, run, kind'⟩ := runs table kind
    exact ⟨after, by rw [ExceptT.on_bind, run], kind'⟩
  | ok a =>
    obtain ⟨outcome', holds', runs'⟩ := rest a (holds a rfl)
    refine ⟨outcome', holds', fun table kind => ?_⟩
    obtain ⟨middle, run, kind'⟩ := runs table kind
    obtain ⟨after, run', kind''⟩ := runs' middle kind'
    exact ⟨after, by rw [ExceptT.on_bind, run]; exact run', kind''⟩

end Firm

namespace Query

/-- Evaluations for a candidate come to the same from all tables of a kind. -/
def FirmFor (q : Query) (P : FormulaTable → Prop) (c : Candidate) : Prop :=
  ∀ (α : Type) (f : Surroundings → StateM Memo α),
    q.definition.formulas.Steady q.present c.context
      (f (.withFormulas q.present c.context q.definition.formulas)) →
    ∃ a, ∀ table, P table → ∃ after, (c.evaluate q f).run table = ((a, c), after) ∧ P after

variable {q : Query} {P : FormulaTable → Prop} {c : Candidate} {candidates : List Candidate}

theorem FirmFor.evaluate (firm : q.FirmFor P c) {α : Type} {f : Surroundings → StateM Memo α}
    (steady : q.definition.formulas.Steady q.present c.context
      (f (.withFormulas q.present c.context q.definition.formulas))) :
    Firm P (fun read => read.2 = c) (liftM (c.evaluate q f) : Run (α × Candidate)) := by
  obtain ⟨a, runs⟩ := firm α f steady
  refine ⟨.ok (a, c), fun read same => by cases same; rfl, fun table kind => ?_⟩
  obtain ⟨after, run, kind'⟩ := runs table kind
  exact ⟨after, by rw [ExceptT.on_lift, run], kind'⟩

variable (distinct : (q.definition.formulas.map Prod.snd).Nodup)
include distinct

theorem FirmFor.resolve (firm : q.FirmFor P c) (path : String) :
    Firm P (fun read => read.2 = c) (c.resolve q path) := by
  have steady : q.definition.formulas.Steady q.present c.context
      ((Surroundings.withFormulas q.present c.context q.definition.formulas).resolve path).run :=
    .of_scripted distinct
      (Surroundings.resolve_scripted q.present c.context q.definition.formulas.names path)
  refine (firm.evaluate (f := fun s => (s.resolve path).run) steady).bind ?_
  rintro ⟨result, c'⟩ same
  match result with
  | .ok v => exact .pure same
  | .error (.error _) => exact .pure same
  | .error (.fault f) => exact .throw _

theorem keyed_firm (path : String) (firm : ∀ c ∈ candidates, q.FirmFor P c) :
    Firm P (fun pairs => pairs.map Prod.snd = candidates) (q.keyed path candidates) := by
  induction candidates with
  | nil => exact .pure rfl
  | cons c candidates ih =>
    obtain ⟨first, later⟩ := List.forall_mem_cons.mp firm
    refine (first.resolve distinct path).bind fun read same => ?_
    refine (ih later).bind fun pairs same' => ?_
    exact .pure (by rw [List.map_cons, same, same'])

theorem sortByKey_firm (key : SortKey) (firm : ∀ c ∈ candidates, q.FirmFor P c) :
    Firm P (fun sorted => ∀ c ∈ sorted, q.FirmFor P c) (q.sortByKey key candidates) := by
  obtain ⟨outcome, same, runs⟩ := keyed_firm distinct key.path firm
  cases outcome with
  | error e =>
    refine ⟨.error e, by simp, fun table kind => ?_⟩
    obtain ⟨after, run, kind'⟩ := runs table kind
    exact ⟨after, by rw [sortByKey_on, run], kind'⟩
  | ok pairs =>
    cases made : pass Prod.fst key.descending pairs with
    | error f =>
      refine ⟨.error (.failed (.fault f)), by simp, fun table kind => ?_⟩
      obtain ⟨after, run, kind'⟩ := runs table kind
      exact ⟨after, by simp only [sortByKey_on, run, made], kind'⟩
    | ok sorted =>
      refine ⟨.ok (sorted.map Prod.snd), fun result equal c member => ?_, fun table kind => ?_⟩
      · have permuted : result.Perm candidates := by
          rw [← Except.ok.inj equal, ← same pairs rfl]
          exact (pass_perm made).map Prod.snd
        exact firm c (permuted.mem_iff.mp member)
      · obtain ⟨after, run, kind'⟩ := runs table kind
        exact ⟨after, by simp only [sortByKey_on, run, made], kind'⟩

theorem sortBy_firm (keys : List SortKey) (firm : ∀ c ∈ candidates, q.FirmFor P c) :
    Firm P (fun sorted => ∀ c ∈ sorted, q.FirmFor P c) (q.sortBy keys candidates) := by
  induction keys with
  | nil => exact .pure firm
  | cons key keys ih => exact ih.bind fun sorted firm' => sortByKey_firm distinct key firm'

theorem project_firm (columns : List String) (firm : q.FirmFor P c) :
    Firm P (fun shown => shown.2 = c) (q.project columns c) := by
  induction columns with
  | nil => exact .pure rfl
  | cons column columns ih =>
    refine (firm.resolve distinct column).bind ?_
    rintro ⟨value, c'⟩ same
    subst same
    exact ih.bind fun others same' => .pure same'

theorem present_firm (firm : q.FirmFor P c) : Firm P (fun _ => True) (q.present? c) := by
  have steady : q.definition.formulas.Steady q.present c.context
      ((Surroundings.withFormulas q.present c.context q.definition.formulas).entries .formula).run :=
    .of_scripted distinct
      (Surroundings.entries_scripted q.present c.context q.definition.formulas.names .formula)
  have read : Firm P (fun read => read.2 = c) (c.evaluate? q fun s => s.entries .formula) := by
    refine (firm.evaluate (f := fun s => (s.entries .formula).run) steady).bind ?_
    rintro ⟨result, c'⟩ same
    cases result with
    | ok entries => exact .pure same
    | error e => exact .throw _
  refine read.bind ?_
  rintro ⟨formulas, c'⟩ same
  subst same
  dsimp only
  cases q.columns? with
  | none => exact .pure trivial
  | some columns => exact (project_firm distinct columns firm).bind fun _ _ => .pure trivial

theorem presentAll_firm (firm : ∀ c ∈ candidates, q.FirmFor P c) :
    Firm P (fun _ => True) (q.presentAll candidates) := by
  induction candidates with
  | nil => exact .pure trivial
  | cons c candidates ih =>
    obtain ⟨first, later⟩ := List.forall_mem_cons.mp firm
    exact (present_firm distinct first).bind fun _ _ => (ih later).bind fun _ _ => .pure trivial

section Selection

variable {source : Source} {documents : List Document}

theorem examine_firm {d : Document} (content : String)
    (firm : ∀ context, q.contextOf source d content = .ok context → q.FirmFor P ⟨d, context, []⟩) :
    Firm P (fun candidate => ∀ c ∈ candidate, q.FirmFor P c) (q.examine source d content) := by
  unfold contextOf at firm
  unfold examine
  cases made : Context.ofDocument d (source.metadata d) q.settings
    (if q.wantsContent then some content else none) with
  | error f => exact .throw _
  | ok context =>
    have steady := Surroundings.admitsAll_steady distinct q.present context q.filters
    refine ((firm context made).evaluate (f := fun s => s.admitsAll q.filters) steady).bind ?_
    rintro ⟨passes, c⟩ same
    subst same
    refine .pure fun c' member => ?_
    cases passes with
    | false => simp at member
    | true =>
      simp only [if_true, Option.mem_some_iff] at member
      exact member ▸ firm context made

theorem select_firm (cancelAfter : Option Nat) (total done reads : Nat)
    (firm : ∀ d ∈ documents, ∀ content context, q.contextOf source d content = .ok context →
      q.FirmFor P ⟨d, context, []⟩) :
    Firm P (fun selection => ∀ c ∈ selection.matched, q.FirmFor P c)
      (q.select source cancelAfter total done reads documents) := by
  induction documents generalizing done reads with
  | nil => exact .pure (by simp)
  | cons d documents ih =>
    obtain ⟨first, later⟩ := List.forall_mem_cons.mp firm
    rw [select, selectUnless]
    split
    · exact (Firm.throw _).bind fun _ (never : False) => never.elim
    · dsimp only
      split
      · exact ih (done + 1) reads later
      · cases source.content d with
        | none => exact (ih (done + 1) (reads + 1) later).bind fun _ holds => .pure holds
        | some content =>
          refine (examine_firm distinct content (first content)).bind fun candidate passes => ?_
          refine (ih (done + 1) (reads + 1) later).bind fun selection holds => .pure fun c member => ?_
          rcases List.mem_append.mp member with here | rest
          · exact passes c (Option.mem_toList.mp here)
          · exact holds c rest

end Selection

theorem finish_firm {selection : Selection} (firm : ∀ c ∈ selection.matched, q.FirmFor P c) :
    Firm P (fun _ => True) (q.finish selection) := by
  refine (sortBy_firm distinct _ firm).bind fun sorted firm' => ?_
  have fewer : ∀ c ∈ (page q.options.paging? (q.limited sorted)).1, q.FirmFor P c :=
    fun c member => firm' c ((q.page_sublist sorted).subset member)
  exact (presentAll_firm distinct fewer).bind fun _ _ => .pure trivial

theorem run_firm {source : Source} (cancelAfter : Option Nat)
    (firm : ∀ documents, source.documents = .ok documents → ∀ d ∈ documents, ∀ content context,
      q.contextOf source d content = .ok context → q.FirmFor P ⟨d, context, []⟩) :
    Firm P (fun _ => True) (q.run source cancelAfter) := by
  unfold run runUnless
  cases listed : source.documents with
  | error e => exact .throw _
  | ok documents =>
    refine (select_firm distinct cancelAfter documents.length 0 0 (firm documents listed)).bind ?_
    exact fun selection firm' => finish_firm distinct firm'

end Query

end NoteQuery
