import NoteQuery.Proofs.Query.Refinement

/-! What the stages of a run return, from whatever table they begin. A selection holds some of the notes
that are listed, in their order; a sort puts candidates in another order and nothing else; what is shown
of each candidate tells of it. So no path occurs twice in a result. -/
namespace NoteQuery

/-- What a result tells of a note beside its formulas and what is looked up in it. -/
def ResultDocument.unread (d : ResultDocument) : ResultDocument :=
  { d with properties := [], formulas := [] }

/-- What is told of a candidate without a look at its formulas. -/
def Candidate.unread (c : Candidate) : ResultDocument where
  path := c.document.path
  name := c.document.name
  properties := []
  frontmatter := c.context.frontmatter
  file := c.context.file
  formulas := []
  content := c.context.content

namespace Query

/-- What a note by itself adds to a selection. -/
def contribution (q : Query) (source : Source) (d : Document) : Run Selection :=
  if q.recognises d then
    match source.content d with
    | none => pure ⟨[], 1⟩
    | some content => do
      let candidate ← q.examine source d content
      pure ⟨candidate.toList, 0⟩
  else pure ⟨[], 0⟩

variable {q : Query} {source : Source}

theorem select_cons (cancelAfter : Option Nat) (total done reads : Nat) (d : Document)
    (rest : List Document) :
    q.select source cancelAfter total done reads (d :: rest) =
      if cancelAfter.any (· ≤ reads) then throw (.cancelled done total)
      else (do
        let own ← q.contribution source d
        let later ← q.select source cancelAfter total (done + 1)
          (if q.recognises d then reads + 1 else reads) rest
        pure ⟨own.matched ++ later.matched, own.skipped + later.skipped⟩) := by
  simp only [select]
  rw [selectUnless, contribution]
  by_cases cancelled : cancelAfter.any (· ≤ reads) = true
  · simp only [cancelled, if_true]
    rfl
  · by_cases known : q.recognises d = true
    · have inside : (!q.extensions.contains (Text.lower d.extension)) = false := by
        simpa [recognises] using known
      cases source.content d with
      | none =>
        simp only [inside, known, cancelled, if_true, if_false, Bool.false_eq_true]
        simp [Nat.add_comm]
      | some content =>
        simp only [inside, known, cancelled, if_true, if_false, Bool.false_eq_true]
        simp
    · have outside : (!q.extensions.contains (Text.lower d.extension)) = true := by
        simpa [recognises] using known
      simp only [outside, known, cancelled, if_true, if_false, Bool.false_eq_true]
      simp

section Given

variable {c : Candidate} {candidates sorted : List Candidate}

theorem contribution_gives {d : Document} {own : Selection}
    (given : (q.contribution source d).Gives own) :
    (own.matched.map Candidate.document).Sublist [d] ∧
      ∀ c ∈ own.matched, c.document = d ∧ c.context.path = d.path := by
  unfold contribution at given
  split at given
  · split at given
    · cases given.of_pure
      simp
    · obtain ⟨candidate, ⟨table, after, examined⟩, rest⟩ := given.of_bind
      cases rest.of_pure
      rw [examine_on] at examined
      split at examined
      · cases examined
      · rename_i context made
        simp only [Prod.mk.injEq, Except.ok.injEq] at examined
        rw [← examined.1]
        split
        · simp [Candidate.evaluate_run, contextOf_path made]
        · simp
  · cases given.of_pure
    simp

theorem select_gives {cancelAfter : Option Nat} {total done reads : Nat} {documents : List Document}
    {selection : Selection}
    (given : (q.select source cancelAfter total done reads documents).Gives selection) :
    (selection.matched.map Candidate.document).Sublist documents ∧
      ∀ c ∈ selection.matched, c.context.path = c.document.path := by
  induction documents generalizing done reads selection with
  | nil =>
    cases given.of_pure
    simp
  | cons d documents ih =>
    rw [select_cons] at given
    split at given
    · obtain ⟨_, _, returned⟩ := given
      cases returned
    · obtain ⟨own, first, given⟩ := given.of_bind
      obtain ⟨later, rest, given⟩ := given.of_bind
      cases given.of_pure
      obtain ⟨here, placed⟩ := contribution_gives first
      obtain ⟨fewer, placed'⟩ := ih rest
      refine ⟨?_, fun c member => ?_⟩
      · rw [List.map_append]
        exact here.append fewer
      · rcases List.mem_append.mp member with here | later
        · obtain ⟨document, path⟩ := placed c here
          rw [path, document]
        · exact placed' c later

theorem sortByKey_gives {key : SortKey} (given : (q.sortByKey key candidates).Gives sorted) :
    (sorted.map Candidate.bare).Perm (candidates.map Candidate.bare) := by
  obtain ⟨table, after, returned⟩ := given
  obtain ⟨pairs, middle, run, same⟩ := q.keyed_ok key.path candidates table
  rw [sortByKey_on, run] at returned
  cases made : pass Prod.fst key.descending pairs with
  | error f => simp [made] at returned
  | ok sorted' =>
    simp only [made, Prod.mk.injEq, Except.ok.injEq] at returned
    have permuted := (pass_perm made).map fun p => p.2.bare
    rw [← returned.1, ← same, List.map_map]
    exact permuted

/-- A sort puts the candidates in another order and nothing else. -/
theorem sortBy_gives {keys : List SortKey} (given : (q.sortBy keys candidates).Gives sorted) :
    (sorted.map Candidate.bare).Perm (candidates.map Candidate.bare) := by
  induction keys generalizing sorted with
  | nil =>
    cases given.of_pure
    exact .refl _
  | cons key keys ih =>
    obtain ⟨middle, before, last⟩ := given.of_bind
    exact (sortByKey_gives last).trans (ih before)

theorem present_gives {document : ResultDocument} (given : (q.present? c).Gives document) :
    document.unread = c.unread := by
  obtain ⟨table, after, returned⟩ := given
  obtain ⟨entries, middle, -, run⟩ := c.entries_runs q table
  cases wanted : q.columns? with
  | none =>
    simp only [present?, ExceptT.on_bind, run, wanted, ExceptT.on_pure, Prod.mk.injEq,
      Except.ok.injEq] at returned
    obtain ⟨rfl, _⟩ := returned
    simp only [ResultDocument.unread, Candidate.unread]
  | some columns =>
    obtain ⟨shown, last, run'⟩ :=
      q.project_returns columns { c with cyclic := middle.cyclic } middle.table
    simp only [present?, ExceptT.on_bind, run, wanted, run', ExceptT.on_pure, Prod.mk.injEq,
      Except.ok.injEq] at returned
    obtain ⟨rfl, _⟩ := returned
    simp only [ResultDocument.unread, Candidate.unread]

theorem presentAll_gives {documents : List ResultDocument}
    (given : (q.presentAll candidates).Gives documents) :
    documents.map ResultDocument.unread = candidates.map Candidate.unread := by
  induction candidates generalizing documents with
  | nil =>
    cases given.of_pure
    rfl
  | cons c candidates ih =>
    obtain ⟨first, here, given⟩ := given.of_bind
    obtain ⟨others, later, given⟩ := given.of_bind
    cases given.of_pure
    rw [List.map_cons, List.map_cons, present_gives here, ih later]

theorem apart_of_bare (apart : (candidates.map fun c => c.context.path).Nodup)
    (same : (sorted.map Candidate.bare).Perm (candidates.map Candidate.bare)) :
    (sorted.map fun c => c.context.path).Nodup := by
  have paths := same.map fun c => c.context.path
  simp only [List.map_map] at paths
  exact paths.nodup_iff.mpr apart

theorem placed_of_bare (placed : ∀ c ∈ candidates, c.context.path = c.document.path)
    (same : (sorted.map Candidate.bare).Perm (candidates.map Candidate.bare)) :
    ∀ c ∈ sorted, c.context.path = c.document.path := by
  intro c member
  obtain ⟨c', member', equal⟩ := List.mem_map.mp (same.mem_iff.mp (List.mem_map_of_mem member))
  have path : c'.context.path = c.context.path := congrArg (fun c => c.context.path) equal
  have document : c'.document.path = c.document.path := congrArg (fun c => c.document.path) equal
  rw [← path, ← document, placed c' member']

theorem finish_gives {selection : Selection} {result : ResultSet}
    (given : (q.finish selection).Gives result) :
    ∃ sorted, (q.sortBy q.order selection.matched).Gives sorted ∧
      (q.presentAll (page q.options.paging? (q.limited sorted)).1).Gives result.documents := by
  obtain ⟨sorted, sorts, given⟩ := given.of_bind
  obtain ⟨documents, shows, given⟩ := given.of_bind
  cases given.of_pure
  exact ⟨sorted, sorts, shows⟩

theorem run_gives {cancelAfter : Option Nat} {result : ResultSet}
    (given : (q.run source cancelAfter).Gives result) :
    ∃ documents, source.documents = .ok documents ∧ ∃ selection,
      (q.select source cancelAfter documents.length 0 0 documents).Gives selection ∧
      (q.finish selection).Gives result := by
  unfold run runUnless at given
  cases listed : source.documents with
  | error e =>
    obtain ⟨table, after, returned⟩ := given
    simp only [listed] at returned
    cases returned
  | ok documents =>
    simp only [listed] at given
    exact ⟨documents, rfl, given.of_bind⟩

/-- No path occurs twice in a result. -/
theorem run_apart
    (apart : ∀ documents, source.documents = .ok documents → (documents.map Document.path).Nodup)
    {cancelAfter : Option Nat} {result : ResultSet} (given : (q.run source cancelAfter).Gives result) :
    (result.documents.map ResultDocument.path).Nodup := by
  obtain ⟨documents, listed, selection, selected, given⟩ := run_gives given
  obtain ⟨sorted, sorts, shows⟩ := finish_gives given
  have fewer := (select_gives selected).1.map Document.path
  have permuted := (sortBy_gives sorts).map fun c => c.document.path
  have shown := congrArg (List.map ResultDocument.path) (presentAll_gives shows)
  simp only [List.map_map] at fewer permuted shown
  have whole : (sorted.map fun c => c.document.path).Nodup :=
    permuted.nodup_iff.mpr ((apart documents listed).sublist fewer)
  have part := (q.page_sublist sorted).map fun c => c.document.path
  exact (shown ▸ whole.sublist part :)

end Given

end Query

end NoteQuery
