import NoteQuery.Proofs.Query.Alike
import NoteQuery.Proofs.Query.Locality

/-! Pages of a result. A run for one page selects and sorts as a run without pages does, and then shows a
slice of what that run shows. What is kept of the notes on other pages has no part in it. So the pages
put together are the whole, each knows whether another follows, and all count the same. -/
namespace NoteQuery

section Slices

variable {α : Type} (items : List α) (width : Nat)

/-- The items on a page, with the pages counted from zero. -/
def onPage (i : Nat) : List α := (items.drop (i * width)).take width

theorem flatMap_onPage (count : Nat) :
    (List.range count).flatMap (onPage items width) = items.take (count * width) := by
  induction count with
  | zero => simp
  | succ count ih =>
    have further : items.take ((count + 1) * width) =
        items.take (count * width) ++ onPage items width count := by
      rw [Nat.add_mul, Nat.one_mul, List.take_add]
      rfl
    rw [List.range_succ, List.flatMap_append, ih, List.flatMap_singleton, further]

theorem onPage_map {β : Type} (f : α → β) (i : Nat) :
    onPage (items.map f) width i = (onPage items width i).map f := by
  rw [onPage, onPage, List.map_take, List.map_drop]

theorem onPage_eq_nil_iff (pos : 1 ≤ width) (i : Nat) :
    onPage items width i = [] ↔ items.length ≤ i * width := by
  rw [onPage, List.take_eq_nil_iff, List.drop_eq_nil_iff]
  exact or_iff_right (Nat.ne_of_gt pos)

variable {items width}

/-- An item on an earlier page is on no later one. -/
theorem onPage_disjoint (apart : items.Nodup) {i j : Nat} (earlier : i < j) :
    (onPage items width i).Disjoint (onPage items width j) := by
  have split : (items.take (j * width)).Disjoint (items.drop (j * width)) :=
    List.disjoint_take_drop apart le_rfl
  have bound : i * width + width ≤ j * width :=
    calc i * width + width = (i + 1) * width := (Nat.succ_mul i width).symm
      _ ≤ j * width := Nat.mul_le_mul_right width earlier
  intro a here there
  refine split ?_ (List.mem_of_mem_take there)
  rw [onPage, List.take_drop] at here
  have before : a ∈ items.take (i * width + width) := List.mem_of_mem_drop here
  exact (List.take_subset_take_left items bound) before

end Slices

namespace Options

/-- The options with a page of the result, counted from zero here. Without a size of its own a page has
the default one. -/
def onPage (o : Options) (i : Nat) (size : Option Nat) (pos : ∀ n ∈ size, 1 ≤ n) : Options :=
  { o with page := some (i + 1), pageSize := size, page_pos := by simp, pageSize_pos := pos }

def width (size : Option Nat) : Nat := size.getD defaultPageSize

variable {o : Options} {i : Nat} {size : Option Nat} {pos : ∀ n ∈ size, 1 ≤ n}

theorem paging?_onPage : (o.onPage i size pos).paging? = some (i + 1, width size) := by
  simp [paging?, onPage, width]

theorem width_pos (pos : ∀ n ∈ size, 1 ≤ n) : 1 ≤ width size := by
  cases size with
  | none => decide
  | some n => exact pos n rfl

end Options

namespace ResultSet

/-- The result is one page of the whole. -/
structure IsPage (whole : ResultSet) (width i : Nat) (page : ResultSet) : Prop where
  unread : page.documents.map ResultDocument.unread =
    onPage (whole.documents.map ResultDocument.unread) width i
  documents : (whole.documents.map ResultDocument.path).Nodup →
    page.documents = onPage whole.documents width i
  hasMore : page.hasMore = decide ((i + 1) * width < whole.documents.length)
  total : page.total = whole.total
  skipped : page.skipped = whole.skipped

/-- Pages that part a result among them. -/
structure Pages (whole : ResultSet) (width : Nat) (pages : Nat → ResultSet) : Prop where
  /-- As many pages as have room for all tell of the notes of the whole in their order. -/
  unread : ∀ count, whole.documents.length ≤ count * width →
    ((List.range count).flatMap fun i => (pages i).documents.map ResultDocument.unread) =
      whole.documents.map ResultDocument.unread
  /-- With one note at each path they are the whole, -/
  documents : (whole.documents.map ResultDocument.path).Nodup →
    ∀ count, whole.documents.length ≤ count * width →
      ((List.range count).flatMap fun i => (pages i).documents) = whole.documents
  /-- and no note is on two pages. -/
  apart : (whole.documents.map ResultDocument.path).Nodup → ∀ i j, i ≠ j →
    ((pages i).documents.map ResultDocument.path).Disjoint
      ((pages j).documents.map ResultDocument.path)
  more : ∀ i, (pages i).hasMore = true ↔ (pages (i + 1)).documents ≠ []
  past : ∀ i, whole.documents.length ≤ i * width →
    (pages i).documents = [] ∧ (pages i).hasMore = false
  total : ∀ i, (pages i).total = whole.total
  skipped : ∀ i, (pages i).skipped = whole.skipped

variable {whole : ResultSet} {width i : Nat} {page : ResultSet}

theorem IsPage.paths (isPage : whole.IsPage width i page) :
    page.documents.map ResultDocument.path =
      onPage (whole.documents.map ResultDocument.path) width i := by
  have paths := congrArg (List.map ResultDocument.path) isPage.unread
  rw [← onPage_map, List.map_map, List.map_map] at paths
  exact paths

theorem IsPage.empty_iff (pos : 1 ≤ width) (isPage : whole.IsPage width i page) :
    page.documents = [] ↔ whole.documents.length ≤ i * width := by
  have empty := onPage_eq_nil_iff (whole.documents.map ResultDocument.path) width pos i
  rwa [← isPage.paths, List.map_eq_nil_iff, List.length_map] at empty

theorem Pages.of_each (pos : 1 ≤ width) {pages : Nat → ResultSet}
    (each : ∀ i, whole.IsPage width i (pages i)) : whole.Pages width pages where
  unread count room := by
    rw [List.flatMap_congr fun i _ => (each i).unread, flatMap_onPage, List.take_of_length_le]
    rwa [List.length_map]
  documents apart count room := by
    rw [List.flatMap_congr fun i _ => (each i).documents apart, flatMap_onPage,
      List.take_of_length_le room]
  apart apart i j other := by
    rw [(each i).paths, (each j).paths]
    rcases Nat.lt_or_gt_of_ne other with earlier | later
    · exact onPage_disjoint apart earlier
    · exact (onPage_disjoint apart later).symm
  more i := by
    rw [(each i).hasMore, decide_eq_true_iff, ← Nat.not_le, ← (each (i + 1)).empty_iff pos]
  past i done := by
    refine ⟨((each i).empty_iff pos).mpr done, ?_⟩
    have further : i * width ≤ (i + 1) * width := Nat.mul_le_mul_right width (Nat.le_succ i)
    rw [(each i).hasMore, decide_eq_false_iff_not, Nat.not_lt]
    exact done.trans further
  total i := (each i).total
  skipped i := (each i).skipped

end ResultSet

namespace Query

variable {q q' : Query} {table : FormulaTable}

/-- What is shown of some candidates that stand on a page is the page of what is shown of all. -/
theorem presentAll_onPage {candidates : List Candidate} {width i : Nat}
    {documents shown : List ResultDocument} {last last' : FormulaTable}
    (placed : ∀ c ∈ candidates, c.context.path = c.document.path)
    (shows : (q.presentAll candidates).on table = (.ok documents, last))
    (shows' : (q.presentAll (onPage candidates width i)).on table = (.ok shown, last')) :
    shown.map ResultDocument.unread = onPage (documents.map ResultDocument.unread) width i ∧
      ((documents.map ResultDocument.path).Nodup → shown = onPage documents width i) := by
  have unread := presentAll_gives ⟨_, _, shows⟩
  have unread' := presentAll_gives ⟨_, _, shows'⟩
  refine ⟨by rw [unread, unread', onPage_map], fun apart => ?_⟩
  have paths := congrArg (List.map ResultDocument.path) unread
  simp only [List.map_map] at paths
  have apart' : (candidates.map fun c => c.context.path).Nodup := by
    rw [List.map_congr_left placed]
    exact (paths ▸ apart :)
  have part : (onPage candidates width i).Sublist candidates :=
    (List.take_sublist _ _).trans (List.drop_sublist _ _)
  have each := presentAll_each apart' shows
  have each' := presentAll_each (apart'.sublist (part.map _)) shows'
  rw [← onPage_map, ← each, onPage_map] at each'
  exact List.map_injective_iff.mpr (fun _ _ => Except.ok.inj) each'

/-- The end of a run for a page shows a page of what the end of a run without pages shows. -/
theorem finish_page (alike : Alike q q') (whole : q.options.paging? = none) {i width : Nat}
    (paging : q'.options.paging? = some (i + 1, width)) {selection : Selection}
    (placed : ∀ c ∈ selection.matched, c.context.path = c.document.path) {result : ResultSet}
    {after : FormulaTable} (returned : (q.finish selection).on table = (.ok result, after)) :
    ∃ page after', (q'.finish selection).on table = (.ok page, after') ∧
      result.IsPage width i page := by
  rw [finish_on] at returned
  -- Both sort alike, and each shows its candidates from the table that the sort leaves.
  rcases sorts : (q.sortBy q.order selection.matched).on table with ⟨_ | sorted, middle⟩
  · simp [sorts] at returned
  · obtain ⟨documents, last, shows⟩ := q.presentAll_returns (q.limited sorted) middle
    obtain ⟨shown, last', shows'⟩ := q.presentAll_returns (onPage (q.limited sorted) width i) middle
    simp only [sorts, whole, page, shows, Prod.map, Except.map] at returned
    cases returned
    have placed' : ∀ c ∈ q.limited sorted, c.context.path = c.document.path := by
      have inside := q.page_sublist sorted
      rw [whole] at inside
      exact fun c member => placed_of_bare placed (sortBy_gives ⟨_, _, sorts⟩) c (inside.subset member)
    obtain ⟨unread, slice⟩ := presentAll_onPage placed' shows shows'
    have count : documents.length = (q.limited sorted).length := by
      have lengths := congrArg List.length (presentAll_gives ⟨_, _, shows⟩)
      rwa [List.length_map, List.length_map] at lengths
    have finished : (q'.finish selection).on table = (.ok {
        documents := shown
        total := selection.matched.length
        view := q.view
        paging := some (i + 1, width)
        hasMore := i * width + width < (q.limited sorted).length
        skipped := selection.skipped }, last') := by
      rw [finish_on, alike.order, alike.sortBy, sorts]
      simp only [alike.limited, alike.presentAll, alike.view, paging, page, Nat.add_sub_cancel]
      rw [← onPage, shows']
      rfl
    refine ⟨_, last', finished, unread, slice, ?_, rfl, rfl⟩
    rw [count, Nat.succ_mul]

theorem run_page (alike : Alike q q') (whole : q.options.paging? = none) {i width : Nat}
    (paging : q'.options.paging? = some (i + 1, width)) {source : Source} {cancelAfter : Option Nat}
    {result : ResultSet} (returned : ((q.run source cancelAfter).on table).1 = .ok result) :
    ∃ page, ((q'.run source cancelAfter).on table).1 = .ok page ∧ result.IsPage width i page := by
  rw [run_on] at returned ⊢
  cases listed : source.documents with
  | error e => simp [listed] at returned
  | ok documents =>
    simp only [listed] at returned ⊢
    rw [alike.select]
    rcases selects : (q.select source cancelAfter documents.length 0 0 documents).on table with
      ⟨_ | selection, middle⟩
    · simp [selects] at returned
    · simp only [selects] at returned ⊢
      have placed := (select_gives ⟨_, _, selects⟩).2
      obtain ⟨page, after, run, isPage⟩ :=
        finish_page alike whole paging placed (Prod.ext returned rfl)
      exact ⟨page, congrArg Prod.fst run, isPage⟩

end Query

namespace Definition

section Sample

end Sample

end Definition

end NoteQuery
