import NoteQuery.Proofs.Query.Column

/-! The sort of a run. Reading a value for a key may change what is known of the formulas, so the
values by which a list was sorted are those that its passes have read. Here every candidate carries
them, and its place in the list from which the sort began. -/
namespace NoteQuery

/-- A candidate in a sort: where it stood at first, and the values read of it, latest first. -/
structure Row where
  place : Nat
  values : List Value
  candidate : Candidate

namespace Row

def read (row : Row) (found : Value × Candidate) : Value × Row :=
  (found.1, { row with candidate := found.2 })

def noted (found : Value × Row) : Row := { found.2 with values := found.1 :: found.2.values }

def mark (row : Row) : Nat × List Value × Candidate := (row.place, row.values, row.candidate.bare)

theorem read_all {rows : List Row} {pairs : List (Value × Candidate)}
    (same : pairs.map (fun p => p.2.bare) = rows.map fun row => row.candidate.bare) :
    (List.zipWith read rows pairs).map (fun p => (p.1, p.2.candidate)) = pairs ∧
      (List.zipWith read rows pairs).map (fun p => p.2.mark) = rows.map mark := by
  induction rows generalizing pairs with
  | nil =>
    rw [List.map_nil, List.map_eq_nil_iff] at same
    simp [same]
  | cons row rows ih =>
    cases pairs with
    | nil => simp at same
    | cons p pairs =>
      rw [List.map_cons, List.map_cons, List.cons.injEq] at same
      obtain ⟨found, kept⟩ := ih same.2
      simp only [List.zipWith_cons_cons, List.map_cons, found, kept]
      refine ⟨rfl, ?_⟩
      simp only [mark, read, same.1]

end Row

namespace Query

/-- As `sortByKey`, with the values noted. -/
def trackByKey (q : Query) (key : SortKey) (rows : List Row) : Run (List Row) := do
  let pairs ← q.keyed key.path (rows.map Row.candidate)
  match pass Prod.fst key.descending (List.zipWith Row.read rows pairs) with
  | .ok sorted => pure (sorted.map Row.noted)
  | .error f => throw (.failed (.fault f))

/-- As `sortBy`, with the values noted, those of the first key first. -/
def track (q : Query) : List SortKey → List Row → Run (List Row)
  | [], rows => pure rows
  | key :: keys, rows => do
    let sorted ← track q keys rows
    q.trackByKey key sorted

def begin (candidates : List Candidate) : List Row :=
  candidates.zipIdx.map fun p => ⟨p.2, [], p.1⟩

/-- The values other than null that a key takes on the candidates, when its turn comes after the
later keys, are orderly. -/
def KeyOrderly (q : Query) (candidates : List Candidate) (table : FormulaTable) (key : SortKey)
    (later : List SortKey) : Prop :=
  ∀ sorted middle pairs after, (q.sortBy later candidates).on table = (.ok sorted, middle) →
    (q.keyed key.path sorted).on middle = (.ok pairs, after) →
    Value.Orderly fun v => v ∈ pairs.map Prod.fst ∧ v.isNull = false

variable {q : Query}

theorem trackByKey_on (key : SortKey) (rows : List Row) (table : FormulaTable) :
    (q.trackByKey key rows).on table =
      match (q.keyed key.path (rows.map Row.candidate)).on table with
      | (.ok pairs, after) =>
        match pass Prod.fst key.descending (List.zipWith Row.read rows pairs) with
        | .ok sorted => (.ok (sorted.map Row.noted), after)
        | .error f => (.error (.failed (.fault f)), after)
      | (.error e, after) => (.error e, after) := by
  unfold trackByKey
  rw [ExceptT.on_bind]
  rcases (q.keyed key.path (rows.map Row.candidate)).on table with ⟨_ | pairs, after⟩
  · rfl
  · simp only
    cases pass Prod.fst key.descending (List.zipWith Row.read rows pairs) <;> rfl

theorem trackByKey_sorts (key : SortKey) (rows : List Row) (table : FormulaTable) :
    (q.sortByKey key (rows.map Row.candidate)).on table =
      Prod.map (Except.map (List.map Row.candidate)) id ((q.trackByKey key rows).on table) := by
  obtain ⟨pairs, after, reads, same⟩ := q.keyed_ok key.path (rows.map Row.candidate) table
  rw [List.map_map] at same
  rw [sortByKey_on, trackByKey_on, reads]
  simp only
  conv_lhs => rw [← (Row.read_all same).1, pass_map]
  cases pass Prod.fst key.descending (List.zipWith Row.read rows pairs) with
  | error f => rfl
  | ok sorted =>
    simp only [Except.map, List.map_map, Prod.map_apply, id_eq]
    rfl

/-- Noting values does not change a sort. -/
theorem track_sorts (keys : List SortKey) (rows : List Row) (table : FormulaTable) :
    (q.sortBy keys (rows.map Row.candidate)).on table =
      Prod.map (Except.map (List.map Row.candidate)) id ((q.track keys rows).on table) := by
  induction keys with
  | nil => rfl
  | cons key keys ih =>
    rw [sortBy, track, ExceptT.on_bind, ExceptT.on_bind, ih]
    rcases (q.track keys rows).on table with ⟨_ | sorted, middle⟩
    · rfl
    · exact trackByKey_sorts key sorted middle

theorem begin_candidate (candidates : List Candidate) :
    (begin candidates).map Row.candidate = candidates := by
  rw [begin, List.map_map]
  exact List.zipIdx_map_fst 0 candidates

/-- Rows that are sorted by their values, and otherwise stand as they stood at first. -/
structure Sorted (keys : List SortKey) (candidates : List Candidate) (rows : List Row) : Prop where
  permuted : (rows.map fun row => (row.candidate.bare, row.place)).Perm
    (candidates.map Candidate.bare).zipIdx
  complete : ∀ row ∈ rows, row.values.length = keys.length
  ordered : rows.Pairwise fun a b => Lexicographic keys a.values b.values (a.place < b.place)

theorem sorted_begin (candidates : List Candidate) : Sorted [] candidates (begin candidates) := by
  refine ⟨?_, ?_, ?_⟩
  · rw [begin, List.map_map, List.zipIdx_map]
    exact .refl _
  · intro row member
    obtain ⟨p, _, rfl⟩ := List.mem_map.mp member
    rfl
  · rw [begin, List.pairwise_map]
    have places : ((candidates.zipIdx).map Prod.snd).Pairwise (· < ·) := by
      rw [List.zipIdx_map_snd]
      exact List.pairwise_lt_range'
    exact List.pairwise_map.mp places

theorem Sorted.step (key : SortKey) {keys : List SortKey} {candidates : List Candidate}
    {rows : List Row} {pairs : List (Value × Candidate)} (sorted : Sorted keys candidates rows)
    (same : pairs.map (fun p => p.2.bare) = rows.map fun row => row.candidate.bare)
    (orderly : Value.Orderly fun v => v ∈ pairs.map Prod.fst ∧ v.isNull = false) :
    ∃ result, pass Prod.fst key.descending (List.zipWith Row.read rows pairs) = .ok result ∧
      Sorted (key :: keys) candidates (result.map Row.noted) := by
  obtain ⟨found, kept⟩ := Row.read_all same
  have marks {α : Type} (f : Nat × List Value × Candidate → α) :
      (List.zipWith Row.read rows pairs).map (fun p => f p.2.mark) =
        rows.map fun row => f row.mark := by
    simpa only [List.map_map, Function.comp_def] using congrArg (List.map f) kept
  have inside : ∀ v, (∃ p ∈ List.zipWith Row.read rows pairs, p.1 = v ∧ v.isNull = false) →
      v ∈ pairs.map Prod.fst ∧ v.isNull = false := by
    rintro v ⟨p, member, rfl, present⟩
    refine ⟨?_, present⟩
    rw [← found, List.map_map]
    exact List.mem_map.mpr ⟨p, member, rfl⟩
  have tied : (List.zipWith Row.read rows pairs).Pairwise fun p p' =>
      Lexicographic keys p.2.values p'.2.values (p.2.place < p'.2.place) := by
    have marked := (List.pairwise_map (f := Row.mark)
      (R := fun m m' => Lexicographic keys m.2.1 m'.2.1 (m.1 < m'.1))).mpr sorted.ordered
    rw [← kept] at marked
    exact List.pairwise_map.mp marked
  obtain ⟨result, made, permuted, ordered⟩ :=
    pass_orderly key.descending (orderly.mono inside) tied
  refine ⟨result, made, ?_, ?_, List.pairwise_map.mpr ordered⟩
  · rw [List.map_map]
    have kept : (List.zipWith Row.read rows pairs).map (fun p => (p.2.candidate.bare, p.2.place)) =
        rows.map fun row => (row.candidate.bare, row.place) := marks fun m => (m.2.2, m.1)
    exact (permuted.map fun p => (p.2.candidate.bare, p.2.place)).trans (kept ▸ sorted.permuted)
  · intro row member
    obtain ⟨p, moved, rfl⟩ := List.mem_map.mp member
    have kept : (List.zipWith Row.read rows pairs).map (fun p => p.2.values.length) =
        rows.map fun row => row.values.length := marks fun m => m.2.1.length
    obtain ⟨row, member, length⟩ := List.mem_map.mp
      (kept ▸ List.mem_map.mpr ⟨p, permuted.mem_iff.mp moved, rfl⟩)
    simp only [Row.noted, List.length_cons, ← length, sorted.complete row member]

/-- A sort whose keys all take orderly values is the stable lexicographic sort by these values, with
nulls last on every key. -/
theorem sortBy_lexicographic (q : Query) (keys : List SortKey) (candidates : List Candidate)
    (table : FormulaTable)
    (orderly : ∀ key later, key :: later <:+ keys → q.KeyOrderly candidates table key later) :
    ∃ rows after, (q.track keys (begin candidates)).on table = (.ok rows, after) ∧
      (q.sortBy keys candidates).on table = (.ok (rows.map Row.candidate), after) ∧
      Sorted keys candidates rows := by
  induction keys with
  | nil =>
    refine ⟨begin candidates, table, rfl, ?_, sorted_begin candidates⟩
    rw [begin_candidate]
    rfl
  | cons key keys ih =>
    obtain ⟨rows, middle, tracked, returned, sorted⟩ := ih fun key' later inside =>
      orderly key' later (inside.trans (List.suffix_cons key keys))
    obtain ⟨pairs, after, reads, same⟩ := q.keyed_ok key.path (rows.map Row.candidate) middle
    rw [List.map_map] at same
    obtain ⟨result, made, sorted'⟩ := sorted.step key same
      (orderly key keys List.suffix_rfl _ middle pairs after returned reads)
    have tracked' : (q.track (key :: keys) (begin candidates)).on table =
        (.ok (result.map Row.noted), after) := by
      rw [track, ExceptT.on_bind, tracked]
      simp only [trackByKey_on, reads, made]
    refine ⟨_, after, tracked', ?_, sorted'⟩
    conv_lhs => rw [← begin_candidate candidates, track_sorts, tracked']
    rfl

section Sample

def bareQuery (options : Options) (present : Moment) : Query :=
  ⟨⟨none, [], [], []⟩, none, {}, options, present⟩

def bareNote (path : String) (entries : Entries) : Candidate where
  document := ⟨path, 0, none, none, entries⟩
  context := ⟨path, ⟨path, path, "", "md", 0, none, none, [], []⟩, entries, entries, none⟩
  cyclic := []

def noteA : Candidate := bareNote "a.md" [("n", .int 2)]

def noteB : Candidate := bareNote "b.md" []

def noteC : Candidate := bareNote "c.md" [("n", .int 2), ("m", .int 1)]

def noteD : Candidate := bareNote "d.md" [("n", .int 3)]

theorem sample_orderly (options : Options) (present : Moment) (key : SortKey)
    (later : List SortKey) (inside : key :: later <:+ [⟨"n", true⟩, ⟨"m", false⟩]) :
    (bareQuery options present).KeyOrderly [noteA, noteB, noteC, noteD] [] key later := by
  have compatible : Value.Compatible (· = .timestamp) := by
    constructor <;> simp
  have whole {vs : List Value} (inside : ∀ v ∈ vs, v.isNull = false → v.kind = .timestamp) :
      Value.Orderly fun v => v ∈ vs ∧ v.isNull = false :=
    compatible.orderly.mono fun v member => ⟨member.2, inside v member.1 member.2⟩
  intro sorted middle pairs after returned reads
  have keys : key = ⟨"n", true⟩ ∧ later = [⟨"m", false⟩] ∨ key = ⟨"m", false⟩ ∧ later = [] := by
    simpa [List.suffix_cons_iff] using inside
  obtain ⟨rfl, rfl⟩ | ⟨rfl, rfl⟩ := keys
  · have sorts : ((bareQuery options present).sortBy [⟨"m", false⟩] [noteA, noteB, noteC, noteD]).on [] =
        (.ok [noteC, noteA, noteB, noteD], []) := by cbv
    rw [sorts] at returned
    cases returned
    have found : ((bareQuery options present).keyed "n" [noteC, noteA, noteB, noteD]).on [] =
        (.ok [(.int 2, noteC), (.int 2, noteA), (.null, noteB), (.int 3, noteD)], []) := rfl
    rw [found] at reads
    cases reads
    exact whole (by decide +kernel)
  · cases returned
    have found : ((bareQuery options present).keyed "m" [noteA, noteB, noteC, noteD]).on [] =
        (.ok [(.null, noteA), (.null, noteB), (.int 1, noteC), (.null, noteD)], []) := rfl
    rw [found] at reads
    cases reads
    exact whole (by decide +kernel)

theorem sortBy_lexicographic_sample :
    (∀ key later, key :: later <:+ [⟨"n", true⟩, ⟨"m", false⟩] →
      (bareQuery {} (.startOf ⟨2024, 1, 1, by decide, by decide, by decide⟩)).KeyOrderly
        [noteA, noteB, noteC, noteD] [] key later) ∧
    ∃ rows after,
      ((bareQuery {} (.startOf ⟨2024, 1, 1, by decide, by decide, by decide⟩)).track
        [⟨"n", true⟩, ⟨"m", false⟩] (begin [noteA, noteB, noteC, noteD])).on [] =
          (.ok rows, after) ∧
      ((bareQuery {} (.startOf ⟨2024, 1, 1, by decide, by decide, by decide⟩)).sortBy
        [⟨"n", true⟩, ⟨"m", false⟩] [noteA, noteB, noteC, noteD]).on [] =
          (.ok (rows.map Row.candidate), after) ∧
      Sorted [⟨"n", true⟩, ⟨"m", false⟩] [noteA, noteB, noteC, noteD] rows :=
  ⟨sample_orderly _ _, sortBy_lexicographic _ [⟨"n", true⟩, ⟨"m", false⟩]
    [noteA, noteB, noteC, noteD] [] (sample_orderly _ _)⟩

end Sample

end Query

end NoteQuery
