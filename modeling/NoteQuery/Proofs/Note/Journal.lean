import Mathlib.Data.List.Induction
import NoteQuery.Proofs.Note.Store

/-! What a store in memory tells is what was done with it. A journal holds all additions and removals,
the oldest first. The last of them at a path says whether a note is kept there and which one, and notes
are listed in the order in which their paths began to be kept. -/
namespace NoteQuery

/-- All that is given when a note is added. -/
structure Addition where
  path : String
  content : String
  size : Option Nat
  created : Option Moment
  modified : Option Moment
  properties : Entries
  tags : Option (List String)
  links : Option (List String)

namespace Addition

def note (a : Addition) : StoredNote :=
  .ofContent a.path a.content a.size a.created a.modified a.properties a.tags a.links

def document (a : Addition) : Document where
  path := a.path
  size := a.size.getD a.content.utf8ByteSize
  created := a.created
  modified := a.modified
  properties := a.properties

def metadata (a : Addition) : Option Metadata :=
  if a.tags = none ∧ a.links = none then none else some ⟨a.tags.getD [], a.links.getD []⟩

theorem note_metadata (a : Addition) : a.note.metadata = a.metadata := by
  simp [note, StoredNote.ofContent, metadata]

end Addition

inductive Operation where
  | add (a : Addition)
  | remove (path : String)

namespace Operation

def path : Operation → String
  | add a => a.path
  | remove path => path

def change : Operation → Change
  | add a => .add a.note
  | remove path => .remove path

def addition? : Operation → Option Addition
  | add a => some a
  | remove _ => none

theorem add_ne_remove {a : Addition} {path : String} : add a ≠ remove path := Operation.noConfusion

theorem remove_ne_remove {path other : String} (apart : other ≠ path) : remove path ≠ remove other :=
  fun same => apart (remove.inj same).symm

end Operation

section Journal

/-- The last that was done at the path, if it was an addition. -/
def latest (journal : List Operation) (path : String) : Option Addition :=
  (journal.reverse.find? fun op => op.path == path).bind Operation.addition?

/-- From this place of the journal on a note is kept at the path, where none was kept before. -/
def OpensAt (journal : List Operation) (path : String) (place : Nat) : Prop :=
  ∃ before a after, journal = before ++ .add a :: after ∧ before.length = place ∧
    a.path = path ∧ latest before path = none ∧ .remove path ∉ after

/-- The path is kept since an earlier place than the other. -/
def Opens (journal : List Operation) (path later : String) : Prop :=
  ∃ i j, OpensAt journal path i ∧ OpensAt journal later j ∧ i < j

variable {journal : List Operation} {op : Operation} {a : Addition} {path later : String}

theorem latest_append (journal : List Operation) (op : Operation) (path : String) :
    latest (journal ++ [op]) path =
      if path = op.path then op.addition? else latest journal path := by
  rw [latest, List.reverse_append, List.reverse_singleton, List.singleton_append, List.find?_cons]
  by_cases here : op.path = path
  · simp [here]
  · simp [beq_false_of_ne here, Ne.symm here, latest]

theorem OpensAt.lt {place : Nat} (opens : OpensAt journal path place) : place < journal.length := by
  obtain ⟨before, a, after, rfl, rfl, _⟩ := opens
  simp

theorem OpensAt.append {place : Nat} (opens : OpensAt journal path place)
    (kept : op ≠ .remove path) : OpensAt (journal ++ [op]) path place := by
  obtain ⟨before, a, after, rfl, length, here, absent, whole⟩ := opens
  refine ⟨before, a, after ++ [op], by simp, length, here, absent, ?_⟩
  simpa [whole] using Ne.symm kept

theorem opensAt_new (absent : latest journal a.path = none) :
    OpensAt (journal ++ [.add a]) a.path journal.length :=
  ⟨journal, a, [], rfl, rfl, rfl, absent, List.not_mem_nil⟩

theorem Opens.append (opens : Opens journal path later) (kept : op ≠ .remove path)
    (kept' : op ≠ .remove later) : Opens (journal ++ [op]) path later := by
  obtain ⟨i, j, first, second, before⟩ := opens
  exact ⟨i, j, first.append kept, second.append kept', before⟩

end Journal

namespace Store

/-- The store after all that the journal holds. -/
def ofJournal (journal : List Operation) : Store :=
  journal.foldl (fun s op => op.change.apply s) .empty

/-- The invariant of a store: its maps agree with the journal and with each other. -/
structure Mirrors (s : Store) (journal : List Operation) : Prop where
  filed : s.Filed
  keys : s.contents.map Prod.fst = s.listed.map Prod.fst
  listed : ∀ path, s.listed.lookup path = (latest journal path).map Addition.document
  contents : ∀ path, s.contents.lookup path = (latest journal path).map Addition.content
  known : ∀ path, s.known.lookup path = (latest journal path).bind Addition.metadata
  opened : ∀ path ∈ s.listed.map Prod.fst, ∃ place, OpensAt journal path place
  order : (s.listed.map Prod.fst).Pairwise (Opens journal)

variable {s : Store} {journal : List Operation}

theorem Mirrors.empty : Store.empty.Mirrors [] where
  filed := .empty
  keys := rfl
  listed _ := rfl
  contents _ := rfl
  known _ := rfl
  opened := by simp [Store.empty]
  order := by simp [Store.empty]

theorem Mirrors.mem_iff (mirrors : s.Mirrors journal) (path : String) :
    path ∈ s.listed.map Prod.fst ↔ (latest journal path).isSome = true := by
  rw [← lookup_isSome_iff, mirrors.listed, Option.isSome_map]

theorem Mirrors.latest_eq_none (mirrors : s.Mirrors journal) {path : String}
    (absent : path ∉ s.listed.map Prod.fst) : latest journal path = none := by
  rwa [mirrors.mem_iff, Bool.not_eq_true, Option.isSome_eq_false_iff, Option.isNone_iff_eq_none] at absent

theorem keys_add (s : Store) (a : Addition) : (s.add a.note).listed.map Prod.fst =
    if a.path ∈ s.listed.map Prod.fst then s.listed.map Prod.fst
    else s.listed.map Prod.fst ++ [a.path] :=
  Entries.keys_put ..

theorem keys_remove (s : Store) (path : String) :
    (s.remove path).listed.map Prod.fst = (s.listed.map Prod.fst).filter (· != path) :=
  Entries.keys_drop ..

theorem Mirrors.add (mirrors : s.Mirrors journal) (a : Addition) :
    (s.add a.note).Mirrors (journal ++ [.add a]) where
  filed := mirrors.filed.change (.add a.note)
  keys := by simp only [Store.add, Entries.keys_put, mirrors.keys]
  listed path := by
    rw [latest_append, apply_ite (Option.map Addition.document), ← mirrors.listed]
    exact Entries.lookup_put ..
  contents path := by
    rw [latest_append, apply_ite (Option.map Addition.content), ← mirrors.contents]
    exact Entries.lookup_put ..
  known path := by
    rw [latest_append, apply_ite (Option.bind · Addition.metadata), ← mirrors.known]
    simp only [Store.add, a.note_metadata, Operation.addition?, Option.bind_some]
    cases a.metadata with
    | none => exact Entries.lookup_drop ..
    | some m => exact Entries.lookup_put ..
  opened path member := by
    rw [keys_add] at member
    split at member
    · exact (mirrors.opened path member).imp fun _ opens => opens.append Operation.add_ne_remove
    · rename_i absent
      rcases List.mem_append.mp member with kept | new
      · exact (mirrors.opened path kept).imp fun _ opens => opens.append Operation.add_ne_remove
      · rw [List.mem_singleton.mp new]
        exact ⟨_, opensAt_new (mirrors.latest_eq_none absent)⟩
  order := by
    have still : (s.listed.map Prod.fst).Pairwise (Opens (journal ++ [.add a])) :=
      mirrors.order.imp fun opens => opens.append Operation.add_ne_remove Operation.add_ne_remove
    rw [keys_add]
    split
    · exact still
    · -- A path that was not kept is listed last, and all others were kept before it.
      rename_i absent
      refine List.pairwise_append.mpr ⟨still, List.pairwise_singleton .., fun path kept new member => ?_⟩
      obtain ⟨place, opens⟩ := mirrors.opened path kept
      rw [List.mem_singleton.mp member]
      exact ⟨place, journal.length, opens.append Operation.add_ne_remove,
        opensAt_new (mirrors.latest_eq_none absent), opens.lt⟩

theorem Mirrors.remove (mirrors : s.Mirrors journal) (path : String) :
    (s.remove path).Mirrors (journal ++ [.remove path]) where
  filed := mirrors.filed.change (.remove path)
  keys := by simp only [Store.remove, Entries.keys_drop, mirrors.keys]
  listed other := by
    rw [latest_append, apply_ite (Option.map Addition.document), ← mirrors.listed]
    exact Entries.lookup_drop ..
  contents other := by
    rw [latest_append, apply_ite (Option.map Addition.content), ← mirrors.contents]
    exact Entries.lookup_drop ..
  known other := by
    rw [latest_append, apply_ite (Option.bind · Addition.metadata), ← mirrors.known]
    exact Entries.lookup_drop ..
  opened other member := by
    rw [keys_remove, List.mem_filter, bne_iff_ne] at member
    exact (mirrors.opened other member.1).imp fun _ opens =>
      opens.append (Operation.remove_ne_remove member.2)
  order := by
    rw [keys_remove]
    refine (mirrors.order.filter _).imp_of_mem fun first second opens => ?_
    rw [List.mem_filter, bne_iff_ne] at first second
    exact opens.append (Operation.remove_ne_remove first.2) (Operation.remove_ne_remove second.2)

theorem ofJournal_mirrors (journal : List Operation) : (ofJournal journal).Mirrors journal := by
  induction journal using List.reverseRecOn with
  | nil => exact .empty
  | append_singleton journal op ih =>
    rw [ofJournal, List.foldl_append]
    cases op with
    | add a => exact ih.add a
    | remove path => exact ih.remove path

/-- What is asked of a store is answered from its journal. -/
structure Answers (s : Store) (journal : List Operation) : Prop where
  /-- The paths with a document are those with a content. -/
  together : ∀ path, path ∈ s.listed.map Prod.fst ↔ path ∈ s.contents.map Prod.fst
  /-- Every path with metadata has a document. -/
  within : ∀ path ∈ s.known.map Prod.fst, path ∈ s.listed.map Prod.fst
  /-- Listed is what the latest addition at each path has given. -/
  documents : ∀ d, d ∈ s.documents ↔ ∃ a, latest journal d.path = some a ∧ d = a.document
  once : (s.documents.map Document.path).Nodup
  order : (s.documents.map Document.path).Pairwise (Opens journal)
  read : ∀ path, s.read path = match latest journal path with
    | some a => .ok a.content
    | none => .error (.notFound path)
  metadata : ∀ path, s.metadata path = match latest journal path with
    | some a => if a.tags = none ∧ a.links = none then none else some ⟨a.tags.getD [], a.links.getD []⟩
    | none => none

theorem Mirrors.mem_documents (mirrors : s.Mirrors journal) (d : Document) :
    d ∈ s.documents ↔ ∃ a, latest journal d.path = some a ∧ d = a.document := by
  have found : s.listed.lookup d.path = some d ↔ ∃ a, latest journal d.path = some a ∧ d = a.document := by
    rw [mirrors.listed, Option.map_eq_some_iff]
    simp only [eq_comm]
  rw [← found, Entries.lookup_eq_some_iff mirrors.filed.once, documents, List.mem_map]
  constructor
  · rintro ⟨entry, member, rfl⟩
    rwa [mirrors.filed.own entry member]
  · intro member
    exact ⟨_, member, rfl⟩

theorem ofJournal_answers (journal : List Operation) : (ofJournal journal).Answers journal := by
  have mirrors := ofJournal_mirrors journal
  have paths := mirrors.filed.paths
  refine ⟨fun path => ?_, fun path member => ?_, mirrors.mem_documents, ?_, ?_, fun path => ?_,
    fun path => ?_⟩
  · rw [mirrors.keys]
  · rw [← lookup_isSome_iff, mirrors.known] at member
    rw [mirrors.mem_iff]
    cases found : latest journal path with
    | none => simp [found] at member
    | some a => rfl
  · rw [paths]
    exact mirrors.filed.once
  · rw [paths]
    exact mirrors.order
  · rw [Store.read, mirrors.contents]
    cases latest journal path <;> rfl
  · rw [Store.metadata, mirrors.known]
    cases latest journal path <;> rfl

end Store

end NoteQuery
