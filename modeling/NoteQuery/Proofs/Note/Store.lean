import NoteQuery.Note.Store
import NoteQuery.Proofs.Value.Entries

/-! A store whose notes change. Every document stays under its own path and no path is listed twice, and
a change at one path leaves what is kept for the others. -/
namespace NoteQuery

/-- A change of the notes in a store. -/
inductive Change where
  | add (note : StoredNote)
  | remove (path : String)

namespace Change

def path : Change → String
  | add note => note.document.path
  | remove path => path

def apply : Change → Store → Store
  | add note, s => s.add note
  | remove path, s => s.remove path

end Change

namespace Store

/-- Every document is kept under its own path, and no path twice. -/
structure Filed (s : Store) : Prop where
  own : ∀ entry ∈ s.listed, entry.2.path = entry.1
  once : (s.listed.map Prod.fst).Nodup

variable {s : Store}

theorem Filed.empty : Store.empty.Filed := ⟨by simp [Store.empty], by simp [Store.empty]⟩

theorem Filed.change (filed : s.Filed) (change : Change) : (change.apply s).Filed := by
  cases change with
  | add note =>
    refine ⟨fun entry member => ?_, Entries.put_once filed.once⟩
    rcases Entries.mem_put member with rfl | member
    · rfl
    · exact filed.own entry member
  | remove path =>
    exact ⟨fun entry member => filed.own entry (List.mem_of_mem_filter member),
      filed.once.sublist (List.filter_sublist.map _)⟩

theorem Filed.paths (filed : s.Filed) : s.documents.map Document.path = s.listed.map Prod.fst := by
  rw [documents, List.map_map]
  exact List.map_congr_left filed.own

theorem Filed.apart (filed : s.Filed) (documents : List Document)
    (listed : s.source.documents = .ok documents) : (documents.map Document.path).Nodup := by
  cases listed
  exact filed.paths ▸ filed.once

/-- A note at another path than that of the change was there before. -/
theorem documents_change (change : Change) {d : Document}
    (member : d ∈ (change.apply s).documents) (other : d.path ≠ change.path) : d ∈ s.documents := by
  obtain ⟨entry, inside, rfl⟩ := List.mem_map.mp member
  refine List.mem_map.mpr ⟨entry, ?_, rfl⟩
  cases change with
  | add note =>
    rcases Entries.mem_put inside with rfl | inside
    · exact absurd rfl other
    · exact inside
  | remove path => exact List.mem_of_mem_filter inside

theorem metadata_change (change : Change) {path : String} (other : path ≠ change.path) :
    (change.apply s).metadata path = s.metadata path := by
  cases change with
  | add note =>
    simp only [Change.apply, metadata, add]
    cases note.metadata with
    | none => exact (Entries.lookup_drop ..).trans (if_neg other)
    | some m => exact (Entries.lookup_put ..).trans (if_neg other)
  | remove dropped => exact (Entries.lookup_drop ..).trans (if_neg other)

end Store

end NoteQuery
