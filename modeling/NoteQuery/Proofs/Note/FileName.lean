import NoteQuery.Note.Document
import NoteQuery.Proofs.Note.Folder

/-! Folder, name and extension of a file are the parts of its path. The extension stands behind the last dot
of the last component, where that dot has characters on both sides; the name is what stands in front of it, or
else the whole component. -/
namespace NoteQuery

open NoteQuery.Text

namespace Path

/-- The last dot of a name stands between these, and neither is empty. -/
structure PartsAtDot (name : String) (before after : List Char) : Prop where
  whole : name.toList = before ++ '.' :: after
  last : '.' ∉ after
  some_before : before ≠ []
  some_after : after ≠ []

/-- The text of a path out of its parts; an empty folder and an empty extension add no sign. -/
def ofParts (folder name extension : String) : String :=
  (if folder = "" then "" else folder ++ "/") ++ name ++ (if extension = "" then "" else "." ++ extension)

section LastDot

variable {name : String} {before after : List Char}

theorem cutExtension?_dot (whole : name.toList = before ++ '.' :: after) (last : '.' ∉ after) :
    cutExtension? name = if before ≠ [] ∧ after ≠ [] then some (before, after) else none := by
  have reversed : name.toList.reverse = after.reverse ++ '.' :: before.reverse := by simp [whole]
  obtain ⟨taken, dropped⟩ := Prod.mk.inj (cutAt_append (mt List.mem_reverse.mp last) before.reverse)
  rw [cutExtension?, reversed, taken, dropped]
  simp [and_comm]

theorem cutExtension?_eq_some :
    cutExtension? name = some (before, after) ↔ PartsAtDot name before after := by
  constructor
  · intro cut
    have dotted : '.' ∈ name.toList := by
      rw [cutExtension?] at cut
      split_ifs at cut with dotted
      simp only [Bool.and_eq_true, List.contains_iff_mem, List.mem_reverse] at dotted
      exact dotted.1.1
    obtain ⟨front, behind, whole, last⟩ := exists_behind_last dotted
    rw [cutExtension?_dot whole last] at cut
    split_ifs at cut with both
    cases cut
    exact ⟨whole, last, both.1, both.2⟩
  · rintro ⟨whole, last, some_before, some_after⟩
    rw [cutExtension?_dot whole last, if_pos ⟨some_before, some_after⟩]

end LastDot

section Parts

variable {p : Path}

theorem stem_parted {before after : List Char} (parts : PartsAtDot p.name before after) :
    p.stem = String.ofList before ∧ p.extension = String.ofList after := by
  rw [stem, extension, cutExtension?_eq_some.mpr parts]
  exact ⟨rfl, rfl⟩

theorem stem_whole (whole : ∀ before after, ¬PartsAtDot p.name before after) :
    p.stem = p.name ∧ p.extension = "" := by
  have uncut : cutExtension? p.name = none := by
    rw [Option.eq_none_iff_forall_ne_some]
    exact fun cut same => whole cut.1 cut.2 (cutExtension?_eq_some.mp same)
  rw [stem, extension, uncut]
  exact ⟨rfl, rfl⟩

/-- Name and extension with a dot between them are the last component. -/
theorem stem_extension (some_name : p.name ≠ "") : p.stem ≠ "" ∧
    p.stem ++ (if p.extension = "" then "" else "." ++ p.extension) = p.name := by
  by_cases parted : ∃ before after, PartsAtDot p.name before after
  · obtain ⟨before, after, parts⟩ := parted
    obtain ⟨stem, extension⟩ := stem_parted parts
    have some_extension : String.ofList after ≠ "" := by simpa using parts.some_after
    rw [stem, extension, if_neg some_extension]
    refine ⟨by simpa using parts.some_before, ?_⟩
    rw [← String.ofList_toList (s := p.name), parts.whole]
    simp [String.ofList_append]
  · push Not at parted
    obtain ⟨stem, extension⟩ := stem_whole parted
    rw [stem, extension]
    exact ⟨some_name, by simp⟩

end Parts

/-- A path is its folder and behind it the last component. -/
theorem joined_last {front : List String} {last : String} (proper : ∀ name ∈ front, IsName name)
    (undotted : "." ∉ front) : (if "/".intercalate front = "" then "" else "/".intercalate front ++ "/") ++ last =
      "/".intercalate (front ++ [last]) := by
  rcases eq_or_ne front [] with rfl | some_folder
  · simp
  · have given : "/".intercalate front ≠ "" := fun empty => some_folder <| by
      have read := ofText_joined proper undotted
      rw [empty] at read
      exact (congrArg components read).symm
    rw [if_neg given, String.intercalate_append_of_ne_nil some_folder (List.cons_ne_nil _ _)]
    simp

end Path

section Recomposition

variable {front : List String} {last : String}

/-- The parts of a file put together are its path, wherever dots stand in it. Its folder is the path without
the last component, its name is never empty, and its extension is what the last dot of that component sets
apart. -/
theorem FileInfo.ofDocument_parts (proper : ∀ name ∈ front ++ [last], Path.IsName name)
    (undotted : "." ∉ front ++ [last]) {d : Document} (path : d.path = "/".intercalate (front ++ [last]))
    (metadata : Option Metadata) : Path.ofParts d.folder d.name d.extension = d.path ∧
      d.folder = "/".intercalate front ∧ d.name ≠ "" ∧
      (∀ before after, Path.PartsAtDot last before after →
        d.name = String.ofList before ∧ d.extension = String.ofList after) ∧
      ((∀ before after, ¬Path.PartsAtDot last before after) → d.name = last ∧ d.extension = "") ∧
      (FileInfo.ofDocument d metadata).folder = d.folder ∧ (FileInfo.ofDocument d metadata).name = d.name ∧
      (FileInfo.ofDocument d metadata).extension = d.extension := by
  have read := Path.ofText_joined proper undotted
  have named : (Path.ofText d.path).name = last := by
    rw [path, read, Path.name, List.getLastD_concat]
  have folder : d.folder = "/".intercalate front := by
    rw [Document.folder, path, Path.folder_joined proper undotted, List.dropLast_concat]
  rw [List.forall_mem_append] at proper
  rw [List.mem_append, not_or] at undotted
  have some_last : (Path.ofText d.path).name ≠ "" := named ▸ (proper.2 last List.mem_cons_self).given
  obtain ⟨some_name, whole⟩ := Path.stem_extension some_last
  have info : (FileInfo.ofDocument d metadata).folder = d.folder ∧
      (FileInfo.ofDocument d metadata).name = d.name ∧
      (FileInfo.ofDocument d metadata).extension = d.extension := by
    simp only [FileInfo.ofDocument, and_self]
  refine ⟨?_, folder, some_name, fun before after parts => ?_, fun uncut => ?_, info⟩
  · rw [Path.ofParts, String.append_assoc, Document.name, Document.extension, whole, folder, named, path]
    exact Path.joined_last proper.1 undotted.1
  · exact Path.stem_parted (named.symm ▸ parts)
  · rw [← named] at uncut
    exact named ▸ Path.stem_whole uncut

/-- A file whose folder and whose name both hold several dots. -/
def Document.dotted : Document where
  path := "a..b/.c.tar.gz"
  size := 0
  created := none
  modified := none
  properties := []

theorem FileInfo.ofDocument_parts_dotted :
    Path.ofParts Document.dotted.folder Document.dotted.name Document.dotted.extension = "a..b/.c.tar.gz" ∧
      Document.dotted.folder = "a..b" ∧ Document.dotted.name = ".c.tar" ∧
      Document.dotted.extension = "gz" := by
  have path : Document.dotted.path = "/".intercalate (["a..b"] ++ [".c.tar.gz"]) := by decide
  obtain ⟨whole, folder, -, parted, -⟩ := FileInfo.ofDocument_parts (by decide) (by decide) path none
  obtain ⟨name, extension⟩ := parted ".c.tar".toList "gz".toList
    ⟨by decide, by decide, by decide, by decide⟩
  exact ⟨whole, folder, name, extension⟩

end Recomposition

end NoteQuery
