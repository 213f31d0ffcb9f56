import NoteQuery.Note.Vault
import NoteQuery.Proofs.FileTree
import NoteQuery.Proofs.Json.Reading
import NoteQuery.Proofs.Note.FrontMatter
import NoteQuery.Proofs.Note.Gathering

/-! The list of a vault. Its notes are the files that names without a dot in front lead to and whose ending is
one of the extensions. All of them are listed, each once and in the order of their paths, unless a failure gets
out of a note; then the first such note ends the list. -/
namespace NoteQuery

open NoteQuery.Text
open FileTree (Found)

namespace Vault

variable {v : Vault} {t : FileTree} {found : Found}

section Notes

variable {name : String} {ending : List Char}

/-- What stands behind the last dot of a name; the whole name when it has no dot. -/
def IsEnding (name : String) (ending : List Char) : Prop :=
  '.' ∉ ending ∧ (name.toList = ending ∨ ∃ front, name.toList = front ++ '.' :: ending)

/-- The file is a note of the vault. -/
structure Holds (v : Vault) (t : FileTree) (found : Found) : Prop where
  leads : FileTree.Leads t found.names (.file found.bytes found.changed)
  shown : ∀ name ∈ found.names, name.toList.head? ≠ some '.'
  fits : ∃ folders name ending, found.names = folders ++ [name] ∧ IsEnding name ending ∧
    String.ofList (lowerChars ending) ∈ v.extensions

theorem extensionOf_eq (ends : IsEnding name ending) : extensionOf name = String.ofList (lowerChars ending) := by
  obtain ⟨undotted, whole | ⟨front, whole⟩⟩ := ends
  · rw [extensionOf, whole, pieces_whole undotted]
    rfl
  · rw [extensionOf, whole, pieces_sign, pieces_whole undotted, List.getLastD_concat]

theorem exists_ending (name : String) : ∃ ending, IsEnding name ending := by
  by_cases dotted : '.' ∈ name.toList
  · obtain ⟨front, last, whole, undotted⟩ := exists_behind_last dotted
    exact ⟨last, undotted, .inr ⟨front, whole⟩⟩
  · exact ⟨name.toList, dotted, .inl rfl⟩

theorem isNote_iff : v.isNote name = true ↔ name.toList.head? ≠ some '.' ∧
    ∃ ending, IsEnding name ending ∧ String.ofList (lowerChars ending) ∈ v.extensions := by
  rw [isNote, Bool.and_eq_true, Bool.not_eq_true', FileTree.isHidden, decide_eq_false_iff_not,
    List.contains_iff_mem]
  refine and_congr_right fun _ => ⟨fun fits => ?_, ?_⟩
  · obtain ⟨ending, ends⟩ := exists_ending name
    exact ⟨ending, ends, extensionOf_eq ends ▸ fits⟩
  · rintro ⟨ending, ends, fits⟩
    exact extensionOf_eq ends ▸ fits

theorem holds_iff : v.Holds t found ↔ FileTree.Sought v.isNote t found := by
  have visible {folder : String} : FileTree.isHidden folder = false ↔ folder.toList.head? ≠ some '.' :=
    decide_eq_false_iff_not
  constructor
  · obtain ⟨names, bytes, changed⟩ := found
    rintro ⟨leads, shown, folders, name, ending, rfl, ends, fits⟩
    rw [List.forall_mem_append] at shown
    exact .mk leads (fun folder member => visible.mpr (shown.1 folder member))
      (isNote_iff.mpr ⟨shown.2 name List.mem_cons_self, ending, ends, fits⟩)
  · rintro ⟨leads, hidden, wanted⟩
    obtain ⟨shown, ending, ends, fits⟩ := isNote_iff.mp wanted
    refine ⟨leads, ?_, _, _, ending, rfl, ends, fits⟩
    rw [List.forall_mem_append, List.forall_mem_singleton]
    exact ⟨fun folder member => visible.mp (hidden folder member), shown⟩

end Notes

section Reading

variable {text : String} {e : SourceError}

/-- What is listed of a file. -/
structure Shows (found : Found) (d : Document) : Prop where
  path : d.path = "/".intercalate found.names
  size : d.size = found.bytes.size
  created : d.created = found.changed
  modified : d.modified = found.changed
  properties : ∃ text, FileTree.textOf found.bytes = .ok text ∧ FrontMatter.Gives text d.properties

/-- Among the tags in the front matter there is a whole number that is too long to be written. -/
def HasLongTag (text : String) : Prop :=
  ∃ properties, FrontMatter.Gives text properties ∧ properties.tagField.Unquotable

/-- The failure gets out of a text when it is read as a note. -/
inductive Breaks (text : String) : SourceError → Prop
  | frontMatter {style : FrontMatter.Style} {inside body : List Char} {failure : FrontMatter.Failure}
      (block : FrontMatter.blockOf? text = some (style, inside, body))
      (stops : FrontMatter.Stops style inside failure) : Breaks text (.frontMatter failure)
  | tags (long : HasLongTag text) : Breaks text (.fault .badValue)

def BreaksAt (found : Found) (e : SourceError) : Prop :=
  ∃ text, FileTree.textOf found.bytes = .ok text ∧ Breaks text e

theorem examine_breaks (breaks : Breaks text e) : examine text = .error e := by
  cases breaks with
  | frontMatter block stops =>
    rw [examine, FrontMatter.split_eq_error.mpr ⟨_, _, _, block, stops⟩]
  | tags long =>
    obtain ⟨properties, gives, long⟩ := long
    -- a block that stops gives nothing, and nothing has no tags; so the text is split
    have given : properties ≠ [] := by
      rintro rfl
      exact (Value.plainText_succeeds .null).mp ⟨_, rfl⟩ long
    obtain ⟨body, read⟩ := FrontMatter.split_of_gives gives given
    obtain ⟨f, failed⟩ : ∃ f, declaredTags properties = .error f := by
      cases declared : declaredTags properties with
      | ok tags => exact absurd long (declaredTags_succeeds.mp ⟨tags, declared⟩)
      | error f => exact ⟨f, rfl⟩
    rw [examine, read]
    simp only
    rw [Metadata.ofNote, failed, declaredTags_fails f failed]
    rfl

/-- A text is examined for its properties, or it breaks. -/
theorem examine_cases (text : String) :
    (∃ properties m body, examine text = .ok (properties, m, body) ∧ FrontMatter.Gives text properties) ∨
      ∃ e, Breaks text e := by
  cases read : FrontMatter.split text with
  | error failure =>
    obtain ⟨_, _, _, block, stops⟩ := FrontMatter.split_eq_error.mp read
    exact .inr ⟨_, .frontMatter block stops⟩
  | ok given =>
    obtain ⟨properties, body⟩ := given
    have gives := FrontMatter.split_gives read
    by_cases long : properties.tagField.Unquotable
    · exact .inr ⟨_, .tags ⟨properties, gives, long⟩⟩
    · obtain ⟨declared, tags⟩ := declaredTags_succeeds.mpr long
      obtain ⟨m, made, -⟩ := Metadata.ofNote_gathered tags body
      refine .inl ⟨properties, m, body, ?_, gives⟩
      rw [examine, read]
      simp only
      rw [made]

end Reading

section Listing

variable {disk : Disk} {entries : List (String × FileTree)} {files : List Found}

/-- Texts are all listed, or the first that breaks ends the list. -/
theorem documentsOf_cases (texts : ∀ found ∈ files, ∃ text, FileTree.textOf found.bytes = .ok text) :
    (∃ docs, (documentsOf files).1 = .ok docs ∧ List.Forall₂ Shows files docs ∧
      ∀ found ∈ files, ∀ e, ¬BreaksAt found e) ∨
    ∃ before found after e, files = before ++ found :: after ∧ (∀ other ∈ before, ∀ e', ¬BreaksAt other e') ∧
      BreaksAt found e ∧ (documentsOf files).1 = .error e := by
  induction files with
  | nil => exact .inl ⟨[], rfl, .nil, List.forall_mem_nil _⟩
  | cons found files ih =>
    obtain ⟨⟨text, read⟩, others⟩ := List.forall_mem_cons.mp texts
    rcases examine_cases text with ⟨properties, m, body, examined, gives⟩ | ⟨e, breaks⟩
    · have whole : ∀ e, ¬BreaksAt found e := by
        rintro e ⟨text', read', breaks⟩
        cases read.symm.trans read'
        cases examined.symm.trans (examine_breaks breaks)
      rw [documentsOf, read]
      simp only
      rw [examined]
      simp only
      rcases ih others with
        ⟨docs, listed, shows, unbroken⟩ | ⟨before, broken, after, e, rfl, unbroken, breaks, failed⟩
      · exact .inl ⟨_, by rw [listed]; rfl, .cons ⟨rfl, rfl, rfl, rfl, text, read, gives⟩ shows,
          List.forall_mem_cons.mpr ⟨whole, unbroken⟩⟩
      · exact .inr ⟨found :: before, broken, after, e, rfl, List.forall_mem_cons.mpr ⟨whole, unbroken⟩, breaks,
          by rw [failed]; rfl⟩
    · refine .inr ⟨[], found, files, e, rfl, List.forall_mem_nil _, ⟨text, read, breaks⟩, ?_⟩
      rw [documentsOf, read]
      simp only
      rw [examine_breaks breaks]

theorem list_of_folder (there : disk.find v.root = .ok (.folder entries)) :
    (v.list disk).1 = (documentsOf (FileTree.filesBelow v.isNote [] (.folder entries))).1 := by
  rw [list, there]

/-- The list is made from the notes of the vault, in the order of their paths. -/
theorem list_scans (there : disk.find v.root = .ok (.folder entries)) (proper : (FileTree.folder entries).Proper) :
    ∃ files, (∀ found, found ∈ files ↔ v.Holds (.folder entries) found) ∧
      files.Pairwise (Order.Preimage Found.names FileTree.Earlier) ∧ (v.list disk).1 = (documentsOf files).1 :=
  ⟨_, fun _ => FileTree.mem_filesBelow_nil.trans holds_iff.symm, FileTree.filesBelow_sorted proper,
    list_of_folder there⟩

theorem list_rearranged {disk' : Disk} {entries' : List (String × FileTree)}
    (proper : (FileTree.folder entries).Proper) (there : disk.find v.root = .ok (.folder entries))
    (there' : disk'.find v.root = .ok (.folder entries'))
    (same : FileTree.Rearranged (.folder entries) (.folder entries')) : (v.list disk').1 = (v.list disk).1 := by
  rw [list_of_folder there', list_of_folder there, FileTree.filesBelow_rearranged proper same]

theorem names_distinct (sorted : files.Pairwise (Order.Preimage Found.names FileTree.Earlier)) :
    (files.map Found.names).Nodup :=
  List.Pairwise.nodup (r := FileTree.Earlier) (List.pairwise_map.mpr sorted)

/-- What stands in front of a file in the list is what is earlier. -/
theorem mem_before {before after : List Found} {other : Found}
    (sorted : (before ++ found :: after).Pairwise (Order.Preimage Found.names FileTree.Earlier))
    (member : other ∈ before ++ found :: after) (earlier : FileTree.Earlier other.names found.names) :
    other ∈ before := by
  obtain ⟨-, behind, -⟩ := List.pairwise_append.mp sorted
  rcases List.mem_append.mp member with front | here
  · exact front
  · rcases List.mem_cons.mp here with rfl | later
    · exact absurd earlier (irrefl _)
    · exact absurd earlier ((List.pairwise_cons.mp behind).1 other later).asymm

theorem paths_distinct {docs : List Document} (proper : t.Proper) (held : ∀ found ∈ files, v.Holds t found)
    (sorted : files.Pairwise (Order.Preimage Found.names FileTree.Earlier)) (shows : List.Forall₂ Shows files docs) :
    (docs.map Document.path).Nodup := by
  have paths : docs.map Document.path = (files.map Found.names).map ("/".intercalate) := by
    clear held sorted
    induction shows with
    | nil => rfl
    | cons first _ ih => rw [List.map_cons, List.map_cons, List.map_cons, first.path, ih]
  have named : ∀ names ∈ files.map Found.names, names ≠ [] ∧ ∀ name ∈ names, Path.IsName name := by
    rw [List.forall_mem_map]
    exact fun found member => ⟨(holds_iff.mp (held found member)).some_name, proper.named (held found member).leads⟩
  rw [paths]
  refine (names_distinct sorted).map_on fun ps first qs second same => ?_
  obtain ⟨some_ps, proper⟩ := named ps first
  obtain ⟨some_qs, proper'⟩ := named qs second
  exact Path.joined_injective some_ps some_qs proper proper' same

/-- A block that is a map in which a name is reserved. -/
def oddText : String := "\x7b\n\"self\":\"\"\n\x7d"

/-- A vault of notes that end in md, at the top of its disk. -/
def atTop : Vault := ⟨⟨"", []⟩, ["md"], []⟩

def oddNote : Found := ⟨["odd.md"], oddText.toUTF8, none⟩

def oddEntries : List (String × FileTree) := [("odd.md", .file oddText.toUTF8 none)]

theorem read_self : Json.ofText? (String.ofList ('\x7b' :: "\n\"self\":\"\"\n".toList ++ ['\x7d'])) =
    some (.map [("self", .text "")]) := by
  have front : Json.skipSpace "\n\"self\":\"\"\n\x7d".toList =
      '"' :: ("self".toList ++ '"' :: ":\"\"\n\x7d".toList) := rfl
  have name : Json.readText ("self".toList ++ '"' :: ":\"\"\n\x7d".toList) =
      some ("self".toList, ":\"\"\n\x7d".toList) := Json.readText_quoted "self".toList _
  have blank : Json.readText ('"' :: "\n\x7d".toList) = some ([], "\n\x7d".toList) := Json.readText_quoted [] _
  have entries : Json.entries? Json.loose "\n\"self\":\"\"\n\x7d".toList = some ([("self", .text "")], []) := by
    rw [Json.entries?_eq, front, Json.readKey_text, name]
    change (Json.value? Json.loose ('"' :: '"' :: "\n\x7d".toList)).bind _ = _
    rw [Json.value?_text, blank]
    rfl
  rw [Json.ofText?, Json.decode_eq, String.toList_ofList]
  change (Json.value? Json.loose ('\x7b' :: "\n\"self\":\"\"\n\x7d".toList)).bind _ = _
  rw [Json.value?_object, entries]
  rfl

theorem oddNote_breaks : BreaksAt oddNote (.frontMatter .badKey) :=
  ⟨oddText, rfl, .frontMatter rfl (.jsonName read_self List.mem_cons_self (by decide))⟩

theorem atTop_holds_odd : atTop.Holds (.folder oddEntries) oddNote :=
  ⟨.down List.mem_cons_self .here, by decide, [], "odd.md", "md".toList, rfl,
    ⟨by decide, .inr ⟨"odd".toList, by decide⟩⟩, by decide⟩

theorem oddEntries_texts : ∀ found, atTop.Holds (.folder oddEntries) found →
    ∃ text, FileTree.textOf found.bytes = .ok text := by
  rintro ⟨names, bytes, changed⟩ ⟨leads, -, -⟩
  rcases leads with _ | ⟨member, later⟩
  obtain ⟨rfl, rfl⟩ := Prod.mk.inj (List.mem_singleton.mp member)
  cases later
  exact ⟨oddText, rfl⟩

theorem oddEntries_proper : (FileTree.folder oddEntries).Proper :=
  .folder (by decide) (by decide) (List.forall_mem_singleton.mpr .file)

/-- A folder with a note and a folder with another, whose ending is written in capitals. -/
def nestedEntries : List (String × FileTree) :=
  [("b.md", .file "x".toUTF8 none), ("a", .folder [("c.x.MD", .file "x".toUTF8 none)])]

theorem nestedEntries_plain : ∀ found, atTop.Holds (.folder nestedEntries) found →
    FileTree.textOf found.bytes = .ok "x" := by
  rintro ⟨names, bytes, changed⟩ ⟨leads, -, -⟩
  rcases leads with _ | ⟨member, later⟩
  rcases List.mem_cons.mp member with here | below
  · obtain ⟨rfl, rfl⟩ := Prod.mk.inj here
    cases later
    rfl
  · obtain ⟨rfl, rfl⟩ := Prod.mk.inj (List.mem_singleton.mp below)
    rcases later with _ | ⟨member, later⟩
    obtain ⟨rfl, rfl⟩ := Prod.mk.inj (List.mem_singleton.mp member)
    cases later
    rfl

theorem nestedEntries_proper : (FileTree.folder nestedEntries).Proper := by
  refine .folder (by decide) (by decide) (List.forall_mem_cons.mpr ⟨.file, List.forall_mem_singleton.mpr ?_⟩)
  exact .folder (by decide) (by decide) (List.forall_mem_singleton.mpr .file)

theorem nestedEntries_reversed :
    FileTree.Rearranged (.folder nestedEntries) (.folder nestedEntries.reverse) := by
  obtain _ | ⟨once, -, each⟩ := nestedEntries_proper
  exact .of_perm once (List.reverse_perm _).symm fun entry member => (each entry member).rearranged_self

end Listing

end Vault

end NoteQuery
