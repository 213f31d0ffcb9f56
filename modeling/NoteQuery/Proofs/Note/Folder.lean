import Mathlib
import NoteQuery.Note.Tag
import NoteQuery.Proofs.Text.Search

/-! Folders as the names that lead to a file. A file is below a folder where the folder's names begin its
own and do not exhaust them; the text comparison that the program makes, on slashes put for backslashes and
cut at the front, comes to the same. -/
namespace NoteQuery

open NoteQuery.Text

section Below

variable {α : Type*}

/-- The names of a folder lead to something behind them. -/
def Below (folder path : List α) : Prop := folder <+: path ∧ folder ≠ path

instance [DecidableEq α] (folder path : List α) : Decidable (Below folder path) :=
  inferInstanceAs (Decidable (_ ∧ _))

theorem below_iff {folder path : List α} :
    Below folder path ↔ ∃ next more, path = folder ++ next :: more := by
  constructor
  · rintro ⟨⟨rest, rfl⟩, other⟩
    cases rest with
    | nil => exact absurd (List.append_nil folder).symm other
    | cons next more => exact ⟨next, more, rfl⟩
  · rintro ⟨next, more, rfl⟩
    exact ⟨List.prefix_append _ _, fun same => by simpa using congrArg List.length same⟩

theorem below_append {folder path rest : List α} (leads : folder <+: path) (some_rest : rest ≠ []) :
    Below folder (path ++ rest) := by
  obtain ⟨more, rfl⟩ := leads
  obtain ⟨next, others, within⟩ := List.exists_cons_of_ne_nil
    (List.append_ne_nil_of_right_ne_nil more some_rest)
  exact below_iff.mpr ⟨next, others, by rw [List.append_assoc, within]⟩

theorem below_nil {path : List α} (some_path : path ≠ []) : Below [] path :=
  ⟨List.nil_prefix, some_path.symm⟩

theorem below_map {β : Type*} {f : α → β} (injective : f.Injective) {folder path : List α} :
    Below (folder.map f) (path.map f) ↔ Below folder path := by
  rw [Below, Below, List.prefix_map_iff_of_injective injective, injective.list_map.ne_iff]

end Below

namespace Path

/-- What a path can hold between two of its slashes. -/
structure IsName (name : String) : Prop where
  given : name ≠ ""
  whole : '/' ∉ name.toList

instance (name : String) : Decidable (IsName name) :=
  decidable_of_iff (name ≠ "" ∧ '/' ∉ name.toList)
    ⟨fun h => ⟨h.1, h.2⟩, fun proper => ⟨proper.given, proper.whole⟩⟩

/-- The names that slashes and backslashes set apart in a path; those in front set nothing apart. -/
def names (text : String) : List (List Char) :=
  pieces '/' ((forwardSlashes text.toList).dropWhile (· == '/'))

/-- The names of a folder. A sign at the end sets nothing apart, and the topmost folder has no name. -/
def folderNames (text : String) : List (List Char) :=
  if (names text).getLast? = some [] then (names text).dropLast else names text

section Comparison

variable {path folder : String}

/-- A slash for a backslash changes nothing about blanks. -/
theorem isBlank_forward (c : Char) : isBlank (if c = '\\' then '/' else c) = isBlank c := by
  split_ifs with back
  · rw [back]
    decide
  · rfl

/-- The text of a folder that is not the topmost ends with a slash, in front of which its names stand. -/
theorem folderText_spelled (unpadded : trimText folder = folder) :
    (folderText folder = "" ∧ folderNames folder = []) ∨ ∃ front,
      (folderText folder).toList = front ++ ['/'] ∧ folderNames folder = pieces '/' front := by
  have whole : trim folder.toList = folder.toList := by
    rw [← String.toList_ofList (l := trim folder.toList), ← trimText, unpadded]
  rw [folderText, forwardSlashes, trim_map isBlank_forward, whole, ← forwardSlashes, folderNames, names]
  generalize (forwardSlashes folder.toList).dropWhile (· == '/') = cs
  rcases List.eq_nil_or_concat' cs with rfl | ⟨front, c, rfl⟩
  · exact .inl ⟨rfl, rfl⟩
  · refine .inr ?_
    have ended : endsWith (front ++ [c]) ['/'] = true ↔ '/' = c := by
      rw [endsWith_iff]
      constructor
      · rintro ⟨start, same⟩
        exact (List.cons.inj (List.append_inj_right' same rfl)).1
      · rintro rfl
        exact List.suffix_append _ _
    by_cases slash : '/' = c
    · subst slash
      refine ⟨front, ?_, ?_⟩
      · simp [ended.mpr rfl]
      · rw [pieces_sign, pieces, List.getLast?_concat, if_pos rfl, List.dropLast_concat]
    · refine ⟨front ++ [c], ?_, if_neg ?_⟩
      · simp [mt ended.mp slash]
      · rw [pieces_getLast?]
        simp [Ne.symm slash]

theorem below_pieces {front text : List Char} :
    Below (pieces '/' front) (pieces '/' text) ↔ front ++ ['/'] <+: text := by
  rw [below_iff]
  constructor
  · rintro ⟨next, more, cut⟩
    have joined := intercalate_pieces '/' text
    rw [cut, intercalate_append _ (pieces_ne_nil _ _) (List.cons_ne_nil _ _), intercalate_pieces] at joined
    exact ⟨_, by rw [List.append_assoc, joined]⟩
  · rintro ⟨rest, rfl⟩
    obtain ⟨next, more, within⟩ := List.exists_cons_of_ne_nil (pieces_ne_nil '/' rest)
    exact ⟨next, more, by rw [List.append_assoc, List.singleton_append, pieces_sign, within]⟩

/-- The comparison of texts is one of names. -/
theorem isInFolder_iff (unpadded : trimText folder = folder) :
    isInFolder path folder = true ↔ Below (folderNames folder) (names path) := by
  rw [isInFolder, Bool.or_eq_true]
  rcases folderText_spelled unpadded with ⟨top, none⟩ | ⟨front, text, spelled⟩
  · rw [top, none]
    exact iff_of_true (.inl rfl) (below_nil (pieces_ne_nil _ _))
  · rw [text, spelled, names, below_pieces, startsWith_iff]
    simp

end Comparison

section Spelled

variable {ps fs : List String} {folder : String}

/-- The text puts a folder's names together, with or without a slash in front and at the end. -/
def SpellsFolder (text : String) (names : List String) : Prop :=
  ∃ lead ∈ ["", "/"], ∃ trail ∈ ["", "/"], text = lead ++ "/".intercalate names ++ trail

theorem forwardSlashes_self {text : List Char} (plain : '\\' ∉ text) : forwardSlashes text = text := by
  refine (List.map_congr_left fun c member => if_neg ?_).trans (List.map_id text)
  exact fun same => plain (same ▸ member)

/-- Of the slashes around a folder's names at most the one at the end is left. -/
theorem dropWhile_spelled {cs : List Char} (spelled : SpellsFolder folder fs)
    (stripped : (forwardSlashes ("/".intercalate fs).toList).dropWhile (· == '/') = cs) :
    (forwardSlashes folder.toList).dropWhile (· == '/') = cs ∨
      cs ≠ [] ∧ (forwardSlashes folder.toList).dropWhile (· == '/') = cs ++ ['/'] := by
  obtain ⟨lead, front, trail, back, rfl⟩ := spelled
  have dropped : (forwardSlashes (lead ++ "/".intercalate fs ++ trail).toList).dropWhile (· == '/') =
      (forwardSlashes ("/".intercalate fs).toList ++ forwardSlashes trail.toList).dropWhile (· == '/') := by
    simp only [List.mem_cons, List.not_mem_nil, or_false] at front
    rcases front with rfl | rfl <;> simp [forwardSlashes]
  rw [dropped, List.dropWhile_append, stripped]
  simp only [List.mem_cons, List.not_mem_nil, or_false] at back
  rcases back with rfl | rfl <;> cases cs <;> simp [forwardSlashes]

theorem folderNames_spelled {cs : List Char} (spelled : SpellsFolder folder fs)
    (stripped : (forwardSlashes ("/".intercalate fs).toList).dropWhile (· == '/') = cs) :
    (cs = [] → folderNames folder = []) ∧ folderNames folder <+: pieces '/' cs ∧
      ((pieces '/' cs).getLast? ≠ some [] → folderNames folder = pieces '/' cs) := by
  rcases dropWhile_spelled spelled stripped with bare | ⟨some_cs, closed⟩
  · rw [folderNames, names, bare]
    refine ⟨fun top => by rw [top]; rfl, ?_, fun some_last => if_neg some_last⟩
    split_ifs
    · exact List.dropLast_prefix _
    · exact List.prefix_rfl
  · have whole : folderNames folder = pieces '/' cs := by
      rw [folderNames, names, closed, pieces_sign, pieces, List.getLast?_concat, if_pos rfl,
        List.dropLast_concat]
    exact ⟨fun top => absurd top some_cs, whole ▸ List.prefix_rfl, fun _ => whole⟩

/-- What follows the names of a folder that is not the topmost is set apart from them. -/
theorem names_append {cs : List Char} (some_front : fs ≠ []) (some_rest : ps ≠ []) (named : cs ≠ [])
    (stripped : (forwardSlashes ("/".intercalate fs).toList).dropWhile (· == '/') = cs) :
    names ("/".intercalate (fs ++ ps)) =
      pieces '/' cs ++ pieces '/' (forwardSlashes ("/".intercalate ps).toList) := by
  have behind : forwardSlashes ("/".intercalate (fs ++ ps)).toList =
      forwardSlashes ("/".intercalate fs).toList ++
        '/' :: forwardSlashes ("/".intercalate ps).toList := by
    rw [String.intercalate_append_of_ne_nil some_front some_rest]
    simp [forwardSlashes]
  rw [names, behind, List.dropWhile_append, stripped, if_neg (mt List.isEmpty_iff.mp named), pieces_sign]

/-- A folder's names lead to a path that goes on behind them, whatever signs the names hold. -/
theorem below_of_spelled (spelled : SpellsFolder folder fs) (leads : Below fs ps) :
    Below (folderNames folder) (names ("/".intercalate ps)) := by
  obtain ⟨top, within, -⟩ := folderNames_spelled spelled rfl
  by_cases named : (forwardSlashes ("/".intercalate fs).toList).dropWhile (· == '/') = []
  · rw [top named]
    exact below_nil (pieces_ne_nil _ _)
  · have some_front : fs ≠ [] := by
      rintro rfl
      exact named rfl
    obtain ⟨next, more, rfl⟩ := below_iff.mp leads
    rw [names_append some_front (List.cons_ne_nil _ _) named rfl]
    exact below_append within (pieces_ne_nil _ _)

/-- A path that is put together from names does not begin with a slash. -/
theorem joined_head (proper : ∀ name ∈ ps, IsName name) :
    ∀ c ∈ ("/".intercalate ps).toList.head?, (c == '/') = false := by
  cases ps with
  | nil => simp
  | cons name more =>
    obtain ⟨c, others, split⟩ := List.exists_cons_of_ne_nil
      (mt String.toList_eq_nil_iff.mp (proper name List.mem_cons_self).given)
    obtain ⟨rest, front⟩ := intercalate_front "/".toList name.toList (more.map String.toList)
    have other : c ≠ '/' := fun slash => (proper name List.mem_cons_self).whole (by simp [split, slash])
    simpa [front, split] using other

/-- Names in which no sign is to be cut at are found as they were put together. -/
theorem names_joined (some_name : ps ≠ []) (proper : ∀ name ∈ ps, IsName name)
    (plain : ∀ name ∈ ps, '\\' ∉ name.toList) :
    (forwardSlashes ("/".intercalate ps).toList).dropWhile (· == '/') = ("/".intercalate ps).toList ∧
      names ("/".intercalate ps) = ps.map String.toList := by
  have kept : forwardSlashes ("/".intercalate ps).toList = ("/".intercalate ps).toList := by
    rw [String.toList_intercalate]
    refine forwardSlashes_self fun inside => ?_
    obtain ⟨part, given, within⟩ := (mem_intercalate (by decide) _).mp inside
    obtain ⟨name, member, rfl⟩ := List.mem_map.mp given
    exact plain name member within
  have starts := joined_head proper
  have stripped := dropWhile_eq_self starts
  rw [names, kept, stripped]
  exact ⟨rfl, pieces_names rfl some_name fun name member => (proper name member).whole⟩

theorem folderNames_joined (spelled : SpellsFolder folder fs) (proper : ∀ name ∈ fs, IsName name)
    (plain : ∀ name ∈ fs, '\\' ∉ name.toList) : folderNames folder = fs.map String.toList := by
  rcases eq_or_ne fs [] with rfl | some_name
  · exact (folderNames_spelled spelled rfl).1 rfl
  · obtain ⟨stripped, found⟩ := names_joined some_name proper plain
    obtain ⟨-, -, whole⟩ := folderNames_spelled spelled stripped
    rw [names, stripped] at found
    rw [found] at whole
    refine whole ?_
    rw [List.getLast?_map]
    intro last
    obtain ⟨name, member, empty⟩ := Option.map_eq_some_iff.mp last
    exact (proper name (List.mem_of_getLast? member)).given (String.toList_eq_nil_iff.mp empty)

end Spelled

section Parsed

variable {ps qs : List String}

/-- Paths that are put together from different names are different. -/
theorem joined_injective (some_ps : ps ≠ []) (some_qs : qs ≠ []) (proper : ∀ name ∈ ps, IsName name)
    (proper' : ∀ name ∈ qs, IsName name) (same : "/".intercalate ps = "/".intercalate qs) : ps = qs := by
  have cut : pieces '/' ("/".intercalate ps).toList = ps.map String.toList :=
    pieces_names rfl some_ps fun name member => (proper name member).whole
  rw [same, pieces_names rfl some_qs fun name member => (proper' name member).whole] at cut
  exact (List.map_injective_iff.mpr (fun _ _ => String.toList_injective) cut).symm

/-- A path that is put together from names is read as these names. -/
theorem ofText_joined (proper : ∀ name ∈ ps, IsName name) (undotted : "." ∉ ps) :
    ofText ("/".intercalate ps) = { root := "", components := ps } := by
  have starts : ("/".intercalate ps).toList.takeWhile (· == '/') = [] := by
    have ends := joined_head proper
    cases split : ("/".intercalate ps).toList with
    | nil => rfl
    | cons c rest => exact List.takeWhile_cons_of_neg (by simpa [split] using ends)
  have kept : ∀ name ∈ ps, (name != "" && name != ".") = true := by
    intro name member
    rw [Bool.and_eq_true, bne_iff_ne, bne_iff_ne]
    exact ⟨(proper name member).given, fun dot => undotted (dot ▸ member)⟩
  rw [ofText, starts]
  rcases eq_or_ne ps [] with rfl | some_name
  · rfl
  · rw [pieces_names rfl some_name fun name member => (proper name member).whole, List.map_map]
    simp [List.filter_eq_self.mpr kept]

theorem folder_joined (proper : ∀ name ∈ ps, IsName name) (undotted : "." ∉ ps) :
    (ofText ("/".intercalate ps)).folder = "/".intercalate ps.dropLast := by
  have above : ∀ name ∈ ps.dropLast, IsName name :=
    fun name member => proper name (List.mem_of_mem_dropLast member)
  have undotted' : "." ∉ ps.dropLast := fun member => undotted (List.mem_of_mem_dropLast member)
  rw [ofText_joined proper undotted, folder, parent, text]
  rcases eq_or_ne ps.dropLast [] with top | some_name
  · simp [top]
  · have unlike : "/".intercalate ps.dropLast ≠ "." := fun dot => some_name <| by
      have read := ofText_joined above undotted'
      rw [dot] at read
      exact (congrArg components read).symm
    simp [some_name, unlike]

end Parsed

end Path

section Containment

variable {ps fs : List String} {path folder : String}

theorem isIn_names (unpadded : trimText folder = folder) : isIn path (.text folder) =
    .ok (decide (Below (Path.folderNames folder) (Path.names path))) := by
  rw [isIn, ← Bool.eq_iff_iff.mpr ((Path.isInFolder_iff unpadded).trans decide_eq_true_iff.symm)]
  rfl

theorem isIn_above (spelled : Path.SpellsFolder folder fs) (unpadded : trimText folder = folder)
    (leads : Below fs ps) : isIn ("/".intercalate ps) (.text folder) = .ok true := by
  rw [isIn_names unpadded, decide_eq_true (Path.below_of_spelled spelled leads)]

/-- A path is in a folder exactly where the folder's names lead to it. Slashes and backslashes both set names
apart; so these are the names that path and folder were put together from, unless one of them has a
backslash. The folders above a path contain it in any case, and its own is the last of them. -/
theorem isIn_below (some_name : ps ≠ []) (proper : ∀ name ∈ ps ++ fs, Path.IsName name)
    (undotted : "." ∉ ps) (spelled : Path.SpellsFolder folder fs) (unpadded : trimText folder = folder) :
    isIn ("/".intercalate ps) (.text folder) =
        .ok (decide (Below (Path.folderNames folder) (Path.names ("/".intercalate ps)))) ∧
      ((∀ name ∈ ps ++ fs, '\\' ∉ name.toList) →
        isIn ("/".intercalate ps) (.text folder) = .ok (decide (Below fs ps))) ∧
      (Below fs ps → isIn ("/".intercalate ps) (.text folder) = .ok true) ∧
      ∀ d : Document, d.path = "/".intercalate ps → d.folder = "/".intercalate ps.dropLast ∧
        (trimText d.folder = d.folder → isIn d.path (.text d.folder) = .ok true) := by
  rw [List.forall_mem_append] at proper
  refine ⟨isIn_names unpadded, fun plain => ?_, isIn_above spelled unpadded, fun d path => ?_⟩
  · rw [List.forall_mem_append] at plain
    rw [isIn_names unpadded, Path.folderNames_joined spelled proper.2 plain.2,
      (Path.names_joined some_name proper.1 plain.1).2]
    exact congrArg Except.ok (decide_eq_decide.mpr (below_map fun _ _ => String.toList_injective))
  · have above : d.folder = "/".intercalate ps.dropLast := by
      rw [Document.folder, path, Path.folder_joined proper.1 undotted]
    have bare : Path.SpellsFolder d.folder ps.dropLast := ⟨"", by simp, "", by simp, by simp [above]⟩
    have own : Below ps.dropLast ps := below_iff.mpr
      ⟨ps.getLast some_name, [], (List.dropLast_concat_getLast some_name).symm⟩
    exact ⟨above, fun unpadded => path ▸ isIn_above bare unpadded own⟩

theorem isIn_below_yearly :
    isIn "work log/2024/a.b.md" (.text "/work log/20/") = .ok false ∧
      ∀ d : Document, d.path = "work log/2024/a.b.md" → d.folder = "work log/2024" ∧
        isIn "work log/2024/a.b.md" (.text d.folder) = .ok true := by
  have path : "/".intercalate ["work log", "2024", "a.b.md"] = "work log/2024/a.b.md" := by decide
  have spelled : Path.SpellsFolder "/work log/20/" ["work log", "20"] :=
    ⟨"/", by simp, "/", by simp, by decide⟩
  have some_name : ["work log", "2024", "a.b.md"] ≠ [] := by decide
  obtain ⟨-, exactly, -, holds⟩ :=
    isIn_below some_name (by decide) (by decide) spelled (by decide)
  rw [path] at exactly holds
  refine ⟨exactly (by decide), fun d given => ?_⟩
  obtain ⟨above, own⟩ := holds d given
  have folder : d.folder = "work log/2024" := above.trans (by decide)
  exact ⟨folder, given ▸ own (by rw [folder]; decide)⟩

/-- A name with a backslash counts as two, and a blank in front of a folder is cut off while that of a path
is not. -/
theorem isIn_beyond_names :
    isIn "a\\b/c.md" (.text "a") = .ok true ∧ ¬Below ["a"] ["a\\b", "c.md"] ∧
      isIn " a/b.md" (.text " a") = .ok false ∧ Below [" a"] [" a", "b.md"] := by
  decide +kernel

end Containment

end NoteQuery
