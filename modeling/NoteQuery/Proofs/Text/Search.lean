import Mathlib
import NoteQuery.Text.Blank
import NoteQuery.Text.Search

/-! Texts that are put together are cut where they were joined: a run of one kind of signs in front of
another sign, and pieces between signs that none of them holds. -/
namespace NoteQuery.Text

/-- A run of one kind of signs ends where the next sign is of another. -/
theorem span_append {P : Char → Bool} (text : List Char) {rest : List Char}
    (ends : ∀ c ∈ rest.head?, P c = false) :
    (text ++ rest).takeWhile P = text.takeWhile P ∧
      (text ++ rest).dropWhile P = text.dropWhile P ++ rest := by
  induction text with
  | nil =>
    cases rest with
    | nil => simp
    | cons c rest => simp [ends c rfl]
  | cons c text ih =>
    rw [List.cons_append, List.takeWhile_cons, List.takeWhile_cons, List.dropWhile_cons,
      List.dropWhile_cons]
    split_ifs
    · exact ⟨congrArg (c :: ·) ih.1, ih.2⟩
    · exact ⟨rfl, rfl⟩

theorem span_front {P : Char → Bool} {front rest : List Char} (within : ∀ c ∈ front, P c = true)
    (ends : ∀ c ∈ rest.head?, P c = false) :
    (front ++ rest).takeWhile P = front ∧ (front ++ rest).dropWhile P = rest := by
  obtain ⟨taken, dropped⟩ := span_append front ends
  rw [taken, dropped, List.takeWhile_eq_self_iff.mpr within, List.dropWhile_eq_nil_iff.mpr within]
  exact ⟨rfl, rfl⟩

theorem dropWhile_solid {P : Char → Bool} {text : List Char} (solid : ∀ c ∈ text, P c = false) :
    text.dropWhile P = text :=
  (span_front (List.forall_mem_nil _) fun c first => solid c (List.mem_of_mem_head? first)).2

/-- Blanks are cut off at both ends of what holds none. -/
theorem trim_padded {front text back : List Char} (before : ∀ c ∈ front, isBlank c = true)
    (solid : ∀ c ∈ text, isBlank c = false) (behind : ∀ c ∈ back, isBlank c = true) :
    trim (front ++ (text ++ back)) = text := by
  have start : trimStart (front ++ (text ++ back)) = text ++ back ∨ trimStart (front ++ (text ++ back)) = text := by
    rw [trimStart, List.dropWhile_append_of_pos before]
    cases text with
    | nil => exact .inr (List.dropWhile_eq_nil_iff.mpr behind)
    | cons c text =>
      refine .inl (List.dropWhile_cons_of_neg ?_)
      simp [solid c List.mem_cons_self]
  have reversed : (back.reverse ++ text.reverse).dropWhile isBlank = text.reverse := by
    rw [List.dropWhile_append_of_pos fun c member => behind c (List.mem_reverse.mp member)]
    exact dropWhile_solid fun c member => solid c (List.mem_reverse.mp member)
  rcases start with start | start
  · rw [trim, start, trimEnd, dropEndWhile, List.reverse_append, reversed, List.reverse_reverse]
  · rw [trim, start, trimEnd, dropEndWhile, dropWhile_solid, List.reverse_reverse]
    exact fun c member => solid c (List.mem_reverse.mp member)

theorem trim_solid {text : List Char} (solid : ∀ c ∈ text, isBlank c = false) : trim text = text := by
  have padded := trim_padded (List.forall_mem_nil _) solid (List.forall_mem_nil _)
  rwa [List.append_nil, List.nil_append] at padded

theorem dropWhile_eq_self {P : Char → Bool} {text : List Char} (ends : ∀ c ∈ text.head?, P c = false) :
    text.dropWhile P = text :=
  (span_front (List.forall_mem_nil _) ends).2

theorem dropWhile_ends (P : Char → Bool) (text : List Char) :
    ∀ c ∈ (text.dropWhile P).head?, P c = false := by
  intro c first
  have ended := List.head?_dropWhile_not P text
  rwa [Option.mem_def.mp first] at ended

/-- Nothing is cut off exactly where no blank stands at either end. -/
theorem trim_eq_self_iff {text : List Char} : trim text = text ↔
    (∀ c ∈ text.head?, isBlank c = false) ∧ ∀ c ∈ text.getLast?, isBlank c = false := by
  constructor
  · intro same
    have start : trimStart text = text := by
      have shorter : (trim text).length ≤ (trimStart text).length :=
        calc (trim text).length
          _ = ((trimStart text).reverse.dropWhile isBlank).length := List.length_reverse
          _ ≤ (trimStart text).reverse.length := (List.dropWhile_suffix _).length_le
          _ = (trimStart text).length := List.length_reverse
      rw [same] at shorter
      exact (List.dropWhile_suffix _).eq_of_length_le shorter
    have back : text.reverse.dropWhile isBlank = text.reverse := by
      rw [trim, start, trimEnd, dropEndWhile] at same
      rw [← List.reverse_reverse (text.reverse.dropWhile isBlank), same]
    have solid {t : List Char} (whole : t.dropWhile isBlank = t) :
        ∀ c ∈ t.head?, isBlank c = false := by
      have ended := dropWhile_ends isBlank t
      rwa [whole] at ended
    refine ⟨solid start, ?_⟩
    rw [← List.head?_reverse]
    exact solid back
  · rintro ⟨first, last⟩
    rw [← List.head?_reverse] at last
    rw [trim, trimStart, dropWhile_eq_self first, trimEnd, dropEndWhile, dropWhile_eq_self last,
      List.reverse_reverse]

/-- What is left when blanks are cut off has none at either end. -/
theorem trim_trim (text : List Char) : trim (trim text) = trim text := by
  rw [trim_eq_self_iff]
  constructor
  · intro c first
    have front : trim text <+: trimStart text := by
      rw [← List.reverse_suffix, trim, trimEnd, dropEndWhile, List.reverse_reverse]
      exact List.dropWhile_suffix _
    obtain ⟨more, whole⟩ := front
    refine dropWhile_ends isBlank text c ?_
    rw [← trimStart, ← whole, List.head?_append, Option.mem_def.mp first]
    rfl
  · rw [trim, trimEnd, dropEndWhile, List.getLast?_reverse]
    exact dropWhile_ends isBlank _

theorem trim_subset (text : List Char) : trim text ⊆ text := by
  intro c member
  rw [trim, trimEnd, dropEndWhile, List.mem_reverse] at member
  have inside := List.mem_reverse.mp ((List.dropWhile_suffix _).subset member)
  exact (List.dropWhile_suffix _).subset inside

/-- A sign for another cuts as much off, where both or neither are blanks. -/
theorem trim_map {f : Char → Char} (kept : ∀ c, isBlank (f c) = isBlank c) (text : List Char) :
    trim (text.map f) = (trim text).map f := by
  have whole : isBlank ∘ f = isBlank := funext kept
  simp only [trim, trimEnd, dropEndWhile, trimStart, ← List.map_reverse, List.dropWhile_map, whole]

/-- A sign that is no blank keeps what stands in front of it. -/
theorem trimEnd_append {front : List Char} (ends : ∀ c ∈ front.getLast?, isBlank c = false)
    (back : List Char) : trimEnd (front ++ back) = front ++ trimEnd back := by
  rw [← List.head?_reverse] at ends
  rw [trimEnd, trimEnd, dropEndWhile, dropEndWhile, List.reverse_append, List.dropWhile_append,
    dropWhile_eq_self ends]
  split_ifs with blank
  · rw [List.isEmpty_iff.mp blank]
    simp
  · simp

theorem dropPrefix?_eq_some {start text rest : List Char} :
    dropPrefix? start text = some rest ↔ text = start ++ rest := by
  induction start generalizing text with
  | nil => simp [dropPrefix?]
  | cons p start ih =>
    cases text with
    | nil => simp [dropPrefix?]
    | cons c text =>
      rw [dropPrefix?]
      split_ifs with same
      · rw [ih, beq_iff_eq.mp same, List.cons_append, List.cons_inj_right]
      · refine ⟨nofun, fun whole => absurd ?_ same⟩
        rw [beq_iff_eq, (List.cons.inj whole).1]

theorem startsWith_iff {text start : List Char} : startsWith text start = true ↔ start <+: text := by
  rw [startsWith, Option.isSome_iff_exists]
  exact exists_congr fun rest => dropPrefix?_eq_some.trans eq_comm

theorem endsWith_iff {text ending : List Char} : endsWith text ending = true ↔ ending <:+ text :=
  startsWith_iff.trans List.reverse_prefix

/-- The pieces between signs are those of the library. -/
theorem pieces_eq (sign : Char) (text : List Char) : pieces sign text = text.splitOn sign := by
  induction text with
  | nil => rfl
  | cons c text ih =>
    rw [pieces, List.splitOn_cons_eq_if_modifyHead, ← ih]
    split_ifs
    · rfl
    · cases found : pieces sign text with
      | nil => exact absurd (ih.symm.trans found) (List.splitOn_ne_nil sign text)
      | cons first others => rfl

theorem pieces_ne_nil (sign : Char) (text : List Char) : pieces sign text ≠ [] :=
  pieces_eq sign text ▸ List.splitOn_ne_nil sign text

theorem intercalate_pieces (sign : Char) (text : List Char) :
    [sign].intercalate (pieces sign text) = text := by
  rw [pieces_eq, List.intercalate_splitOn]

theorem pieces_sign (sign : Char) (front rest : List Char) :
    pieces sign (front ++ sign :: rest) = pieces sign front ++ pieces sign rest := by
  simp only [pieces_eq, List.splitOn_append_cons_self]

theorem intercalate_append (separator : List Char) {front parts : List (List Char)} (some_front : front ≠ [])
    (some_parts : parts ≠ []) : separator.intercalate (front ++ parts) =
      separator.intercalate front ++ (separator ++ separator.intercalate parts) := by
  induction front with
  | nil => contradiction
  | cons part front ih =>
    cases front with
    | nil => rw [List.singleton_append, List.intercalate_cons_of_ne_nil some_parts,
        List.intercalate_singleton, List.append_assoc]
    | cons next front =>
      rw [List.cons_append, List.cons_append, List.intercalate_cons_cons, ← List.cons_append,
        ih (List.cons_ne_nil _ _), List.intercalate_cons_cons]
      simp only [List.append_assoc]

theorem intercalate_front (separator part : List Char) (parts : List (List Char)) :
    ∃ more, separator.intercalate (part :: parts) = part ++ more := by
  cases parts with
  | nil => exact ⟨[], by simp⟩
  | cons next parts => exact ⟨_, by rw [List.intercalate_cons_cons, List.append_assoc]⟩

theorem mem_intercalate {c : Char} {separator : List Char} (other : c ∉ separator)
    (parts : List (List Char)) : c ∈ separator.intercalate parts ↔ ∃ part ∈ parts, c ∈ part := by
  induction parts with
  | nil => simp
  | cons part parts ih =>
    cases parts with
    | nil => simp
    | cons next parts =>
      rw [List.intercalate_cons_cons, List.mem_append, List.mem_append, ih]
      simp [other]

/-- The last piece is empty where nothing stands behind the last sign. -/
theorem pieces_getLast? {sign : Char} {text : List Char} :
    (pieces sign text).getLast? = some [] ↔ text = [] ∨ ∃ front, text = front ++ [sign] := by
  constructor
  · intro last
    obtain ⟨parts, cut⟩ := List.getLast?_eq_some_iff.mp last
    have joined := intercalate_pieces sign text
    rw [cut] at joined
    cases parts with
    | nil => exact .inl joined.symm
    | cons part parts =>
      rw [intercalate_append _ (List.cons_ne_nil _ _) (List.cons_ne_nil _ _)] at joined
      exact .inr ⟨_, joined.symm⟩
  · rintro (rfl | ⟨front, rfl⟩)
    · rfl
    · rw [pieces_sign, pieces, List.getLast?_concat]

/-- The words of a text are the pieces between what separates them, without the empty ones. -/
theorem words_eq (separates : Char → Bool) (text : List Char) :
    words separates text = (text.splitOnP separates).filter (· ≠ []) := by
  induction text with
  | nil => rfl
  | cons c text ih =>
    rw [words.eq_def, List.splitOnP_cons_eq_if_modifyHead]
    dsimp only
    split_ifs with cut
    · simpa using ih
    · cases text with
      | nil => rfl
      | cons d text =>
        dsimp only
        rw [ih, List.splitOnP_cons_eq_if_modifyHead]
        split_ifs
        · rfl
        · obtain ⟨first, others, cut⟩ := List.exists_cons_of_ne_nil (List.splitOnP_ne_nil separates text)
          rw [cut]
          rfl

section Apart

variable {sign : Char} {front : List Char}

theorem pieces_whole (apart : sign ∉ front) : pieces sign front = [front] :=
  (pieces_eq sign front).trans (List.splitOn_eq_singleton apart)

theorem pieces_cons (sign c : Char) (text : List Char) : ∃ first others,
    pieces sign (c :: text) = first :: others ∧ (first = [] ∨ ∃ more, first = c :: more) := by
  rw [pieces]
  split
  · exact ⟨[], _, rfl, .inl rfl⟩
  · split
    · exact ⟨[c], [], rfl, .inr ⟨[], rfl⟩⟩
    · exact ⟨_, _, rfl, .inr ⟨_, rfl⟩⟩

/-- What is put together with a sign between its parts falls into them again. -/
theorem pieces_names {separator : String} {names : List String} (single : separator.toList = [sign])
    (some_name : names ≠ []) (apart : ∀ name ∈ names, sign ∉ name.toList) :
    pieces sign (separator.intercalate names).toList = names.map String.toList := by
  rw [pieces_eq, String.toList_intercalate, single]
  exact List.splitOn_intercalate sign (List.forall_mem_map.mpr apart) (mt List.map_eq_nil_iff.mp some_name)

/-- A sign that a text holds stands in it for the last time somewhere. -/
theorem exists_behind_last {text : List Char} (member : sign ∈ text) :
    ∃ front last, text = front ++ sign :: last ∧ sign ∉ last := by
  obtain ⟨last, front, split, apart⟩ := List.eq_append_cons_of_mem (List.mem_reverse.mpr member)
  refine ⟨front.reverse, last.reverse, ?_, mt List.mem_reverse.mp apart⟩
  rw [List.reverse_eq_iff.mp split]
  simp

theorem ne_of_apart (apart : sign ∉ front) : ∀ c ∈ front, (c != sign) = true := by
  intro c member
  rw [bne_iff_ne]
  exact fun same => apart (same ▸ member)

theorem cutAt_append (apart : sign ∉ front) (rest : List Char) :
    cutAt sign (front ++ sign :: rest) = (front, rest) := by
  have ends : ∀ c ∈ (sign :: rest).head?, (c != sign) = false := by simp
  obtain ⟨taken, dropped⟩ := span_front (ne_of_apart apart) ends
  rw [cutAt, taken, dropped, List.drop_one, List.tail_cons]

theorem cutAt_whole (apart : sign ∉ front) : cutAt sign front = (front, []) := by
  have within := ne_of_apart apart
  rw [cutAt, List.takeWhile_eq_self_iff.mpr within, List.dropWhile_eq_nil_iff.mpr within]
  rfl

end Apart

end NoteQuery.Text
