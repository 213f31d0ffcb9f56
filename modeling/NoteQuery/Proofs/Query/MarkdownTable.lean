import NoteQuery.Proofs.Query.Shown
import NoteQuery.Proofs.Text.Search

/-! Markdown tables, read back. A row stands on a line of its own between bars, with a blank on both
sides of each cell, and a bar behind a backslash belongs to its cell. Escaping takes care of bars and of
feeds, alone or behind a return, but leaves a return on its own as it is. So the table is whole for a
reader whose lines end at feeds, and for one whose lines end at returns too exactly if there is no such
return in a cell. -/
namespace NoteQuery

namespace Markdown

def prepend (c : Char) : List (List Char) → List (List Char)
  | piece :: pieces => (c :: piece) :: pieces
  | [] => [[c]]

/-- The lines of a text. A line ends at a feed, with a return in front of it or not, and also at a
return on its own where those count. -/
def lines (returns : Bool) : List Char → List (List Char)
  | [] => [[]]
  | '\r' :: '\n' :: rest => [] :: lines returns rest
  | c :: rest =>
    if c = '\n' ∨ c = '\r' ∧ returns = true then [] :: lines returns rest
    else prepend c (lines returns rest)

/-- The pieces of a line between its bars. A bar right behind a backslash does not cut. -/
def pieces (escaped : Bool) : List Char → List (List Char)
  | [] => [[]]
  | c :: rest =>
    if c = '|' ∧ escaped = false then [] :: pieces false rest
    else prepend c (pieces (c = '\\') rest)

def unescape : List Char → List Char
  | [] => []
  | '\\' :: '|' :: rest => '|' :: unescape rest
  | c :: rest => c :: unescape rest

/-- The text of a piece between two bars, without the blank on either side. -/
def cell? : List Char → Option String
  | ' ' :: padded =>
    if padded.getLast? = some ' ' then some (String.ofList (unescape padded.dropLast)) else none
  | _ => none

/-- The cells of a line that begins and ends with a bar. -/
def cells? (line : List Char) : Option (List String) :=
  match pieces false line with
  | [] :: inner => if inner.getLast? = some [] then inner.dropLast.mapM cell? else none
  | _ => none

/-- The text with a tag for the end of each line. -/
def tagged (returns : Bool) (text : String) : String :=
  String.ofList (Cell.lineBreak.intercalate (lines returns text.toList))

/-- The last lines of the text are a header, a separator and the rows of a table. -/
def EndsInTable (returns : Bool) (text : String) (columns : List String)
    (table : List (List String)) : Prop :=
  ∃ front header separator body,
    lines returns text.toList = front ++ header :: separator :: body ∧
    cells? header = some (columns.map (tagged returns)) ∧
    cells? separator = some (columns.map fun _ => "---") ∧
    List.Forall₂ (fun line row => cells? line = some (row.map (tagged returns))) body table

/-- There is a return without a feed behind it. -/
def LoneReturn (text : List Char) : Prop :=
  ∃ before after, text = before ++ '\r' :: after ∧ after.head? ≠ some '\n'

variable {returns : Bool} {c : Char} {text rest : List Char}

theorem prepend_append {front : List (List Char)} (some_piece : front ≠ [])
    (later : List (List Char)) : prepend c (front ++ later) = prepend c front ++ later := by
  cases front with
  | nil => exact absurd rfl some_piece
  | cons piece front => rfl

theorem lines_ne_nil : lines returns text ≠ [] := by
  fun_induction lines returns text with
  | case4 => unfold prepend; split <;> simp
  | _ => simp

theorem lines_cons (apart : c = '\r' → rest.head? ≠ some '\n') :
    lines returns (c :: rest) = if c = '\n' ∨ c = '\r' ∧ returns = true then [] :: lines returns rest
      else prepend c (lines returns rest) := by
  rw [lines]
  rintro _ rfl rfl
  simp at apart

theorem lines_append {line : List Char} (closed : line.getLast? ≠ some '\r') (rest : List Char) :
    lines returns (line ++ '\n' :: rest) = lines returns line ++ lines returns rest := by
  have shorter {c : Char} {line : List Char} (closed : (c :: line).getLast? ≠ some '\r') :
      line.getLast? ≠ some '\r' := by
    intro last
    simp [List.getLast?_cons, last] at closed
  have apart {c : Char} {line : List Char} (closed : (c :: line).getLast? ≠ some '\r')
      (single : ∀ more, c = '\r' → line = '\n' :: more → False) :
      c = '\r' → (line ++ '\n' :: rest).head? ≠ some '\n' := by
    rintro rfl
    cases line with
    | nil => simp at closed
    | cons d line =>
      rintro same
      simp only [List.cons_append, List.head?_cons, Option.some.injEq] at same
      exact single line rfl (same ▸ rfl)
  fun_induction lines returns line with
  | case1 => simp [lines]
  | case2 line ih => simp [lines, ih (shorter (shorter closed))]
  | case3 c line single ends ih =>
    rw [List.cons_append, lines_cons (apart closed single), if_pos ends, ih (shorter closed)]
    rfl
  | case4 c line single inside ih =>
    rw [List.cons_append, lines_cons (apart closed single), if_neg inside, ih (shorter closed),
      prepend_append lines_ne_nil]

theorem lines_single {line : List Char} (feedless : '\n' ∉ line)
    (returnless : returns = true → '\r' ∉ line) : lines returns line = [line] := by
  fun_induction lines returns line with
  | case1 => rfl
  | case2 => simp at feedless
  | case3 c line _ ends =>
    rcases ends with rfl | ⟨rfl, counts⟩
    · simp at feedless
    · exact absurd List.mem_cons_self (returnless counts)
  | case4 c line _ _ ih =>
    rw [ih (fun inside => feedless (List.mem_cons_of_mem _ inside))
      fun counts inside => returnless counts (List.mem_cons_of_mem _ inside), prepend]

theorem loneReturn_cons : LoneReturn (c :: rest) ↔
    c = '\r' ∧ rest.head? ≠ some '\n' ∨ LoneReturn rest := by
  constructor
  · rintro ⟨before, after, split, apart⟩
    cases before with
    | nil =>
      obtain ⟨rfl, rfl⟩ := List.cons.inj split
      exact .inl ⟨rfl, apart⟩
    | cons d before => exact .inr ⟨before, after, (List.cons.inj split).2, apart⟩
  · rintro (⟨rfl, apart⟩ | ⟨before, after, rfl, apart⟩)
    · exact ⟨[], rest, rfl, apart⟩
    · exact ⟨c :: before, after, rfl, apart⟩

theorem escaped_feedless (text : List Char) : '\n' ∉ Cell.markdownChars text := by
  fun_induction Cell.markdownChars text with
  | case5 c _ _ _ other => simp_all [eq_comm]
  | _ => simp_all [Cell.lineBreak]

/-- Escaping leaves a return exactly where it stands on its own. -/
theorem escaped_return (text : List Char) :
    '\r' ∈ Cell.markdownChars text ↔ LoneReturn text := by
  fun_induction Cell.markdownChars text with
  | case1 => simp [LoneReturn]
  | case5 c rest _ single _ ih =>
    have apart : c = '\r' → rest.head? ≠ some '\n' := by
      rintro rfl feed
      obtain ⟨more, rfl⟩ := List.head?_eq_some_iff.mp feed
      exact single more rfl rfl
    rw [List.mem_cons, ih, loneReturn_cons, eq_comm, and_iff_left_of_imp apart]
  | _ => simp_all [loneReturn_cons, Cell.lineBreak]

theorem escaped_head (text : List Char) : (Cell.markdownChars text).head? ≠ some '|' := by
  fun_induction Cell.markdownChars text <;> simp_all [Cell.lineBreak]

theorem intercalate_prepend {sep : List Char} {pieces : List (List Char)} (some_piece : pieces ≠ []) :
    sep.intercalate (prepend c pieces) = c :: sep.intercalate pieces := by
  match pieces with
  | [] => exact absurd rfl some_piece
  | [piece] => simp [prepend]
  | piece :: piece' :: pieces => simp [prepend]

theorem intercalate_next {sep : List Char} {pieces : List (List Char)} (some_piece : pieces ≠ []) :
    sep.intercalate ([] :: pieces) = sep ++ sep.intercalate pieces := by
  match pieces with
  | [] => exact absurd rfl some_piece
  | piece :: pieces => simp

/-- Unescaped, an escaped text has tags where its lines ended. -/
theorem unescape_escaped (text : List Char) :
    unescape (Cell.markdownChars text) = Cell.lineBreak.intercalate (lines false text) := by
  have tag (rest : List Char) :
      unescape (Cell.lineBreak ++ rest) = Cell.lineBreak ++ unescape rest := by
    simp [Cell.lineBreak, unescape]
  fun_induction Cell.markdownChars text with
  | case1 => simp [unescape, lines]
  | case2 rest ih =>
    rw [lines_cons (by simp), if_neg (by simp), intercalate_prepend lines_ne_nil, unescape, ih]
  | case3 rest ih => rw [lines, intercalate_next lines_ne_nil, tag, ih]
  | case4 rest ih =>
    rw [lines_cons (by simp), if_pos (.inl rfl), intercalate_next lines_ne_nil, tag, ih]
  | case5 c rest _ single other ih =>
    have apart : c = '\r' → rest.head? ≠ some '\n' := by
      rintro rfl feed
      obtain ⟨more, rfl⟩ := List.head?_eq_some_iff.mp feed
      exact single more rfl rfl
    have unmarked : unescape (c :: Cell.markdownChars rest) =
        c :: unescape (Cell.markdownChars rest) := by
      rw [unescape]
      rintro more rfl bar
      exact escaped_head rest (by rw [bar]; rfl)
    rw [lines_cons apart, if_neg (by simpa using other), intercalate_prepend lines_ne_nil, unmarked, ih]

theorem pieces_blank (escaped : Bool) (rest : List Char) :
    pieces escaped (' ' :: rest) = prepend ' ' (pieces false rest) := by
  rw [pieces, if_neg (by simp)]
  rfl

theorem pieces_bar (rest : List Char) : pieces false ('|' :: rest) = [] :: pieces false rest := by
  rw [pieces, if_pos ⟨rfl, rfl⟩]

/-- No bar of an escaped text cuts, whatever stands in front of it. -/
theorem pieces_escaped (escaped : Bool) (text rest : List Char) :
    pieces escaped (Cell.markdownChars text ++ ' ' :: rest) =
      (Cell.markdownChars text ++ [' ']).foldr prepend (pieces false rest) := by
  have free {c : Char} (other : c ≠ '|') (escaped : Bool) (rest : List Char) :
      pieces escaped (c :: rest) = prepend c (pieces (c = '\\') rest) := by
    rw [pieces, if_neg (by simp [other])]
  have tag (escaped : Bool) (rest : List Char) :
      pieces escaped (Cell.lineBreak ++ rest) = Cell.lineBreak.foldr prepend (pieces false rest) := by
    simp [Cell.lineBreak, free]
  fun_induction Cell.markdownChars text generalizing escaped with
  | case1 => simp [pieces_blank]
  | case2 text ih => simp [free, pieces, ih]
  | case3 text ih | case4 text ih =>
    rw [List.append_assoc, tag, ih, ← List.foldr_append, ← List.append_assoc]
  | case5 c text other _ _ ih => simp [free other, ih]

theorem foldr_prepend (front piece : List Char) (later : List (List Char)) :
    front.foldr prepend (piece :: later) = (front ++ piece) :: later := by
  induction front with
  | nil => rfl
  | cons c front ih => rw [List.foldr_cons, ih, prepend, List.cons_append]

/-! Rows. -/

def row (cells : List (List Char)) : List Char :=
  '|' :: ' ' :: [' ', '|', ' '].intercalate cells ++ [' ', '|']

variable {texts : List (List Char)}

theorem pieces_row (some_text : texts ≠ []) : pieces false (row (texts.map Cell.markdownChars)) =
    [] :: (texts.map fun text => ' ' :: (Cell.markdownChars text ++ [' '])) ++ [[]] := by
  rw [row, List.cons_append, List.cons_append, pieces_bar, List.cons_append, List.cons_inj_right]
  induction texts with
  | nil => exact absurd rfl some_text
  | cons text texts ih =>
    cases texts with
    | nil =>
      rw [List.map_singleton, List.intercalate_singleton, pieces_blank, pieces_escaped, pieces_bar,
        foldr_prepend, prepend]
      simp [pieces]
    | cons text' texts =>
      have others := ih (by simp)
      rw [List.map_cons, List.map_cons] at others
      rw [List.map_cons, List.map_cons, List.intercalate_cons_cons, pieces_blank, List.append_assoc,
        List.append_assoc, List.cons_append, pieces_escaped, List.cons_append, pieces_bar,
        List.singleton_append, others, foldr_prepend, prepend]
      simp

theorem mapM_cell? (texts : List (List Char)) :
    (texts.map fun text => ' ' :: (Cell.markdownChars text ++ [' '])).mapM cell? =
      some (texts.map fun text => tagged false (String.ofList text)) := by
  have each (text : List Char) : cell? (' ' :: (Cell.markdownChars text ++ [' '])) =
      some (tagged false (String.ofList text)) := by
    simp [cell?, unescape_escaped, tagged]
  induction texts with
  | nil => rfl
  | cons text texts ih => rw [List.map_cons, List.mapM_cons, each, ih]; rfl

theorem cells?_row (some_text : texts ≠ []) : cells? (row (texts.map Cell.markdownChars)) =
    some (texts.map fun text => tagged false (String.ofList text)) := by
  rw [cells?, pieces_row some_text]
  simp only [List.cons_append, List.getLast?_concat, if_true, List.dropLast_concat, mapM_cell?]

theorem cells?_front {line : List Char} {cells : List String} (read : cells? line = some cells) :
    line.head? = some '|' := by
  cases line with
  | nil => simp [cells?, pieces] at read
  | cons c line =>
    by_cases bar : c = '|'
    · rw [bar]; rfl
    · have grown : ∃ piece more, pieces false (c :: line) = (c :: piece) :: more := by
        rw [pieces, if_neg (by simp [bar])]
        cases pieces (c = '\\') line with
        | nil => exact ⟨[], [], rfl⟩
        | cons piece more => exact ⟨piece, more, rfl⟩
      obtain ⟨piece, more, split⟩ := grown
      simp [cells?, split] at read

theorem mem_row {d : Char} (plain : d ≠ '|' ∧ d ≠ ' ') (cells : List (List Char)) :
    d ∈ row cells ↔ ∃ cell ∈ cells, d ∈ cell := by
  have inner := Text.mem_intercalate (show d ∉ [' ', '|', ' '] by simp [plain]) cells
  simp [row, plain, inner]

theorem row_feedless (texts : List (List Char)) : '\n' ∉ row (texts.map Cell.markdownChars) := by
  simp [mem_row (d := '\n') (by decide), escaped_feedless]

theorem row_return (texts : List (List Char)) :
    '\r' ∈ row (texts.map Cell.markdownChars) ↔ ∃ text ∈ texts, LoneReturn text := by
  simp [mem_row (d := '\r') (by decide), escaped_return]

/-- No bar stands right behind a return. -/
def Shielded (line : List Char) : Prop := line.IsChain fun c d => c = '\r' → d ≠ '|'

theorem shielded_escaped (text : List Char) : Shielded (Cell.markdownChars text) := by
  unfold Shielded
  fun_induction Cell.markdownChars text with
  | case1 => exact .nil
  | case5 c rest _ _ _ ih =>
    refine List.isChain_cons.mpr ⟨?_, ih⟩
    rintro d first _ rfl
    exact escaped_head rest first
  | _ => simp_all [Cell.lineBreak, List.isChain_cons]

theorem shielded_row {cells : List (List Char)} (each : ∀ cell ∈ cells, Shielded cell) :
    Shielded (row cells) := by
  have inner : Shielded ([' ', '|', ' '].intercalate cells ++ [' ', '|']) := by
    unfold Shielded at each ⊢
    induction cells with
    | nil => simp
    | cons cell cells ih =>
      have here := each cell (by simp)
      have others := ih fun cell inside => each cell (List.mem_cons_of_mem _ inside)
      cases cells with
      | nil => simpa [List.isChain_append] using here
      | cons cell' cells =>
        rw [List.intercalate_cons_cons, List.append_assoc, List.append_assoc, List.isChain_append]
        refine ⟨here, ?_, by simp⟩
        simpa [List.isChain_cons] using others
  exact .cons_cons (by decide) (List.isChain_cons.mpr ⟨by simp, inner⟩)

theorem tail_prepend (pieces : List (List Char)) : (prepend c pieces).tail = pieces.tail := by
  cases pieces <;> rfl

theorem lines_first {line : List Char} (feedless : '\n' ∉ line) :
    ∀ piece ∈ (lines true line).head?, piece.head? = some '|' → line.head? = some '|' := by
  cases line with
  | nil => simp [lines]
  | cons c line =>
    simp only [List.mem_cons, not_or] at feedless
    rw [lines_cons fun _ feed => feedless.2 (List.mem_of_mem_head? feed)]
    split
    · simp
    · cases lines true line <;> simp [prepend]

/-- Where returns count, no line of a row but the first begins with a bar. -/
theorem lines_later {line : List Char} (feedless : '\n' ∉ line) (shielded : Shielded line) :
    ∀ piece ∈ (lines true line).tail, piece.head? ≠ some '|' := by
  induction line with
  | nil => simp [lines]
  | cons c line ih =>
    simp only [List.mem_cons, not_or] at feedless
    obtain ⟨guarded, shielded⟩ := List.isChain_cons.mp shielded
    have later := ih feedless.2 shielded
    have first := lines_first feedless.2
    rw [lines_cons fun _ feed => feedless.2 (List.mem_of_mem_head? feed)]
    split
    -- The line ends here at a return, and no bar stands behind a return.
    · rename_i ends
      have returned : c = '\r' := (ends.resolve_left (Ne.symm feedless.1)).1
      rw [List.tail_cons]
      cases cut : lines true line with
      | nil => simp
      | cons piece pieces =>
        rw [cut] at later first
        refine List.forall_mem_cons.mpr ⟨fun bar => ?_, later⟩
        exact guarded '|' (first piece rfl bar) returned rfl
    · rwa [tail_prepend]

/-- A row is a single line only if there is no return in it. -/
theorem returnless_of_whole {line : List Char} (feedless : '\n' ∉ line)
    (whole : (lines true line).tail = []) : '\r' ∉ line := by
  induction line with
  | nil => simp
  | cons c line ih =>
    simp only [List.mem_cons, not_or] at feedless ⊢
    have apart : c = '\r' → line.head? ≠ some '\n' :=
      fun _ feed => feedless.2 (List.mem_of_mem_head? feed)
    rw [lines_cons apart] at whole
    split at whole
    · exact absurd whole lines_ne_nil
    · rename_i inside
      rw [tail_prepend] at whole
      exact ⟨fun returned => inside (.inr ⟨returned.symm, rfl⟩), ih feedless.2 whole⟩

/-- It makes no difference to a text without returns on their own whether those count. -/
theorem lines_returns (text : List Char) (whole : ¬ LoneReturn text) :
    lines returns text = lines false text := by
  fun_induction lines returns text with
  | case1 => rfl
  | case2 rest ih =>
    simp only [loneReturn_cons, not_or] at whole
    rw [lines, ih whole.2.2]
  | case3 c rest single _ ih | case4 c rest single _ ih =>
    rw [loneReturn_cons, not_or] at whole
    have other : c ≠ '\r' := by
      rintro rfl
      refine whole.1 ⟨rfl, fun feed => ?_⟩
      obtain ⟨more, rfl⟩ := List.head?_eq_some_iff.mp feed
      exact single more rfl rfl
    simp_all [lines_cons]

/-! Tables. -/

def written (texts : List String) : List Char :=
  row ((texts.map String.toList).map Cell.markdownChars)

theorem written_closed (texts : List String) : (written texts).getLast? ≠ some '\r' := by
  simp [written, row, List.getLast?_cons]

theorem written_feedless (texts : List String) : '\n' ∉ written texts := row_feedless _

theorem written_return (texts : List String) :
    '\r' ∈ written texts ↔ ∃ text ∈ texts, LoneReturn text.toList := by
  rw [written, row_return]
  simp

theorem written_shielded (texts : List String) : Shielded (written texts) := by
  refine shielded_row fun cell inside => ?_
  obtain ⟨text, _, rfl⟩ := List.mem_map.mp inside
  exact shielded_escaped text

theorem cells?_written {texts : List String} (some_text : texts ≠ []) :
    cells? (written texts) = some (texts.map (tagged false)) := by
  rw [written, cells?_row (by simpa using some_text)]
  simp

theorem lines_rows (rows : List (List String)) (some_row : rows ≠ []) :
    lines returns (['\n'].intercalate (rows.map written)) =
      rows.flatMap fun texts => lines returns (written texts) := by
  induction rows with
  | nil => exact absurd rfl some_row
  | cons texts rows ih =>
    cases rows with
    | nil => simp
    | cons texts' rows =>
      rw [List.map_cons, List.map_cons, List.intercalate_cons_cons, List.append_assoc,
        List.singleton_append, lines_append (written_closed texts), ← List.map_cons, ih (by simp)]
      rfl

/-- If the text ends in as many lines as there are rows, and each begins with a bar, then each row is
one of these lines. -/
theorem whole_of_ends {rows : List (List String)} {front front' last : List (List Char)}
    (same : front ++ rows.flatMap (fun texts => lines true (written texts)) = front' ++ last)
    (count : last.length = rows.length) (bars : ∀ line ∈ last, line.head? = some '|') :
    ∀ texts ∈ rows, ∀ text ∈ texts, ¬ LoneReturn text.toList := by
  -- From the last row on: its last line begins with a bar, which only a first line does, so the row is
  -- a single line, and without it there are again as many lines as rows.
  induction rows using List.reverseRecOn generalizing last with
  | nil => simp
  | append_singleton rows texts ih =>
    rcases List.eq_nil_or_concat last with rfl | ⟨last, line, rfl⟩
    · simp at count
    · have ends : (lines true (written texts)).getLast? = some line := by
        have ends := congrArg List.getLast? same
        simpa [lines_ne_nil] using ends
      have whole : (lines true (written texts)).tail = [] := by
        by_contra more
        have later : line ∈ (lines true (written texts)).tail := by
          have some_line : lines true (written texts) ≠ [] := lines_ne_nil
          obtain ⟨first, others, split⟩ := List.exists_cons_of_ne_nil some_line
          rw [split, List.tail_cons] at more ⊢
          rw [split, List.getLast?_cons_of_ne_nil more] at ends
          exact List.mem_of_getLast? ends
        exact lines_later (written_feedless texts) (written_shielded texts) line later
          (bars line (by simp))
      have here := returnless_of_whole (written_feedless texts) whole
      have single : lines true (written texts) = [written texts] :=
        lines_single (written_feedless texts) fun _ => here
      rw [written_return] at here
      rw [single, List.getLast?_singleton, Option.some.injEq] at ends
      rw [List.flatMap_append, List.flatMap_singleton, single, ends, List.concat_eq_append,
        ← List.append_assoc, ← List.append_assoc] at same
      have before := ih (List.append_cancel_right same) (by simpa using count)
        fun line inside => bars line (by simp [inside])
      simp only [List.mem_append, List.mem_singleton]
      rintro texts' (inside | rfl)
      · exact before texts' inside
      · simpa using here

/-- A heading, lines of it that end in feeds, and the rows of a table behind them. -/
def page (heading : List Char) (columns : List String) (table : List (List String)) : List Char :=
  heading ++ '\n' :: ['\n'].intercalate
    ((columns :: (columns.map fun _ => "---") :: table).map written)

variable {heading : List Char} {columns : List String} {table : List (List String)} {text : String}

theorem lines_page (closed : heading.getLast? ≠ some '\r') : lines returns (page heading columns table) =
    lines returns heading ++ (columns :: (columns.map fun _ => "---") :: table).flatMap
      fun texts => lines returns (written texts) := by
  rw [page, lines_append closed, lines_rows _ (by simp)]

theorem lines_written {texts : List String}
    (whole : returns = true → ∀ text ∈ texts, ¬ LoneReturn text.toList) :
    lines returns (written texts) = [written texts] := by
  refine lines_single (written_feedless texts) fun counts returned => ?_
  obtain ⟨text, inside, lone⟩ := (written_return texts).mp returned
  exact whole counts text inside lone

theorem tagged_returns {text : String} (whole : returns = true → ¬ LoneReturn text.toList) :
    tagged returns text = tagged false text := by
  cases returns with
  | false => rfl
  | true => rw [tagged, lines_returns text.toList (whole rfl), tagged]

theorem cells?_tagged {texts : List String} (some_text : texts ≠ [])
    (whole : returns = true → ∀ text ∈ texts, ¬ LoneReturn text.toList) :
    cells? (written texts) = some (texts.map (tagged returns)) := by
  rw [cells?_written some_text]
  congr 1
  refine List.map_congr_left fun text inside => ?_
  exact (tagged_returns fun counts => whole counts text inside).symm

/-- A table is read back where no cell has a line end of its own. -/
theorem endsInTable_of_whole (closed : heading.getLast? ≠ some '\r')
    (made : text.toList = page heading columns table) (some_column : columns ≠ [])
    (wide : ∀ row ∈ table, row ≠ [])
    (whole : returns = true → ∀ row ∈ columns :: table, ∀ cell ∈ row, ¬ LoneReturn cell.toList) :
    EndsInTable returns text columns table := by
  have dashed : ∀ dash ∈ columns.map fun _ => "---", ¬ LoneReturn dash.toList := by
    intro dash inside
    obtain ⟨_, _, rfl⟩ := List.mem_map.mp inside
    rw [← escaped_return]
    decide
  have each : ∀ texts ∈ columns :: (columns.map fun _ => "---") :: table,
      lines returns (written texts) = [written texts] := by
    refine List.forall_mem_cons.mpr ⟨?_, List.forall_mem_cons.mpr ⟨?_, fun row inside => ?_⟩⟩
    · exact lines_written fun counts => whole counts columns (by simp)
    · exact lines_written fun _ => dashed
    · exact lines_written fun counts => whole counts row (by simp [inside])
  refine ⟨lines returns heading, written columns, written (columns.map fun _ => "---"),
    table.map written, ?_, ?_, ?_, ?_⟩
  · rw [made, lines_page closed, List.flatMap_congr each, ← List.map_eq_flatMap]
    rfl
  · exact cells?_tagged some_column fun counts => whole counts columns (by simp)
  · have dash : tagged false "---" = "---" := by decide
    simp [cells?_written, some_column, dash]
  · refine List.forall₂_map_left_iff.mpr (List.forall₂_same.mpr fun row inside => ?_)
    exact cells?_tagged (wide row inside) fun counts => whole counts row (by simp [inside])

theorem endsInTable_returns_iff (closed : heading.getLast? ≠ some '\r')
    (made : text.toList = page heading columns table) (some_column : columns ≠ [])
    (wide : ∀ row ∈ table, row ≠ []) : EndsInTable true text columns table ↔
      ∀ row ∈ columns :: table, ∀ cell ∈ row, ¬ LoneReturn cell.toList := by
  refine ⟨fun ⟨front, header, separator, body, split, first, second, rest⟩ => ?_,
    fun whole => endsInTable_of_whole closed made some_column wide fun _ => whole⟩
  rw [made, lines_page closed] at split
  have bars : ∀ line ∈ header :: separator :: body, line.head? = some '|' := by
    have below : ∀ line ∈ body, line.head? = some '|' := by
      intro line inside
      obtain ⟨i, bound, rfl⟩ := List.getElem_of_mem inside
      exact cells?_front ((List.forall₂_iff_get.mp rest).2 i bound (rest.length_eq ▸ bound))
    simpa using ⟨cells?_front first, cells?_front second, below⟩
  have whole := whole_of_ends split (by simp [rest.length_eq]) bars
  intro row inside
  rcases List.mem_cons.mp inside with rfl | inside
  · exact whole row (by simp)
  · exact whole row (by simp [inside])

end Markdown

namespace ResultSet

theorem toList_tableRow (texts : List String) :
    (tableRow (texts.map Cell.markdownCell)).toList = Markdown.written texts := by
  simp [tableRow, Markdown.written, Markdown.row, Cell.markdownCell, Function.comp_def]

def heading (r : ResultSet) : List String :=
  [match r.view with
    | some v => "# Base Export: " ++ v.name
    | none => "# Base Export", "", "Total results: " ++ toString r.total, ""]

/-- The rows of a table: the names of its columns, dashes, and what is shown. -/
def tableRows (r : ResultSet) (chosen : List String) (table : List (List String)) :
    List (List String) :=
  r.columns chosen :: ((r.columns chosen).map fun _ => "---") :: table

variable {r : ResultSet} {chosen : List String} {table : List (List String)}

theorem toMarkdown_rows (some_column : r.columns chosen ≠ [])
    (shown : r.Shows (r.columns chosen) table) : r.toMarkdown chosen = .ok ("\n".intercalate
      (r.heading ++ (r.tableRows chosen table).map fun texts =>
        tableRow (texts.map Cell.markdownCell))) := by
  have body : rows Cell.markdown tableRow (r.columns chosen) r.documents = _ :=
    rows_shown Cell.markdownCell tableRow shown
  have unescaped : ((r.columns chosen).map fun _ => "---").map Cell.markdownCell =
      (r.columns chosen).map fun _ => "---" := by
    have dash : Cell.markdownCell "---" = "---" := by decide
    simp [dash]
  rw [tableRows, List.map_cons, List.map_cons, unescaped]
  obtain ⟨column, columns, named⟩ := List.exists_cons_of_ne_nil some_column
  rw [named] at body ⊢
  rw [toMarkdown, named]
  simp only [body]
  rfl

/-- The text of an export in markdown is a heading and the rows of its table. -/
theorem toMarkdown_page (some_column : r.columns chosen ≠ [])
    (shown : r.Shows (r.columns chosen) table) :
    ∃ text heading, r.toMarkdown chosen = .ok text ∧ heading.getLast? ≠ some '\r' ∧
      text.toList = Markdown.page heading (r.columns chosen) table := by
  have signs : (String.toList ∘ fun texts => tableRow (texts.map Cell.markdownCell)) =
      Markdown.written := funext toList_tableRow
  refine ⟨_, ['\n'].intercalate (r.heading.map String.toList), toMarkdown_rows some_column shown,
    ?_, ?_⟩
  · simp [heading, List.getLast?_cons]
  · rw [String.toList_intercalate, List.map_append, List.map_map, signs]
    simp [Markdown.page, heading, tableRows]

/-- A table in markdown is read back, with tags for the line ends in its cells, by a reader whose lines
end at feeds. One whose lines end at returns too reads it back exactly if no name of a column and no
text that is shown has a return on its own. -/
theorem toMarkdown_table (some_column : r.columns chosen ≠ [])
    (shown : r.Shows (r.columns chosen) table) :
    ∃ text, r.toMarkdown chosen = .ok text ∧
      Markdown.EndsInTable false text (r.columns chosen) table ∧
      (Markdown.EndsInTable true text (r.columns chosen) table ↔
        ∀ row ∈ r.columns chosen :: table, ∀ cell ∈ row, ¬ Markdown.LoneReturn cell.toList) := by
  obtain ⟨text, heading, exported, closed, made⟩ := toMarkdown_page some_column shown
  have wide : ∀ row ∈ table, row ≠ [] := by
    rintro row inside rfl
    exact some_column (List.length_eq_zero_iff.mp (shown.shape.2 [] inside).symm)
  exact ⟨text, exported, Markdown.endsInTable_of_whole closed made some_column wide (by simp),
    Markdown.endsInTable_returns_iff closed made some_column wide⟩

section Sample

theorem toMarkdown_table_awkward : awkward.columns [] ≠ [] ∧
    awkward.Shows (awkward.columns []) [["\"x\",\r\n|y\\", ""], ["", "true, "]] ∧
    ∃ text, awkward.toMarkdown [] = .ok text ∧
      Markdown.EndsInTable false text ["a,b", "n"] [["\"x\",\r\n|y\\", ""], ["", "true, "]] ∧
      Markdown.EndsInTable true text ["a,b", "n"] [["\"x\",\r\n|y\\", ""], ["", "true, "]] := by
  have named : awkward.columns [] ≠ [] := List.cons_ne_nil _ _
  obtain ⟨text, exported, feeds, returns⟩ := toMarkdown_table named awkward_shows
  refine ⟨named, awkward_shows, text, exported, feeds, returns.mpr ?_⟩
  simp only [← Markdown.escaped_return]
  decide

/-- A text with a return on its own. -/
def returning : ResultSet where
  documents := [bare "a" [("n", .text "x\ry")]]
  total := 1
  view := none
  paging := none
  hasMore := false
  skipped := 0

/-- The return ends a line inside of the row. -/
theorem toMarkdown_breaks_rows : ¬ ∀ (r : ResultSet) (chosen : List String)
    (table : List (List String)), r.columns chosen ≠ [] → r.Shows (r.columns chosen) table →
      ∃ text, r.toMarkdown chosen = .ok text ∧
        Markdown.EndsInTable true text (r.columns chosen) table := by
  intro all
  have named : returning.columns [] ≠ [] := List.cons_ne_nil _ _
  have shown : returning.Shows (returning.columns []) [["x\ry"]] :=
    .cons (.cons rfl .nil) .nil
  obtain ⟨text, exported, ends⟩ := all returning [] _ named shown
  obtain ⟨text', heading, exported', closed, made⟩ := toMarkdown_page named shown
  cases exported.symm.trans exported'
  have whole := (Markdown.endsInTable_returns_iff closed made named (by decide)).mp ends
  refine whole ["x\ry"] (by simp) "x\ry" (by simp) ((Markdown.escaped_return _).mp ?_)
  decide

end Sample

end ResultSet

end NoteQuery
