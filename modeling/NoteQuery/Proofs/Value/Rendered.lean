import NoteQuery.Expr.Builtin
import NoteQuery.Proofs.Calendar.Iso
import NoteQuery.Proofs.Query.MarkdownTable
import NoteQuery.Proofs.Value.Moment

/-! Moments as texts. The text that stands for a moment without an offset is read as the moment, is equal
to it, and stands in a table as it is. -/
namespace NoteQuery

namespace Cell

/-- The signs that a cell of one table or the other cannot take as they are. -/
def marks : List Char := [',', '"', '\n', '\r', '|']

variable {text : String}

theorem csvField_unmarked (unmarked : ∀ c ∈ text.toList, c ∉ marks) : csvField text = text := by
  refine if_neg ?_
  rw [Bool.not_eq_true, List.any_eq_false]
  intro c inside marked
  simp only [Bool.or_eq_true, beq_iff_eq] at marked
  refine unmarked c inside ?_
  rcases marked with ((rfl | rfl) | rfl) | rfl <;> decide

theorem markdownChars_unmarked {cs : List Char} (unmarked : ∀ c ∈ cs, c ∉ marks) :
    markdownChars cs = cs := by
  fun_induction markdownChars cs with
  | case1 => rfl
  | case2 rest ih => exact absurd (by decide) (unmarked '|' (.head _))
  | case3 rest ih => exact absurd (by decide) (unmarked '\r' (.head _))
  | case4 rest ih => exact absurd (by decide) (unmarked '\n' (.head _))
  | case5 c rest _ _ _ ih => rw [ih (List.forall_mem_cons.mp unmarked).2]

theorem markdownCell_unmarked (unmarked : ∀ c ∈ text.toList, c ∉ marks) : markdownCell text = text := by
  rw [markdownCell, markdownChars_unmarked unmarked, String.ofList_toList]

end Cell

variable {m : Moment}

theorem Moment.shortText_unmarked (naive : m.offset = none) :
    ∀ c ∈ m.shortText.toList, c ∉ Cell.marks := by
  intro c inside marked
  rcases shortText_plain naive inside with digit | rfl | rfl | rfl | rfl
  · simp only [Cell.marks, List.mem_cons, List.not_mem_nil, or_false] at marked
    rcases marked with rfl | rfl | rfl | rfl | rfl <;> cases digit
  all_goals
    revert marked
    decide

namespace Value

theorem moment?_shortText (naive : m.offset = none) : (text m.shortText).moment? = .ok (some m) := by
  rw [moment?, Moment.readDate_shortText naive]

/-- A moment and a text that is read as it are one. -/
theorem compared_with_text {s : String} (naive : m.offset = none) (read : (text s).moment? = .ok (some m)) :
    equals (moment m) (text s) = .ok true ∧ equals (text s) (moment m) = .ok true ∧
      order (moment m) (text s) = .ok (some .eq) ∧ order (text s) (moment m) = .ok (some .eq) := by
  have itself := moment?_moment naive
  refine ⟨?_, ?_, ?_, ?_⟩
  · simp [equals, equalSingle, isMoment, equalMoments, itself, read, bind, Except.bind, Moment.same]
  · simp [equals, equalSingle, isMoment, equalMoments, itself, read, bind, Except.bind, Moment.same]
  · simp [order, orderSingle, isMoment, orderAsMoments, itself, read, bind, Except.bind]
  · simp [order, orderSingle, isMoment, orderAsMoments, itself, read, bind, Except.bind]

/-- What a moment without an offset is displayed as, by the function `string` and in the cells of both
tables, is a text that is read as the moment, by the function `date` too, and that is equal to it. At
midnight it is the text of the day, else the full one. -/
theorem moment_reads_back (naive : m.offset = none) (present : Moment) :
    ∃ s, s = (if m.clock = .midnight then m.date.text else m.text) ∧
      (moment m).display = .ok s ∧ (text s).moment? = .ok (some m) ∧
      Builtin.text.apply present [moment m] = .ok (text s) ∧
      Builtin.date.apply present [text s] = .ok (moment m) ∧
      Cell.csv (moment m) = .ok s ∧ Cell.markdown (moment m) = .ok s ∧
      equals (moment m) (text s) = .ok true ∧ equals (text s) (moment m) = .ok true ∧
      order (moment m) (text s) = .ok (some .eq) ∧ order (text s) (moment m) = .ok (some .eq) := by
  have read := moment?_shortText naive
  have unmarked := Moment.shortText_unmarked naive
  refine ⟨m.shortText, ?_, rfl, read, rfl, ?_, ?_, ?_, compared_with_text naive read⟩
  · rw [Moment.shortText, Moment.isMidnight]
    exact if_congr (beq_iff_eq.trans Clock.micros_eq_zero_iff) rfl rfl
  · rw [Builtin.apply, Builtin.readMoment, read]
    rfl
  · rw [Cell.csv, display, Except.map, Cell.csvField_unmarked unmarked]
  · rw [Cell.markdown, display, Except.map, Cell.markdownCell_unmarked unmarked]

/-- The leap day of an early year, some microseconds after a second. -/
def leapMoment : Moment :=
  ⟨(Date.ofParts? 4 2 29).get (by decide), (Clock.ofParts? 5 6 7 80).get (by decide), none⟩

theorem moment_reads_back_leap : leapMoment.offset = none ∧
    (moment leapMoment).display = .ok "0004-02-29T05:06:07.000080" ∧
    (text "0004-02-29T05:06:07.000080").moment? = .ok (some leapMoment) := by
  obtain ⟨s, form, shown, read, _⟩ := moment_reads_back (m := leapMoment) rfl leapMoment
  have full : s = "0004-02-29T05:06:07.000080" := form.trans (by decide +kernel)
  exact ⟨rfl, full ▸ shown, full ▸ read⟩

end Value

end NoteQuery
