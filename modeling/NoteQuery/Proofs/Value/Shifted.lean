import NoteQuery.Proofs.Calendar.Count
import NoteQuery.Proofs.Number.Whole
import NoteQuery.Proofs.Value.Moment
import NoteQuery.Value.Arithmetic

/-! Moments moved by milliseconds. A moment that is moved within the calendar is as far from where it was
as it has been moved, and can be moved back. -/
namespace NoteQuery

open Moment (InCalendar)

variable {m e : Moment} {n k : Int}

namespace Value

theorem moveMoment_int (m : Moment) (n : Int) (back : Bool) : moveMoment m (.int n) back =
    match Moment.ofLocalMicros? (m.localMicros + if back then -(n * 1000) else n * 1000) m.offset with
    | some moved => .ok (moment moved)
    | none => .error .outOfRange := rfl

theorem moveMoment_eq_ok {back : Bool} : moveMoment m (.int n) back = .ok (moment e) ↔
    e.localMicros = (m.localMicros + if back then -(n * 1000) else n * 1000) ∧ e.offset = m.offset := by
  rw [moveMoment_int, ← Moment.ofLocalMicros?_eq_some_iff]
  cases Moment.ofLocalMicros? (m.localMicros + if back then -(n * 1000) else n * 1000) m.offset <;> simp

/-- No two moments of the calendar are so many milliseconds apart that the number would be rounded. -/
theorem momentDifference_eq (naive : m.offset = none) (naive' : e.offset = none)
    (apart : e.localMicros = m.localMicros + n * 1000) : momentDifference e m = .ok (int n) := by
  have first := Moment.inCalendar_iff.mp m.localMicros_inCalendar
  have second := Moment.inCalendar_iff.mp e.localMicros_inCalendar
  have small : n.natAbs < 2 ^ 53 := by omega
  obtain ⟨x, made, exact⟩ := Binary64.exists_ofInt? (.of_small small.le)
  have quotient : Binary64.ofQuotient? (n * 1000) 1000 = some x := by rw [Binary64.ofQuotient?_mul (by decide), made]
  have whole : collapse x = int n := collapse_eq_int_iff.mpr ⟨exact, small⟩
  have micros : e.micros - m.micros = n * 1000 := by
    simp only [Moment.micros, naive, naive', apart]
    omega
  rw [momentDifference, naive, naive', if_pos rfl, micros, quotient, ← whole]

theorem order_moved (naive : m.offset = none) (naive' : e.offset = none)
    (apart : e.localMicros = m.localMicros + n * 1000) :
    order (moment e) (moment m) = .ok (some (compare n 0)) := by
  have later : compare e.localMicros m.localMicros = compare n 0 := by
    rw [apart]
    rcases lt_trichotomy n 0 with before | rfl | behind
    · rw [compare_lt_iff_lt.mpr before, compare_lt_iff_lt]
      omega
    · simp
    · rw [compare_gt_iff_gt.mpr behind, compare_gt_iff_gt]
      omega
  simp [order, orderSingle, isMoment, orderAsMoments, moment?_moment naive, moment?_moment naive', later,
    bind, Except.bind]

theorem moveMoment_again (same : e.offset = m.offset) (moved : e.localMicros = m.localMicros + n * 1000) :
    moveMoment e (.int k) false = moveMoment m (.int (n + k)) false := by
  have further : m.localMicros + n * 1000 + k * 1000 = m.localMicros + (n + k) * 1000 := by omega
  simp only [moveMoment_int, same, moved, Bool.false_eq_true, if_false, further]

/-- A moment that is moved within the calendar by `n` milliseconds is `n` of them behind where it was, is
moved back by as many, and is moved on as from there. -/
theorem arithmetic_shift (naive : m.offset = none) (inside : InCalendar (m.localMicros + n * 1000)) :
    ∃ e, e.offset = none ∧ e.localMicros = m.localMicros + n * 1000 ∧
      arithmetic .add (moment m) (int n) = .ok (moment e) ∧
      arithmetic .add (int n) (moment m) = .ok (moment e) ∧
      arithmetic .sub (moment e) (moment m) = .ok (int n) ∧
      arithmetic .sub (moment e) (int n) = .ok (moment m) ∧
      order (moment e) (moment m) = .ok (some (compare n 0)) ∧
      ∀ k, arithmetic .add (moment e) (int k) = arithmetic .add (moment m) (int (n + k)) := by
  obtain ⟨e, made⟩ := Moment.exists_ofLocalMicros? inside m.offset
  obtain ⟨moved, same⟩ := Moment.ofLocalMicros?_eq_some_iff.mp made
  have naive' : e.offset = none := same.trans naive
  have forth : moveMoment m (.int n) false = .ok (moment e) := moveMoment_eq_ok.mpr ⟨moved, same⟩
  have back : moveMoment e (.int n) true = .ok (moment m) := by
    refine moveMoment_eq_ok.mpr ⟨?_, same.symm⟩
    rw [if_pos rfl, moved]
    omega
  refine ⟨e, naive', moved, ?_, ?_, ?_, ?_, order_moved naive naive' moved, fun k => ?_⟩
  · rw [arithmetic, forth]
    rfl
  · rw [arithmetic, forth]
    rfl
  · rw [arithmetic, momentDifference_eq naive naive' moved]
    rfl
  · rw [arithmetic, back]
    rfl
  · rw [arithmetic, arithmetic, moveMoment_again same moved]

/-- Half a millisecond before a leap day begins. -/
def eveOfLeapDay : Moment :=
  ⟨(Date.ofParts? 2024 2 28).get (by decide), (Clock.ofParts? 23 59 59 999500).get (by decide), none⟩

theorem arithmetic_shift_leap : eveOfLeapDay.offset = none ∧
    InCalendar (eveOfLeapDay.localMicros + 1 * 1000) ∧
    ∃ e, arithmetic .add (moment eveOfLeapDay) (int 1) = .ok (moment e) ∧
      arithmetic .sub (moment e) (moment eveOfLeapDay) = .ok (int 1) := by
  have inside : InCalendar (eveOfLeapDay.localMicros + 1 * 1000) := by
    rw [Moment.inCalendar_iff]
    decide +kernel
  obtain ⟨e, _, _, forth, _, apart, _⟩ := arithmetic_shift rfl inside
  exact ⟨rfl, inside, e, forth, apart⟩

end Value

end NoteQuery
