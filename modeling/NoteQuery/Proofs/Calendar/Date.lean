import Mathlib
import NoteQuery.Calendar.Moment

/-! Days in order. The number of a day and its text both grow with the year, the month and the day,
so the order of texts is the order of days. -/
namespace NoteQuery

/-- A beginning that comes first decides, if both beginnings are equally long. -/
theorem lex_append {l k : List Char} (r s : List Char) (same : l.length = k.length) (less : l < k) :
    l ++ r < k ++ s := by
  induction l generalizing k with
  | nil =>
    rw [List.length_nil, eq_comm, List.length_eq_zero_iff] at same
    simp [same] at less
  | cons a l ih =>
    cases k with
    | nil => simp at same
    | cons b k =>
      rw [List.length_cons, List.length_cons, Nat.add_right_cancel_iff] at same
      rw [List.cons_lt_cons_iff] at less
      rw [List.cons_append, List.cons_append, List.cons_lt_cons_iff]
      rcases less with less | ⟨head, less⟩
      · exact .inl less
      · exact .inr ⟨head, ih same less⟩

namespace Date

open Calendar

def lastDigits : Nat → Nat → List Char
  | 0, _ => []
  | width + 1, n => lastDigits width (n / 10) ++ [(n % 10).digitChar]

theorem lastDigits_length (width n : Nat) : (lastDigits width n).length = width := by
  induction width generalizing n with
  | zero => rfl
  | succ width ih => rw [lastDigits, List.length_append, ih, List.length_singleton]

theorem lastDigits_zero (width : Nat) : lastDigits width 0 = List.replicate width '0' := by
  induction width with
  | zero => rfl
  | succ width ih =>
    rw [lastDigits, Nat.zero_div, ih, List.replicate_succ']
    rfl

theorem padded_toList (width n : Nat) (short : n < 10 ^ width) (wide : 0 < width) :
    (padded width n).toList = lastDigits width n := by
  rw [padded, String.toList_ofList]
  induction width generalizing n with
  | zero => omega
  | succ width ih =>
    rw [lastDigits]
    by_cases single : n < 10
    · rw [Nat.toDigits_of_lt_base single, Nat.div_eq_of_lt single, Nat.mod_eq_of_lt single,
        lastDigits_zero]
      rfl
    · have front : n / 10 < 10 ^ width := by
        rw [Nat.div_lt_iff_lt_mul (by decide), ← pow_succ]
        exact short
      have wide' : 0 < width := by
        rcases width with _ | width
        · simp at front
          omega
        · omega
      rw [Nat.toDigits_of_base_le (by decide) (by omega), ← ih (n / 10) front wide',
        List.length_append, List.length_singleton, Nat.add_sub_add_right, List.append_assoc]

theorem digitChar_lt {a b : Nat} (less : a < b) (bound : b < 10) : a.digitChar < b.digitChar := by
  have digits : ∀ b < 10, ∀ a < b, a.digitChar < b.digitChar := by decide
  exact digits b bound a less

theorem lastDigits_lt {width a b : Nat} (less : a < b) (short : b < 10 ^ width) :
    lastDigits width a < lastDigits width b := by
  induction width generalizing a b with
  | zero => omega
  | succ width ih =>
    rw [lastDigits, lastDigits]
    by_cases same : a / 10 = b / 10
    · rw [same]
      refine List.append_left_lt ?_
      exact List.cons_lt_cons_iff.mpr (.inl (digitChar_lt (by omega) (by omega)))
    · refine lex_append _ _ (by simp only [lastDigits_length]) (ih (by omega) ?_)
      rw [Nat.div_lt_iff_lt_mul (by decide), ← pow_succ]
      exact short

def yearLength (year : Nat) : Nat := if isLeap year then 366 else 365

theorem daysBeforeYear_succ {year : Nat} (pos : 1 ≤ year) :
    daysBeforeYear (year + 1) = daysBeforeYear year + yearLength year := by
  obtain ⟨y, rfl⟩ := Nat.exists_eq_add_of_le' pos
  have fours : (y + 1) % 100 = 0 → (y + 1) % 4 = 0 := by omega
  have hundreds : (y + 1) % 400 = 0 → (y + 1) % 100 = 0 := by omega
  have small : y / 100 ≤ y / 4 := by omega
  unfold daysBeforeYear yearLength isLeap
  simp only [Nat.add_sub_cancel, Nat.succ_div, Nat.dvd_iff_mod_eq_zero, Bool.and_eq_true,
    Bool.or_eq_true, beq_iff_eq, bne_iff_ne]
  generalize y / 4 = a, y / 100 = b, y / 400 = c at small ⊢
  by_cases four : (y + 1) % 4 = 0
  · by_cases hundred : (y + 1) % 100 = 0
    · by_cases fourHundred : (y + 1) % 400 = 0 <;> simp [four, hundred, fourHundred] <;> omega
    · have other : (y + 1) % 400 ≠ 0 := fun h => hundred (hundreds h)
      simp [four, hundred, other]
      omega
  · have hundred : (y + 1) % 100 ≠ 0 := fun h => four (fours h)
    have other : (y + 1) % 400 ≠ 0 := fun h => hundred (hundreds h)
    simp [four, hundred, other]
    omega

theorem daysBeforeYear_lt {first later : Nat} (pos : 1 ≤ first) (less : first < later) :
    daysBeforeYear first + yearLength first ≤ daysBeforeYear later := by
  induction later, less using Nat.le_induction with
  | base => rw [daysBeforeYear_succ pos]
  | succ later less ih =>
    rw [daysBeforeYear_succ (by omega)]
    omega

theorem daysBeforeMonth_succ (year : Nat) {month : Nat} (pos : 1 ≤ month) :
    daysBeforeMonth year (month + 1) = daysBeforeMonth year month + daysInMonth year month := by
  obtain ⟨month, rfl⟩ := Nat.exists_eq_add_of_le' pos
  rfl

theorem daysBeforeMonth_lt (year : Nat) {first later : Nat} (pos : 1 ≤ first)
    (less : first < later) :
    daysBeforeMonth year first + daysInMonth year first ≤ daysBeforeMonth year later := by
  induction later, less using Nat.le_induction with
  | base => rw [daysBeforeMonth_succ year pos]
  | succ later less ih =>
    rw [daysBeforeMonth_succ year (by omega)]
    omega

theorem daysBeforeMonth_year (year : Nat) : daysBeforeMonth year 13 = yearLength year := by
  unfold yearLength
  cases leap : isLeap year <;> simp [daysBeforeMonth, daysInMonth, leap]

theorem dayOfYear_le (d : Date) : daysBeforeMonth d.year d.month + d.day ≤ yearLength d.year := by
  have months := daysBeforeMonth_year d.year
  have before := daysBeforeMonth_lt d.year d.month_range.1
    (show d.month < 13 from Nat.lt_succ_of_le d.month_range.2)
  have within := d.day_range.2
  omega

/-- The first day comes before the second: by year, then month, then day of the month. -/
def Earlier (a b : Date) : Prop :=
  a.year < b.year ∨ a.year = b.year ∧ (a.month < b.month ∨ a.month = b.month ∧ a.day < b.day)

theorem earlier_trichotomy (a b : Date) : Earlier a b ∨ a = b ∨ Earlier b a := by
  obtain ⟨y, m, d, _, _, _⟩ := a
  obtain ⟨y', m', d', _, _, _⟩ := b
  simp only [Earlier, Date.mk.injEq]
  omega

theorem Earlier.number_lt {a b : Date} (earlier : Earlier a b) : a.number < b.number := by
  unfold number
  have within := dayOfYear_le a
  have day := b.day_range.1
  rcases earlier with year | ⟨year, month | ⟨month, day⟩⟩
  · have years := daysBeforeYear_lt a.year_range.1 year
    omega
  · have months := daysBeforeMonth_lt a.year a.month_range.1 month
    have inside := a.day_range.2
    rw [← year]
    omega
  · rw [← year, ← month]
    omega

theorem parts_lt (d : Date) : d.year < 10 ^ 4 ∧ d.month < 10 ^ 2 ∧ d.day < 10 ^ 2 := by
  have year := d.year_range.2
  have month := d.month_range.2
  have day : d.day ≤ 31 := by
    refine d.day_range.2.trans ?_
    unfold daysInMonth
    repeat' split
    all_goals decide
  omega

theorem text_toList (d : Date) : d.text.toList =
    lastDigits 4 d.year ++ ('-' :: (lastDigits 2 d.month ++ ('-' :: lastDigits 2 d.day))) := by
  obtain ⟨year, month, day⟩ := d.parts_lt
  rw [text]
  simp only [String.toList_append, padded_toList _ _ year (by decide),
    padded_toList _ _ month (by decide), padded_toList _ _ day (by decide), List.append_assoc]
  rfl

theorem Earlier.text_lt {a b : Date} (earlier : Earlier a b) : a.text < b.text := by
  rw [String.lt_iff_toList_lt, text_toList, text_toList]
  obtain ⟨years, months, days⟩ := b.parts_lt
  rcases earlier with year | ⟨year, month | ⟨month, day⟩⟩
  · exact lex_append _ _ (by simp only [lastDigits_length]) (lastDigits_lt year years)
  · rw [year]
    refine List.append_left_lt (List.cons_lt_cons_iff.mpr (.inr ⟨rfl, ?_⟩))
    exact lex_append _ _ (by simp only [lastDigits_length]) (lastDigits_lt month months)
  · rw [year, month]
    refine List.append_left_lt (List.cons_lt_cons_iff.mpr (.inr ⟨rfl, ?_⟩))
    refine List.append_left_lt (List.cons_lt_cons_iff.mpr (.inr ⟨rfl, ?_⟩))
    exact lastDigits_lt day days

/-- The texts of days are in the order of the days. -/
theorem compare_text (a b : Date) : compare a.text b.text = compare a.number b.number := by
  rcases earlier_trichotomy a b with earlier | rfl | later
  · rw [compare_lt_iff_lt.mpr earlier.number_lt]
    exact compare_lt_iff_lt.mpr earlier.text_lt
  · simp
  · rw [compare_gt_iff_gt.mpr later.number_lt]
    exact compare_gt_iff_gt.mpr later.text_lt

end Date

end NoteQuery
