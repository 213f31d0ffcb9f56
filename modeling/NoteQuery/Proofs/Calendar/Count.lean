import NoteQuery.Proofs.Calendar.Date

/-! Days and moments found again. A day is found by its number and a moment by its microseconds, and the
calendar has one for every count between its ends. -/
namespace NoteQuery

namespace Date

open Calendar

variable {n year month day : Nat} {d : Date}

/-- The days in front of a year, by its place in the periods of 400, 100 and 4 years. -/
theorem daysBeforeYear_place {a b c e : Nat} (place : year = 400 * a + 100 * b + 4 * c + e + 1)
    (century : b ≤ 3) (four : c ≤ 24) (single : e ≤ 3) :
    daysBeforeYear year = 146097 * a + 36524 * b + 1461 * c + 365 * e := by
  unfold daysBeforeYear
  have before : year - 1 = 400 * a + 100 * b + 4 * c + e := by omega
  have fours : (400 * a + 100 * b + 4 * c + e) / 4 = 100 * a + 25 * b + c := by omega
  have centuries : (400 * a + 100 * b + 4 * c + e) / 100 = 4 * a + b := by omega
  have ages : (400 * a + 100 * b + 4 * c + e) / 400 = a := by omega
  simp only [before, fours, centuries, ages]
  omega

/-- The year that is found for a day is the one that the day lies in. -/
theorem yearOfIndex_bounds (n : Nat) :
    daysBeforeYear (yearOfIndex n) ≤ n ∧ n < daysBeforeYear (yearOfIndex n + 1) := by
  unfold yearOfIndex
  dsimp only
  have age : n = 146097 * (n / 146097) + n % 146097 ∧ n % 146097 < 146097 := by omega
  generalize n / 146097 = a, n % 146097 = r at age ⊢
  obtain ⟨b, within⟩ : ∃ b, b = min (r / 36524) 3 := ⟨_, rfl⟩
  obtain ⟨s, left⟩ : ∃ s, s = r - b * 36524 := ⟨_, rfl⟩
  rw [← within, ← left]
  have century : b ≤ 3 ∧ r = 36524 * b + s ∧ s ≤ 36524 ∧ (b < 3 → s < 36524) := by omega
  have four : s = 1461 * (s / 1461) + s % 1461 ∧ s % 1461 < 1461 ∧ s / 1461 ≤ 24 := by omega
  generalize s / 1461 = c, s % 1461 = t at four ⊢
  have single : min (t / 365) 3 ≤ 3 ∧ 365 * min (t / 365) 3 ≤ t ∧
    (min (t / 365) 3 < 3 → t < 365 * min (t / 365) 3 + 365) := by omega
  generalize min (t / 365) 3 = e at single ⊢
  refine ⟨by rw [daysBeforeYear_place rfl] <;> omega, ?_⟩
  -- The next year begins a new period where this one is the last of the old.
  by_cases inFour : e < 3
  · rw [daysBeforeYear_place (a := a) (b := b) (c := c) (e := e + 1)] <;> omega
  by_cases inCentury : c < 24
  · rw [daysBeforeYear_place (a := a) (b := b) (c := c + 1) (e := 0)] <;> omega
  by_cases inAge : b < 3
  · rw [daysBeforeYear_place (a := a) (b := b + 1) (c := 0) (e := 0)] <;> omega
  · rw [daysBeforeYear_place (a := a + 1) (b := 0) (c := 0) (e := 0)] <;> omega

theorem yearOfIndex_eq (pos : 1 ≤ year) (low : daysBeforeYear year ≤ n)
    (high : n < daysBeforeYear (year + 1)) : yearOfIndex n = year := by
  obtain ⟨low', high'⟩ := yearOfIndex_bounds n
  have pos' : 1 ≤ yearOfIndex n := Nat.le_add_left _ _
  rw [daysBeforeYear_succ pos] at high
  rw [daysBeforeYear_succ pos'] at high'
  rcases Nat.lt_trichotomy (yearOfIndex n) year with less | same | greater
  · have apart := daysBeforeYear_lt pos' less
    omega
  · exact same
  · have apart := daysBeforeYear_lt pos greater
    omega

/-- The month and the day that are found make up the days of the year that they are found for. The
induction is on the months that are left. -/
theorem monthDay_place (year : Nat) {later month n : Nat} (pos : 1 ≤ month)
    (months : month + later = 12) (within : daysBeforeMonth year month + n < yearLength year) :
    ∃ found day, monthDay year later month n = (found, day) ∧ 1 ≤ found ∧ found ≤ 12 ∧ 1 ≤ day ∧
      day ≤ daysInMonth year found ∧
      daysBeforeMonth year found + day = daysBeforeMonth year month + n + 1 := by
  have next := daysBeforeMonth_succ year pos
  induction later generalizing month n with
  | zero =>
    obtain rfl : month = 12 := by omega
    rw [daysBeforeMonth_year] at next
    exact ⟨12, n + 1, rfl, by omega, le_refl _, by omega, by omega, by omega⟩
  | succ later ih =>
    rw [monthDay]
    split_ifs with inside
    · exact ⟨month, n + 1, rfl, pos, by omega, by omega, by omega, by omega⟩
    · obtain ⟨found, day, same, rest⟩ := ih (n := n - daysInMonth year month) (Nat.le_add_left 1 month)
        (by omega) (by omega) (daysBeforeMonth_succ year (Nat.le_add_left 1 month))
      exact ⟨found, day, same, by omega⟩

theorem ofParts?_eq_some_iff :
    ofParts? year month day = some d ↔ d.year = year ∧ d.month = month ∧ d.day = day := by
  unfold ofParts?
  split_ifs with valid
  · rw [Option.some.injEq]
    constructor
    · rintro rfl
      exact ⟨rfl, rfl, rfl⟩
    · rintro ⟨rfl, rfl, rfl⟩
      rfl
  · refine iff_of_false (by simp) ?_
    rintro ⟨rfl, rfl, rfl⟩
    exact valid ⟨d.year_range, d.month_range, d.day_range⟩

theorem number_pos (d : Date) : 0 < d.number := Nat.lt_of_lt_of_le d.day_range.1 (Nat.le_add_left _ _)

theorem number_bounds (d : Date) :
    daysBeforeYear d.year < d.number ∧ d.number ≤ daysBeforeYear (d.year + 1) := by
  have inside := dayOfYear_le d
  have some_day := d.day_range.1
  rw [daysBeforeYear_succ d.year_range.1, number]
  omega

theorem number_injective {a b : Date} (same : a.number = b.number) : a = b := by
  rcases earlier_trichotomy a b with earlier | equal | later
  · exact absurd same earlier.number_lt.ne
  · exact equal
  · exact absurd same later.number_lt.ne'

theorem ofNumber?_succ (found : monthDay (yearOfIndex n) 11 1 (n - daysBeforeYear (yearOfIndex n)) =
    (month, day)) : ofNumber? (n + 1) = ofParts? (yearOfIndex n) month day := by
  rw [ofNumber?, if_neg (Nat.succ_ne_zero n)]
  simp only [Nat.add_sub_cancel, found]

/-- The day after `n` others is found, unless its year lies outside of the calendar. -/
theorem exists_ofNumber? (n : Nat) (inside : yearOfIndex n ≤ 9999) :
    ∃ d, ofNumber? (n + 1) = some d ∧ d.number = n + 1 := by
  obtain ⟨low, high⟩ := yearOfIndex_bounds n
  have pos : 1 ≤ yearOfIndex n := Nat.le_add_left _ _
  rw [daysBeforeYear_succ pos] at high
  obtain ⟨month, day, found, least, most, first, last, place⟩ := monthDay_place (yearOfIndex n)
    (n := n - daysBeforeYear (yearOfIndex n)) (le_refl 1) (rfl : 1 + 11 = 12)
    (by rw [daysBeforeMonth]; omega)
  have made : ofNumber? (n + 1) =
      some ⟨yearOfIndex n, month, day, ⟨pos, inside⟩, ⟨least, most⟩, first, last⟩ := by
    rw [ofNumber?_succ found]
    exact ofParts?_eq_some_iff.mpr ⟨rfl, rfl, rfl⟩
  refine ⟨_, made, ?_⟩
  rw [daysBeforeMonth] at place
  rw [number]
  dsimp only
  omega

/-- A day is found by its number, and by no other. -/
theorem ofNumber?_eq_some_iff : ofNumber? n = some d ↔ d.number = n := by
  constructor
  · intro found
    cases n with
    | zero => cases found
    | succ n =>
      rcases split : monthDay (yearOfIndex n) 11 1 (n - daysBeforeYear (yearOfIndex n)) with
        ⟨month, day⟩
      have year := (ofParts?_eq_some_iff.mp ((ofNumber?_succ split).symm.trans found)).1
      have inside : yearOfIndex n ≤ 9999 := year ▸ d.year_range.2
      obtain ⟨d', found', number⟩ := exists_ofNumber? n inside
      rw [Option.some.inj (found.symm.trans found'), number]
  · rintro rfl
    obtain ⟨low, high⟩ := d.number_bounds
    have year := yearOfIndex_eq d.year_range.1 (Nat.le_sub_one_of_lt low) (by omega)
    obtain ⟨d', found, same⟩ := exists_ofNumber? (d.number - 1) (year.trans_le d.year_range.2)
    rw [Nat.sub_add_cancel d.number_pos] at found same
    rw [found, number_injective same]

/-- There is a day for every number up to that of the last. -/
theorem exists_number_eq (pos : 1 ≤ n) (inside : n ≤ daysBeforeYear 10000) :
    ∃ d : Date, d.number = n := by
  obtain ⟨n, rfl⟩ := Nat.exists_eq_add_of_le' pos
  have year : yearOfIndex n ≤ 9999 := by
    by_contra beyond
    rw [not_le] at beyond
    have early := (yearOfIndex_bounds n).1
    have apart := daysBeforeYear_lt (show 1 ≤ 9999 by decide) beyond
    have last : daysBeforeYear 9999 + yearLength 9999 = daysBeforeYear 10000 := by decide
    omega
  obtain ⟨d, _, number⟩ := exists_ofNumber? n year
  exact ⟨d, number⟩

theorem number_le (d : Date) : d.number ≤ daysBeforeYear 10000 := by
  refine d.number_bounds.2.trans ?_
  rcases Nat.eq_or_lt_of_le (show d.year + 1 ≤ 10000 from Nat.succ_le_succ d.year_range.2) with
    last | before
  · rw [last]
  · exact (Nat.le_add_right _ _).trans (daysBeforeYear_lt (Nat.le_add_left 1 _) before)

end Date

namespace Clock

variable {hour minute second micro rest : Nat} {c : Clock}

theorem ofParts?_eq_some_iff : ofParts? hour minute second micro = some c ↔
    c.hour = hour ∧ c.minute = minute ∧ c.second = second ∧ c.micro = micro := by
  unfold ofParts?
  split_ifs with valid
  · rw [Option.some.injEq]
    constructor
    · rintro rfl
      exact ⟨rfl, rfl, rfl, rfl⟩
    · rintro ⟨rfl, rfl, rfl, rfl⟩
      rfl
  · refine iff_of_false (by simp) ?_
    rintro ⟨rfl, rfl, rfl, rfl⟩
    exact valid ⟨c.hour_lt, c.minute_lt, c.second_lt, c.micro_lt⟩

theorem micros_lt (c : Clock) : c.micros < Moment.microsPerDay := by
  obtain ⟨hour, minute, second, micro⟩ := c
  simp only [micros, Moment.microsPerDay]
  omega

/-- The parts that microseconds are cut into make them up. -/
theorem ofParts?_rest : ofParts? (rest / 3600000000) (rest / 60000000 % 60) (rest / 1000000 % 60)
    (rest % 1000000) = some c ↔ c.micros = rest := by
  obtain ⟨hour, minute, second, micro, hours, minutes, seconds, micros⟩ := c
  rw [ofParts?_eq_some_iff]
  simp only [Clock.micros]
  omega

theorem exists_micros_eq (rest : Nat) (within : rest < Moment.microsPerDay) :
    ∃ c : Clock, c.micros = rest := by
  rw [Moment.microsPerDay] at within
  refine ⟨⟨rest / 3600000000, rest / 60000000 % 60, rest / 1000000 % 60, rest % 1000000, by omega,
    by omega, by omega, by omega⟩, ?_⟩
  rw [micros]
  dsimp only
  omega

end Clock

namespace Moment

variable {micros : Int} {offset : Option Offset} {m : Moment}

/-- A moment is found by what its clock shows, and by nothing else. -/
theorem ofLocalMicros?_eq_some_iff :
    ofLocalMicros? micros offset = some m ↔ m.localMicros = micros ∧ m.offset = offset := by
  have day : Int.fdiv micros microsPerDay = micros / 86400000000 :=
    Int.fdiv_eq_ediv_of_nonneg _ (by decide)
  have rest : Int.fmod micros microsPerDay = micros % 86400000000 :=
    Int.fmod_eq_emod_of_nonneg _ (by decide)
  unfold ofLocalMicros? localMicros
  rw [day, rest]
  dsimp only [epochDay, microsPerDay]
  constructor
  · intro made
    split at made
    · cases made
    · split at made
      · rename_i d c found parts
        cases made
        rw [Date.ofNumber?_eq_some_iff] at found
        rw [Clock.ofParts?_rest] at parts
        exact ⟨by dsimp only; omega, rfl⟩
      · cases made
  · rintro ⟨rfl, rfl⟩
    have within : m.clock.micros < 86400000000 := m.clock.micros_lt
    have pos := m.date.number_pos
    generalize cut :
      ((m.date.number : Int) - (719163 : Nat)) * (86400000000 : Nat) + m.clock.micros = micros
    have number : m.date.number = (micros / 86400000000 + (719163 : Nat)).toNat := by omega
    have clock : m.clock.micros = (micros % 86400000000).toNat := by omega
    rw [if_neg (by omega), Date.ofNumber?_eq_some_iff.mpr number, Clock.ofParts?_rest.mpr clock]

def earliest : Moment := .startOf ((Date.ofParts? 1 1 1).get (by decide))

def latest : Moment :=
  ⟨(Date.ofParts? 9999 12 31).get (by decide), (Clock.ofParts? 23 59 59 999999).get (by decide), none⟩

/-- The calendar has a moment with so many microseconds. -/
def InCalendar (micros : Int) : Prop :=
  earliest.localMicros ≤ micros ∧ micros ≤ latest.localMicros

theorem inCalendar_iff : InCalendar micros ↔
    -62135596800000000 ≤ micros ∧ micros < 253402300800000000 := by
  have low : earliest.localMicros = -62135596800000000 := by decide
  have high : latest.localMicros = 253402300799999999 := by decide
  rw [InCalendar, low, high]
  omega

theorem localMicros_inCalendar (m : Moment) : InCalendar m.localMicros := by
  have within : m.clock.micros < 86400000000 := m.clock.micros_lt
  have pos := m.date.number_pos
  have most : m.date.number ≤ 3652059 := m.date.number_le
  rw [inCalendar_iff, localMicros, epochDay, microsPerDay]
  omega

/-- Every count of microseconds in the calendar is that of a moment. -/
theorem exists_ofLocalMicros? (inside : InCalendar micros) (offset : Option Offset) :
    ∃ m, ofLocalMicros? micros offset = some m := by
  rw [inCalendar_iff] at inside
  obtain ⟨d, number⟩ := Date.exists_number_eq (n := (micros / 86400000000 + 719163).toNat)
    (by omega) (show _ ≤ 3652059 by omega)
  obtain ⟨c, clock⟩ := Clock.exists_micros_eq (micros % 86400000000).toNat
    (show _ < 86400000000 by omega)
  refine ⟨⟨d, c, offset⟩, ofLocalMicros?_eq_some_iff.mpr ⟨?_, rfl⟩⟩
  rw [localMicros, number, clock, epochDay, microsPerDay]
  omega

theorem ofLocalMicros?_eq_none_iff : ofLocalMicros? micros offset = none ↔ ¬ InCalendar micros := by
  constructor
  · intro missing inside
    obtain ⟨m, made⟩ := exists_ofLocalMicros? inside offset
    cases made.symm.trans missing
  · intro outside
    by_contra made
    obtain ⟨m, made⟩ := Option.ne_none_iff_exists'.mp made
    exact outside ((ofLocalMicros?_eq_some_iff.mp made).1 ▸ m.localMicros_inCalendar)

end Moment

end NoteQuery
