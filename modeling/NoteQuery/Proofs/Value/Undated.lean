import NoteQuery.Expr.Builtin
import NoteQuery.Proofs.Calendar.Iso
import NoteQuery.Proofs.Number.Whole
import NoteQuery.Proofs.Value.Moment
import NoteQuery.Proofs.Value.Order
import NoteQuery.Proofs.Value.Written

/-! Values that cannot be looked at as a date. A moment or a text whose offset leads out of the calendar
is one, and so is a whole number that is too large for a binary one. Any other value is a moment or is
none. -/
namespace NoteQuery

open Moment (InCalendar)

namespace Iso

/-- The clock of an ISO text, taken back by its offset, shows a time outside of the calendar. -/
def LeavesCalendar (text : List Char) : Prop :=
  ∃ m micros, read? text = some (m, some micros) ∧ ¬ InCalendar (m.localMicros - micros)

end Iso

theorem readDate_other {s : String} (unread : Iso.read? (Text.trim s.toList) = none) :
    readDate s ≠ .outOfRange := by
  intro out
  simp only [readDate, unread] at out
  split at out
  · cases out
  · split_ifs at out
    split at out <;> cases out

theorem readDate_outOfRange_iff (s : String) :
    readDate s = .outOfRange ↔ Iso.LeavesCalendar (Text.trim s.toList) := by
  cases read : Iso.read? (Text.trim s.toList) with
  | none => exact iff_of_false (readDate_other read) (by simp [Iso.LeavesCalendar, read])
  | some found =>
    obtain ⟨m, micros⟩ := found
    rw [readDate_iso read, Iso.LeavesCalendar]
    cases micros with
    | none => simp [read]
    | some micros =>
      by_cases inside : InCalendar (m.localMicros - micros)
      · obtain ⟨u, shifted⟩ := Moment.exists_ofLocalMicros? inside none
        simp [read, inside, shifted]
      · simp [read, inside, Moment.ofLocalMicros?_eq_none_iff.mpr inside]

theorem Moment.universal?_eq_none_iff (m : Moment) : m.universal? = none ↔ ¬ InCalendar m.micros := by
  unfold universal?
  cases offset : m.offset with
  | none =>
    refine iff_of_false (by simp) (not_not.mpr ?_)
    rw [micros, offset]
    exact m.localMicros_inCalendar
  | some o => exact ofLocalMicros?_eq_none_iff

namespace Value

/-- The value cannot be looked at as a date. -/
def Undatable : Value → Prop
  | moment m => ¬ InCalendar m.micros
  | int n => 2 ^ 1024 - 2 ^ 970 ≤ n.natAbs
  | text s => Iso.LeavesCalendar (Text.trim s.toList)
  | _ => False

theorem momentOfNumber?_succeeds (n : Num) :
    (∃ found, momentOfNumber? n = .ok found) ↔ ∃ x, n.toFloat = .ok x := by
  unfold momentOfNumber?
  cases n.toFloat with
  | error f => simp [bind, Except.bind]
  | ok x =>
    refine iff_of_true ?_ ⟨x, rfl⟩
    simp only [bind, Except.bind]
    split_ifs
    · split
      · exact ⟨_, rfl⟩
      · exact ⟨_, rfl⟩
    · exact ⟨_, rfl⟩

/-- A value can be looked at as a date unless its number or its offset leads too far. -/
theorem moment?_succeeds (v : Value) : (∃ found, v.moment? = .ok found) ↔ ¬ v.Undatable := by
  cases v with
  | moment m =>
    rw [Undatable, ← Moment.universal?_eq_none_iff, moment?]
    cases m.universal? <;> simp
  | int n =>
    rw [Undatable, ← Binary64.ofInt?_eq_none_iff, moment?, momentOfNumber?_succeeds, Num.toFloat]
    cases Binary64.ofInt? n <;> simp
  | text s =>
    rw [Undatable, ← readDate_outOfRange_iff, moment?]
    cases readDate s <;> simp
  | float x =>
    rw [moment?, momentOfNumber?_succeeds]
    exact iff_of_true ⟨x, rfl⟩ not_false
  | _ => exact iff_of_true ⟨_, rfl⟩ not_false

/-- A number that is too long to be written is also too large for a date. -/
theorem TooLong.undatable {v : Value} (long : v.TooLong) : v.Undatable := by
  cases v with
  | int n => exact le_trans (by decide +kernel) (show Nat.pow 10 Numeral.maxDigits ≤ n.natAbs from long)
  | _ => exact long.elim

theorem Unquotable.unread {v : Value} (long : v.Unquotable) (datable : ¬ v.Undatable) :
    v.moment? = .ok none := by
  by_cases leaf : v.Leaf
  · exact absurd (leaf.exists_reaches.mp long).undatable datable
  · cases v with
    | list items => rfl
    | map entries => rfl
    | _ => exact absurd trivial leaf

/-- The function `date` looks at a value as a date, and has to quote a list or a map that it refuses. -/
theorem readMoment_eq {v : Value} {found : Option Moment} (read : v.moment? = .ok found)
    (quotable : ¬ v.Unquotable) : Builtin.readMoment v = .ok (ofMoment? found) := by
  obtain ⟨shown, quoted⟩ := v.quoted_succeeds.mpr quotable
  rw [Builtin.readMoment, read]
  cases found with
  | some m => rfl
  | none =>
    simp only [bind, Except.bind, quoted, ofMoment?]
    split_ifs <;> rfl

theorem readMoment_fails {v : Value} (out : v.Undatable ∨ v.Unquotable) :
    ∃ f, Builtin.readMoment v = .error f := by
  by_cases datable : v.Undatable
  · cases read : v.moment? with
    | ok found => exact absurd datable (v.moment?_succeeds.mp ⟨found, read⟩)
    | error f => exact ⟨f, by rw [Builtin.readMoment, read]; rfl⟩
  · have long := out.resolve_left datable
    have some_value : v.isNull = false := by
      cases v with
      | null => exact ((show null.Leaf from trivial).exists_reaches.mp long).elim
      | _ => rfl
    cases quoted : v.quoted with
    | ok shown => exact absurd long (v.quoted_succeeds.mp ⟨shown, quoted⟩)
    | error f =>
      refine ⟨f, ?_⟩
      simp [Builtin.readMoment, long.unread datable, some_value, quoted, bind, Except.bind]

/-- Looking at a value as a date, the function `date` and reading a text each come to a moment without
an offset or to none, and fail exactly for what leads out of the calendar or the binary numbers; `date`
fails too for a list or a map that it cannot quote. -/
theorem moment?_outcome (present : Moment) :
    (∀ v : Value, v.Undatable ∧ v.moment? = .error .outOfRange ∨
      ¬ v.Undatable ∧ ∃ found, v.moment? = .ok found ∧ ∀ m ∈ found, m.offset = none) ∧
    (∀ v : Value, (v.Undatable ∨ v.Unquotable) ∧
        (∃ f, Builtin.date.apply present [v] = .error (.fault f)) ∨
      (¬ v.Undatable ∧ ¬ v.Unquotable) ∧ ∃ found, v.moment? = .ok found ∧
        Builtin.date.apply present [v] = .ok (ofMoment? found)) ∧
    (∀ s : String, Iso.LeavesCalendar (Text.trim s.toList) ∧ readDate s = .outOfRange ∨
      ¬ Iso.LeavesCalendar (Text.trim s.toList) ∧
        (readDate s = .none ∨ ∃ m, readDate s = .moment m ∧ m.offset = none)) := by
  refine ⟨fun v => ?_, fun v => ?_, fun s => ?_⟩
  · cases read : v.moment? with
    | error f =>
      have lost : v.Undatable := by
        by_contra datable
        obtain ⟨found, read'⟩ := v.moment?_succeeds.mpr datable
        cases read.symm.trans read'
      exact .inl ⟨lost, by rw [moment?_fault read]⟩
    | ok found =>
      refine .inr ⟨v.moment?_succeeds.mp ⟨found, read⟩, found, rfl, ?_⟩
      rintro m rfl
      exact moment?_offset read
  · by_cases out : v.Undatable ∨ v.Unquotable
    · obtain ⟨f, failed⟩ := readMoment_fails out
      exact .inl ⟨out, f, by rw [Builtin.apply, failed]; rfl⟩
    · rw [not_or] at out
      obtain ⟨found, read⟩ := v.moment?_succeeds.mpr out.1
      exact .inr ⟨out, found, read, by rw [Builtin.apply, readMoment_eq read out.2]; rfl⟩
  · rw [← readDate_outOfRange_iff]
    cases read : readDate s with
    | outOfRange => exact .inl ⟨rfl, rfl⟩
    | none => exact .inr ⟨DateReading.noConfusion, .inl rfl⟩
    | moment m => exact .inr ⟨DateReading.noConfusion, .inr ⟨m, rfl, readDate_offset read⟩⟩

/-- Five hours before its clock shows the first midnight of the calendar there is no date to return. -/
theorem moment?_out_of_range :
    (int (10 ^ 400)).moment? = .error .outOfRange ∧
    (moment ⟨Moment.earliest.date, .midnight, some ⟨18000, by decide⟩⟩).moment? = .error .outOfRange ∧
    readDate "0001-01-01T00:00:00+05:00" = .outOfRange ∧
    ∃ f, Builtin.date.apply Moment.earliest [list [int (Nat.pow 10 Numeral.maxDigits)]] =
      .error (.fault f) := by
  refine ⟨by decide +kernel, by decide +kernel, by decide +kernel, ?_⟩
  have long : (list [int (Nat.pow 10 Numeral.maxDigits)]).Unquotable := by
    refine ⟨int (Nat.pow 10 Numeral.maxDigits), .single (List.mem_singleton_self _), ?_⟩
    rw [TooLong, Int.natAbs_natCast]
  obtain ⟨f, failed⟩ := readMoment_fails (.inr long)
  exact ⟨f, by rw [Builtin.apply, failed]; rfl⟩

end Value

end NoteQuery
