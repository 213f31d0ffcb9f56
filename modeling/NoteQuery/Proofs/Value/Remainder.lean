import NoteQuery.Proofs.Number.Whole
import NoteQuery.Value.Arithmetic

/-! The remainder of whole numbers. Both are rounded to binary numbers first, so it is exact where that
changes neither of them, and it fails where one of them is too large. -/
namespace NoteQuery

/-- What a division that rounds toward zero leaves. -/
def IsRemainder (a b r : Int) : Prop := r.natAbs < b.natAbs ∧ (r = 0 ∨ r.sign = a.sign) ∧ b ∣ a - r

variable {a b r : Int}

theorem isRemainder_tmod (a : Int) (some_divisor : b ≠ 0) : IsRemainder a b (a.tmod b) := by
  refine ⟨?_, ?_, Int.dvd_self_sub_tmod⟩
  · rw [Int.natAbs_tmod]
    exact Nat.mod_lt _ (Int.natAbs_pos.mpr some_divisor)
  · rcases lt_trichotomy a 0 with negative | rfl | positive
    · have rest := Int.tmod_nonneg b (Int.neg_nonneg.mpr negative.le)
      rw [Int.neg_tmod, Int.neg_nonneg] at rest
      refine rest.eq_or_lt.imp_right ?_
      intro below
      rw [Int.sign_eq_neg_one_of_neg below, Int.sign_eq_neg_one_of_neg negative]
    · exact .inl (Int.zero_tmod b)
    · refine (Int.tmod_nonneg b positive.le).eq_or_lt.imp Eq.symm ?_
      intro above
      rw [Int.sign_eq_one_of_pos above, Int.sign_eq_one_of_pos positive]

theorem IsRemainder.same_side (held : IsRemainder a b r) : (0 ≤ a → 0 ≤ r) ∧ (a ≤ 0 → r ≤ 0) := by
  obtain ⟨_, rfl | sign, _⟩ := held
  · omega
  · rcases lt_trichotomy a 0 with negative | rfl | positive
    · rw [Int.sign_eq_neg_one_of_neg negative, Int.sign_eq_neg_one_iff_neg] at sign
      omega
    · rw [Int.sign_zero, Int.sign_eq_zero_iff_zero] at sign
      omega
    · rw [Int.sign_eq_one_of_pos positive, Int.sign_eq_one_iff_pos] at sign
      omega

theorem isRemainder_iff (some_divisor : b ≠ 0) : IsRemainder a b r ↔ r = a.tmod b := by
  constructor
  · intro held
    have held' := isRemainder_tmod a some_divisor
    have side := held.same_side
    have side' := held'.same_side
    obtain ⟨small, _, divides⟩ := held
    obtain ⟨small', _, divides'⟩ := held'
    have apart : b ∣ r - a.tmod b := by
      have difference := Int.dvd_sub divides' divides
      rwa [sub_sub_sub_cancel_left] at difference
    refine Int.sub_eq_zero.mp (Int.eq_zero_of_dvd_of_natAbs_lt_natAbs apart ?_)
    omega
  · rintro rfl
    exact isRemainder_tmod a some_divisor

namespace Value

open Binary64 (rounded?)

/-- Two whole numbers are divided as the binary numbers nearest to them. -/
theorem arithmetic_rem_eq (a : Int) (some_divisor : b ≠ 0) :
    arithmetic .rem (int a) (int b) =
      match Binary64.ofInt? a, Binary64.ofInt? b with
      | some x, some y =>
        match x.rem? y with
        | some z => .ok (collapse z)
        | none => .error (.fault .badValue)
      | _, _ => .error (.fault .outOfRange) := by
  have nonzero : (Num.int b).isZero = false := by simpa [Num.isZero] using some_divisor
  have numbers : arithmetic .rem (int a) (int b) = numericResult .rem (.int a) (.int b) := rfl
  rw [numbers, numericResult, nonzero, if_neg Bool.false_ne_true, Num.rem, Num.toFloat, Num.toFloat]
  cases Binary64.ofInt? a with
  | none => rfl
  | some x =>
    cases Binary64.ofInt? b with
    | none => rfl
    | some y =>
      cases found : x.rem? y with
      | none => simp [found, bind, Except.bind, Fault.lift]
      | some z => simp [found, bind, Except.bind, Fault.lift, Num.collapse]

theorem arithmetic_rem_too_large (some_divisor : b ≠ 0)
    (large : 2 ^ 1024 - 2 ^ 970 ≤ a.natAbs ∨ 2 ^ 1024 - 2 ^ 970 ≤ b.natAbs) :
    arithmetic .rem (int a) (int b) = .error (.fault .outOfRange) := by
  rw [← Binary64.ofInt?_eq_none_iff, ← Binary64.ofInt?_eq_none_iff] at large
  rw [arithmetic_rem_eq a some_divisor]
  obtain unmade | unmade := large
  · rw [unmade]
  · rw [unmade]
    cases Binary64.ofInt? a <;> rfl

theorem exists_arithmetic_rem (some_divisor : b ≠ 0) (left : a.natAbs < 2 ^ 1024 - 2 ^ 970)
    (right : b.natAbs < 2 ^ 1024 - 2 ^ 970) :
    ∃ c d z, rounded? a = some c ∧ rounded? b = some d ∧ d ≠ 0 ∧ z.toInt? = some (c.tmod d) ∧
      arithmetic .rem (int a) (int b) = .ok (collapse z) := by
  rw [← not_le, ← Binary64.ofInt?_eq_none_iff, ← Ne, Option.ne_none_iff_exists'] at left right
  obtain ⟨x, made⟩ := left
  obtain ⟨y, made'⟩ := right
  obtain ⟨c, whole, nearest, _⟩ := Binary64.exists_rounded? made
  obtain ⟨d, whole', nearest', _, _, nonzero⟩ := Binary64.exists_rounded? made'
  obtain ⟨z, rest, whole''⟩ := Binary64.rem?_whole whole whole' (nonzero some_divisor)
  refine ⟨c, d, z, nearest, nearest', nonzero some_divisor, whole'', ?_⟩
  rw [arithmetic_rem_eq a some_divisor, made, made']
  dsimp only
  rw [rest]

theorem arithmetic_rem_eq_ok_iff (some_divisor : b ≠ 0) :
    arithmetic .rem (int a) (int b) = .ok (int r) ↔
      r.natAbs < 2 ^ 53 ∧ ∃ c d, rounded? a = some c ∧ rounded? b = some d ∧ IsRemainder c d r := by
  by_cases large : 2 ^ 1024 - 2 ^ 970 ≤ a.natAbs ∨ 2 ^ 1024 - 2 ^ 970 ≤ b.natAbs
  · rw [arithmetic_rem_too_large some_divisor large]
    refine iff_of_false nofun ?_
    rintro ⟨_, c, d, nearest, nearest', _⟩
    rw [← Binary64.rounded?_eq_none_iff, ← Binary64.rounded?_eq_none_iff, nearest, nearest'] at large
    exact large.elim nofun nofun
  · rw [not_or, not_le, not_le] at large
    obtain ⟨c, d, z, nearest, nearest', nonzero, whole, found⟩ := exists_arithmetic_rem some_divisor large.1 large.2
    rw [found, Except.ok.injEq, collapse_eq_int_iff, whole, Option.some.injEq, and_comm, nearest, nearest']
    refine and_congr_right fun _ => ⟨?_, ?_⟩
    · intro same
      exact ⟨c, d, rfl, rfl, (isRemainder_iff nonzero).mpr same.symm⟩
    · rintro ⟨_, _, ⟨⟩, ⟨⟩, held⟩
      exact ((isRemainder_iff nonzero).mp held).symm

theorem arithmetic_rem_eq_error_iff (some_divisor : b ≠ 0) {f : Failure} :
    arithmetic .rem (int a) (int b) = .error f ↔
      f = .fault .outOfRange ∧ (2 ^ 1024 - 2 ^ 970 ≤ a.natAbs ∨ 2 ^ 1024 - 2 ^ 970 ≤ b.natAbs) := by
  by_cases large : 2 ^ 1024 - 2 ^ 970 ≤ a.natAbs ∨ 2 ^ 1024 - 2 ^ 970 ≤ b.natAbs
  · rw [arithmetic_rem_too_large some_divisor large, Except.error.injEq, and_iff_left large, eq_comm]
  · refine iff_of_false ?_ (fun failed => large failed.2)
    rw [not_or, not_le, not_le] at large
    obtain ⟨_, _, _, _, _, _, _, found⟩ := exists_arithmetic_rem some_divisor large.1 large.2
    rw [found]
    nofun

/-- The remainder is that of the binary numbers nearest to the two, and a whole number below `2 ^ 53`. It
fails where one of the two is too large for a binary number, and is exact up to `2 ^ 53`. -/
theorem arithmetic_rem_whole (a : Int) (some_divisor : b ≠ 0) :
    (∀ r, arithmetic .rem (int a) (int b) = .ok (int r) ↔
      r.natAbs < 2 ^ 53 ∧ ∃ c d, rounded? a = some c ∧ rounded? b = some d ∧ IsRemainder c d r) ∧
    (∀ f, arithmetic .rem (int a) (int b) = .error f ↔
      f = .fault .outOfRange ∧ (2 ^ 1024 - 2 ^ 970 ≤ a.natAbs ∨ 2 ^ 1024 - 2 ^ 970 ≤ b.natAbs)) ∧
    (a.natAbs ≤ 2 ^ 53 → b.natAbs ≤ 2 ^ 53 →
      ∃ r, arithmetic .rem (int a) (int b) = .ok (int r) ∧ IsRemainder a b r) := by
  refine ⟨fun r => arithmetic_rem_eq_ok_iff some_divisor, fun f => arithmetic_rem_eq_error_iff some_divisor, ?_⟩
  intro small small'
  have held := isRemainder_tmod a some_divisor
  refine ⟨a.tmod b, (arithmetic_rem_eq_ok_iff some_divisor).mpr ⟨held.1.trans_le small', a, b, ?_, ?_, held⟩, held⟩
  · exact Binary64.rounded?_eq_self (.of_small small)
  · exact Binary64.rounded?_eq_self (.of_small small')

theorem arithmetic_rem_whole_seven :
    (3 : Int) ≠ 0 ∧ ∃ r, arithmetic .rem (int (-7)) (int 3) = .ok (int r) ∧ IsRemainder (-7) 3 r :=
  ⟨by decide, (arithmetic_rem_whole (-7) (by decide)).2.2 (by decide) (by decide)⟩

/-- The first odd number past `2 ^ 53` is taken for an even one. -/
theorem arithmetic_rem_rounds :
    arithmetic .rem (int (2 ^ 53 + 1)) (int 2) = .ok (int 0) ∧ ¬ IsRemainder (2 ^ 53 + 1) 2 0 ∧
      arithmetic .rem (int (10 ^ 400)) (int 3) = .error (.fault .outOfRange) := by
  refine ⟨?_, ?_, ?_⟩
  · have nearest : rounded? (2 ^ 53 + 1) = some (2 ^ 53) := by decide +kernel
    exact (arithmetic_rem_eq_ok_iff two_ne_zero).mpr
      ⟨by decide, 2 ^ 53, 2, nearest, by decide +kernel, by decide, .inl rfl, by decide⟩
  · rintro ⟨_, _, divides⟩
    omega
  · exact arithmetic_rem_too_large three_ne_zero (.inl (by decide +kernel))

end Value

end NoteQuery
