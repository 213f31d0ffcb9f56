import NoteQuery.Expr.Builtin
import NoteQuery.Proofs.Number.Half

/-! Whole numbers rounded to a number of digits after the point. They are multiplied by a power of ten, which
is exact, rounded to a binary number, and divided by the power again. -/
namespace NoteQuery.Builtin

open Binary64 (rounded? ofInt? ofQuotient? toInt? halfUp)

variable {n : Int} {digits : Nat}

/-- No more than `maxRoundDigits` digits count. -/
def scale (digits : Nat) : Int := 10 ^ min digits 308

theorem scale_pos (digits : Nat) : 0 < scale digits := Int.pow_pos (by decide)

theorem two_dvd_scale (some_digits : digits ≠ 0) : 2 ∣ scale digits :=
  (show (2 : Int) ∣ 10 by decide).trans (dvd_pow_self 10 (by omega))

theorem round?_int (n : Int) (digits : Nat) : round? (.int n) (.int digits) =
    match ofInt? (n * scale digits) with
    | none => .error (.fault .outOfRange)
    | some x =>
      match (x.add (.ofRatio false 1 2)).floor? with
      | none => .error (.fault .outOfRange)
      | some whole =>
        match ofQuotient? whole (scale digits) with
        | none => .error (.fault .outOfRange)
        | some z => .ok (.collapse z) := by
  have places : max (-maxRoundDigits) (min maxRoundDigits (digits : Int)) = (min digits 308 : Nat) := by
    unfold maxRoundDigits
    omega
  have factor : powerOfTen (max (-maxRoundDigits) (min maxRoundDigits (digits : Int))) = .int (scale digits) := by
    rw [places, powerOfTen, if_pos (Int.natCast_nonneg _), Int.toNat_natCast, scale]
    rfl
  have scaled : Num.mul (.int n) (.int (scale digits)) = .ok (.int (n * scale digits)) := rfl
  have sum : Num.add (.int (n * scale digits)) half =
      (Num.int (n * scale digits)).toFloat >>= fun x => .ok (.float (x.add (.ofRatio false 1 2))) := rfl
  have start : round? (.int n) (.int digits) = Fault.lift (roundTo (.int n) (.int digits)) := rfl
  rw [start, roundTo]
  change Fault.lift (Except.bind (Except.ok (digits : Int)) _) = _
  dsimp only [Except.bind, bind]
  rw [factor, scaled]
  dsimp only
  rw [sum, Num.toFloat]
  cases made : ofInt? (n * scale digits) with
  | none => rfl
  | some x =>
    have finite : x.isFinite := by
      obtain ⟨m, _, rfl⟩ := Option.map_eq_some_iff.mp made
      rfl
    dsimp only [bind, Except.bind]
    rw [if_pos finite]
    cases (x.add (.ofRatio false 1 2)).floor? with
    | none => rfl
    | some whole =>
      dsimp only
      rw [Num.div]
      cases ofQuotient? whole (scale digits) <;> rfl

theorem round?_too_large (large : 2 ^ 1024 - 2 ^ 970 ≤ (n * scale digits).natAbs) :
    round? (.int n) (.int digits) = .error (.fault .outOfRange) := by
  rw [round?_int, (Binary64.ofInt?_eq_none_iff _).mpr large]

theorem round?_eq_ok_iff {c r : Int} (nearest : rounded? (n * scale digits) = some c) :
    round? (.int n) (.int digits) = .ok (.int r) ↔
      (ofQuotient? (halfUp c) (scale digits)).bind toInt? = some r ∧ r.natAbs < 2 ^ 53 := by
  obtain ⟨x, made, whole⟩ := Option.bind_eq_some_iff.mp nearest
  rw [round?_int, made]
  dsimp only
  rw [Binary64.floor?_add_half whole]
  dsimp only
  cases ofQuotient? (halfUp c) (scale digits) with
  | none => simp
  | some z => rw [Except.ok.injEq, Value.collapse_eq_int_iff, Option.bind_some]

theorem halfUp_eq_self_iff {a : Int} (small : a.natAbs < 2 ^ 53) : halfUp a = a ↔ a.natAbs < 2 ^ 52 ∨ 2 ∣ a := by
  unfold halfUp
  split_ifs <;> omega

theorem unscaled (a : Int) : (ofQuotient? a (scale 0)).bind toInt? = rounded? a := by
  have even := Binary64.ofQuotient?_mul (n := a) (scale_pos 0)
  have scale_zero : scale 0 = 1 := rfl
  rw [scale_zero, Int.mul_one] at even
  rw [scale_zero, even, rounded?]

theorem unscaled_halfUp (small : n.natAbs < 2 ^ 53) :
    (ofQuotient? (halfUp n) (scale 0)).bind toInt? = some n ↔ n.natAbs < 2 ^ 52 ∨ 2 ∣ n := by
  have upper : (halfUp n).natAbs ≤ 2 ^ 53 := by
    unfold halfUp
    split_ifs <;> omega
  rw [unscaled, Binary64.rounded?_eq_self (.of_small upper), Option.some.injEq, halfUp_eq_self_iff small]

theorem scaled_halfUp {c : Int} (some_digits : digits ≠ 0) (nearest : rounded? (n * scale digits) = some c) :
    halfUp c = c := by
  obtain ⟨x, made, _⟩ := Option.bind_eq_some_iff.mp nearest
  obtain ⟨c', _, nearest', same, large, _⟩ := Binary64.exists_rounded? made
  obtain rfl := Option.some.inj (nearest'.symm.trans nearest)
  rcases Nat.lt_or_ge (n * scale digits).natAbs (2 ^ 53) with small | above
  · have exact := same (.of_small small.le)
    rw [exact, halfUp_eq_self_iff small]
    exact .inr ((two_dvd_scale some_digits).mul_left n)
  · exact Binary64.halfUp_of_outside (.inr (large above))

/-- A whole number is left as it is exactly when it is below `2 ^ 53`, an even one from `2 ^ 52` on if there are
no digits, and comes back when it is multiplied by the power of ten, rounded to a binary number and divided.
Where the product is too large for one the rounding fails, and below `2 ^ 52` the number does come back. -/
theorem round?_whole (n : Int) (digits : Nat) :
    (round? (.int n) (.int digits) = .ok (.int n) ↔
      n.natAbs < 2 ^ 53 ∧ (digits = 0 → n.natAbs < 2 ^ 52 ∨ 2 ∣ n) ∧
        ∃ c, rounded? (n * scale digits) = some c ∧ (ofQuotient? c (scale digits)).bind toInt? = some n) ∧
    (2 ^ 1024 - 2 ^ 970 ≤ (n * scale digits).natAbs →
      round? (.int n) (.int digits) = .error (.fault .outOfRange)) ∧
    ((n * scale digits).natAbs < 2 ^ 52 → round? (.int n) (.int digits) = .ok (.int n)) := by
  refine ⟨?_, round?_too_large, ?_⟩
  · cases nearest : rounded? (n * scale digits) with
    | none =>
      rw [round?_too_large (Binary64.rounded?_eq_none_iff.mp nearest)]
      exact iff_of_false nofun (by rintro ⟨_, _, _, ⟨⟩, _⟩)
    | some c =>
      rw [round?_eq_ok_iff nearest, and_comm]
      refine and_congr_right fun small => ?_
      by_cases none : digits = 0
      · subst none
        have exact : rounded? n = some n := Binary64.rounded?_eq_self (.of_small small.le)
        rw [show n * scale 0 = n from Int.mul_one n] at nearest
        obtain rfl := Option.some.inj (nearest.symm.trans exact)
        rw [unscaled_halfUp small]
        simp [unscaled, exact]
      · rw [scaled_halfUp none nearest]
        simp [none]
  · intro small
    have larger : n.natAbs ≤ (n * scale digits).natAbs := by
      rw [Int.natAbs_mul]
      exact Nat.le_mul_of_pos_right _ (Int.natAbs_pos.mpr (scale_pos digits).ne')
    have nearest := Binary64.rounded?_eq_self (.of_small (show (n * scale digits).natAbs ≤ 2 ^ 53 by omega))
    rw [round?_eq_ok_iff nearest, Binary64.halfUp_of_outside (.inl small), Binary64.ofQuotient?_mul (scale_pos digits)]
    exact ⟨Binary64.rounded?_eq_self (.of_small (by omega)), by omega⟩

/-- From `2 ^ 52` on an odd number is rounded up, and so many digits change a small one or make it too large. -/
theorem round?_changes : round? (.int (2 ^ 52 + 1)) (.int 0) = .ok (.int (2 ^ 52 + 2)) ∧
    round? (.int 300) (.int 40) ≠ .ok (.int 300) ∧ round? (.int 300) (.int 307) = .error (.fault .outOfRange) := by
  refine ⟨?_, ?_, ?_⟩
  · have nearest : rounded? ((2 ^ 52 + 1) * scale 0) = some (2 ^ 52 + 1) := by decide +kernel
    exact (round?_eq_ok_iff nearest).mpr (by decide +kernel)
  · have nearest : rounded? (300 * scale 40) = some 3000000000000000289399642944900284719038464 := by decide +kernel
    intro same
    exact absurd ((round?_eq_ok_iff nearest).mp same) (by decide +kernel)
  · have large : 2 ^ 1024 - 2 ^ 970 ≤ (300 * scale 307).natAbs := by decide +kernel
    exact round?_too_large large

end NoteQuery.Builtin
