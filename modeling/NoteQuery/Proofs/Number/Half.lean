import NoteQuery.Proofs.Number.Whole

/-! A half added to a whole number. Below `2 ^ 52` the sum is exact, from there to `2 ^ 53` it is a tie that
goes to the even neighbour, and past that the half is lost. -/
namespace NoteQuery

namespace Magnitude

variable {c e k : Nat}

/-- Between `2 ^ 52` and `2 ^ 53` a half lies in the middle of two binary numbers. -/
theorem ofRatio?_tie (least : 2 ^ 53 ≤ k) (most : k < 2 ^ 54) (odd : k % 2 = 1) :
    ∃ m, ofRatio? k 2 = some m ∧ m.Counts (k / 2 + k / 2 % 2) := by
  have tie : roundDiv k 2 = k / 2 + k / 2 % 2 := by
    unfold roundDiv
    rw [odd, if_neg (lt_irrefl _), if_pos rfl]
  rw [ofRatio?_normal two_pos (s := 0) (by omega) (by omega), pow_zero, Nat.mul_one, tie]
  split_ifs with full
  · obtain ⟨m, made⟩ := exists_ofParts? (s := 1) (le_refl (2 ^ 52)) (by decide) (by decide)
    exact ⟨m, made, full ▸ ofParts?_counts made⟩
  · obtain ⟨m, made⟩ := exists_ofParts? (c := k / 2 + k / 2 % 2) (s := 0) (by omega) (by omega) (by decide)
    exact ⟨m, made, Nat.mul_one (k / 2 + k / 2 % 2) ▸ ofParts?_counts made⟩

theorem roundDiv_beside {unit : Nat} (wide : 2 ≤ unit) (beside : k = 2 * (c * unit) + 1 ∨ k + 1 = 2 * (c * unit)) :
    roundDiv k (2 * unit) = c := by
  have here : 2 * c * (2 * unit) = 4 * (c * unit) := by ring
  have next : (2 * c + 1) * (2 * unit) = 4 * (c * unit) + 2 * unit := by ring
  refine roundDiv_nearest ?_ ?_ (by omega) (.inr ⟨?_, ?_⟩) <;> omega

theorem ofRatio?_near (least : 2 ^ 52 ≤ c) (most : c < 2 ^ 53)
    (beside : k = 2 * (c * 2 ^ (e + 1)) + 1 ∨ k + 1 = 2 * (c * 2 ^ (e + 1)) ∧ 2 ^ 52 < c) :
    ofRatio? k 2 = ofParts? c (e + 1 : Nat) := by
  have wide : 2 ≤ 2 ^ (e + 1) := Nat.le_self_pow (Nat.succ_ne_zero e) 2
  have lower : 2 * (2 ^ 52 * 2 ^ (e + 1)) ≤ k := by
    rcases beside with above | ⟨below, less⟩
    · have product := Nat.mul_le_mul_right (2 ^ (e + 1)) least
      omega
    · have product : (2 ^ 52 + 1) * 2 ^ (e + 1) ≤ c * 2 ^ (e + 1) := Nat.mul_le_mul_right _ less
      rw [Nat.succ_mul] at product
      omega
  have upper : k < 2 * (2 ^ 53 * 2 ^ (e + 1)) := by
    have product : (c + 1) * 2 ^ (e + 1) ≤ 2 ^ 53 * 2 ^ (e + 1) := Nat.mul_le_mul_right _ most
    rw [Nat.succ_mul] at product
    omega
  rw [ofRatio?_normal two_pos (by rwa [Nat.pow_add 2 52]) (by rwa [Nat.pow_add 2 53]),
    roundDiv_beside wide (beside.imp_right And.left), if_neg most.ne]

/-- Below a power of two the binary numbers are twice as dense. -/
theorem ofRatio?_below_power : ofRatio? (2 * (2 ^ 52 * 2 ^ (e + 1)) - 1) 2 = ofParts? (2 ^ 52) (e + 1 : Nat) := by
  have pos := Nat.two_pow_pos e
  have low : 2 * 2 ^ (52 + e) ≤ 2 * (2 ^ 52 * 2 ^ (e + 1)) - 1 := by
    rw [Nat.pow_add 2 52, Nat.pow_succ]
    omega
  have high : 2 * (2 ^ 52 * 2 ^ (e + 1)) - 1 < 2 * 2 ^ (53 + e) := by
    rw [Nat.pow_add 2 53, Nat.pow_succ]
    omega
  have full : roundDiv (2 * (2 ^ 52 * 2 ^ (e + 1)) - 1) (2 * 2 ^ e) = 2 ^ 53 := by
    rw [roundDiv_full (by rw [Nat.pow_succ]; omega), Nat.pow_succ]
    omega
  rw [ofRatio?_normal two_pos low high, full, if_pos rfl]
  rfl

theorem ofRatio?_beside (representable : Representable k) (large : 2 ^ 53 ≤ k) :
    (∃ m, ofRatio? (2 * k + 1) 2 = some m ∧ m.Counts k) ∧ ∃ m, ofRatio? (2 * k - 1) 2 = some m ∧ m.Counts k := by
  obtain ⟨c, e, rfl, least, most, near⟩ := representable.exists_full large
  obtain ⟨m, made⟩ := exists_ofParts? least most near
  have above := ofRatio?_near (e := e) least most (.inl rfl)
  have below : ofRatio? (2 * (c * 2 ^ (e + 1)) - 1) 2 = ofParts? c (e + 1 : Nat) := by
    rcases least.eq_or_lt with rfl | less
    · exact ofRatio?_below_power
    · exact ofRatio?_near least most (.inr ⟨by omega, less⟩)
  rw [above, below]
  exact ⟨⟨m, made, ofParts?_counts made⟩, m, made, ofParts?_counts made⟩

end Magnitude

namespace Binary64

variable {x : Binary64} {a : Int}

theorem floor?_whole (whole : x.toInt? = some a) : x.floor? = some a := by
  obtain ⟨negative, m, rfl, counts, sign⟩ := exists_finite whole
  have denominator : (m.ratio.2 : Int) ≠ 0 := by exact_mod_cast m.ratio_pos.ne'
  have numerator : (if negative then -(m.ratio.1 : Int) else m.ratio.1) = a * m.ratio.2 := by
    rw [counts]
    conv_rhs => rw [sign]
    split_ifs <;> push_cast <;> ring
  rw [floor?, ratio?, Option.map_some, numerator]
  exact congrArg some (Int.mul_fdiv_cancel a denominator)

theorem add_half (whole : x.toInt? = some a) :
    x.add (ofRatio false 1 2) = ofRatio (decide (a < 0)) (2 * a + 1).natAbs 2 := by
  obtain ⟨negative, m, rfl, counts, sign⟩ := exists_finite whole
  obtain ⟨h, made, ratio⟩ := Magnitude.ofRatio?_dyadic (k := 1) (j := 1) (by decide) (by decide)
  rw [pow_one] at made ratio
  rw [Nat.one_mul] at ratio
  have half : ofRatio false 1 2 = .finite false h := by rw [ofRatio, made]
  obtain ⟨d, product⟩ : ∃ d, m.ratio.2 * h.ratio.1 = d := ⟨_, rfl⟩
  have pos : 0 < d := by
    have pos' := h.ratio_pos
    exact product ▸ Nat.mul_pos m.ratio_pos (by omega)
  have left : (if negative then -((m.ratio.1 * h.ratio.2 : Nat) : Int) else (m.ratio.1 * h.ratio.2 : Nat)) =
      2 * a * d := by
    rw [counts, ← ratio, ← product]
    conv_rhs => rw [sign]
    split_ifs <;> push_cast <;> ring
  have sum : 2 * a * d + (h.ratio.1 * m.ratio.2 : Nat) = (2 * a + 1) * d := by
    rw [Nat.mul_comm, product]
    ring
  have denominator : m.ratio.2 * h.ratio.2 = 2 * d := by
    rw [← ratio, ← product]
    ring
  have below : (2 * a + 1) * (d : Int) < 0 ↔ a < 0 := by
    rw [mul_neg_iff]
    omega
  have nonzero : (2 * a + 1) * (d : Int) ≠ 0 := mul_ne_zero (by omega) (by omega)
  rw [half, add]
  dsimp only
  rw [if_neg Bool.false_ne_true, left, sum, denominator, if_neg nonzero, decide_eq_decide.mpr below, Int.natAbs_mul,
    Int.natAbs_natCast, ofRatio, ofRatio, Magnitude.ofRatio?_scale _ _ pos.ne']

/-- The whole number that is left of a number and a half. -/
def halfUp (a : Int) : Int := if 2 ^ 52 ≤ a.natAbs ∧ a.natAbs < 2 ^ 53 then a + a % 2 else a

theorem floor?_halves (small : (2 * a + 1).natAbs < 2 ^ 53) :
    (ofRatio (decide (a < 0)) (2 * a + 1).natAbs 2).floor? = some a := by
  obtain ⟨m, made, ratio⟩ := Magnitude.ofRatio?_dyadic (j := 1) small (by decide)
  rw [pow_one] at made ratio
  have positive : (0 : Int) < m.ratio.2 := by exact_mod_cast m.ratio_pos
  have size : (m.ratio.1 : Int) * 2 = (2 * a + 1).natAbs * m.ratio.2 := by exact_mod_cast ratio
  have numerator : 2 * (if decide (a < 0) then -(m.ratio.1 : Int) else m.ratio.1) = (2 * a + 1) * m.ratio.2 := by
    split_ifs with negative <;> rw [decide_eq_true_eq] at negative
    · rw [Int.ofNat_natAbs_of_nonpos (by omega)] at size
      linarith
    · rw [Int.natAbs_of_nonneg (by omega)] at size
      linarith
  rw [ofRatio, made, floor?, ratio?, Option.map_some]
  dsimp only
  rw [Int.fdiv_eq_ediv_of_nonneg _ positive.le, Option.some.injEq]
  refine le_antisymm (Int.lt_add_one_iff.mp ?_) ?_
  · rw [Int.ediv_lt_iff_lt_mul positive]
    linarith
  · rw [Int.le_ediv_iff_mul_le positive]
    linarith

theorem halfUp_of_outside (outside : a.natAbs < 2 ^ 52 ∨ 2 ^ 53 ≤ a.natAbs) : halfUp a = a :=
  if_neg (by omega)

theorem floor?_add_half (whole : x.toInt? = some a) : (x.add (ofRatio false 1 2)).floor? = some (halfUp a) := by
  obtain ⟨_, m, rfl, counts, _⟩ := exists_finite whole
  rw [add_half whole]
  have found {k : Nat} (nearest : ∃ m, Magnitude.ofRatio? (2 * a + 1).natAbs 2 = some m ∧ m.Counts k) :
      (ofRatio (decide (a < 0)) (2 * a + 1).natAbs 2).floor? = some (if a < 0 then -(k : Int) else k) := by
    obtain ⟨m, made, counts⟩ := nearest
    rw [ofRatio, made, floor?_whole (finite_toInt? counts)]
    simp only [decide_eq_true_eq]
  -- The sum is exact, a tie, or rounded back to the whole number.
  rcases Nat.lt_or_ge (2 * a + 1).natAbs (2 ^ 53) with small | least
  · rw [floor?_halves small]
    unfold halfUp
    split_ifs <;> grind
  rcases Nat.lt_or_ge (2 * a + 1).natAbs (2 ^ 54) with most | large
  · rw [found (Magnitude.ofRatio?_tie least most (by omega)), Option.some.injEq]
    unfold halfUp
    split_ifs <;> omega
  · obtain ⟨above, below⟩ := Magnitude.ofRatio?_beside counts.representable (by omega)
    rw [halfUp_of_outside (by omega)]
    rcases lt_or_ge a 0 with negative | nonneg
    · rw [show 2 * a.natAbs - 1 = (2 * a + 1).natAbs by omega] at below
      rw [found below, if_pos negative, Int.ofNat_natAbs_of_nonpos negative.le, Int.neg_neg]
    · rw [show 2 * a.natAbs + 1 = (2 * a + 1).natAbs by omega] at above
      rw [found above, if_neg nonneg.not_gt, Int.natAbs_of_nonneg nonneg]

end Binary64

end NoteQuery
