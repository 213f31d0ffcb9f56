import Mathlib
import NoteQuery.Number.Binary64

/-! Whole numbers as binary numbers. Below `2 ^ 53` each is one, also as a quotient that comes out even;
from `2 ^ 1024 - 2 ^ 970` on it is nearer to what would be the next than to any. -/
namespace NoteQuery

section Division

variable {num den : Nat}

theorem roundDiv_mul (q : Nat) (pos : 0 < den) : roundDiv (q * den) den = q := by
  simp [roundDiv, Nat.mul_div_cancel q pos, pos]

theorem roundDiv_scale (num den : Nat) {c : Nat} (pos : 0 < c) :
    roundDiv (num * c) (den * c) = roundDiv num den := by
  unfold roundDiv
  have twice : 2 * (num % den * c) = 2 * (num % den) * c := by rw [Nat.mul_assoc]
  simp only [Nat.mul_div_mul_right _ _ pos, Nat.mul_mod_mul_right, twice, Nat.mul_lt_mul_right pos,
    Nat.mul_left_inj pos.ne']

theorem roundDiv_bounds (num den : Nat) :
    num / den ≤ roundDiv num den ∧ roundDiv num den ≤ num / den + 1 := by
  unfold roundDiv
  dsimp only
  split_ifs <;> omega

/-- The whole number that is at most a half away, and is even if it is a half away. -/
theorem roundDiv_nearest {q : Nat} (low : 2 * q * den ≤ 2 * num + den) (high : 2 * num ≤ (2 * q + 1) * den)
    (pos : 0 < den) (even : q % 2 = 0 ∨ 2 * q * den ≠ 2 * num + den ∧ 2 * num ≠ (2 * q + 1) * den) :
    roundDiv num den = q := by
  have cut := Nat.div_add_mod num den
  have rest := Nat.mod_lt num pos
  unfold roundDiv
  dsimp only
  generalize num / den = quotient at cut ⊢
  generalize num % den = remainder at cut rest ⊢
  subst cut
  have least : quotient ≤ q := by
    by_contra above
    have product : (q + 1) * den ≤ quotient * den := Nat.mul_le_mul_right den (by omega)
    nlinarith
  have most : q ≤ quotient + 1 := by
    by_contra above
    have product : (quotient + 2) * den ≤ q * den := Nat.mul_le_mul_right den (by omega)
    nlinarith
  obtain rfl | rfl : q = quotient ∨ q = quotient + 1 := by omega
  · have below : 2 * remainder ≤ den := by nlinarith
    split_ifs <;> grind
  · have above : den ≤ 2 * remainder := by nlinarith
    split_ifs <;> grind

/-- From an odd quotient a half is rounded up. -/
theorem roundDiv_odd (num den : Nat) (odd : num / den % 2 = 1) :
    roundDiv num den = num / den + 1 ↔ den ≤ 2 * (num % den) := by
  unfold roundDiv
  dsimp only
  split_ifs <;> omega

end Division

namespace Magnitude

variable {num den k : Nat}

theorem ratio_pos (m : Magnitude) : 0 < m.ratio.2 := by
  unfold ratio scaled
  split
  · exact Nat.one_pos
  · exact Nat.two_pow_pos _

theorem scaled_natCast (n s : Nat) : scaled n (s : Int) = (n * 2 ^ s, 1) := by
  simp [scaled]

theorem scaled_neg (n s : Nat) : scaled n (-(s : Int)) = (n, 2 ^ s) := by
  cases s with
  | zero => simp [scaled]
  | succ s =>
    have below : ¬ (0 : Int) ≤ -((s + 1 : Nat) : Int) := by omega
    rw [scaled, if_neg below, Int.neg_neg, Int.toNat_natCast]
    rfl

/-- The exponent of a quotient is that of the power of two below it. -/
theorem floorLog2_eq_log (some_unit : num ≠ 0) (pos : den ≠ 0) :
    floorLog2 num den = Int.log 2 ((num : ℚ) / den) := by
  have denominator : (0 : ℚ) < den := by positivity
  have quotient : (0 : ℚ) < (num : ℚ) / den := by positivity
  have two : (2 : ℚ) ≠ 0 := two_ne_zero
  have low : (Nat.log2 num : Int) - Nat.log2 den - 1 ≤ Int.log 2 ((num : ℚ) / den) := by
    rw [← Int.zpow_le_iff_le_log (by decide) quotient, le_div_iff₀ denominator]
    have above : (den : ℚ) ≤ 2 ^ (Nat.log2 den + 1) := by exact_mod_cast Nat.lt_log2_self.le
    have below : (2 : ℚ) ^ Nat.log2 num ≤ num := by exact_mod_cast Nat.log2_self_le some_unit
    calc ((2 : Nat) : ℚ) ^ ((Nat.log2 num : Int) - Nat.log2 den - 1) * den
        ≤ (2 : ℚ) ^ ((Nat.log2 num : Int) - Nat.log2 den - 1) * 2 ^ (Nat.log2 den + 1) := by
          push_cast
          gcongr
      _ = 2 ^ Nat.log2 num := by
          rw [← zpow_natCast, ← zpow_natCast, ← zpow_add₀ two]
          congr 1
          push_cast
          ring
      _ ≤ num := below
  have high : Int.log 2 ((num : ℚ) / den) < (Nat.log2 num : Int) - Nat.log2 den + 1 := by
    rw [← Int.lt_zpow_iff_log_lt (by decide) quotient, div_lt_iff₀ denominator]
    have above : (num : ℚ) < 2 ^ (Nat.log2 num + 1) := by exact_mod_cast Nat.lt_log2_self
    have below : (2 : ℚ) ^ Nat.log2 den ≤ den := by exact_mod_cast Nat.log2_self_le pos
    calc (num : ℚ) < 2 ^ (Nat.log2 num + 1) := above
      _ = (2 : ℚ) ^ ((Nat.log2 num : Int) - Nat.log2 den + 1) * 2 ^ Nat.log2 den := by
          rw [← zpow_natCast, ← zpow_natCast, ← zpow_add₀ two]
          congr 1
          push_cast
          ring
      _ ≤ ((2 : Nat) : ℚ) ^ ((Nat.log2 num : Int) - Nat.log2 den + 1) * den := by
          push_cast
          gcongr
  have before (e : Int) : num * (scaled den e).2 < (scaled den e).1 ↔ Int.log 2 ((num : ℚ) / den) < e := by
    rw [← Int.lt_zpow_iff_log_lt (by decide) quotient, div_lt_iff₀ denominator]
    obtain ⟨s, rfl | rfl⟩ := e.eq_nat_or_neg
    · rw [scaled_natCast, Nat.mul_one, zpow_natCast, mul_comm den]
      exact_mod_cast Iff.rfl
    · rw [scaled_neg, zpow_neg, zpow_natCast, inv_mul_eq_div, lt_div_iff₀ (by positivity)]
      exact_mod_cast Iff.rfl
  unfold floorLog2
  simp only [before]
  split_ifs <;> omega

theorem floorLog2_scale (some_unit : num ≠ 0) (pos : den ≠ 0) {c : Nat} (some_factor : c ≠ 0) :
    floorLog2 (num * c) (den * c) = floorLog2 num den := by
  have factor : (c : ℚ) ≠ 0 := by exact_mod_cast some_factor
  rw [floorLog2_eq_log (Nat.mul_ne_zero some_unit some_factor) (Nat.mul_ne_zero pos some_factor),
    floorLog2_eq_log some_unit pos]
  push_cast
  rw [mul_div_mul_right _ _ factor]

theorem floorLog2_unique (pos : den ≠ 0) {e : Int} (low : (2 : ℚ) ^ e * den ≤ num)
    (high : (num : ℚ) < 2 ^ (e + 1) * den) : floorLog2 num den = e := by
  have denominator : (0 : ℚ) < den := by positivity
  have numerator : (0 : ℚ) < num := lt_of_lt_of_le (by positivity) low
  have quotient : (0 : ℚ) < (num : ℚ) / den := div_pos numerator denominator
  rw [floorLog2_eq_log (by exact_mod_cast numerator.ne') pos]
  have least : e ≤ Int.log 2 ((num : ℚ) / den) := by
    rw [← Int.zpow_le_iff_le_log (by decide) quotient, le_div_iff₀ denominator]
    exact low
  have most : Int.log 2 ((num : ℚ) / den) < e + 1 := by
    rw [← Int.lt_zpow_iff_log_lt (by decide) quotient, div_lt_iff₀ denominator]
    exact high
  omega

/-- A quotient is rounded by its size alone. -/
theorem ofRatio?_scale (num den : Nat) {c : Nat} (some_factor : c ≠ 0) :
    ofRatio? (num * c) (den * c) = ofRatio? num den := by
  unfold ofRatio?
  by_cases none : num = 0 ∨ den = 0
  · rw [if_pos none, if_pos (none.imp (by simp [·]) (by simp [·]))]
  rw [not_or] at none
  have same (n d : Nat) : roundDiv (num * c * d) (den * c * n) = roundDiv (num * d) (den * n) := by
    rw [Nat.mul_right_comm, Nat.mul_right_comm den, roundDiv_scale _ _ (Nat.pos_of_ne_zero some_factor)]
  simp only [Nat.mul_eq_zero, none, some_factor, or_self, if_false, floorLog2_scale none.1 none.2 some_factor, same]

theorem ofRatio?_mul (k : Nat) (pos : den ≠ 0) : ofRatio? (k * den) den = ofRatio? k 1 := by
  have scale := ofRatio?_scale k 1 pos
  rwa [Nat.one_mul] at scale

theorem pow_log2_le (some_unit : k ≠ 0) {s n : Nat} (place : Nat.log2 k + s = n) :
    2 ^ n ≤ k * 2 ^ s ∧ k * 2 ^ s < 2 ^ (n + 1) := by
  rw [← place, add_right_comm, pow_add, pow_add _ _ s]
  exact ⟨Nat.mul_le_mul_right _ (Nat.log2_self_le some_unit),
    Nat.mul_lt_mul_of_pos_right Nat.lt_log2_self (Nat.two_pow_pos s)⟩

theorem ofParts?_normal {mantissa : Nat} {exponent : Int} (least : 2 ^ 52 ≤ mantissa)
    (most : mantissa < 2 ^ 53) (above : -1074 ≤ exponent) :
    ofParts? mantissa exponent = none ↔ 971 < exponent := by
  unfold ofParts?
  split_ifs with valid
  · exact iff_of_false (by simp) (not_lt.mpr valid.2.2.1)
  · refine iff_of_true rfl ?_
    by_contra below
    exact valid ⟨most, above, not_lt.mp below, .inl least⟩

/-- A quotient whose mantissa is full is rounded at the place of the least digit. -/
theorem ofRatio?_normal {s : Nat} (pos : 0 < den) (low : den * 2 ^ (52 + s) ≤ num) (high : num < den * 2 ^ (53 + s)) :
    ofRatio? num den = if roundDiv num (den * 2 ^ s) = 2 ^ 53 then ofParts? (2 ^ 52) (s + 1)
      else ofParts? (roundDiv num (den * 2 ^ s)) s := by
  have some_unit : num ≠ 0 := (Nat.lt_of_lt_of_le (by positivity) low).ne'
  have log : floorLog2 num den = (52 + s : Nat) := by
    refine floorLog2_unique pos.ne' ?_ ?_
    · rw [zpow_natCast, mul_comm]
      exact_mod_cast low
    · rw [mul_comm, show ((52 + s : Nat) : Int) + 1 = (53 + s : Nat) by omega, zpow_natCast]
      exact_mod_cast high
  have exponent : max (((52 + s : Nat) : Int) - 52) (-1074) = (s : Int) := by omega
  simp only [ofRatio?, some_unit, pos.ne', or_self, if_false, log, exponent, scaled_natCast, Nat.mul_one, Nat.one_mul]
  rfl

/-- A fraction over a power of two with few enough digits is not rounded. -/
theorem ofRatio?_dyadic (small : k < 2 ^ 53) {j : Nat} (near : j ≤ 1022) :
    ∃ m, ofRatio? k (2 ^ j) = some m ∧ m.ratio.1 * 2 ^ j = k * m.ratio.2 := by
  have pos : 2 ^ j ≠ 0 := (Nat.two_pow_pos j).ne'
  by_cases none : k = 0
  · refine ⟨zero, by simp [ofRatio?, none], ?_⟩
    rw [none, Nat.zero_mul, ratio, scaled]
    split_ifs <;> exact Nat.zero_mul _
  obtain ⟨s, place⟩ : ∃ s, Nat.log2 k + s = 52 := by
    have log := (Nat.log2_lt none).mpr small
    exact ⟨52 - Nat.log2 k, by omega⟩
  obtain ⟨least, most⟩ := pow_log2_le none place
  have log : floorLog2 k (2 ^ j) = (Nat.log2 k : Int) - j := by
    have two : (2 : ℚ) ≠ 0 := two_ne_zero
    refine floorLog2_unique pos ?_ ?_
    · push_cast
      rw [← zpow_natCast, ← zpow_add₀ two, sub_add_cancel, zpow_natCast]
      exact_mod_cast Nat.log2_self_le none
    · push_cast
      rw [← zpow_natCast, ← zpow_add₀ two, add_right_comm, sub_add_cancel]
      exact_mod_cast Nat.lt_log2_self
  have exponent : max ((Nat.log2 k : Int) - j - 52) (-1074) = -((s + j : Nat) : Int) := by omega
  have mantissa : roundDiv (k * 2 ^ (s + j)) (2 ^ j * 1) = k * 2 ^ s := by
    rw [pow_add, ← Nat.mul_assoc, Nat.mul_one, roundDiv_mul _ (Nat.two_pow_pos j)]
  refine ⟨⟨k * 2 ^ s, -((s + j : Nat) : Int), most, by omega, by omega, .inl least⟩, ?_, ?_⟩
  · simp only [ofRatio?, none, pos, or_self, if_false, log, exponent, scaled_neg, mantissa]
    rw [if_neg (show k * 2 ^ s ≠ Nat.pow 2 53 from most.ne),
      ofParts?, dif_pos ⟨most, by omega, by omega, .inl least⟩]
  · rw [ratio, scaled_neg, pow_add, Nat.mul_assoc]

theorem ofRatio?_small (small : k < 2 ^ 53) :
    ∃ m, ofRatio? k 1 = some m ∧ m.ratio.1 = k * m.ratio.2 := by
  have exact := ofRatio?_dyadic small (Nat.zero_le _)
  simpa using exact

/-- The exponent of the largest magnitudes is exceeded, or it is reached and the mantissa is rounded
up to a power of two. -/
theorem ofRatio?_large {s : Nat} (place : Nat.log2 k = 52 + s) :
    ofRatio? k 1 = none ↔ 971 < s ∨ s = 971 ∧ roundDiv k (2 ^ s) = 2 ^ 53 := by
  have none : k ≠ 0 := by
    rintro rfl
    rw [Nat.log2_zero] at place
    omega
  obtain ⟨low, high⟩ := pow_log2_le none (Nat.add_zero _)
  rw [pow_zero, Nat.mul_one, place] at low high
  have least : 2 ^ 52 ≤ k / 2 ^ s := by
    rwa [Nat.le_div_iff_mul_le (Nat.two_pow_pos s), ← pow_add]
  have most : k / 2 ^ s < 2 ^ 53 := by
    rwa [Nat.div_lt_iff_lt_mul (Nat.two_pow_pos s), ← pow_add, Nat.add_right_comm 52 1 s]
  obtain ⟨least', most'⟩ := roundDiv_bounds k (2 ^ s)
  have low' : 1 * 2 ^ (52 + s) ≤ k := by rwa [Nat.one_mul]
  have high' : k < 1 * 2 ^ (53 + s) := by rwa [Nat.one_mul, Nat.add_right_comm 52 1 s]
  have rounded := ofRatio?_normal one_pos low' high'
  rw [Nat.one_mul] at rounded
  rw [rounded]
  split_ifs with full
  · rw [ofParts?_normal (le_refl _) (by decide) (by omega)]
    omega
  · rw [ofParts?_normal (least.trans least') (by omega) (by omega)]
    omega

/-- Only what lies past the middle below a power of two is rounded up to it. -/
theorem roundDiv_full {unit : Nat} (inside : k < 2 ^ 53 * (2 * unit)) :
    roundDiv k (2 * unit) = 2 ^ 53 ↔ (2 ^ 54 - 1) * unit ≤ k := by
  have positive : 0 < unit := by omega
  have cut := Nat.div_add_mod k (2 * unit)
  have rest := Nat.mod_lt k (show 0 < 2 * unit by omega)
  have quotient : k / (2 * unit) < 2 ^ 53 := (Nat.div_lt_iff_lt_mul (by omega)).mpr inside
  by_cases last : k / (2 * unit) = 2 ^ 53 - 1
  · have up := roundDiv_odd k (2 * unit) (by rw [last]; rfl)
    rw [last] at up cut
    rw [show 2 ^ 53 = 2 ^ 53 - 1 + 1 by rfl, up]
    omega
  · have near := (roundDiv_bounds k (2 * unit)).2
    have product : 2 * unit * (k / (2 * unit)) ≤ 2 * unit * (2 ^ 53 - 2) :=
      Nat.mul_le_mul_left _ (by omega)
    omega

/-- A whole number is too large from the middle on between the largest magnitude and the power of two
above it. -/
theorem ofRatio?_eq_none_iff (k : Nat) : ofRatio? k 1 = none ↔ 2 ^ 1024 - 2 ^ 970 ≤ k := by
  have middle : 2 ^ 1024 - 2 ^ 970 = (2 ^ 54 - 1) * 2 ^ 970 := by
    rw [Nat.sub_mul, ← pow_add, Nat.one_mul]
  obtain ⟨unit, positive, same⟩ : ∃ unit, 0 < unit ∧ 2 ^ 970 = unit :=
    ⟨_, pow_pos two_pos 970, rfl⟩
  rw [middle, same]
  clear middle
  rcases Nat.lt_or_ge k (2 ^ 53) with small | large
  · obtain ⟨m, found, _⟩ := ofRatio?_small small
    exact iff_of_false (by simp [found]) (by omega)
  have none : k ≠ 0 := (Nat.lt_of_lt_of_le (Nat.two_pow_pos 53) large).ne'
  obtain ⟨s, place⟩ : ∃ s, Nat.log2 k = 52 + s :=
    Nat.exists_eq_add_of_le ((Nat.le_log2 none).mpr (le_trans (by decide) large))
  obtain ⟨low, high⟩ := pow_log2_le none (Nat.add_zero _)
  rw [pow_zero, Nat.mul_one, place] at low high
  rw [ofRatio?_large place]
  rcases Nat.lt_trichotomy s (970 + 1) with below | rfl | above
  · have bound : 2 ^ (52 + s + 1) ≤ 2 ^ 53 * unit := by
      rw [← same, ← pow_add]
      exact pow_le_pow_right₀ one_le_two (by omega)
    omega
  · have double : 2 ^ (970 + 1) = 2 * unit := by rw [pow_succ', same]
    rw [show 52 + (970 + 1) + 1 = 53 + (970 + 1) by rfl, pow_add, double] at high
    rw [double, roundDiv_full high]
    simp
  · have bound : 2 ^ 54 * unit ≤ 2 ^ (52 + s) := by
      rw [← same, ← pow_add]
      exact pow_le_pow_right₀ one_le_two (by omega)
    omega

end Magnitude

end NoteQuery
