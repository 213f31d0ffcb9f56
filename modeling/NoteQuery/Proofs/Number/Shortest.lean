import NoteQuery.Number.Shortest
import NoteQuery.Proofs.Number.Numeral

/-! The decimal that stands for a binary number. Its coefficient is nought only for zero itself, unless
no number of digits was found to do. -/
namespace NoteQuery

namespace Numeral

theorem natOfDigits_append (front back : List Char) :
    natOfDigits (front ++ back) = natOfDigits front * 10 ^ back.length + natOfDigits back := by
  induction back using List.reverseRecOn with
  | nil => simp [natOfDigits]
  | append_singleton back c ih =>
    have last (digits : List Char) : natOfDigits (digits ++ [c]) =
        10 * natOfDigits digits + (Text.decimalValue? c).getD 0 := by
      simp [natOfDigits]
    rw [← List.append_assoc, last, last, ih, List.length_append, List.length_singleton, pow_succ]
    ring

theorem natOfDigits_zeros (n : Nat) : natOfDigits (NumberLayout.zeros n) = 0 := by
  unfold NumberLayout.zeros
  induction n with
  | zero => rfl
  | succ n ih =>
    rw [List.replicate_succ', natOfDigits_append, ih]
    decide +kernel

theorem digits_lead (n : Nat) : Nat.toDigits 10 n = ['0'] ∨ (Nat.toDigits 10 n).head? ≠ some '0' := by
  induction n using Nat.strongRecOn with
  | ind n ih =>
    by_cases single : n < 10
    · rw [Nat.toDigits_of_lt_base single]
      interval_cases n <;> decide
    · rw [Nat.toDigits_of_base_le (by decide) (not_lt.mp single)]
      right
      rcases ih (n / 10) (by omega) with nought | lead
      · -- Only nought itself is spelled so, and the front is no nought.
        have value := natOfDigits_digits (n / 10)
        rw [nought] at value
        have front : n / 10 = 0 := value.symm.trans (by decide +kernel)
        omega
      · obtain ⟨c, digits, split⟩ :=
          List.exists_cons_of_ne_nil (Nat.toDigits_ne_nil (n := n / 10) (b := 10))
        rw [split] at lead ⊢
        exact lead

end Numeral

namespace Decimal

/-- The number that a decimal stands for. -/
def value (d : Decimal) : ℚ := d.coefficient * 10 ^ d.exponent

theorem strip_ne_zero {fuel n : Nat} {k : Int} (some_unit : n ≠ 0) :
    (strip fuel n k).coefficient ≠ 0 := by
  induction fuel generalizing n k with
  | zero => exact some_unit
  | succ fuel ih =>
    rw [strip]
    split_ifs with zeros
    · exact ih (by omega)
    · exact some_unit

end Decimal

namespace Magnitude

variable {m : Magnitude}

theorem scaled_pos {n : Nat} (some_unit : 0 < n) (shift : Int) : 0 < (scaled n shift).1 := by
  unfold scaled
  split_ifs
  · exact Nat.mul_pos some_unit (Nat.pow_pos (by decide))
  · exact some_unit

theorem decimalRatio_zero (k : Int) : ∃ den, decimalRatio 0 k = (0, den) ∧ 0 < den := by
  unfold decimalRatio
  split_ifs
  · exact ⟨1, by simp, one_pos⟩
  · exact ⟨_, rfl, Nat.pow_pos (by decide)⟩

/-- What rounds to a number above zero is itself above zero. -/
theorem roundsTo_ne_zero (some_unit : m.isZero = false) {n : Nat} {k : Int}
    (rounds : m.roundsTo n k = true) : n ≠ 0 := by
  rintro rfl
  have mantissa : 0 < m.mantissa := Nat.pos_of_ne_zero (by simpa [isZero] using some_unit)
  obtain ⟨den, ratio, positive⟩ := decimalRatio_zero k
  have unit := scaled_pos one_pos (m.exponent - 2)
  unfold roundsTo at rounds
  simp only [ratio, ratioLe, ratioLt] at rounds
  split_ifs at rounds <;> simp at rounds <;> omega

theorem decimalOfLength?_ne_zero (some_unit : m.isZero = false) {scale : Int} {length : Nat}
    {d : Decimal} (found : m.decimalOfLength? scale length = some d) : d.coefficient ≠ 0 := by
  unfold decimalOfLength? at found
  dsimp only at found
  split at found
  · rename_i low high
    have some_low := roundsTo_ne_zero some_unit low
    split_ifs at found <;> cases found
    · exact Decimal.strip_ne_zero some_low
    · exact Decimal.strip_ne_zero fun nought => some_low (Nat.add_eq_zero_iff.mp nought).1
    · exact Decimal.strip_ne_zero (Nat.succ_ne_zero _)
  · rename_i low high
    cases found
    exact Decimal.strip_ne_zero (roundsTo_ne_zero some_unit low)
  · cases found
    exact Decimal.strip_ne_zero (Nat.succ_ne_zero _)
  · cases found

theorem shortestFrom_nought (some_unit : m.isZero = false) (scale : Int) (fuel length : Nat)
    (nought : (m.shortestFrom scale fuel length).coefficient = 0) :
    (m.shortestFrom scale fuel length).exponent = fuel + length := by
  induction fuel generalizing length with
  | zero => simp [shortestFrom]
  | succ fuel ih =>
    rw [shortestFrom] at nought ⊢
    split at nought
    · rename_i d found
      exact absurd nought (decimalOfLength?_ne_zero some_unit found)
    · rw [ih (length + 1) nought]
      push_cast
      ring

theorem shortest_nought (nought : m.shortest.coefficient = 0) :
    m.shortest.exponent = 0 ∨ 15 < m.shortest.exponent := by
  unfold shortest at nought ⊢
  split_ifs at nought ⊢ with zero
  · exact .inl rfl
  · rw [shortestFrom_nought (by simpa using zero) _ 17 1 nought]
    exact .inr (by decide)

end Magnitude

end NoteQuery
