import NoteQuery.Proofs.Number.Rounding
import NoteQuery.Value.Text

/-! Whole numbers among the binary ones. They are the multiples of a power of two by a mantissa, so what is
one already is not rounded and the remainder of two is one again. A whole number is rounded to a whole number,
and never past `2 ^ 53`. -/
namespace NoteQuery

/-- From `2 ^ 53` on the least digit of a mantissa stands for an even number. -/
theorem exists_place {k : Nat} (large : 2 ^ 53 ≤ k) : ∃ s, 2 ^ (52 + (s + 1)) ≤ k ∧ k < 2 ^ (53 + (s + 1)) := by
  have none : k ≠ 0 := (Nat.lt_of_lt_of_le (Nat.two_pow_pos 53) large).ne'
  obtain ⟨s, place⟩ : ∃ s, Nat.log2 k = 53 + s := Nat.exists_eq_add_of_le ((Nat.le_log2 none).mpr large)
  have low := Nat.log2_self_le none
  have high : k < 2 ^ (Nat.log2 k + 1) := Nat.lt_log2_self
  rw [place] at low high
  exact ⟨s, by rwa [show 52 + (s + 1) = 53 + s by omega], high⟩

/-- A mantissa times a power of two that no exponent exceeds. -/
def Representable (k : Nat) : Prop := ∃ c e, k = c * 2 ^ e ∧ c < 2 ^ 53 ∧ e ≤ 971

namespace Representable

variable {a b k : Nat}

theorem of_small (small : k ≤ 2 ^ 53) : Representable k := by
  rcases small.lt_or_eq with less | rfl
  · exact ⟨k, 0, (Nat.mul_one k).symm, less, Nat.zero_le _⟩
  · exact ⟨1, 53, (Nat.one_mul _).symm, by decide, by decide⟩

theorem mod (left : Representable a) (right : Representable b) (pos : 0 < b) : Representable (a % b) := by
  obtain ⟨c, e, rfl, mantissa, exponent⟩ := left
  obtain ⟨d, f, rfl, mantissa', exponent'⟩ := right
  rcases Nat.le_total e f with below | above
  · obtain ⟨g, rfl⟩ := Nat.exists_eq_add_of_le below
    refine ⟨c % (d * 2 ^ g), e, ?_, (Nat.mod_le _ _).trans_lt mantissa, exponent⟩
    rw [Nat.pow_add, Nat.mul_comm (2 ^ e), ← Nat.mul_assoc, Nat.mul_mod_mul_right]
  · obtain ⟨g, rfl⟩ := Nat.exists_eq_add_of_le above
    refine ⟨c * 2 ^ g % d, f, ?_, (Nat.mod_lt _ (Nat.pos_of_mul_pos_right pos)).trans mantissa', exponent'⟩
    rw [Nat.pow_add, Nat.mul_comm (2 ^ f), ← Nat.mul_assoc, Nat.mul_mod_mul_right]

theorem exists_full (representable : Representable k) (large : 2 ^ 53 ≤ k) :
    ∃ c e, k = c * 2 ^ (e + 1) ∧ 2 ^ 52 ≤ c ∧ c < 2 ^ 53 ∧ e + 1 ≤ 971 := by
  obtain ⟨c, e, rfl, mantissa, exponent⟩ := representable
  obtain ⟨s, low, high⟩ := exists_place large
  have within : 52 + (s + 1) < 53 + e := by
    rw [← Nat.pow_lt_pow_iff_right one_lt_two]
    calc 2 ^ (52 + (s + 1)) ≤ c * 2 ^ e := low
      _ < 2 ^ 53 * 2 ^ e := Nat.mul_lt_mul_of_pos_right mantissa (Nat.two_pow_pos e)
      _ = 2 ^ (53 + e) := (Nat.pow_add 2 53 e).symm
  obtain ⟨g, rfl⟩ := Nat.exists_eq_add_of_le (show s + 1 ≤ e by omega)
  have split : c * 2 ^ (s + 1 + g) = c * 2 ^ g * 2 ^ (s + 1) := by
    rw [Nat.add_comm, Nat.pow_add, Nat.mul_assoc]
  rw [split] at low high ⊢
  refine ⟨c * 2 ^ g, s, rfl, ?_, ?_, by omega⟩
  · rw [Nat.pow_add 2 52] at low
    exact Nat.le_of_mul_le_mul_right low (Nat.two_pow_pos _)
  · rw [Nat.pow_add 2 53] at high
    exact Nat.lt_of_mul_lt_mul_right high

end Representable

namespace Magnitude

variable {m : Magnitude} {k : Nat}

/-- The size is that whole number. -/
def Counts (m : Magnitude) (k : Nat) : Prop := m.ratio.1 = k * m.ratio.2

theorem counts_up {s : Nat} (up : m.exponent = s) : m.Counts k ↔ m.mantissa * 2 ^ s = k := by
  rw [Counts, ratio, up, scaled_natCast, Nat.mul_one]

theorem counts_down {s : Nat} (down : m.exponent = -(s : Int)) : m.Counts k ↔ m.mantissa = k * 2 ^ s := by
  rw [Counts, ratio, down, scaled_neg]

theorem Counts.representable (counts : m.Counts k) : Representable k := by
  have mantissa : m.mantissa < 2 ^ 53 := m.mantissa_lt
  have exponent := m.exponent_le
  obtain ⟨s, up | down⟩ := m.exponent.eq_nat_or_neg
  · exact ⟨m.mantissa, s, ((counts_up up).mp counts).symm, mantissa, by omega⟩
  · refine .of_small (le_trans ?_ mantissa.le)
    rw [(counts_down down).mp counts]
    exact Nat.le_mul_of_pos_right k (Nat.two_pow_pos s)

theorem Counts.eq_zero (counts : m.Counts k) (none : m.isZero = true) : k = 0 := by
  have mantissa : m.mantissa = 0 := by simpa [isZero] using none
  have product : k * m.ratio.2 = 0 := by
    rw [← counts, ratio, mantissa, scaled]
    split <;> simp
  exact (Nat.mul_eq_zero.mp product).resolve_right m.ratio_pos.ne'

theorem ofParts?_counts {c s : Nat} (made : ofParts? c s = some m) : m.Counts (c * 2 ^ s) := by
  unfold ofParts? at made
  split at made
  · obtain rfl := Option.some.inj made
    exact (counts_up rfl).mpr rfl
  · cases made

theorem exists_ofParts? {c s : Nat} (least : 2 ^ 52 ≤ c) (most : c < 2 ^ 53) (near : s ≤ 971) :
    ∃ m, ofParts? c s = some m := by
  rw [← Option.ne_none_iff_exists', Ne, ofParts?_normal least most (by omega)]
  omega

theorem ofRatio?_representable (representable : Representable k) : ∃ m, ofRatio? k 1 = some m ∧ m.Counts k := by
  rcases Nat.lt_or_ge k (2 ^ 53) with small | large
  · exact ofRatio?_small small
  obtain ⟨c, e, rfl, least, most, near⟩ := representable.exists_full large
  have low : 1 * 2 ^ (52 + (e + 1)) ≤ c * 2 ^ (e + 1) := by
    rw [Nat.one_mul, Nat.pow_add 2 52]
    exact Nat.mul_le_mul_right _ least
  have high : c * 2 ^ (e + 1) < 1 * 2 ^ (53 + (e + 1)) := by
    rw [Nat.one_mul, Nat.pow_add 2 53]
    exact Nat.mul_lt_mul_of_pos_right most (Nat.two_pow_pos _)
  rw [ofRatio?_normal one_pos low high, Nat.one_mul, roundDiv_mul _ (Nat.two_pow_pos _), if_neg most.ne]
  obtain ⟨m, made⟩ := exists_ofParts? least most near
  exact ⟨m, made, ofParts?_counts made⟩

theorem ofRatio?_large_whole (large : 2 ^ 53 ≤ k) (rounded : ofRatio? k 1 = some m) :
    ∃ n, m.Counts n ∧ 2 ^ 53 ≤ n := by
  obtain ⟨s, low, high⟩ := exists_place large
  have least : 2 ^ 52 ≤ k / 2 ^ (s + 1) := by rwa [Nat.le_div_iff_mul_le (Nat.two_pow_pos _), ← pow_add]
  have double : 2 ≤ 2 ^ (s + 1) := Nat.le_self_pow (Nat.succ_ne_zero s) 2
  rw [ofRatio?_normal one_pos (by rwa [Nat.one_mul]) (by rwa [Nat.one_mul]), Nat.one_mul] at rounded
  split_ifs at rounded
  · have further : 2 ≤ 2 ^ (s + 1 + 1) := double.trans (Nat.pow_le_pow_right two_pos (Nat.le_succ _))
    exact ⟨_, ofParts?_counts rounded, Nat.mul_le_mul_left (2 ^ 52) further⟩
  · refine ⟨_, ofParts?_counts rounded, ?_⟩
    exact Nat.mul_le_mul (least.trans (roundDiv_bounds k (2 ^ (s + 1))).1) double

/-- A whole number is rounded to a whole number, on the same side of `2 ^ 53`. -/
theorem ofRatio?_whole (rounded : ofRatio? k 1 = some m) :
    ∃ n, m.Counts n ∧ (Representable k → n = k) ∧ (2 ^ 53 ≤ k → 2 ^ 53 ≤ n) := by
  by_cases representable : Representable k
  · obtain ⟨m', made, counts⟩ := ofRatio?_representable representable
    obtain rfl := Option.some.inj (made.symm.trans rounded)
    exact ⟨k, counts, fun _ => rfl, id⟩
  · have large : 2 ^ 53 ≤ k := by
      by_contra small
      exact representable (.of_small (by omega))
    obtain ⟨n, counts, above⟩ := ofRatio?_large_whole large rounded
    exact ⟨n, counts, fun held => absurd held representable, fun _ => above⟩

end Magnitude

namespace Binary64

variable {x y : Binary64} {n a b : Int}

theorem finite_toInt? {negative : Bool} {m : Magnitude} {k : Nat} (counts : m.Counts k) :
    toInt? (.finite negative m) = some (if negative then -(k : Int) else k) := by
  have even : m.ratio.1 % m.ratio.2 = 0 := by rw [counts, Nat.mul_mod_left]
  have quotient : m.ratio.1 / m.ratio.2 = k := by rw [counts, Nat.mul_div_cancel _ m.ratio_pos]
  simp only [toInt?, even, if_true, quotient]

theorem exists_finite (whole : x.toInt? = some n) :
    ∃ negative m, x = .finite negative m ∧ m.Counts n.natAbs ∧
      n = if negative then -(n.natAbs : Int) else n.natAbs := by
  match x, whole with
  | .finite negative m, whole =>
    have even : m.ratio.1 % m.ratio.2 = 0 := by
      by_contra odd
      simp [toInt?, odd] at whole
    have counts : m.Counts (m.ratio.1 / m.ratio.2) := (Nat.div_mul_cancel (Nat.dvd_of_mod_eq_zero even)).symm
    obtain rfl := Option.some.inj ((finite_toInt? counts).symm.trans whole)
    generalize m.ratio.1 / m.ratio.2 = k at counts ⊢
    refine ⟨negative, m, rfl, ?_, ?_⟩ <;> cases negative <;> simp [counts]

/-- The nearest binary number to a whole one, as a whole number again. -/
def rounded? (n : Int) : Option Int := (ofInt? n).bind toInt?

theorem exists_rounded? (made : ofInt? n = some x) : ∃ a, x.toInt? = some a ∧ rounded? n = some a ∧
    (Representable n.natAbs → a = n) ∧ (2 ^ 53 ≤ n.natAbs → 2 ^ 53 ≤ a.natAbs) ∧ (n ≠ 0 → a ≠ 0) := by
  obtain ⟨m, rounded, rfl⟩ := Option.map_eq_some_iff.mp made
  obtain ⟨k, counts, same, large⟩ := Magnitude.ofRatio?_whole rounded
  have whole : toInt? (.finite (decide (n < 0)) m) = _ := finite_toInt? counts
  generalize value : (if decide (n < 0) then -(k : Int) else k) = a at whole
  have size : a.natAbs = k := by rw [← value]; split_ifs <;> omega
  have exact (representable : Representable n.natAbs) : a = n := by
    rw [← value, same representable]
    split_ifs <;> grind
  refine ⟨a, whole, ?_, exact, size ▸ large, ?_⟩
  · rw [rounded?, made, Option.bind_some, whole]
  · intro some_unit none
    by_cases small : n.natAbs ≤ 2 ^ 53
    · exact some_unit ((exact (.of_small small)).symm.trans none)
    · have above := large (by omega)
      omega

theorem ofInt?_eq_none_iff (n : Int) : ofInt? n = none ↔ 2 ^ 1024 - 2 ^ 970 ≤ n.natAbs := by
  rw [ofInt?, Option.map_eq_none_iff, Magnitude.ofRatio?_eq_none_iff]

theorem rounded?_eq_none_iff : rounded? n = none ↔ 2 ^ 1024 - 2 ^ 970 ≤ n.natAbs := by
  rw [← ofInt?_eq_none_iff]
  cases made : ofInt? n with
  | none => simp [rounded?, made]
  | some x =>
    obtain ⟨a, _, rounded, _⟩ := exists_rounded? made
    simp [rounded]

theorem exists_ofInt? (representable : Representable n.natAbs) : ∃ x, ofInt? n = some x ∧ x.toInt? = some n := by
  obtain ⟨m, made, _⟩ := Magnitude.ofRatio?_representable representable
  have found : ofInt? n = some (.finite (decide (n < 0)) m) := by rw [ofInt?, made, Option.map_some]
  obtain ⟨a, whole, _, exact, _⟩ := exists_rounded? found
  exact ⟨_, found, exact representable ▸ whole⟩

theorem rounded?_eq_self (representable : Representable n.natAbs) : rounded? n = some n := by
  obtain ⟨x, made, whole⟩ := exists_ofInt? representable
  rw [rounded?, made, Option.bind_some, whole]

theorem ofQuotient?_mul {d : Int} (pos : 0 < d) : ofQuotient? (n * d) d = ofInt? n := by
  have negative : n * d < 0 ↔ n < 0 := by
    rw [mul_neg_iff]
    omega
  rw [ofQuotient?, if_neg pos.ne', Int.natAbs_mul, Magnitude.ofRatio?_mul _ (Int.natAbs_ne_zero.mpr pos.ne'),
    decide_eq_false pos.not_gt, Bool.bne_false, decide_eq_decide.mpr negative, ofInt?]

theorem rem?_whole (left : x.toInt? = some a) (right : y.toInt? = some b) (some_divisor : b ≠ 0) :
    ∃ z, x.rem? y = some z ∧ z.toInt? = some (a.tmod b) := by
  obtain ⟨s, m, rfl, counts, sign⟩ := exists_finite left
  obtain ⟨t, l, rfl, counts', sign'⟩ := exists_finite right
  have divisor : l.isZero = false := by
    by_contra none
    have size := counts'.eq_zero (Bool.not_eq_false _ ▸ none)
    omega
  -- Over the common denominator the remainder of the sizes is that of the whole numbers.
  obtain ⟨d, product⟩ : ∃ d, m.ratio.2 * l.ratio.2 = d := ⟨_, rfl⟩
  have pos : d ≠ 0 := product ▸ (Nat.mul_pos m.ratio_pos l.ratio_pos).ne'
  have rest : m.ratio.1 * l.ratio.2 % (l.ratio.1 * m.ratio.2) = a.natAbs % b.natAbs * d := by
    rw [counts, counts', Nat.mul_assoc, product, Nat.mul_assoc, Nat.mul_comm l.ratio.2, product, Nat.mul_mod_mul_right]
  have representable := counts.representable.mod counts'.representable (Int.natAbs_pos.mpr some_divisor)
  obtain ⟨r, made, counts''⟩ := Magnitude.ofRatio?_representable representable
  refine ⟨.finite s r, ?_, ?_⟩
  · simp only [rem?, divisor, Bool.false_eq_true, if_false, rest, product, ofRatio,
      Magnitude.ofRatio?_mul _ pos, made]
  · rw [finite_toInt? counts'', ← Int.natAbs_tmod, Option.some.injEq]
    cases s with
    | false =>
      have nonneg : 0 ≤ a := sign ▸ Int.natCast_nonneg _
      exact Int.natAbs_of_nonneg (Int.tmod_nonneg b nonneg)
    | true =>
      have nonpos : 0 ≤ -a := by grind
      have rest := Int.tmod_nonneg b nonpos
      rw [Int.neg_tmod] at rest
      rw [if_pos rfl, Int.ofNat_natAbs_of_nonpos (Int.neg_nonneg.mp rest), Int.neg_neg]

end Binary64

theorem Value.collapse_eq_int_iff {x : Binary64} {n : Int} :
    collapse x = int n ↔ x.toInt? = some n ∧ n.natAbs < 2 ^ 53 := by
  unfold collapse
  cases whole : x.toInt? with
  | none => simp
  | some k =>
    dsimp only
    split_ifs with small
    · constructor
      · rintro ⟨⟩
        exact ⟨rfl, small⟩
      · rintro ⟨⟨⟩, _⟩
        rfl
    · refine iff_of_false nofun ?_
      rintro ⟨⟨⟩, below⟩
      exact small below

end NoteQuery
