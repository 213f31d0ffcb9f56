import Mathlib
import NoteQuery.Text.Blank
import NoteQuery.Text.Case
import NoteQuery.Text.Letter

/-! Letters, digits and blanks are kept apart by their ranges, and the plain letters have the small forms
that they have among themselves. -/
namespace NoteQuery.Text

/-- No range meets one of the others. Both are run through once, from the lowest sign. -/
def apart : List (Nat × Nat) → List (Nat × Nat) → Bool
  | [], _ => true
  | range :: ranges, others =>
    let later := others.dropWhile (·.2 < range.1)
    later.head?.all (range.2 < ·.1) && apart ranges later

theorem inRanges_dropWhile {others : List (Nat × Nat)} {least n : Nat} (reached : least ≤ n)
    (inside : inRanges others n = true) : inRanges (others.dropWhile (·.2 < least)) n = true := by
  induction others with
  | nil => exact inside
  | cons head others ih =>
    rw [List.dropWhile_cons]
    split_ifs with before
    · refine ih ?_
      rw [decide_eq_true_eq] at before
      simp only [inRanges, rangeOf?] at inside ⊢
      split_ifs at inside
      · cases inside
      · omega
      · exact inside
    · exact inside

theorem inRanges_of_apart {ranges others : List (Nat × Nat)} {n : Nat}
    (free : apart ranges others = true) (inside : inRanges ranges n = true) :
    inRanges others n = false := by
  induction ranges generalizing others with
  | nil => cases inside
  | cons range ranges ih =>
    simp only [apart, Bool.and_eq_true] at free
    obtain ⟨ahead, free⟩ := free
    simp only [inRanges, rangeOf?] at inside
    split_ifs at inside with before within
    · cases inside
    · by_contra both
      rw [Bool.not_eq_false] at both
      have both := inRanges_dropWhile (by omega : range.1 ≤ n) both
      cases later : others.dropWhile (·.2 < range.1) with
      | nil => simp [later, inRanges, rangeOf?] at both
      | cons other more =>
        simp only [later, List.head?_cons, Option.all_some, decide_eq_true_eq] at ahead
        simp [later, inRanges, rangeOf?, show n < other.1 by omega] at both
    · by_contra both
      rw [Bool.not_eq_false] at both
      have both := inRanges_dropWhile (by omega : range.1 ≤ n) both
      exact absurd both (by simp [ih free inside])

variable {c : Char}

theorem notMem_of_class {P : Char → Bool} {signs : List Char} (inside : P c = true)
    (outside : signs.all (fun d => !P d) = true) : c ∉ signs := fun member => by
  simpa [inside] using List.all_eq_true.mp outside c member

theorem isDecimal_eq (c : Char) : isDecimal c = inRanges decimalZeros c.toNat := by
  simp [isDecimal, decimalValue?, inRanges]

theorem isDigit_of_letter (letter : isLetter c = true) : isDigit c = false := by
  rw [isDigit, isDecimal_eq, inRanges_of_apart (by decide +kernel) letter,
    inRanges_of_apart (by decide +kernel) letter]
  rfl

theorem isLetter_of_blank (blank : isBlank c = true) : isLetter c = false :=
  inRanges_of_apart (by decide +kernel) blank

theorem isDigit_of_blank (blank : isBlank c = true) : isDigit c = false := by
  rw [isDigit, isDecimal_eq, inRanges_of_apart (by decide +kernel) blank,
    inRanges_of_apart (by decide +kernel) blank]
  rfl

theorem toLower_of_digit (digit : isDigit c = true) : c.toLower = c := by
  refine Char.toLower_eq_of_not_isUpper fun upper => ?_
  rw [Char.isUpper, decide_eq_true_eq] at upper
  have low : 65 ≤ c.toNat := upper.1
  have high : c.toNat ≤ 90 := upper.2
  have letter : inRanges [(65, 90)] c.toNat = true := by
    simp [inRanges, rangeOf?, show ¬c.toNat < 65 by omega, high]
  rw [isDigit, isDecimal_eq, inRanges_of_apart (by decide +kernel) letter,
    inRanges_of_apart (by decide +kernel) letter] at digit
  cases digit

theorem isWordSign_of_digit (digit : isDigit c = true) : isWordSign c = true := by
  simp [isWordSign, isLetterOrNumber, digit]

/-- The plain digits are among those of all scripts. -/
theorem decimalValue?_plain (digit : c.isDigit = true) :
    decimalValue? c = some (c.toNat - '0'.toNat) := by
  simp only [Char.isDigit, Bool.and_eq_true, decide_eq_true_eq] at digit
  have low : 48 ≤ c.toNat := digit.1
  have high : c.toNat ≤ 57 := digit.2
  have zero : '0'.toNat = 48 := rfl
  simp only [decimalValue?, decimalZeros, rangeOf?, if_neg (show ¬c.toNat < 48 by omega), if_pos high,
    Option.map_some, zero, Option.some.injEq]
  omega

theorem isDigit_plain (digit : c.isDigit = true) : isDigit c = true := by
  rw [isDigit, isDecimal, decimalValue?_plain digit, Option.isSome_some, Bool.true_or]

theorem plain_letters : ∀ n < 128, lowerChar (Char.ofNat n) = [(Char.ofNat n).toLower] ∧
    ((Char.ofNat n).toLower.isAlpha = true → isBlank (Char.ofNat n) = false) := by
  decide +kernel

theorem plain_of_toLower (plain : c.toLower.toNat < 128) : c.toNat < 128 := by
  by_cases upper : c.isUpper = true
  · rw [Char.isUpper, decide_eq_true_eq] at upper
    exact Nat.lt_of_le_of_lt upper.2 (by decide)
  · rwa [Char.toLower_eq_of_not_isUpper upper] at plain

/-- What does not tell the plain letters' cases apart is the same of any character in small form. -/
theorem toLower_invariant {β : Type} {f : Char → β}
    (plain : ∀ n < 128, f (Char.ofNat n).toLower = f (Char.ofNat n)) (c : Char) : f c.toLower = f c := by
  by_cases low : c.toNat < 128
  · simpa using plain c.toNat low
  · refine congrArg f (Char.toLower_eq_of_not_isUpper fun upper => low ?_)
    rw [Char.isUpper, decide_eq_true_eq] at upper
    exact Nat.lt_of_le_of_lt upper.2 (by decide)

theorem isBlank_toLower (c : Char) : isBlank c.toLower = isBlank c :=
  toLower_invariant (by decide +kernel) c

theorem meetsCased_toLower (text : List Char) : meetsCased (text.map Char.toLower) = meetsCased text := by
  induction text with
  | nil => rfl
  | cons c text ih =>
    have passed : inRanges passedOverRanges c.toLower.toNat = inRanges passedOverRanges c.toNat :=
      toLower_invariant (f := fun c => inRanges passedOverRanges c.toNat) (by decide +kernel) c
    have cased : inRanges casedRanges c.toLower.toNat = inRanges casedRanges c.toNat :=
      toLower_invariant (f := fun c => inRanges casedRanges c.toNat) (by decide +kernel) c
    rw [List.map_cons, meetsCased, meetsCased, ih, passed, cased]

/-- Texts that differ in the case of plain letters only have one small form, whatever else they hold. -/
theorem lowerFrom_toLower (before text : List Char) :
    lowerFrom (before.map Char.toLower) (text.map Char.toLower) = lowerFrom before text := by
  induction text generalizing before with
  | nil => rfl
  | cons c text ih =>
    have sigma : (c.toLower == 'Σ') = (c == 'Σ') := toLower_invariant (f := (· == 'Σ')) (by decide +kernel) c
    have small : lowerChar c.toLower = lowerChar c := toLower_invariant (by decide +kernel) c
    rw [List.map_cons, lowerFrom, lowerFrom, sigma, small, meetsCased_toLower, meetsCased_toLower,
      ← List.map_cons, ih]

theorem isBlank_of_letter (plain : c.toNat < 128) (letter : c.toLower.isAlpha = true) :
    isBlank c = false := by
  rw [← Char.ofNat_toNat c] at letter ⊢
  exact (plain_letters c.toNat plain).2 letter

theorem lowerFrom_plain {before word : List Char} (plain : ∀ c ∈ word, c.toNat < 128) :
    lowerFrom before word = word.map Char.toLower := by
  induction word generalizing before with
  | nil => rfl
  | cons c word ih =>
    rw [List.forall_mem_cons] at plain
    have small : lowerChar c = [c.toLower] := by
      have letters := (plain_letters c.toNat plain.1).1
      rwa [Char.ofNat_toNat] at letters
    have sigma : (c == 'Σ') = false := by
      rw [beq_eq_false_iff_ne]
      rintro rfl
      exact absurd plain.1 (by decide)
    rw [lowerFrom, sigma, ih plain.2, if_neg Bool.false_ne_true, small]
    rfl

end NoteQuery.Text
