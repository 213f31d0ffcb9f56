import NoteQuery.Proofs.Expr.Printing
import NoteQuery.Proofs.Formula.Reading
import NoteQuery.Proofs.Value.Written

/-! Whole numbers as texts. What a whole number is displayed as is read as the number, with blanks around
it when a value is asked for a number, and as an expression, where the sign is a minus in front of digits. -/
namespace NoteQuery

variable {n : Int}

theorem toDigits_short (short : n.natAbs < 10 ^ Numeral.maxDigits) :
    (Nat.toDigits 10 n.natAbs).length ≤ Numeral.maxDigits :=
  Nat.toDigits_length 10 n.natAbs Numeral.maxDigits (by decide) short

theorem Value.numberOfText?_padded {front back : List Char} (short : n.natAbs < 10 ^ Numeral.maxDigits)
    (before : ∀ c ∈ front, Text.isBlank c = true) (behind : ∀ c ∈ back, Text.isBlank c = true) :
    numberOfText? (String.ofList (front ++ ((toString n).toList ++ back))) = some (.int n) := by
  have solid : ∀ c ∈ (toString n).toList, Text.isBlank c = false := fun _ => Numeral.toString_solid
  have read := Numeral.readInt?_toString (toDigits_short short)
  have some : (toString n).toList.isEmpty = false := by
    rw [List.isEmpty_eq_false_iff]
    intro none
    rw [none] at read
    cases read
  simp only [numberOfText?, String.toList_ofList, Text.trim_padded before solid behind, some, read,
    Bool.false_eq_true, if_false]

namespace Expr

theorem ofText_toString (short : n.natAbs < 10 ^ Numeral.maxDigits) :
    ofText (toString n) = .ok (literal (.int n)) := by
  have spelled : toString n = String.ofList (literalText (.int n)) := by
    rw [literalText, ← Numeral.toList_toString, String.ofList_toList]
  rw [spelled]
  exact (whole_reads n (toDigits_short short)).ofText

end Expr

namespace Value

/-- A whole number that has a text in full is read back from it: as a number, whatever blanks stand around
the text, and as an expression in any surroundings. -/
theorem whole_reads_back (short : n.natAbs < 10 ^ Numeral.maxDigits) :
    ∃ shown, (int n).display = .ok shown ∧
      (∀ front back : List Char, (∀ c ∈ front, Text.isBlank c = true) → (∀ c ∈ back, Text.isBlank c = true) →
        (text (String.ofList (front ++ (shown.toList ++ back)))).number? = .ok (some (.int n))) ∧
      ∀ (s : Surroundings) (memo : Memo), (Expr.evaluateText s shown).run memo = (.ok (int n), memo) := by
  have full : wholeText? n = some (toString n) := by
    rw [wholeText?_eq, Nat.pow_eq, if_pos short]
  refine ⟨toString n, by rw [display, full, Option.getD_some], fun front back before behind => ?_, fun s memo => ?_⟩
  · rw [number?, numberOfText?_padded short before behind]
  · exact Expr.evaluateText_of_value (Expr.ofText_toString short) rfl

/-- The least whole number that is displayed in full. -/
theorem whole_reads_back_least : (-(10 ^ Numeral.maxDigits - 1) : Int).natAbs < 10 ^ Numeral.maxDigits ∧
    ∃ shown, (int (-(10 ^ Numeral.maxDigits - 1))).display = .ok shown ∧
      (text (String.ofList ([' '] ++ (shown.toList ++ ['\n'])))).number? =
        .ok (some (.int (-(10 ^ Numeral.maxDigits - 1)))) := by
  have short : (-(10 ^ Numeral.maxDigits - 1) : Int).natAbs < 10 ^ Numeral.maxDigits := by decide +kernel
  obtain ⟨shown, displayed, read, _⟩ := whole_reads_back short
  have blank : Text.isBlank ' ' = true := by decide +kernel
  have feed : Text.isBlank '\n' = true := by decide +kernel
  exact ⟨short, shown, displayed,
    read [' '] ['\n'] (List.forall_mem_singleton.mpr blank) (List.forall_mem_singleton.mpr feed)⟩

end Value

end NoteQuery
