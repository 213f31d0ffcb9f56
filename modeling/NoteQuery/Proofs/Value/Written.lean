import NoteQuery.Proofs.Outcome
import NoteQuery.Proofs.Value.Parts
import NoteQuery.Value.Text

/-! Values that have a text. A whole number of more digits than may be written has none, nor has a list
or a map in which one stands; every other value can be quoted. -/
namespace NoteQuery

theorem lt_of_log2 {n k bound : Nat} (enough : 2 ^ k ≤ bound) (short : n.log2 < k) : n < bound :=
  Nat.lt_log2_self.trans_le ((Nat.pow_le_pow_right (by decide) short).trans enough)

theorem wholeText?_eq (n : Int) :
    wholeText? n = if n.natAbs < Nat.pow 10 Numeral.maxDigits then some (toString n) else none := by
  unfold wholeText?
  simp only [Bool.or_eq_true, decide_eq_true_eq]
  exact if_congr (or_iff_right_of_imp (lt_of_log2 (by decide +kernel))) rfl rfl

open Except (failsOnly_ok)

namespace Value

/-- A whole number of more digits than may be written. -/
def TooLong : Value → Prop
  | int n => Nat.pow 10 Numeral.maxDigits ≤ n.natAbs
  | _ => False

/-- The value cannot be quoted in a report. -/
def Unquotable (v : Value) : Prop := ∃ w, v.Reaches w ∧ w.TooLong

theorem quotedItems_eq (items : List Value) : quotedItems items = items.mapM quoted := by
  induction items with
  | nil => rfl
  | cons item items ih =>
    rw [quotedItems, List.mapM_cons, ih]
    rfl

theorem quotedEntries_eq (entries : Entries) : quotedEntries entries =
    entries.mapM fun entry => (do
      let shown ← entry.2.quoted
      .ok (Text.quoted entry.1 ++ ": " ++ shown) : Except Fault String) := by
  induction entries with
  | nil => rfl
  | cons entry entries ih =>
    rw [quotedEntries, List.mapM_cons, ih]
    cases entry.2.quoted <;> rfl

/-- A value can be quoted exactly if it reaches no whole number that is too long. -/
theorem quoted_succeeds (v : Value) :
    (∃ shown, v.quoted = .ok shown) ↔ ¬ ∃ w, v.Reaches w ∧ w.TooLong := by
  refine iff_no_reached (S := fun (_ : Unit) v => ∃ shown, v.quoted = .ok shown) id ?_ ?_ ?_
    (fun _ => not_false) (fun _ => not_false) () v
  · intro _ items
    rw [quoted, Except.exists_bind_ok, quotedItems_eq, Except.exists_mapM_ok]
  · intro _ entries
    rw [quoted, Except.exists_bind_ok, quotedEntries_eq, Except.exists_mapM_ok]
    exact forall₂_congr fun entry _ => Except.exists_bind_ok
  · intro _ v leaf
    cases v with
    | list items => exact leaf.elim
    | map entries => exact leaf.elim
    | int n =>
      simp only [TooLong, not_le, quoted, wholeText?_eq]
      split_ifs with short
      · exact iff_of_true ⟨_, rfl⟩ short
      · exact iff_of_false (by simp) short
    | _ => exact iff_of_true ⟨_, rfl⟩ not_false

mutual

theorem quoted_fails : ∀ v : Value, v.quoted.FailsOnly (· = .badValue)
  | null | bool _ | float _ | text _ | moment _ | date _ => by
    rw [quoted]
    exact failsOnly_ok _
  | int n => by
    rw [quoted]
    split
    · exact failsOnly_ok _
    · exact .error rfl
  | list items => by
    rw [quoted]
    exact (quotedItems_fails items).bind fun _ => failsOnly_ok _
  | map entries => by
    rw [quoted]
    exact (quotedEntries_fails entries).bind fun _ => failsOnly_ok _

theorem quotedItems_fails : ∀ items : List Value, (quotedItems items).FailsOnly (· = .badValue)
  | [] => failsOnly_ok _
  | item :: items => by
    rw [quotedItems]
    exact (quoted_fails item).bind fun _ => (quotedItems_fails items).bind fun _ => failsOnly_ok _

theorem quotedEntries_fails : ∀ entries : List (String × Value),
    (quotedEntries entries).FailsOnly (· = .badValue)
  | [] => failsOnly_ok _
  | (_, v) :: entries => by
    rw [quotedEntries]
    exact (quoted_fails v).bind fun _ => (quotedEntries_fails entries).bind fun _ => failsOnly_ok _

end

/-- A value has a plain text exactly if it can be quoted: a text, a day and a moment always have one. -/
theorem plainText_succeeds (v : Value) : (∃ shown, v.plainText = .ok shown) ↔ ¬v.Unquotable := by
  rw [Unquotable, ← quoted_succeeds]
  cases v <;> simp [plainText, quoted]

theorem plainText_fails (v : Value) : v.plainText.FailsOnly (· = .badValue) := by
  cases v with
  | text _ => exact failsOnly_ok _
  | date _ => exact failsOnly_ok _
  | moment _ => exact failsOnly_ok _
  | _ => exact quoted_fails _

end Value

end NoteQuery
