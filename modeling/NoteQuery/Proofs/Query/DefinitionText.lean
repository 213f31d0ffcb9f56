import NoteQuery.Proofs.Query.DefinitionForm
import NoteQuery.Proofs.Yaml.Hollow
import NoteQuery.Query.DefinitionText

/-! What comes of the text of a definition: a definition in its one form, an error of definitions, or,
where something well written cannot be converted, the failure of that. -/
namespace NoteQuery.Definition

open Yaml (Dialect Built Unconverted Hollow)

theorem ofValue_ne_malformed {given : Value} : ofValue given ≠ .error .malformed := by
  cases given with
  | map entries =>
    rw [ofValue]
    cases ofEntries entries <;> simp
  | _ => simp [ofValue]

theorem ofText_of_data {text : String} {data : Yaml.Data}
    (read : Yaml.Data.ofText .strict text = .ok data) :
    (∃ d, ofText text = .ok d ∧ d.Canonical) ∨
      ∃ e, ofText text = .error (.definition e) ∧ e ≠ .malformed := by
  unfold ofText
  rw [read]
  simp only
  split
  · exact .inr ⟨.empty, rfl, by simp⟩
  · cases made : ofValue data.toValue with
    | ok d => exact .inl ⟨d, rfl, canonical_of_read made⟩
    | error e =>
      refine .inr ⟨e, rfl, ?_⟩
      rintro rfl
      exact ofValue_ne_malformed made

theorem ofText_of_failure {text : String} {failure : Yaml.Failure} (other : failure ≠ .malformed)
    (failed : Yaml.Data.ofText .strict text = .error failure) :
    ofText text = .error (.failure failure) := by
  unfold ofText
  rw [failed]
  cases failure with
  | malformed => exact absurd rfl other
  | _ => rfl

theorem tokensOf_noDay : Yaml.tokensOf .strict "2026-02-30" = .ok [.scalar true "2026-02-30"] := by
  have spots : Yaml.spots? "2026-02-30" = some (Yaml.locate 0 0 0 "2026-02-30".toList) := rfl
  have gap : Yaml.skipGap .strict 0 true false (Yaml.locate 0 0 0 "2026-02-30".toList) =
      (true, ⟨'2', 0, 0, 0⟩ :: Yaml.locate 0 1 1 "026-02-30".toList) := rfl
  have token : Yaml.scanToken .strict .start ⟨'2', 0, 0, 0⟩ (Yaml.locate 0 1 1 "026-02-30".toList) =
      .ok (⟨#[.scalar true "2026-02-30"], 0, -1, [], false, [(0, ⟨0, false, 0, 0, 0⟩)]⟩, []) := rfl
  have scanned : Yaml.scanAll .strict .start (Yaml.locate 0 0 0 "2026-02-30".toList) =
      .ok #[.scalar true "2026-02-30"] :=
    (Yaml.scanAll_next (s := .start) gap rfl token (Nat.zero_lt_succ _)).trans (Yaml.scanAll_end rfl)
  rw [Yaml.tokensOf, spots, Yaml.wellFormed]
  change (Yaml.scanAll .strict .start (Yaml.locate 0 0 0 "2026-02-30".toList) >>= _) = _
  rw [scanned]
  rfl

theorem nodeOf_noDay :
    Yaml.Node.ofText .strict "2026-02-30" = .ok (some (.scalar .implied "2026-02-30")) := by
  rw [Yaml.Node.ofText, tokensOf_noDay]
  change (Yaml.wellFormed (Yaml.Document.readFirst .strict [.scalar true "2026-02-30"]) >>= _) = _
  simp only [Yaml.Document.readFirst, Yaml.Node.read]
  rfl

theorem hollow_noDay : Hollow .implied "2026-02-30" .badValue :=
  ⟨by decide, .moment, by decide +kernel, rfl⟩

theorem ofText_noDay : ofText "2026-02-30" = .error (.failure .badValue) := by
  obtain ⟨other, _, said, failed⟩ := hollow_noDay
  apply ofText_of_failure other
  rw [Yaml.Data.ofText, nodeOf_noDay]
  change Yaml.Data.ofNode (.scalar .implied "2026-02-30") = _
  rw [Yaml.Data.ofNode, said]
  simp only [failed]
  rfl

end NoteQuery.Definition
