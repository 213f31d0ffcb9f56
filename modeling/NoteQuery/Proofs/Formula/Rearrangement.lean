import NoteQuery.Proofs.Expr.Reach
import NoteQuery.Proofs.Formula.Inquiry

/-! Formulas in another order. What they come to stays the same as long as no text takes all formulas
as one value, which lists them in their order, and no formula on a cycle shares its text with
another, since then the two share one place in the table. -/
namespace NoteQuery

namespace Formulas

/-- What the formulas come to, one after the other, when nothing is known yet. -/
def evaluateAll (formulas : Formulas) (present : Moment) (context : Context) :
    Except Failure Entries :=
  (((Surroundings.withFormulas present context formulas).entries .formula).on (.fresh [])).1

/-- The reach of a text that reads formulas only by their names. -/
def byName : Reach := ⟨true, false⟩

variable {formulas formulas' : Formulas} {present : Moment} {context : Context}

theorem lookup_perm (once : formulas.names.Nodup) (permuted : formulas.Perm formulas')
    (name : String) : formulas.lookup name = formulas'.lookup name := by
  have once' : formulas'.names.Nodup := (permuted.map Prod.fst).nodup_iff.mp once
  apply Option.ext
  intro text
  rw [Entries.lookup_eq_some_iff once, Entries.lookup_eq_some_iff once', permuted.mem_iff]

theorem Sound.evaluateAll {value : String → Value} {asks : String → List String}
    (sound : Sound formulas present context value asks) :
    formulas.evaluateAll present context =
      .ok (formulas.names.map fun name => (name, value name)) := by
  have ready : Ready formulas context value asks [] (.fresh []) :=
    ready_fresh sound.account fun _ => rfl
  obtain ⟨after, run, _⟩ := sound.scripted ready (Surroundings.readAll_scripted formulas.names)
  rw [Surroundings.readAll_pure] at run
  exact congrArg Prod.fst run

section Sample

/-- A circle of which one formula shares its text with another beside the circle. -/
def doubled : Formulas := [("outside", "!formula.a"), ("b", "!formula.a"), ("a", "formula.b")]

def doubled' : Formulas := [("b", "!formula.a"), ("outside", "!formula.a"), ("a", "formula.b")]

theorem doubled_values (present : Moment) :
    doubled.evaluateAll present blankNote =
      .ok [("outside", .bool true), ("b", .null), ("a", .null)] ∧
    doubled'.evaluateAll present blankNote =
      .ok [("b", .null), ("outside", .null), ("a", .null)] := by
  constructor <;>
    simp [evaluateAll, Surroundings.withFormulas, Surroundings.entries, Surroundings.readAll,
      reader, names, read_on, doubled, doubled', List.lookup, Surroundings.formulaValue_run,
      Surroundings.reading_context, Expr.ofTextIn_formula _ _ _ _ Expr.ofText_formula_b,
      Expr.ofTextIn_not_formula _ _ _ _ Expr.ofText_not_formula_a, ExceptT.on_bind,
      ExceptT.on_pure, Memo.fresh, FormulaTable.find?_nil, FormulaTable.find?_put, loop, Memo.mark,
      Memo.keep, worth, conclude, Value.truthy, blankNote, -bind_pure_comp, -map_bind]

/-- Two formulas of which one takes both as a value. -/
def listing : Formulas := [("a", "formula"), ("b", "!formula.a")]

theorem listing_values (present : Moment) :
    listing.evaluateAll present blankNote = .ok [("a", .null), ("b", .bool true)] ∧
    evaluateAll listing.reverse present blankNote = .ok [("b", .null), ("a", .null)] := by
  constructor <;>
    simp [evaluateAll, Surroundings.withFormulas, Surroundings.entries, Surroundings.readAll,
      reader, names, read_on, listing, List.lookup, Surroundings.formulaValue_run,
      Surroundings.reading_context, Expr.ofTextIn_formulas _ _ _ _ Expr.ofText_formula,
      Expr.ofTextIn_not_formula _ _ _ _ Expr.ofText_not_formula_a, ExceptT.on_bind,
      ExceptT.on_pure, Memo.fresh, FormulaTable.find?_nil, FormulaTable.find?_put, loop, Memo.mark,
      Memo.keep, worth, conclude, Value.truthy, blankNote, -bind_pure_comp, -map_bind]

end Sample

end Formulas

end NoteQuery
