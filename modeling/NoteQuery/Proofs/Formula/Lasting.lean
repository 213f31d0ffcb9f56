import NoteQuery.Proofs.Formula.Descent

/-! How long the value of a formula lasts. Once a formula has been read, its value stays in the table
and every later read finds it, unless another formula has the same text and turns out to be on a
cycle. Then null takes the place of the value for both. Nothing here depends on an account: it holds
from every memory. -/
namespace NoteQuery

/-- A property of the memory that every read keeps is kept by whatever reads. -/
theorem Script.run_keeps {α : Type} {P : Memo → Prop} {read : String → Eval Value}
    (reads : ∀ name memo, P memo → P ((read name).on memo).2) (t : Script α) {memo : Memo}
    (here : P memo) : P ((t.run read).on memo).2 := by
  induction t generalizing memo with
  | done result =>
    rw [run, Eval.on_ofExcept]
    exact here
  | ask name next ih =>
    have kept := reads name memo here
    rw [run, ExceptT.on_bind]
    generalize (read name).on memo = outcome at kept ⊢
    obtain ⟨_ | value, middle⟩ := outcome
    · exact kept
    · exact ih value kept

namespace Formulas

variable (formulas : Formulas) (context : Context) (name text : String)

/-- The value that a formula came to, or null where another formula with its text is on a cycle. -/
def Holds (value kept : Value) (memo : Memo) : Prop :=
  kept = value ∨
    kept = .null ∧ ∃ other ∈ memo.cyclic, other ≠ name ∧ formulas.lookup other = some text

/-- The formula has been read and came to the value. -/
def Lasting (value : Value) (memo : Memo) : Prop :=
  ∃ kept, memo.table.find? context.path text = some kept ∧
    Holds formulas name text value kept memo ∧ (name ∈ memo.cyclic → value = .null)

variable {formulas context name text} {value : Value} {memo : Memo}

namespace Lasting

theorem mark (lasting : Lasting formulas context name text value memo) {names : List String}
    (apart : name ∉ names) : Lasting formulas context name text value (memo.mark names) := by
  obtain ⟨kept, found, holds, cyclic⟩ := lasting
  refine ⟨kept, found, ?_, fun member => ?_⟩
  · refine holds.imp_right fun ⟨null, other, member, shared⟩ => ?_
    exact ⟨null, other, List.mem_append_left _ member, shared⟩
  · rcases List.mem_append.mp member with already | new
    · exact cyclic already
    · exact absurd (List.mem_filter.mp new).1 apart

theorem keep (lasting : Lasting formulas context name text value memo) {text' : String} (v : Value)
    (apart : text' ≠ text) :
    Lasting formulas context name text value (memo.keep context.path text' v) := by
  obtain ⟨kept, found, holds, cyclic⟩ := lasting
  refine ⟨kept, ?_, holds, cyclic⟩
  rw [Memo.keep, FormulaTable.find?_put, if_neg (by simp [Ne.symm apart]), found]

/-- Whatever cycle comes to light, the value lasts or another formula shares its place. -/
theorem conclude (lasting : Lasting formulas context name text value memo) {other text' : String}
    (found' : formulas.lookup other = some text') (stack : List String) (v : Value) :
    Lasting formulas context name text value
      (conclude stack other context.path text' (v, memo)).2 := by
  unfold Formulas.conclude
  by_cases marked : memo.cyclic.contains other = true
  · rw [if_pos marked]
    have member : other ∈ memo.cyclic := List.contains_iff_mem.mp marked
    by_cases same : text' = text
    · obtain ⟨kept, _, _, cyclic⟩ := lasting
      refine ⟨.null, ?_, ?_, cyclic⟩
      · rw [same, Memo.keep, FormulaTable.find?_put, if_pos rfl]
      · by_cases self : other = name
        · exact .inl (cyclic (self ▸ member)).symm
        · exact .inr ⟨rfl, other, member, self, same ▸ found'⟩
    · exact lasting.keep .null same
  · rw [if_neg marked]
    exact lasting

theorem read (found : formulas.lookup name = some text) {present : Moment} (depth : Nat)
    {stack : List String} (apart : name ∉ stack) (other : String)
    (lasting : Lasting formulas context name text value memo) :
    Lasting formulas context name text value
      ((read formulas present context depth stack other).on memo).2 := by
  induction depth generalizing stack other memo with
  | zero => exact lasting
  | succ depth ih =>
    rw [read_on]
    cases found' : formulas.lookup other with
    | none => exact lasting
    | some text' =>
      by_cases entered : stack.contains other = true
      · simp only [entered, if_true]
        refine lasting.mark fun inside => ?_
        rcases List.mem_append.mp inside with inner | last
        · exact apart (List.takeWhile_subset _ inner)
        · rw [List.mem_singleton] at last
          exact apart (last ▸ List.contains_iff_mem.mp entered)
      · simp only [entered, Bool.false_eq_true, if_false, Surroundings.formulaValue_run,
          Surroundings.reading_context]
        cases kept : memo.table.find? context.path text' with
        | some v => exact lasting.conclude found' stack v
        | none =>
          -- The value is in the table, so what is entered here is a formula with another text.
          obtain ⟨v, there, _⟩ := id lasting
          have texts : text' ≠ text := fun same => by simp [same, there] at kept
          have names : name ≠ other := fun same => by
            rw [same, found', Option.some.injEq] at found
            exact texts found
          have apart' : name ∉ other :: stack := by simp [names, apart]
          have inner := Script.run_keeps (P := Lasting formulas context name text value)
            (fun asked memo => ih apart' asked) (script formulas present context other) lasting
          simp only [script_runs present context found']
          exact (inner.keep _ texts).conclude found' stack _

theorem read_value (found : formulas.lookup name = some text) (present : Moment)
    (lasting : Lasting formulas context name text value memo) :
    ∃ v after, ((formulas.reader present context).read name).on memo = (.ok v, after) ∧
      Holds formulas name text value v memo := by
  obtain ⟨kept, there, holds, cyclic⟩ := lasting
  simp only [reader_on present context found, conclude_outermost, Surroundings.formulaValue_run,
    Surroundings.reading_context, there]
  by_cases marked : name ∈ memo.cyclic
  · rw [if_pos marked]
    exact ⟨.null, _, rfl, .inl (cyclic marked).symm⟩
  · rw [if_neg marked]
    exact ⟨kept, _, rfl, holds⟩

theorem after (lasting : Lasting formulas context name text value memo)
    (found : formulas.lookup name = some text) {present : Moment} {α : Type}
    {f : (String → Eval Value) → Eval α} (script : Scripted f) {result : Except Failure α}
    {after : Memo} (run : (f (formulas.reader present context).read).on memo = (result, after)) :
    Lasting formulas context name text value after := by
  obtain ⟨t, runs⟩ := script
  have reads (other : String) (memo : Memo) (kept : Lasting formulas context name text value memo) :
      Lasting formulas context name text value
        (((formulas.reader present context).read other).on memo).2 :=
    kept.read found (formulas.length + 1) List.not_mem_nil other
  have kept := Script.run_keeps reads t lasting
  have ends : ((t.run (formulas.reader present context).read).on memo).2 = after := by
    rw [← runs, run]
  exact ends ▸ kept

end Lasting

/-- What a formula comes to when it is read lasts from then on, whatever was known before. -/
theorem read_lasting (found : formulas.lookup name = some text) (present : Moment)
    (context : Context) (memo : Memo) :
    ∃ v after, ((formulas.reader present context).read name).on memo = (.ok v, after) ∧
      Lasting formulas context name text v after := by
  rw [reader_on present context found, conclude_outermost]
  have inner : ∃ v after, ((Surroundings.reading present context formulas.names (Formulas.read
      formulas present context formulas.length [name])).formulaValue text).run memo = (v, after) ∧
      after.table.find? context.path text = some v := by
    rw [Surroundings.formulaValue_run, Surroundings.reading_context]
    cases kept : memo.table.find? context.path text with
    | some v => exact ⟨v, memo, rfl, kept⟩
    | none =>
      refine ⟨_, _, rfl, ?_⟩
      rw [Memo.keep, FormulaTable.find?_put, if_pos rfl]
  obtain ⟨v, after, run, kept⟩ := inner
  rw [run]
  by_cases marked : name ∈ after.cyclic
  · rw [if_pos marked]
    refine ⟨.null, after.keep context.path text .null, rfl, .null, ?_, .inl rfl, fun _ => rfl⟩
    rw [Memo.keep, FormulaTable.find?_put, if_pos rfl]
  · rw [if_neg marked]
    exact ⟨v, after, rfl, v, kept, .inl rfl, fun member => absurd member marked⟩

end Formulas

end NoteQuery
