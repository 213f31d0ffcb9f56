import NoteQuery.Proofs.Expr.Reach
import NoteQuery.Proofs.Formula.Meaning

/-! Formulas that do not lead back to themselves. Every table in which their values are right answers
each read, wherever the values come from, and no cycle ever comes to light. Where besides no text
looks at the time, what the formulas mean depends on nothing but the note. -/
namespace NoteQuery

namespace Formulas

/-- The reach of a text that does not look at the time. -/
def timeless : Reach := ⟨false, true⟩

section Tables

variable (formulas : Formulas) (present : Moment) (context : Context)

def Acyclic : Prop := ∀ value asks,
  Account (script formulas present context) (fun _ => True) value asks → ∀ n, ¬ OnCycle asks n

/-- What the table holds for the formulas of the note is what they mean. -/
def Right (table : FormulaTable) : Prop := ∀ n text v, formulas.lookup n = some text →
  table.find? context.path text = some v → v = meaning formulas present context n

variable {formulas present context} {table : FormulaTable} {memo : Memo}

theorem Right.rested (right : Right formulas present context table)
    (distinct : (formulas.map Prod.snd).Nodup) (acyclic : Acyclic formulas present context) :
    Rested formulas present context (.fresh table) := by
  obtain ⟨value, asks, account⟩ := exists_account formulas present context
  have sound : Sound formulas present context value asks := .of_distinct distinct account
  refine ⟨value, asks, account, ⟨⟨fun n text v found kept => ?_, fun n m _ asked back => ?_, ?_⟩, ?_⟩⟩
  · rw [right n text v found kept, sound.meaning]
  · exact absurd ⟨m, asked, back⟩ (acyclic value asks account n)
  · simp
  · simp [Memo.fresh]

theorem Rested.right (rested : Rested formulas present context memo)
    (distinct : (formulas.map Prod.snd).Nodup) : Right formulas present context memo.table := by
  intro n text v found kept
  obtain ⟨value, asks, account, ready⟩ := rested
  have sound : Sound formulas present context value asks := .of_distinct distinct account
  rw [ready.consistent.correct n text v found kept, sound.meaning]

theorem Rested.unmarked (rested : Rested formulas present context memo)
    (acyclic : Acyclic formulas present context) : memo.cyclic = [] := by
  obtain ⟨value, asks, account, ready⟩ := rested
  apply List.eq_nil_iff_forall_not_mem.mpr
  intro n marked
  exact acyclic value asks account n (ready.cyclic n marked).2

theorem Acyclic.of_meaning (distinct : (formulas.map Prod.snd).Nodup)
    (full : ∀ n ∈ formulas.names, meaning formulas present context n ≠ .null) :
    Acyclic formulas present context := by
  intro value asks account n cycle
  have sound : Sound formulas present context value asks := .of_distinct distinct account
  have null := ((sound.settled n).of_cycle cycle).1
  by_cases defined : n ∈ formulas.names
  · exact full n defined (by rw [sound.meaning, null])
  · have begins := (sound.settled n).begins
    rw [script_of_undefined present context (undefined_of_not_mem defined)] at begins
    obtain ⟨m, asked, _⟩ := cycle
    have nothing : m ∈ ([] : List String) := begins.subset asked
    simp at nothing

end Tables

section Timeless

variable {formulas : Formulas}

theorem script_timeless
    (untimed : ∀ text ∈ formulas.map Prod.snd, Expr.textWithin timeless text = true)
    (present present' : Moment) (context : Context) (content : Option String) :
    script formulas present context =
      script formulas present' { context with content := content } := by
  refine script_congr (fun _ => rfl) fun n text found read => ?_
  have alike : Expr.Alike timeless (.reading present context formulas.names read)
      (.reading present' { context with content := content } formulas.names read) :=
    .mk context content read (by simp [timeless]) fun _ => rfl
  exact Expr.ofTextIn_alike alike (untimed text (List.mem_map.mpr ⟨_, lookup_mem found, rfl⟩))

/-- What reads of the note have left, reads of it at another time can have left too. -/
theorem Rested.timeless
    (untimed : ∀ text ∈ formulas.map Prod.snd, Expr.textWithin timeless text = true)
    {present : Moment} {context : Context} {memo : Memo}
    (rested : Rested formulas present context memo) (present' : Moment) (content : Option String) :
    Rested formulas present' { context with content := content } memo := by
  obtain ⟨value, asks, account, consistent, cyclic⟩ := rested
  exact ⟨value, asks, script_timeless untimed present present' context content ▸ account,
    ⟨consistent.correct, consistent.closed, consistent.entered⟩, cyclic⟩

/-- Formulas that do not look at the time mean the same at all times, and whatever the content. -/
theorem meaning_timeless (distinct : (formulas.map Prod.snd).Nodup)
    (untimed : ∀ text ∈ formulas.map Prod.snd, Expr.textWithin timeless text = true)
    (present present' : Moment) (context : Context) (content : Option String) :
    meaning formulas present context =
      meaning formulas present' { context with content := content } := by
  obtain ⟨value, asks, account⟩ := exists_account formulas present context
  have sound : Sound formulas present context value asks := .of_distinct distinct account
  calc meaning formulas present context = value := sound.meaning
    _ = meaning formulas present' { context with content := content } :=
      (sound.congr (script_timeless untimed present present' context content)
        fun _ => rfl).meaning.symm

end Timeless

end Formulas

end NoteQuery
