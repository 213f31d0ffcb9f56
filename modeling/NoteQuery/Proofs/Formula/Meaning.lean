import NoteQuery.Proofs.Formula.Descent

/-! The meaning of formulas. Every formula of a note means the value it has when it is read by itself,
and whatever was read before, a computation that reads formulas comes to what it comes to with
these. Its result is the same from every memory that reads of the note have left. -/
namespace NoteQuery

namespace Formulas

variable (formulas : Formulas) (present : Moment) (context : Context)

/-- The value of a formula that is read when nothing is known yet. -/
def meaning (name : String) : Value :=
  worth (((formulas.reader present context).read name).on (.fresh [])).1

/-- What reads of the note can have left: a memory that agrees with a full account of its formulas,
of which none is being evaluated. -/
def Rested (memo : Memo) : Prop := ∃ value asks,
  Account (script formulas present context) (fun _ => True) value asks ∧
    Ready formulas context value asks [] memo

/-- A computation with one result from every memory that reads of the note can have left. -/
def Steady {α : Type} (x : StateM Memo α) : Prop :=
  ∃ a, ∀ memo, Rested formulas present context memo → ∃ after, x.run memo = (a, after) ∧
    Rested formulas present context after ∧ Keeps formulas context.path memo after

theorem exists_account : ∃ value asks,
    Account (script formulas present context) (fun _ => True) value asks :=
  Account.exists_complete _ formulas.names fun _ absent =>
    script_of_undefined present context (undefined_of_not_mem absent)

variable {formulas present context}
variable {value : String → Value} {asks : String → List String} {memo : Memo}

theorem ready_fresh (account : Account (script formulas present context) (fun _ => True) value asks)
    {table : FormulaTable} (blank : ∀ text, table.find? context.path text = none) :
    Ready formulas context value asks [] (.fresh table) := by
  refine ⟨⟨fun n text v _ kept => ?_, fun n m known asked _ => ?_, by simp⟩, by simp [Memo.fresh]⟩
  · rw [Memo.fresh, blank text] at kept
    cases kept
  · have begins := (account.settled n trivial).begins
    cases found : formulas.lookup n with
    | none =>
      rw [script_of_undefined present context found, Script.asked, List.prefix_nil] at begins
      simp [begins] at asked
    | some text =>
      obtain ⟨v, kept⟩ := known text found
      rw [Memo.fresh, blank text] at kept
      cases kept

theorem rested_fresh {table : FormulaTable} (blank : ∀ text, table.find? context.path text = none) :
    Rested formulas present context (.fresh table) := by
  obtain ⟨value, asks, account⟩ := exists_account formulas present context
  exact ⟨value, asks, account, ready_fresh account blank⟩

theorem rested_empty (formulas : Formulas) (present : Moment) (context : Context) :
    Rested formulas present context (.fresh []) := rested_fresh fun _ => rfl

/-- Only what is kept for the note itself counts. -/
theorem Rested.congr {table : FormulaTable} (rested : Rested formulas present context memo)
    (same : ∀ text, table.find? context.path text = memo.table.find? context.path text) :
    Rested formulas present context ⟨table, memo.cyclic⟩ := by
  obtain ⟨value, asks, account, ready⟩ := rested
  have known : Known formulas context.path table = Known formulas context.path memo.table := by
    funext n
    simp only [Known, same]
  refine ⟨value, asks, account, ⟨⟨fun n text v found kept => ?_, ?_, by simp⟩, ?_⟩⟩
  · exact ready.consistent.correct n text v found (same text ▸ kept)
  · rw [known]
    exact ready.consistent.closed
  · rw [known]
    exact ready.cyclic

/-- The marks of cycles may be forgotten. -/
theorem Rested.fresh (rested : Rested formulas present context memo) :
    Rested formulas present context (.fresh memo.table) := by
  obtain ⟨value, asks, account, consistent, _⟩ := rested
  exact ⟨value, asks, account, ⟨consistent.correct, consistent.closed, consistent.entered⟩,
    by simp [Memo.fresh]⟩

/-- A dialogue with all formulas is answered throughout when none is being evaluated. -/
theorem Sound.dialogue (sound : Sound formulas present context value asks) {α : Type} (t : Script α)
    (ready : Ready formulas context value asks [] memo) :
    ∃ after, (t.run (formulas.reader present context).read).on memo = (t.result value, after) ∧
      Ready formulas context value asks [] after ∧ Keeps formulas context.path memo after := by
  have answers : Answers formulas context value asks [] (formulas.reader present context).read :=
    read_answers sound (formulas.length + 1) [] (by simp) List.nodup_nil (by simp)
  have outcome := answers.converses ready t fun _ _ _ _ => List.isChain_singleton _
  generalize (t.run (formulas.reader present context).read).on memo = result at outcome ⊢
  cases outcome with
  | answered after ready' keeps _ => exact ⟨after, rfl, ready', keeps⟩
  | caught e after back next front keeps cycle _ _ =>
    obtain ⟨inner, outer, split, _⟩ := cycle.marked
    simp at split

private theorem question_run (read : String → Eval Value) (name : String) :
    (Script.question name).run read = read name := by
  simp [Script.question, Script.run, Eval.ofExcept]

theorem Sound.meaning (sound : Sound formulas present context value asks) :
    meaning formulas present context = value := by
  funext name
  have fresh : Ready formulas context value asks [] (.fresh []) :=
    ready_fresh sound.account fun _ => rfl
  obtain ⟨after, read, _⟩ := sound.dialogue (Script.question name) fresh
  rw [question_run] at read
  simp only [Formulas.meaning, read, Script.question, Script.result, worth]

theorem dialogue_result (distinct : (formulas.map Prod.snd).Nodup) {α : Type} (t : Script α)
    {memo : Memo} (rested : Rested formulas present context memo) :
    ∃ after, (t.run (formulas.reader present context).read).on memo =
        (t.result (meaning formulas present context), after) ∧
      Rested formulas present context after ∧ Keeps formulas context.path memo after := by
  obtain ⟨value, asks, account, ready⟩ := rested
  have sound := Sound.of_distinct distinct account
  obtain ⟨after, run, ready', keeps⟩ := sound.dialogue t ready
  exact ⟨after, sound.meaning ▸ run, ⟨value, asks, account, ready'⟩, keeps⟩

namespace Steady

variable {α β : Type}

theorem pure (a : α) : Steady formulas present context (Pure.pure a) :=
  ⟨a, fun memo rested => ⟨memo, rfl, rested, .refl _ _ memo⟩⟩

theorem bind {x : StateM Memo α} {f : α → StateM Memo β} (first : Steady formulas present context x)
    (rest : ∀ a, Steady formulas present context (f a)) :
    Steady formulas present context (x >>= f) := by
  obtain ⟨a, runs⟩ := first
  obtain ⟨b, runs'⟩ := rest a
  refine ⟨b, fun memo rested => ?_⟩
  obtain ⟨middle, run, rested', keeps⟩ := runs memo rested
  obtain ⟨after, run', rested'', keeps'⟩ := runs' middle rested'
  refine ⟨after, ?_, rested'', keeps.trans keeps'⟩
  rw [StateT.run_bind, run]
  exact run'

theorem run {x : StateM Memo α} (steady : Steady formulas present context x) {memo : Memo}
    (rested : Rested formulas present context memo) :
    ∃ after, x.run memo = ((x.run (.fresh [])).1, after) ∧
      Rested formulas present context after ∧ Keeps formulas context.path memo after := by
  obtain ⟨a, runs⟩ := steady
  obtain ⟨alone, run, _⟩ := runs (.fresh []) (rested_empty formulas present context)
  rw [run]
  exact runs memo rested

/-- What was read first does not matter for what comes after it. -/
theorem bind_fresh {x : StateM Memo α} {f : α → StateM Memo β}
    (first : Steady formulas present context x)
    (rest : ∀ a, Steady formulas present context (f a)) :
    ((x >>= f).run (.fresh [])).1 = ((f (x.run (.fresh [])).1).run (.fresh [])).1 := by
  obtain ⟨middle, run, rested, _⟩ := first.run (rested_empty formulas present context)
  obtain ⟨after, run', _⟩ := (rest (x.run (.fresh [])).1).run rested
  have both : (x >>= f).run (.fresh []) = (f (x.run (.fresh [])).1).run middle := by
    rw [StateT.run_bind, run]
    rfl
  rw [both, run']

/-- Whatever learns of formulas only by reading them is steady. -/
theorem of_scripted (distinct : (formulas.map Prod.snd).Nodup) {f : (String → Eval Value) → Eval α}
    (scripted : Scripted f) :
    Steady formulas present context (f (formulas.reader present context).read).run := by
  obtain ⟨t, runs⟩ := scripted
  refine ⟨t.result (meaning formulas present context), fun memo rested => ?_⟩
  rw [runs]
  exact dialogue_result distinct t rested

end Steady

end Formulas

namespace Expr

theorem evaluateText_steady {formulas : Formulas} (distinct : (formulas.map Prod.snd).Nodup)
    (present : Moment) (context : Context) (text : String) :
    Formulas.Steady formulas present context
      (evaluateText (.withFormulas present context formulas) text) := by
  have steady : Formulas.Steady formulas present context
      (ofTextIn (.withFormulas present context formulas) text).run :=
    .of_scripted distinct (ofTextIn_scripted present context formulas.names text)
  obtain ⟨result, runs⟩ := steady
  refine ⟨named text result, fun memo rested => ?_⟩
  obtain ⟨after, run, kept⟩ := runs memo rested
  refine ⟨after, ?_, kept⟩
  rw [evaluateText_run, ExceptT.on]
  exact congrArg (fun outcome => (named text outcome.1, outcome.2)) run

end Expr

end NoteQuery
