import NoteQuery.Proofs.Formula.Descent

/-! How the reading of formulas unwinds. A read puts its formula on a stack for as long as the text is
evaluated and takes off what then lies on top, and the evaluation may break off at any depth where a cycle
is met. Still every read comes to an end and leaves the stack as it found it; one that begins with nothing
on the stack has a value. All of this holds from every memory, be the values in it right or wrong. -/
namespace NoteQuery

/-- What the formulas of a note are read from: the memory, and those that are being evaluated, the innermost
first. -/
structure Resolution where
  memo : Memo
  stack : List String

namespace Resolution

def enter (name : String) (s : Resolution) : Resolution := ⟨s.memo, name :: s.stack⟩

/-- Takes off whatever lies on top. -/
def leave (s : Resolution) : Resolution := ⟨s.memo, s.stack.tail⟩

end Resolution

namespace Formulas

section Unwinding

variable (formulas : Formulas) (present : Moment) (context : Context)

mutual

/-- A read of one formula comes to this. -/
inductive Resolves : Resolution → String → Except Failure Value → Resolution → Prop
  | undefined {before : Resolution} {name : String} (missing : formulas.lookup name = none) :
      Resolves before name (.ok .null) before
  | again {before : Resolution} {name text : String} (found : formulas.lookup name = some text)
      (entered : name ∈ before.stack) :
      Resolves before name (.error (.error (.circular name)))
        ⟨before.memo.mark (loop before.stack name), before.stack⟩
  | entered {before inside : Resolution} {name text : String} {v : Value}
      (found : formulas.lookup name = some text) (fresh : name ∉ before.stack)
      (value : Computes (before.enter name) text v inside) :
      Resolves before name
        (conclude inside.leave.stack name context.path text (v, inside.leave.memo)).1
        ⟨(conclude inside.leave.stack name context.path text (v, inside.leave.memo)).2, inside.leave.stack⟩

/-- The value of a text, from the table or by evaluation. A failure ends here: it is kept as null. -/
inductive Computes : Resolution → String → Value → Resolution → Prop
  | known {before : Resolution} {text : String} {v : Value}
      (kept : before.memo.table.find? context.path text = some v) : Computes before text v before
  | evaluated {before after : Resolution} {text : String} {t : Script Value} {r : Except Failure Value}
      (unkept : before.memo.table.find? context.path text = none)
      (script : ∀ read, Expr.ofTextIn (.reading present context formulas.names read) text = t.run read)
      (dialogue : Dialogue before t r after) :
      Computes before text (worth r) ⟨after.memo.keep context.path text (worth r), after.stack⟩

/-- What a text asks is read, one formula after the other. The first failure ends it. -/
inductive Dialogue : Resolution → Script Value → Except Failure Value → Resolution → Prop
  | done {before : Resolution} {r : Except Failure Value} : Dialogue before (.done r) r before
  | answered {before middle after : Resolution} {name : String} {next : Value → Script Value} {v : Value}
      {r : Except Failure Value} (read : Resolves before name (.ok v) middle)
      (rest : Dialogue middle (next v) r after) : Dialogue before (.ask name next) r after
  | failed {before after : Resolution} {name : String} {next : Value → Script Value} {f : Failure}
      (read : Resolves before name (.error f) after) : Dialogue before (.ask name next) (.error f) after

end

variable {formulas present context}
variable {before after : Resolution} {name text : String} {v : Value} {r : Except Failure Value}

mutual

theorem Resolves.stack : ∀ {before after : Resolution} {name : String} {r : Except Failure Value},
    Resolves formulas present context before name r after → after.stack = before.stack
  | _, _, _, _, .undefined _ => rfl
  | _, _, _, _, .again _ _ => rfl
  | _, _, _, _, .entered _ _ value => by rw [Resolution.leave, value.stack, Resolution.enter, List.tail_cons]

theorem Computes.stack : ∀ {before after : Resolution} {text : String} {v : Value},
    Computes formulas present context before text v after → after.stack = before.stack
  | _, _, _, _, .known _ => rfl
  | _, _, _, _, .evaluated _ _ dialogue => dialogue.stack

theorem Dialogue.stack : ∀ {before after : Resolution} {t : Script Value} {r : Except Failure Value},
    Dialogue formulas present context before t r after → after.stack = before.stack
  | _, _, _, _, .done => rfl
  | _, _, _, _, .answered read rest => rest.stack.trans read.stack
  | _, _, _, _, .failed read => read.stack

end

/-- What a memory has of another: the marks of its cycles, and all that is kept for other notes or under texts
that are no formula's. -/
structure Spares (formulas : Formulas) (path : String) (before after : Memo) : Prop where
  cyclic : before.cyclic ⊆ after.cyclic
  table : ∀ path' text, (path' = path → ∀ n, formulas.lookup n ≠ some text) →
    after.table.find? path' text = before.table.find? path' text

namespace Spares

variable {path : String} {first middle last : Memo}

theorem refl (formulas : Formulas) (path : String) (memo : Memo) : Spares formulas path memo memo :=
  ⟨fun _ marked => marked, fun _ _ _ => rfl⟩

theorem trans (here : Spares formulas path first middle) (there : Spares formulas path middle last) :
    Spares formulas path first last :=
  ⟨fun _ marked => there.cyclic (here.cyclic marked), fun path' text outside =>
    (there.table path' text outside).trans (here.table path' text outside)⟩

theorem mark (formulas : Formulas) (path : String) (memo : Memo) (names : List String) :
    Spares formulas path memo (memo.mark names) :=
  ⟨by simp [Memo.mark], fun _ _ _ => rfl⟩

theorem keep (memo : Memo) (v : Value) (found : formulas.lookup name = some text) :
    Spares formulas path memo (memo.keep path text v) := by
  refine ⟨fun _ marked => marked, fun path' text' outside => ?_⟩
  rw [Memo.keep, FormulaTable.find?_put, if_neg]
  intro same
  obtain ⟨rfl, rfl⟩ := Prod.mk.inj same
  exact outside rfl name found

theorem conclude (stack : List String) (inner : Value × Memo) (found : formulas.lookup name = some text) :
    Spares formulas path inner.2 (conclude stack name path text inner).2 := by
  unfold Formulas.conclude
  split
  · exact keep inner.2 .null found
  · exact refl formulas path inner.2

end Spares

mutual

theorem Resolves.spares : ∀ {before after : Resolution} {name : String} {r : Except Failure Value},
    Resolves formulas present context before name r after → Spares formulas context.path before.memo after.memo
  | _, _, _, _, .undefined _ => .refl _ _ _
  | _, _, _, _, .again _ _ => .mark _ _ _ _
  | _, _, _, _, .entered found _ value => (value.spares found).trans (.conclude _ (_, _) found)

theorem Computes.spares : ∀ {before after : Resolution} {name text : String} {v : Value},
    Computes formulas present context before text v after → formulas.lookup name = some text →
      Spares formulas context.path before.memo after.memo
  | _, _, _, _, _, .known _, _ => .refl _ _ _
  | _, _, _, _, _, .evaluated _ _ dialogue, found => dialogue.spares.trans (.keep _ _ found)

theorem Dialogue.spares : ∀ {before after : Resolution} {t : Script Value} {r : Except Failure Value},
    Dialogue formulas present context before t r after → Spares formulas context.path before.memo after.memo
  | _, _, _, _, .done => .refl _ _ _
  | _, _, _, _, .answered read rest => read.spares.trans rest.spares
  | _, _, _, _, .failed read => read.spares

end

/-- There is room for the formulas that are not on the stack: those on it are different ones. -/
structure Deep (formulas : Formulas) (depth : Nat) (stack : List String) : Prop where
  room : formulas.length < depth + stack.length
  once : stack.Nodup
  defined : stack ⊆ formulas.names

namespace Deep

variable {depth : Nat} {stack : List String}

theorem outermost (formulas : Formulas) : Deep formulas (formulas.length + 1) [] :=
  ⟨by simp, List.nodup_nil, List.nil_subset _⟩

theorem positive (deep : Deep formulas depth stack) : ∃ less, depth = less + 1 := by
  have short := (deep.once.subperm deep.defined).length_le
  simp only [names, List.length_map] at short
  have room := deep.room
  exact Nat.exists_eq_succ_of_ne_zero (by omega)

theorem enter (deep : Deep formulas (depth + 1) stack) (found : formulas.lookup name = some text)
    (fresh : name ∉ stack) : Deep formulas depth (name :: stack) := by
  have room := deep.room
  refine ⟨by simp only [List.length_cons]; omega, List.nodup_cons.mpr ⟨fresh, deep.once⟩, ?_⟩
  exact List.cons_subset.mpr ⟨List.mem_map.mpr ⟨_, lookup_mem found, rfl⟩, deep.defined⟩

end Deep

mutual

/-- A read that comes to something comes to what the reader finds. -/
theorem Resolves.read : ∀ {before after : Resolution} {name : String} {r : Except Failure Value} {depth : Nat},
    Resolves formulas present context before name r after → Deep formulas depth before.stack →
      (read formulas present context depth before.stack name).on before.memo = (r, after.memo)
  | _, _, _, _, _, .undefined missing, deep => by
    obtain ⟨depth, rfl⟩ := deep.positive
    simp only [read_on, missing]
  | _, _, _, _, _, .again found entered, deep => by
    obtain ⟨depth, rfl⟩ := deep.positive
    simp only [read_on, found, List.contains_iff_mem.mpr entered, if_true]
  | _, _, _, _, _, @Resolves.entered _ _ _ before inside _ _ _ found fresh value, deep => by
    obtain ⟨depth, rfl⟩ := deep.positive
    have run := value.read (deep.enter found fresh)
    have stack : inside.stack.tail = before.stack := by rw [value.stack, Resolution.enter, List.tail_cons]
    simp only [Resolution.enter] at run
    simp only [read_on, found, List.contains_iff_mem, fresh, if_false, run, Resolution.leave, stack]

theorem Computes.read : ∀ {before after : Resolution} {text : String} {v : Value} {depth : Nat},
    Computes formulas present context before text v after → Deep formulas depth before.stack →
      ((Surroundings.reading present context formulas.names
        (read formulas present context depth before.stack)).formulaValue text).run before.memo = (v, after.memo)
  | _, _, _, _, _, .known kept, _ => by
    simp only [Surroundings.formulaValue_run, Surroundings.reading_context, kept]
  | _, _, _, _, _, .evaluated unkept script dialogue, deep => by
    simp only [Surroundings.formulaValue_run, Surroundings.reading_context, unkept, script,
      dialogue.run deep]

theorem Dialogue.run : ∀ {before after : Resolution} {t : Script Value} {r : Except Failure Value} {depth : Nat},
    Dialogue formulas present context before t r after → Deep formulas depth before.stack →
      (t.run (Formulas.read formulas present context depth before.stack)).on before.memo = (r, after.memo)
  | _, _, _, _, _, .done, _ => Eval.on_ofExcept _ _
  | _, _, _, _, _, .answered read rest, deep => by
    have later := rest.run (read.stack ▸ deep)
    rw [read.stack] at later
    rw [Script.run, ExceptT.on_bind, read.read deep]
    exact later
  | _, _, _, _, _, .failed read, deep => by
    rw [Script.run, ExceptT.on_bind, read.read deep]

end

section Reached

variable {depth : Nat} {stack : List String} {memo middle : Memo}

section Below

variable (reads : ∀ {name : String} {memo middle : Memo} {r : Except Failure Value},
  (read formulas present context depth stack name).on memo = (r, middle) →
    Resolves formulas present context ⟨memo, stack⟩ name r ⟨middle, stack⟩)
include reads

theorem dialogue_of_run (t : Script Value)
    (run : (t.run (read formulas present context depth stack)).on memo = (r, middle)) :
    Dialogue formulas present context ⟨memo, stack⟩ t r ⟨middle, stack⟩ := by
  induction t generalizing memo with
  | done result =>
    rw [Script.run, Eval.on_ofExcept] at run
    cases run
    exact .done
  | ask name next ih =>
    rw [Script.run, ExceptT.on_bind] at run
    rcases got : (read formulas present context depth stack name).on memo with ⟨f | v, between⟩
    · rw [got] at run
      cases run
      exact .failed (reads got)
    · rw [got] at run
      exact .answered (reads got) (ih v run)

theorem computes_of_run
    (run : ((Surroundings.reading present context formulas.names
      (read formulas present context depth stack)).formulaValue text).run memo = (v, middle)) :
    Computes formulas present context ⟨memo, stack⟩ text v ⟨middle, stack⟩ := by
  rw [Surroundings.formulaValue_run, Surroundings.reading_context] at run
  cases kept : memo.table.find? context.path text with
  | some v' =>
    simp only [kept] at run
    cases run
    exact .known kept
  | none =>
    obtain ⟨t, script⟩ := Expr.ofTextIn_scripted present context formulas.names text
    rcases got : (t.run (read formulas present context depth stack)).on memo with ⟨r, between⟩
    simp only [kept, script, got] at run
    cases run
    exact .evaluated kept script (dialogue_of_run reads t got)

end Below

/-- What the reader finds, a read comes to. -/
theorem resolves_of_read (deep : Deep formulas depth stack)
    (run : (read formulas present context depth stack name).on memo = (r, middle)) :
    Resolves formulas present context ⟨memo, stack⟩ name r ⟨middle, stack⟩ := by
  -- By induction on the depth, of which each formula that is entered takes one.
  induction depth generalizing stack name memo middle r with
  | zero =>
    obtain ⟨less, none⟩ := deep.positive
    cases none
  | succ depth ih =>
    rw [read_on] at run
    cases found : formulas.lookup name with
    | none =>
      simp only [found] at run
      cases run
      exact .undefined found
    | some text =>
      by_cases entered : name ∈ stack
      · simp only [found, List.contains_iff_mem.mpr entered, if_true] at run
        cases run
        exact .again found entered
      · simp only [found, List.contains_iff_mem, entered, if_false] at run
        rcases got : ((Surroundings.reading present context formulas.names
          (read formulas present context depth (name :: stack))).formulaValue text).run memo with ⟨v, inside⟩
        have value := computes_of_run (ih (deep.enter found entered)) got
        have resolves : Resolves formulas present context ⟨memo, stack⟩ name _ _ := .entered found entered value
        rw [got] at run
        simpa only [Resolution.leave, List.tail_cons, run] using resolves

end Reached

/-- A read comes to one thing, which the reader finds, and leaves the stack as it was. -/
theorem resolves_iff {depth : Nat} {stack : List String} (deep : Deep formulas depth stack) {memo : Memo} :
    Resolves formulas present context ⟨memo, stack⟩ name r after ↔ after.stack = stack ∧
      (read formulas present context depth stack name).on memo = (r, after.memo) := by
  constructor
  · exact fun resolves => ⟨resolves.stack, resolves.read deep⟩
  · obtain ⟨middle, stack'⟩ := after
    rintro ⟨rfl, run⟩
    exact resolves_of_read deep run

theorem reader_value (formulas : Formulas) (present : Moment) (context : Context) (memo : Memo) (name : String) :
    ∃ v after, ((formulas.reader present context).read name).on memo = (.ok v, after) ∧
      (name ∈ after.cyclic → v = .null) := by
  cases found : formulas.lookup name with
  | none => exact ⟨.null, memo, by simp only [reader, read_on, found], fun _ => rfl⟩
  | some text =>
    rw [reader_on present context found, conclude_outermost]
    generalize (Surroundings.formulaValue _ text).run memo = inner
    by_cases marked : name ∈ inner.2.cyclic
    · exact ⟨_, _, if_pos marked, fun _ => rfl⟩
    · exact ⟨_, _, if_neg marked, fun marked' => absurd marked' marked⟩

/-- A read that begins with nothing under evaluation has this value and leaves this memory. -/
structure Unwinds (formulas : Formulas) (present : Moment) (context : Context) (before : Memo) (name : String)
    (v : Value) (after : Memo) : Prop where
  found : ((formulas.reader present context).read name).on before = (.ok v, after)
  /-- It comes to an end, and to no other, with nothing on the stack. -/
  ends : ∀ r s, Resolves formulas present context ⟨before, []⟩ name r s ↔ r = .ok v ∧ s = ⟨after, []⟩
  null : name ∈ after.cyclic → v = .null
  /-- So are all formulas that are known to be cyclic from then on. -/
  nulls : ∀ n ∈ after.cyclic, ∃ later, ((formulas.reader present context).read n).on after = (.ok .null, later)
  spares : Spares formulas context.path before after

/-- From every memory a read of any name unwinds: it ends with a value and not with a failure. -/
theorem read_unwinds (formulas : Formulas) (present : Moment) (context : Context) (before : Memo) (name : String) :
    ∃ v after, Unwinds formulas present context before name v after := by
  have outermost := Deep.outermost formulas
  have spares {before after : Memo} {name : String} {r : Except Failure Value}
      (run : ((formulas.reader present context).read name).on before = (r, after)) :
      Spares formulas context.path before after := (resolves_of_read outermost run).spares
  obtain ⟨v, after, run, null⟩ := reader_value formulas present context before name
  refine ⟨v, after, run, fun r s => ?_, null, fun n marked => ?_, spares run⟩
  · obtain ⟨memo, stack⟩ := s
    rw [resolves_iff outermost, Resolution.mk.injEq]
    constructor
    · rintro ⟨empty, run'⟩
      obtain ⟨same, same'⟩ := Prod.mk.inj (run.symm.trans run')
      exact ⟨same.symm, same'.symm, empty⟩
    · rintro ⟨rfl, rfl, empty⟩
      exact ⟨empty, run⟩
  · obtain ⟨w, later, run', null'⟩ := reader_value formulas present context after n
    exact ⟨later, null' ((spares run').cyclic marked) ▸ run'⟩

end Unwinding

end Formulas

end NoteQuery
