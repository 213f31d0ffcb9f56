import NoteQuery.Proofs.Formula.Reading

/-! What an evaluation for a note has to do with other notes. It sees what is kept under the path of the
note and the marks of its cycles, and it leaves alone what is kept under other paths. This holds from
every memory, whatever texts the formulas share and however they lead to each other. -/
namespace NoteQuery

/-- A computation that sees one part of the state and leaves another as it is. -/
structure Confined {σ κ ρ α : Type} (own : σ → κ) (others : σ → ρ) (x : StateM σ α) : Prop where
  same : ∀ s s', own s = own s' →
    (x.run s).1 = (x.run s').1 ∧ own (x.run s).2 = own (x.run s').2
  apart : ∀ s, others (x.run s).2 = others s

namespace Confined

variable {σ κ ρ ε α β : Type} {own : σ → κ} {others : σ → ρ}

theorem pure (a : α) : Confined own others (Pure.pure a : StateM σ α) :=
  ⟨fun _ _ same => ⟨rfl, same⟩, fun _ => rfl⟩

theorem change {f : σ → σ} (same : ∀ s s', own s = own s' → own (f s) = own (f s'))
    (apart : ∀ s, others (f s) = others s) : Confined own others (modify f : StateM σ Unit) :=
  ⟨fun s s' equal => ⟨rfl, same s s' equal⟩, apart⟩

theorem bind {x : StateM σ α} {f : α → StateM σ β} (first : Confined own others x)
    (later : ∀ s, Confined own others (f (x.run s).1)) : Confined own others (x >>= f) := by
  constructor
  · intro s s' equal
    obtain ⟨result, middle⟩ := first.same s s' equal
    have next := (later s).same (x.run s).2 (x.run s').2 middle
    have runs (s : σ) : (x >>= f).run s = (f (x.run s).1).run (x.run s).2 := StateT.run_bind x f s
    rw [runs, runs, ← result]
    exact next
  · intro s
    rw [StateT.run_bind]
    exact ((later s).apart (x.run s).2).trans (first.apart s)

theorem bindExcept {x : ExceptT ε (StateM σ) α} {f : α → ExceptT ε (StateM σ) β}
    (first : Confined own others x.run)
    (later : ∀ s a, (x.on s).1 = .ok a → Confined own others (f a).run) :
    Confined own others (x >>= f).run := by
  rw [ExceptT.run_bind]
  refine first.bind fun s => ?_
  cases result : (x.run.run s).1 with
  | ok a => exact later s a result
  | error e => exact .pure _

theorem lift {x : StateM σ α} (confined : Confined own others x) :
    Confined own others (liftM x : ExceptT ε (StateM σ) α).run := by
  change Confined own others (Except.ok <$> x)
  rw [map_eq_pure_bind]
  exact confined.bind fun _ => .pure _

end Confined

namespace FormulaTable

/-- What is kept for one path. -/
def own (path : String) (table : FormulaTable) : String → Option Value := table.find? path

/-- What is kept for the other paths. -/
def others (path : String) (table : FormulaTable) : { p // p ≠ path } → String → Option Value :=
  fun p => table.find? p

variable {path text : String} {v : Value}

theorem own_put {table table' : FormulaTable} (same : own path table = own path table') :
    own path (put path text v table) = own path (put path text v table') := by
  funext text'
  have equal := congrFun same text'
  simp only [own, find?_put] at equal ⊢
  rw [equal]

theorem others_put (table : FormulaTable) :
    others path (put path text v table) = others path table := by
  funext p text'
  have apart : (p.1, text') ≠ (path, text) := fun same => p.2 (Prod.mk.inj same).1
  simp only [others, find?_put, if_neg apart]

end FormulaTable

namespace Memo

def own (path : String) (m : Memo) : (String → Option Value) × List String :=
  (m.table.own path, m.cyclic)

def others (path : String) (m : Memo) : { p // p ≠ path } → String → Option Value :=
  m.table.others path

variable {path text : String} {v : Value}

theorem own_eq {m m' : Memo} :
    m.own path = m'.own path ↔ m.table.own path = m'.table.own path ∧ m.cyclic = m'.cyclic :=
  Prod.mk_inj

theorem own_keep {m m' : Memo} (same : m.own path = m'.own path) :
    (m.keep path text v).own path = (m'.keep path text v).own path := by
  obtain ⟨kept, cyclic⟩ := own_eq.mp same
  exact own_eq.mpr ⟨FormulaTable.own_put kept, cyclic⟩

theorem others_keep (m : Memo) : (m.keep path text v).others path = m.others path :=
  FormulaTable.others_put m.table

theorem own_mark {m m' : Memo} (names : List String) (same : m.own path = m'.own path) :
    (m.mark names).own path = (m'.mark names).own path := by
  obtain ⟨kept, cyclic⟩ := own_eq.mp same
  refine own_eq.mpr ⟨kept, ?_⟩
  simp only [mark, cyclic]

end Memo

/-- An evaluation for the note at a path. -/
def Evaluates (path : String) {α : Type} (x : StateM Memo α) : Prop :=
  Confined (Memo.own path) (Memo.others path) x

theorem Script.run_confined {path : String} {read : String → Eval Value}
    (reads : ∀ name, Evaluates path (read name).run) {α : Type} (t : Script α) :
    Evaluates path (t.run read).run := by
  induction t with
  | done result => cases result <;> exact .pure _
  | ask name next ih => exact (reads name).bindExcept fun _ v _ => ih v

namespace Formulas

variable (formulas : Formulas) (present : Moment) (context : Context)

theorem formulaValue_confined {read : String → Eval Value}
    (reads : ∀ name, Evaluates context.path (read name).run) (text : String) :
    Evaluates context.path
      ((Surroundings.reading present context formulas.names read).formulaValue text) := by
  obtain ⟨t, runs⟩ := Expr.ofTextIn_scripted present context formulas.names text
  have inner : Evaluates context.path
      (Expr.ofTextIn (.reading present context formulas.names read) text).run := by
    have run := runs read
    dsimp only at run
    rw [run]
    exact Script.run_confined reads t
  constructor
  · intro m m' same
    obtain ⟨kept, cyclic⟩ := Memo.own_eq.mp same
    have found : m.table.find? context.path text = m'.table.find? context.path text :=
      congrFun kept text
    have evaluated := inner.same m m' same
    rw [Surroundings.formulaValue_run, Surroundings.formulaValue_run, Surroundings.reading_context,
      found]
    cases m'.table.find? context.path text with
    | some v => exact ⟨rfl, same⟩
    | none =>
      refine ⟨congrArg worth evaluated.1, ?_⟩
      have worths : worth ((Expr.ofTextIn _ text).on m).1 = worth ((Expr.ofTextIn _ text).on m').1 :=
        congrArg worth evaluated.1
      dsimp only
      rw [worths]
      exact Memo.own_keep evaluated.2
  · intro m
    rw [Surroundings.formulaValue_run, Surroundings.reading_context]
    cases m.table.find? context.path text with
    | some v => rfl
    | none => exact (Memo.others_keep _).trans (inner.apart m)

theorem conclude_confined (stack : List String) (name text : String) (v : Value) :
    Evaluates context.path fun memo => conclude stack name context.path text (v, memo) := by
  constructor
  · intro m m' same
    have cyclic := (Memo.own_eq.mp same).2
    change (conclude stack name context.path text (v, m)).1 =
        (conclude stack name context.path text (v, m')).1 ∧
      Memo.own context.path (conclude stack name context.path text (v, m)).2 =
        Memo.own context.path (conclude stack name context.path text (v, m')).2
    unfold conclude
    dsimp only
    rw [cyclic]
    split
    · exact ⟨rfl, Memo.own_keep same⟩
    · exact ⟨rfl, same⟩
  · intro m
    change Memo.others context.path (conclude stack name context.path text (v, m)).2 = _
    unfold conclude
    split
    · exact Memo.others_keep m
    · rfl

/-- Reading a formula is an evaluation for the note, at every depth and below every stack. -/
theorem read_confined (depth : Nat) (stack : List String) (name : String) :
    Evaluates context.path (read formulas present context depth stack name).run := by
  -- What a formula reads is read one level deeper, below the formula itself.
  induction depth generalizing stack name with
  | zero => exact .pure _
  | succ depth ih =>
    cases found : formulas.lookup name with
    | none =>
      rw [read, found]
      exact .pure _
    | some text =>
      by_cases entered : stack.contains name = true
      · rw [read, found]
        simp only [entered, if_true]
        have marked : Evaluates context.path
            (modify (Memo.mark (loop stack name)) : StateM Memo Unit) :=
          .change (fun _ _ same => Memo.own_mark _ same) fun _ => rfl
        have failed : Evaluates context.path (do
            modify (Memo.mark (loop stack name))
            pure (.error (.error (.circular name))) : StateM Memo (Except Failure Value)) :=
          marked.bind fun _ => .pure _
        exact failed
      · have runs : (read formulas present context (depth + 1) stack name).run =
            (do
              let v ← (Surroundings.reading present context formulas.names
                (read formulas present context depth (name :: stack))).formulaValue text
              fun memo => conclude stack name context.path text (v, memo)) := by
          funext memo
          have step := read_on formulas present context depth stack name memo
          simp only [found, entered, Bool.false_eq_true, if_false] at step
          exact step
        rw [runs]
        exact (formulaValue_confined formulas present context (ih (name :: stack)) text).bind
          fun memo => conclude_confined context stack name text _

theorem scripted_confined {α : Type} {f : (String → Eval Value) → Eval α} (scripted : Scripted f) :
    Evaluates context.path (f (formulas.reader present context).read).run := by
  obtain ⟨t, runs⟩ := scripted
  rw [runs]
  exact Script.run_confined (read_confined formulas present context (formulas.length + 1) []) t

end Formulas

end NoteQuery
