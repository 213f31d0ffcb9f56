import Mathlib

/-! Outcomes of computations that may fail, and of those that change a state also when they do. -/
namespace Except

variable {ε α β : Type} {x : Except ε α} {f : α → Except ε β}

theorem bind_eq_ok {b : β} : (x >>= f) = .ok b ↔ ∃ a, x = .ok a ∧ f a = .ok b := by
  cases x <;> simp [bind, Except.bind]

theorem bind_eq_error {e : ε} :
    (x >>= f) = .error e ↔ x = .error e ∨ ∃ a, x = .ok a ∧ f a = .error e := by
  cases x <;> simp [bind, Except.bind]

theorem map_eq_ok {x : Except ε α} {f : α → β} {b : β} :
    x.map f = .ok b ↔ ∃ a, x = .ok a ∧ f a = b := by
  cases x <;> simp [Except.map]

theorem map_eq_error {x : Except ε α} {f : α → β} {e : ε} : x.map f = .error e ↔ x = .error e := by
  cases x <;> simp [Except.map]

theorem map_eq_bind {x : Except ε α} {f : α → β} : x.map f = x >>= fun a => .ok (f a) := by
  cases x <;> rfl

theorem map_bind {γ : Type} {x : Except ε α} {g : α → β} {f : β → Except ε γ} :
    (x.map g >>= f) = x >>= fun a => f (g a) := by
  cases x <;> rfl

theorem exists_bind_ok {g : α → β} :
    (∃ b, (x >>= fun a => .ok (g a)) = .ok b) ↔ ∃ a, x = .ok a := by
  cases x <;> simp [bind, Except.bind]

section Lists

variable {items : List α}

theorem mapM_eq_ok {found : List β} :
    items.mapM f = .ok found ↔ List.Forall₂ (fun a b => f a = .ok b) items found := by
  induction items generalizing found with
  | nil => simp [pure, Except.pure, eq_comm]
  | cons a items ih =>
    simp only [List.mapM_cons, bind_eq_ok, ih, pure, Except.pure, Except.ok.injEq]
    constructor
    · rintro ⟨b, first, rest, others, rfl⟩
      exact .cons first others
    · rintro (_ | ⟨first, others⟩)
      exact ⟨_, first, _, others, rfl⟩

theorem exists_mapM_ok :
    (∃ found, items.mapM f = .ok found) ↔ ∀ a ∈ items, ∃ b, f a = .ok b := by
  induction items with
  | nil => simp [pure, Except.pure]
  | cons a items ih =>
    rw [List.forall_mem_cons, ← ih, List.mapM_cons]
    cases f a with
    | error e => simp [bind, Except.bind]
    | ok b => cases items.mapM f <;> simp [bind, Except.bind, pure, Except.pure]

end Lists

/-- Every failure is of this kind. -/
def FailsOnly (P : ε → Prop) (x : Except ε α) : Prop := ∀ e, x = .error e → P e

variable {P : ε → Prop}

theorem failsOnly_ok (a : α) : (.ok a : Except ε α).FailsOnly P := fun _ failed => nomatch failed

theorem FailsOnly.error {e : ε} (kind : P e) : (.error e : Except ε α).FailsOnly P := by
  intro _ failed
  cases failed
  exact kind

theorem FailsOnly.imp {Q : ε → Prop} (fails : x.FailsOnly P) (weaker : ∀ e, P e → Q e) :
    x.FailsOnly Q := fun e failed => weaker e (fails e failed)

theorem FailsOnly.map {x : Except ε α} {g : α → β} (fails : x.FailsOnly P) : (x.map g).FailsOnly P :=
  fun e failed => fails e (map_eq_error.mp failed)

theorem FailsOnly.bind (first : x.FailsOnly P) (rest : ∀ a, (f a).FailsOnly P) :
    (x >>= f).FailsOnly P := by
  intro e failed
  rcases bind_eq_error.mp failed with failed | ⟨a, _, failed⟩
  · exact first e failed
  · exact rest a e failed

theorem toOption_eq_some {x : Except ε α} {a : α} : x.toOption = some a ↔ x = .ok a := by
  cases x <;> simp [Except.toOption]

end Except

namespace Option

variable {α β : Type} {f : α → Option β} {items : List α}

theorem mapM_eq_some {found : List β} :
    items.mapM f = some found ↔ List.Forall₂ (fun a b => f a = some b) items found := by
  induction items generalizing found with
  | nil => simp [eq_comm]
  | cons a items ih =>
    simp only [List.mapM_cons, Option.bind_eq_bind, Option.bind_eq_some_iff, ih, Option.pure_def, Option.some.injEq]
    constructor
    · rintro ⟨b, first, rest, others, rfl⟩
      exact .cons first others
    · rintro (_ | ⟨first, others⟩)
      exact ⟨_, first, _, others, rfl⟩

theorem mapM_eq_none : items.mapM f = none ↔ ∃ a ∈ items, f a = none := by
  induction items with
  | nil => simp
  | cons a items ih =>
    rw [List.exists_mem_cons_iff, ← ih, List.mapM_cons]
    cases f a with
    | none => simp
    | some b => cases items.mapM f <;> simp

end Option

namespace ExceptT

variable {ε σ α β : Type}

def on (s : σ) (x : ExceptT ε (StateM σ) α) : Except ε α × σ := StateT.run (ExceptT.run x) s

theorem on_pure (s : σ) (a : α) : (pure a : ExceptT ε (StateM σ) α).on s = (.ok a, s) := rfl

theorem on_get (s : σ) : (get : ExceptT ε (StateM σ) σ).on s = (.ok s, s) := rfl

theorem on_modify (s : σ) (f : σ → σ) :
    (modify f : ExceptT ε (StateM σ) Unit).on s = (.ok (), f s) := rfl

theorem on_lift (s : σ) (x : StateM σ α) :
    (liftM x : ExceptT ε (StateM σ) α).on s = (.ok (x.run s).1, (x.run s).2) := rfl

theorem on_bind (s : σ) (x : ExceptT ε (StateM σ) α) (f : α → ExceptT ε (StateM σ) β) :
    (x >>= f).on s = match x.on s with
      | (.ok a, after) => (f a).on after
      | (.error e, after) => (.error e, after) := by
  unfold on
  simp only [ExceptT.run_bind, StateT.run_bind]
  rcases (StateT.run (ExceptT.run x) s) with ⟨_ | a, after⟩ <;> rfl

theorem on_bind_pure (s : σ) (x : ExceptT ε (StateM σ) α) (g : α → β) :
    (x >>= fun a => pure (g a)).on s = Prod.map (Except.map g) id (x.on s) := by
  rw [on_bind]
  rcases x.on s with ⟨_ | a, after⟩ <;> rfl

def Returns (x : ExceptT ε (StateM σ) α) : Prop := ∀ s, ∃ a after, x.on s = (.ok a, after)

theorem returns_pure (a : α) : (pure a : ExceptT ε (StateM σ) α).Returns := fun s => ⟨a, s, rfl⟩

theorem Returns.bind {x : ExceptT ε (StateM σ) α} {f : α → ExceptT ε (StateM σ) β}
    (first : x.Returns) (later : ∀ a, (f a).Returns) : (x >>= f).Returns := by
  intro s
  obtain ⟨a, middle, run⟩ := first s
  obtain ⟨b, after, run'⟩ := later a middle
  exact ⟨b, after, by rw [on_bind, run]; exact run'⟩

/-- Every failure, from any state, is of this kind. -/
def FailsOnly (P : ε → Prop) (x : ExceptT ε (StateM σ) α) : Prop :=
  ∀ s e after, x.on s = (.error e, after) → P e

variable {P : ε → Prop}

theorem failsOnly_pure (a : α) : (pure a : ExceptT ε (StateM σ) α).FailsOnly P := by
  intro s e after failed
  cases failed

theorem FailsOnly.bind {x : ExceptT ε (StateM σ) α} {f : α → ExceptT ε (StateM σ) β}
    (first : x.FailsOnly P) (rest : ∀ a, (f a).FailsOnly P) : (x >>= f).FailsOnly P := by
  intro s e after failed
  rw [on_bind] at failed
  rcases run : x.on s with ⟨e' | a, middle⟩
  · rw [run] at failed
    cases failed
    exact first s e after run
  · rw [run] at failed
    exact rest a middle e after failed

theorem FailsOnly.mono {Q : ε → Prop} {x : ExceptT ε (StateM σ) α} (only : x.FailsOnly P)
    (weaker : ∀ e, P e → Q e) : x.FailsOnly Q :=
  fun s e after failed => weaker e (only s e after failed)

theorem Returns.failsOnly {x : ExceptT ε (StateM σ) α} (returns : x.Returns) : x.FailsOnly P := by
  intro s e after failed
  obtain ⟨a, after', returned⟩ := returns s
  cases returned.symm.trans failed

theorem FailsOnly.returns {x : ExceptT ε (StateM σ) α} (only : x.FailsOnly P) (never : ∀ e, ¬ P e) :
    x.Returns := by
  intro s
  rcases run : x.on s with ⟨e | a, after⟩
  · exact absurd (only s e after run) (never e)
  · exact ⟨a, after, rfl⟩

theorem returns_lift (x : StateM σ α) : (liftM x : ExceptT ε (StateM σ) α).Returns :=
  fun s => ⟨_, _, on_lift s x⟩

/-- There is a state from which the computation returns this. -/
def Gives (x : ExceptT ε (StateM σ) α) (a : α) : Prop := ∃ s after, x.on s = (.ok a, after)

theorem on_bind_ok {x : ExceptT ε (StateM σ) α} {f : α → ExceptT ε (StateM σ) β} {b : β} {s after : σ} :
    (x >>= f).on s = (.ok b, after) ↔
      ∃ a middle, x.on s = (.ok a, middle) ∧ (f a).on middle = (.ok b, after) := by
  rw [on_bind]
  rcases x.on s with ⟨_ | a, middle⟩ <;> simp

theorem Gives.of_bind {x : ExceptT ε (StateM σ) α} {f : α → ExceptT ε (StateM σ) β} {b : β}
    (given : (x >>= f).Gives b) : ∃ a, x.Gives a ∧ (f a).Gives b := by
  obtain ⟨s, after, returned⟩ := given
  obtain ⟨a, middle, first, rest⟩ := on_bind_ok.mp returned
  exact ⟨a, ⟨s, middle, first⟩, middle, after, rest⟩

theorem Gives.of_pure {a b : α} (given : (pure a : ExceptT ε (StateM σ) α).Gives b) : b = a := by
  obtain ⟨s, after, returned⟩ := given
  cases returned
  rfl

end ExceptT
