import Mathlib
import NoteQuery.Checked
import NoteQuery.Proofs.Outcome

/-! What checks accept. For every way of checking it is said which values pass and as what, so that a
check that is put together from others accepts what its parts accept; and for most that what they
find is found again where it has been written. -/
namespace NoteQuery

/-- Lists that are related item by item through a list between them. -/
theorem forall₂_through {α β γ : Type} {R : α → β → Prop} {S : β → γ → Prop} {xs : List α}
    {zs : List γ} : (∃ ys, List.Forall₂ R xs ys ∧ List.Forall₂ S ys zs) ↔
      List.Forall₂ (fun x z => ∃ y, R x y ∧ S y z) xs zs := by
  constructor
  · rintro ⟨ys, first, second⟩
    induction first generalizing zs with
    | nil =>
      cases second
      exact .nil
    | cons related _ ih =>
      rcases second with _ | ⟨related', second⟩
      exact .cons ⟨_, related, related'⟩ (ih second)
  · intro each
    induction each with
    | nil => exact ⟨[], .nil, .nil⟩
    | cons related _ ih =>
      obtain ⟨y, related, related'⟩ := related
      obtain ⟨ys, first, second⟩ := ih
      exact ⟨y :: ys, .cons related first, .cons related' second⟩

theorem forall₂_at {α β : Type} {R : α → β → Prop} {xs : List α} {ys : List β}
    (each : List.Forall₂ R xs ys) {i : Nat} {x : α} (here : xs[i]? = some x) :
    ∃ y, ys[i]? = some y ∧ R x y := by
  induction each generalizing i with
  | nil => simp at here
  | cons related _ ih =>
    cases i with
    | zero =>
      cases here
      exact ⟨_, rfl, related⟩
    | succ i => exact ih here

namespace Checked

variable {α β : Type}

theorem both_eq_ok {x : Checked α} {y : Checked β} {found : α × β} :
    both x y = .ok found ↔ x = .ok found.1 ∧ y = .ok found.2 := by
  cases x <;> cases y <;> simp [both, Prod.ext_iff]

theorem within_eq_ok {place : String} {x : Checked α} {a : α} :
    within place x = .ok a ↔ x = .ok a := by
  cases x <;> simp [within]

theorem itemsFrom_eq_ok {check : Value → Checked α} {i : Nat} {items : List Value} {found : List α} :
    itemsFrom check i items = .ok found ↔ List.Forall₂ (fun v a => check v = .ok a) items found := by
  induction items generalizing i found with
  | nil => simp [itemsFrom, eq_comm]
  | cons v items ih =>
    simp only [itemsFrom, Except.map_eq_ok, both_eq_ok, within_eq_ok, ih]
    constructor
    · rintro ⟨⟨a, others⟩, ⟨first, rest⟩, rfl⟩
      exact .cons first rest
    · rintro (_ | ⟨first, rest⟩)
      exact ⟨(_, _), ⟨first, rest⟩, rfl⟩

theorem list_eq_ok {check : Value → Checked α} {v : Value} {found : List α} :
    list check v = .ok found ↔
      ∃ items, v = .list items ∧ List.Forall₂ (fun v a => check v = .ok a) items found := by
  cases v <;> simp [list, refuse, itemsFrom_eq_ok]

theorem optional_eq_ok {check : Value → Checked α} {v : Value} {found : Option α} :
    optional check v = .ok found ↔
      v = .null ∧ found = none ∨ v ≠ .null ∧ ∃ a, check v = .ok a ∧ some a = found := by
  cases v with
  | null => simp [optional, eq_comm]
  | _ => simp [optional, Except.map_eq_ok]

section Fields

variable {entries : Entries} {check : Value → Checked α} {a : α}

theorem fieldOr_eq_ok {names : List String} {missing : α} :
    fieldOr entries names missing check = .ok a ↔
      (∃ name v, given? entries names = some (name, v) ∧ check v = .ok a) ∨
        given? entries names = none ∧ a = missing := by
  unfold fieldOr
  split
  next name v found => simp [found, within_eq_ok]
  next found => simp [found, eq_comm]

theorem field_eq_ok {name : String} :
    field entries name check = .ok a ↔ ∃ v, entries.find? name = some v ∧ check v = .ok a := by
  unfold field
  split
  next v found => simp [found, within_eq_ok]
  next found => simp [found, within_eq_ok, refuse]

end Fields

variable {v : Value} {s : String}

theorem fullText_eq_ok : fullText v = .ok s ↔ v = .text s ∧ s ≠ "" := by
  cases v with
  | text t =>
    by_cases empty : t = ""
    · simp [fullText, refuse, empty]
    · simp only [fullText, String.isEmpty_iff, empty, if_false, Except.ok.injEq, Value.text.injEq]
      constructor
      · rintro rfl
        exact ⟨rfl, empty⟩
      · exact And.left
  | _ => simp [fullText, refuse]

theorem choice_eq_ok {choices : List (String × α)} {a : α} :
    choice choices v = .ok a ↔ ∃ s, v = .text s ∧ choices.lookup s = some a := by
  cases v with
  | text s => cases found : choices.lookup s <;> simp [choice, refuse, found]
  | _ => simp [choice, refuse]

theorem wholeFrom_eq_ok {least n : Int} :
    wholeFrom least v = .ok n ↔ whole v = .ok n ∧ least ≤ n := by
  unfold wholeFrom
  cases whole v with
  | error problems => simp
  | ok m =>
    by_cases low : m < least
    · simp only [low, if_true, refuse, reduceCtorEq, Except.ok.injEq, false_iff]
      rintro ⟨rfl, high⟩
      omega
    · simp only [low, if_false, Except.ok.injEq]
      constructor
      · rintro rfl
        exact ⟨rfl, by omega⟩
      · exact And.left

/-- What the check finds is sound, and what is sound is found again where it has been written. -/
structure Settles (check : Value → Checked α) (write : α → Value) (Sound : α → Prop) : Prop where
  sound {v : Value} {a : α} : check v = .ok a → Sound a
  again {a : α} : Sound a → check (write a) = .ok a

theorem text_settles : Settles text .text fun _ => True where
  sound _ := trivial
  again _ := rfl

theorem fullText_settles : Settles fullText .text (· ≠ "") where
  sound found := (fullText_eq_ok.mp found).2
  again full := fullText_eq_ok.mpr ⟨rfl, full⟩

theorem truth_settles : Settles truth .bool fun _ => True where
  sound _ := trivial
  again _ := rfl

theorem wholeFrom_settles (least : Int) : Settles (wholeFrom least) .int (least ≤ ·) where
  sound found := (wholeFrom_eq_ok.mp found).2
  again high := wholeFrom_eq_ok.mpr ⟨rfl, high⟩

namespace Settles

variable {check : Value → Checked α} {write : α → Value} {Sound : α → Prop}

theorem optional (settled : Settles check write Sound) (given : ∀ a, write a ≠ .null) :
    Settles (optional check) (fun found => (found.map write).getD .null)
      (fun found => ∀ a ∈ found, Sound a) where
  sound {v found} accepted := by
    intro a inside
    rcases optional_eq_ok.mp accepted with ⟨_, rfl⟩ | ⟨_, b, checked, rfl⟩
    · cases inside
    · cases inside
      exact settled.sound checked
  again {found} sound := by
    cases found with
    | none => rfl
    | some a => exact optional_eq_ok.mpr (.inr ⟨given a, a, settled.again (sound a rfl), rfl⟩)

theorem list (settled : Settles check write Sound) :
    Settles (list check) (fun found => .list (found.map write)) (fun found => ∀ a ∈ found, Sound a) where
  sound {v found} accepted := by
    obtain ⟨items, _, each⟩ := list_eq_ok.mp accepted
    intro a member
    obtain ⟨i, here⟩ := List.getElem?_of_mem member
    obtain ⟨_, _, checked⟩ := forall₂_at each.flip here
    exact settled.sound checked
  again {found} sound := by
    refine list_eq_ok.mpr ⟨_, rfl, ?_⟩
    rw [List.forall₂_map_left_iff, List.forall₂_same]
    exact fun a member => settled.again (sound a member)

variable {entries : Entries} {name : String} {a : α}

theorem field_sound (settled : Settles check write Sound) (found : field entries name check = .ok a) :
    Sound a := by
  obtain ⟨_, _, checked⟩ := field_eq_ok.mp found
  exact settled.sound checked

theorem field_again (settled : Settles check write Sound) (sound : Sound a)
    (there : entries.find? name = some (write a)) : field entries name check = .ok a :=
  field_eq_ok.mpr ⟨_, there, settled.again sound⟩

variable {names : List String} {missing : α}

theorem fieldOr_sound (settled : Settles check write Sound) (default : Sound missing)
    (found : fieldOr entries names missing check = .ok a) : Sound a := by
  rcases fieldOr_eq_ok.mp found with ⟨_, _, _, checked⟩ | ⟨_, rfl⟩
  · exact settled.sound checked
  · exact default

theorem fieldOr_again (settled : Settles check write Sound) (sound : Sound a)
    (there : entries.find? name = some (write a)) :
    fieldOr entries (name :: names) missing check = .ok a := by
  refine fieldOr_eq_ok.mpr (.inl ⟨name, write a, ?_, settled.again sound⟩)
  rw [given?, List.findSome?_cons, there]
  rfl

end Settles

end Checked

end NoteQuery
