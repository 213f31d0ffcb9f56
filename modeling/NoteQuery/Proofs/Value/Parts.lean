import Mathlib.Logic.Relation
import NoteQuery.Proofs.Value.Entries

/-! What stands in a value. Lists and maps have parts, and a value reaches its parts and theirs. -/
namespace NoteQuery

namespace Value

/-- The second value is an item or an entry of the first. -/
def Part : Value → Value → Prop
  | list items, w => w ∈ items
  | map entries, w => ∃ name, (name, w) ∈ entries
  | _, _ => False

/-- The second value stands in the first, however deep. -/
def Inside : Value → Value → Prop := Relation.TransGen Part

/-- The second value is the first or stands in it. -/
def Reaches : Value → Value → Prop := Relation.ReflTransGen Part

variable {v w part : Value} {items : List Value} {entries : Entries} {P : Value → Prop}

theorem Part.sizeOf_lt (inside : v.Part part) : sizeOf part < sizeOf v := by
  cases v with
  | list items =>
    have smaller := List.sizeOf_lt_of_mem (show part ∈ items from inside)
    rw [list.sizeOf_spec]
    omega
  | map entries =>
    obtain ⟨name, entry⟩ := inside
    have smaller := List.sizeOf_lt_of_mem entry
    rw [Prod.mk.sizeOf_spec] at smaller
    rw [map.sizeOf_spec]
    omega
  | _ => exact inside.elim

/-- What the parts of every value hand on to it holds of all values. -/
theorem ofParts (step : ∀ v, (∀ part, v.Part part → P part) → P v) (v : Value) : P v :=
  step v fun part _ => ofParts step part
termination_by sizeOf v
decreasing_by exact Part.sizeOf_lt ‹_›

theorem Inside.sizeOf_lt (inside : v.Inside w) : sizeOf w < sizeOf v := by
  induction inside with
  | single part => exact part.sizeOf_lt
  | tail _ part ih => exact Nat.lt_trans part.sizeOf_lt ih

theorem reaches_iff : v.Reaches w ↔ w = v ∨ ∃ part, v.Part part ∧ part.Reaches w := by
  rw [Reaches, Relation.ReflTransGen.cases_head_iff, eq_comm]

/-- A value that is neither a list nor a map. -/
def Leaf : Value → Prop
  | list _ => False
  | map _ => False
  | _ => True

theorem Leaf.reaches (leaf : v.Leaf) : v.Reaches w ↔ w = v := by
  rw [reaches_iff, or_iff_left]
  rintro ⟨part, inside, _⟩
  cases v <;> first | exact leaf | exact inside

theorem Leaf.exists_reaches (leaf : v.Leaf) : (∃ w, v.Reaches w ∧ P w) ↔ P v := by
  simp only [leaf.reaches, exists_eq_left]

/-- What is met in a list, other than the list itself, is met in one of its items. -/
theorem exists_reaches_list (other : ¬ P (list items)) :
    (∃ w, (list items).Reaches w ∧ P w) ↔ ∃ item ∈ items, ∃ w, item.Reaches w ∧ P w := by
  constructor
  · rintro ⟨w, reached, holds⟩
    rcases reaches_iff.mp reached with rfl | ⟨item, inside, reached⟩
    · exact absurd holds other
    · exact ⟨item, inside, w, reached, holds⟩
  · rintro ⟨item, inside, w, reached, holds⟩
    exact ⟨w, reaches_iff.mpr (.inr ⟨item, inside, reached⟩), holds⟩

theorem exists_reaches_map (other : ¬ P (map entries)) :
    (∃ w, (map entries).Reaches w ∧ P w) ↔ ∃ entry ∈ entries, ∃ w, entry.2.Reaches w ∧ P w := by
  constructor
  · rintro ⟨w, reached, holds⟩
    rcases reaches_iff.mp reached with rfl | ⟨value, ⟨name, inside⟩, reached⟩
    · exact absurd holds other
    · exact ⟨(name, value), inside, w, reached, holds⟩
  · rintro ⟨⟨name, value⟩, inside, w, reached, holds⟩
    exact ⟨w, reaches_iff.mpr (.inr ⟨value, ⟨name, inside⟩, reached⟩), holds⟩

/-- Something that lists and maps do where their parts do, each at the next stage, is done by a value
exactly if it reaches no leaf that prevents it. -/
theorem iff_no_reached {ι : Type} {S : ι → Value → Prop} (next : ι → ι)
    (onList : ∀ i items, S i (list items) ↔ ∀ item ∈ items, S (next i) item)
    (onMap : ∀ i entries, S i (map entries) ↔ ∀ entry ∈ entries, S (next i) entry.2)
    (onLeaf : ∀ i v, v.Leaf → (S i v ↔ ¬ P v)) (noList : ∀ items, ¬ P (list items))
    (noMap : ∀ entries, ¬ P (map entries)) (i : ι) (v : Value) :
    S i v ↔ ¬ ∃ w, v.Reaches w ∧ P w := by
  induction v using ofParts generalizing i with
  | step v ih =>
    cases v with
    | list items =>
      rw [onList, exists_reaches_list (noList items), not_exists]
      simp only [not_and]
      exact forall₂_congr fun item inside => ih item inside (next i)
    | map entries =>
      rw [onMap, exists_reaches_map (noMap entries), not_exists]
      simp only [not_and]
      exact forall₂_congr fun entry inside => ih entry.2 ⟨entry.1, inside⟩ (next i)
    | _ =>
      rw [onLeaf, Leaf.exists_reaches]
      all_goals exact trivial

end Value

end NoteQuery
