import Mathlib.Data.List.Nodup
import NoteQuery.Value

/-! Lists of entries as maps: what is found under a key, and which keys there are, after an entry is put
in its place or taken away. -/
namespace NoteQuery

section Lookup

variable {α β : Type} [BEq α] [LawfulBEq α]

theorem lookup_cons_if [DecidableEq α] (key key' : α) (b : β) (entries : List (α × β)) :
    ((key, b) :: entries).lookup key' = if key' = key then some b else entries.lookup key' := by
  by_cases same : key' = key
  · simp [same]
  · simp [List.lookup_cons, same, beq_false_of_ne same]

/-- Of entries that are chosen by their keys, those with a chosen key are found as before. -/
theorem lookup_filter [DecidableEq α] (chosen : α → Bool) (entries : List (α × β)) (key : α) :
    (entries.filter fun entry => chosen entry.1).lookup key =
      if chosen key then entries.lookup key else none := by
  induction entries with
  | nil => simp
  | cons entry entries ih =>
    obtain ⟨other, b⟩ := entry
    by_cases here : key = other
    · subst here
      cases kept : chosen key with
      | true => simp [kept]
      | false => simpa [kept] using ih
    · rw [lookup_cons_if, if_neg here, ← ih, List.filter_cons]
      split
      · rw [lookup_cons_if, if_neg here]
      · rfl

theorem lookup_isSome_iff {entries : List (α × β)} {key : α} :
    (entries.lookup key).isSome = true ↔ key ∈ entries.map Prod.fst := by
  classical
  induction entries with
  | nil => simp
  | cons entry entries ih =>
    obtain ⟨other, b⟩ := entry
    rw [lookup_cons_if, List.map_cons, List.mem_cons, ← ih]
    split <;> simp_all

end Lookup

namespace Entries

variable {α : Type} {name : String} {value : α} {entries : List (String × α)}

theorem mem_of_lookup (found : entries.lookup name = some value) : (name, value) ∈ entries := by
  obtain ⟨before, after, split, _⟩ := List.lookup_eq_some_iff.mp found
  simp [split]

theorem lookup_eq_some_iff (once : (entries.map Prod.fst).Nodup) :
    entries.lookup name = some value ↔ (name, value) ∈ entries := by
  constructor
  · exact mem_of_lookup
  · intro member
    cases found : entries.lookup name with
    | none =>
      have apart := List.lookup_eq_none_iff.mp found _ member
      simp at apart
    | some value' =>
      have same := List.inj_on_of_nodup_map once (mem_of_lookup found) member rfl
      rw [(Prod.mk.inj same).2]

theorem lookup_put (entries : List (String × α)) (name other : String) (value : α) :
    (put name value entries).lookup other =
      if other = name then some value else entries.lookup other := by
  induction entries with
  | nil => rw [put, lookup_cons_if]
  | cons entry entries ih =>
    obtain ⟨key, old⟩ := entry
    by_cases here : key = name
    · simp only [put, here, beq_self_eq_true, if_true, lookup_cons_if]
      split <;> rfl
    · simp only [put, beq_iff_eq, here, if_false, lookup_cons_if, ih]
      split
      · rename_i same
        rw [if_neg (same ▸ here)]
      · rfl

theorem lookup_drop (entries : List (String × α)) (name other : String) :
    (drop name entries).lookup other = if other = name then none else entries.lookup other := by
  rw [drop, lookup_filter (· != name)]
  by_cases here : other = name <;> simp [here]

theorem mem_put {entry : String × α} (member : entry ∈ put name value entries) :
    entry = (name, value) ∨ entry ∈ entries := by
  induction entries with
  | nil => exact .inl (List.mem_singleton.mp member)
  | cons first entries ih =>
    simp only [put] at member
    split at member
    · rcases List.mem_cons.mp member with here | later
      · exact .inl here
      · exact .inr (List.mem_cons_of_mem _ later)
    · rcases List.mem_cons.mp member with here | later
      · exact .inr (here ▸ List.mem_cons_self)
      · exact (ih later).imp_right (List.mem_cons_of_mem _)

theorem keys_put (name : String) (value : α) (entries : List (String × α)) :
    (put name value entries).map Prod.fst =
      if name ∈ entries.map Prod.fst then entries.map Prod.fst else entries.map Prod.fst ++ [name] := by
  induction entries with
  | nil => rfl
  | cons first entries ih =>
    by_cases here : first.1 = name
    · simp [put, here]
    · simp only [put, beq_iff_eq, here, if_false, List.map_cons, ih, List.mem_cons, Ne.symm here,
        false_or]
      split <;> rfl

theorem keys_drop (name : String) (entries : List (String × α)) :
    (drop name entries).map Prod.fst = (entries.map Prod.fst).filter (· != name) := by
  rw [drop, List.filter_map]
  rfl

theorem put_once (once : (entries.map Prod.fst).Nodup) :
    ((put name value entries).map Prod.fst).Nodup := by
  rw [keys_put]
  split
  · exact once
  · rename_i absent
    exact List.concat_eq_append ▸ once.concat absent

end Entries

end NoteQuery
