import NoteQuery.Note.FrontMatter
import NoteQuery.Proofs.Yaml.Hollow

/-! What comes of the block at the top of a note: it declares properties, it declares none, or reading it stops. It
stops at a name that no property can have, and at a failure of YAML other than the two that are passed over. -/
namespace NoteQuery.FrontMatter

open NoteQuery.Text

variable {style : Style} {inside : List Char} {entries : Entries} {failure : Failure} {text : String}

def blockOf? (text : String) : Option (Style × List Char × List Char) := block? (trim (plainLines text.toList))

/-- The block is a map, and the names in it are such as properties have. -/
inductive Declares : Style → List Char → Entries → Prop
  | yaml {inside : List Char} {pairs : List (Value × Yaml.Data)} {entries : Entries}
      (read : Yaml.Data.ofText .loose (String.ofList inside) = .ok (.mapping pairs))
      (each : List.Forall₂ (fun pair entry => pair.1 = .text entry.1 ∧ entry.1 ∉ reserved ∧
        pair.2.toValue = entry.2) pairs entries) : Declares .yaml inside entries
  | json {inside : List Char} {entries : Entries}
      (read : Json.ofText? (String.ofList ('\x7b' :: inside ++ ['\x7d'])) = some (.map entries))
      (named : ∀ entry ∈ entries, entry.1 ∉ reserved) : Declares .json inside entries

/-- Reading the block ends in a failure that is not passed over. -/
inductive Stops : Style → List Char → Failure → Prop
  | yamlName {inside : List Char} {pairs : List (Value × Yaml.Data)} {pair : Value × Yaml.Data}
      (read : Yaml.Data.ofText .loose (String.ofList inside) = .ok (.mapping pairs)) (member : pair ∈ pairs)
      (unnamed : ∀ name, pair.1 = .text name → name ∈ reserved) : Stops .yaml inside .badKey
  | jsonName {inside : List Char} {entries : Entries} {entry : String × Value}
      (read : Json.ofText? (String.ofList ('\x7b' :: inside ++ ['\x7d'])) = some (.map entries))
      (member : entry ∈ entries) (taken : entry.1 ∈ reserved) : Stops .json inside .badKey
  | unread {inside : List Char} {failure : Yaml.Failure}
      (failed : Yaml.Data.ofText .loose (String.ofList inside) = .error failure) (formed : failure ≠ .malformed)
      (other : failure ≠ .badValue) : Stops .yaml inside (.yaml failure)

/-- These are the properties of a text: what its block declares, and none where no block declares any. -/
def Gives (text : String) (properties : Entries) : Prop :=
  (∃ style inside body, blockOf? text = some (style, inside, body) ∧ Declares style inside properties) ∨
    (∀ style inside body entries, blockOf? text = some (style, inside, body) → ¬Declares style inside entries) ∧
      properties = []

theorem propertyName?_eq_some {key : Value} {name : String} :
    propertyName? key = some name ↔ key = .text name ∧ name ∉ reserved := by
  cases key with
  | text s =>
    rw [propertyName?, Option.ite_none_left_eq_some, List.contains_iff_mem, Value.text.injEq, Option.some.injEq]
    constructor
    · rintro ⟨free, rfl⟩
      exact ⟨rfl, free⟩
    · rintro ⟨rfl, free⟩
      exact ⟨free, rfl⟩
  | _ => simp [propertyName?]

theorem propertyName?_eq_none {key : Value} :
    propertyName? key = none ↔ ∀ name, key = .text name → name ∈ reserved := by
  simp only [Option.eq_none_iff_forall_ne_some, ne_eq, propertyName?_eq_some, not_and, not_not]

theorem named_pair {pair : Value × Yaml.Data} {entry : String × Value} :
    (propertyName? pair.1).map (·, pair.2.toValue) = some entry ↔
      pair.1 = .text entry.1 ∧ entry.1 ∉ reserved ∧ pair.2.toValue = entry.2 := by
  obtain ⟨name, value⟩ := entry
  simp only [Option.map_eq_some_iff, propertyName?_eq_some, Prod.mk.injEq]
  constructor
  · rintro ⟨_, ⟨key, free⟩, rfl, same⟩
    exact ⟨key, free, same⟩
  · rintro ⟨key, free, same⟩
    exact ⟨name, ⟨key, free⟩, rfl, same⟩

theorem properties?_declares (declared : Declares style inside entries) :
    properties? style inside = .ok (some entries) := by
  cases declared with
  | yaml read each =>
    rw [properties?, read]
    simp only
    rw [Option.mapM_eq_some.mpr (each.imp fun pair entry => named_pair.mpr)]
  | json read named =>
    rw [properties?, read]
    refine if_neg ?_
    simpa using fun name value member => named (name, value) member

theorem properties?_stops (stops : Stops style inside failure) : properties? style inside = .error failure := by
  cases stops with
  | yamlName read member unnamed =>
    rw [properties?, read]
    simp only
    rw [Option.mapM_eq_none.mpr ⟨_, member, by rw [propertyName?_eq_none.mpr unnamed]; rfl⟩]
  | jsonName read member taken =>
    rw [properties?, read]
    exact if_pos (List.any_eq_true.mpr ⟨_, member, by rwa [List.contains_iff_mem]⟩)
  | @unread _ failure failed formed other =>
    rw [properties?, failed]
    cases failure with
    | malformed => exact absurd rfl formed
    | badValue => exact absurd rfl other
    | _ => rfl

/-- A block that declares no properties gives none, unless reading it stops. -/
theorem properties?_cases (style : Style) (inside : List Char) :
    (∃ entries, Declares style inside entries) ∨ (∃ failure, Stops style inside failure) ∨
      ∃ found, properties? style inside = .ok found ∧ found.getD [] = [] := by
  cases style with
  | json =>
    rw [properties?]
    cases read : Json.ofText? (String.ofList ('\x7b' :: inside ++ ['\x7d'])) with
    | none => exact .inr (.inr ⟨none, rfl, rfl⟩)
    | some given =>
      cases given with
      | map entries =>
        by_cases named : ∀ entry ∈ entries, entry.1 ∉ reserved
        · exact .inl ⟨entries, .json read named⟩
        · push Not at named
          obtain ⟨entry, member, taken⟩ := named
          exact .inr (.inl ⟨.badKey, .jsonName read member taken⟩)
      | _ => exact .inr (.inr ⟨none, rfl, rfl⟩)
  | yaml =>
    rw [properties?]
    cases read : Yaml.Data.ofText .loose (String.ofList inside) with
    | error failure =>
      by_cases formed : failure = .malformed
      · exact .inr (.inr ⟨none, by rw [formed], rfl⟩)
      · by_cases other : failure = .badValue
        · exact .inr (.inr ⟨none, by rw [other], rfl⟩)
        · exact .inr (.inl ⟨.yaml failure, .unread read formed other⟩)
    | ok data =>
      cases data with
      | mapping pairs =>
        cases named : pairs.mapM fun pair => (propertyName? pair.1).map (·, pair.2.toValue) with
        | some entries =>
          exact .inl ⟨entries, .yaml read ((Option.mapM_eq_some.mp named).imp fun pair entry => named_pair.mp)⟩
        | none =>
          obtain ⟨pair, member, unnamed⟩ := Option.mapM_eq_none.mp named
          have unfit := propertyName?_eq_none.mp (Option.map_eq_none_iff.mp unnamed)
          exact .inr (.inl ⟨.badKey, .yamlName read member unfit⟩)
      | _ => exact .inr (.inr ⟨some [], rfl, rfl⟩)

theorem Declares.unique {entries' : Entries} (first : Declares style inside entries)
    (second : Declares style inside entries') : entries = entries' := by
  simpa using (properties?_declares first).symm.trans (properties?_declares second)

theorem Stops.not_declares (stops : Stops style inside failure) : ¬Declares style inside entries := fun declared => by
  cases (properties?_stops stops).symm.trans (properties?_declares declared)

/-- A block without tags stops at a name that no property can have or at a number that is too large. -/
theorem Stops.kinds (stops : Stops style inside failure) : failure = .badKey ∨ failure = .yaml .outOfRange ∨
    ∃ node tag written other, failure = .yaml other ∧
      Yaml.Node.ofText .loose (String.ofList inside) = .ok (some node) ∧ node.Has (.explicit tag) written ∧
        Yaml.Hollow (.explicit tag) written other := by
  cases stops with
  | yamlName => exact .inl rfl
  | jsonName => exact .inl rfl
  | unread failed formed other =>
    have owed := Yaml.Data.ofText_owed .loose (String.ofList inside)
    rw [failed, Yaml.Owed.error formed] at owed
    rcases Yaml.unconverted_untagged .loose _ owed with (malformed | bad | range) | ⟨node, tag, written, tagged⟩
    · exact absurd malformed formed
    · exact absurd bad other
    · exact .inr (.inl (range ▸ rfl))
    · exact .inr (.inr ⟨node, tag, written, _, rfl, tagged⟩)

theorem properties?_eq_error : properties? style inside = .error failure ↔ Stops style inside failure := by
  refine ⟨fun failed => ?_, properties?_stops⟩
  rcases properties?_cases style inside with ⟨entries, declared⟩ | ⟨other, stops⟩ | ⟨found, read, -⟩
  · cases failed.symm.trans (properties?_declares declared)
  · cases failed.symm.trans (properties?_stops stops)
    exact stops
  · cases failed.symm.trans read

theorem Gives.unique {properties properties' : Entries} (first : Gives text properties)
    (second : Gives text properties') : properties = properties' := by
  rcases first with ⟨style, inside, body, block, declared⟩ | ⟨none, rfl⟩ <;>
    rcases second with ⟨style', inside', body', block', declared'⟩ | ⟨none', rfl⟩
  · cases block.symm.trans block'
    exact declared.unique declared'
  · exact absurd declared (none' _ _ _ _ block)
  · exact absurd declared' (none _ _ _ _ block')
  · rfl

theorem split_eq_error : split text = .error failure ↔
    ∃ style inside body, blockOf? text = some (style, inside, body) ∧ Stops style inside failure := by
  rw [split, ← blockOf?]
  cases block : blockOf? text with
  | none => simp
  | some found =>
    obtain ⟨style, inside, body⟩ := found
    simp only [Option.some.injEq, Prod.mk.injEq, Except.bind_eq_error, properties?_eq_error]
    constructor
    · rintro (stops | ⟨_ | entries, -, failed⟩)
      · exact ⟨style, inside, body, ⟨rfl, rfl, rfl⟩, stops⟩
      · cases failed
      · cases failed
    · rintro ⟨_, _, _, ⟨rfl, rfl, rfl⟩, stops⟩
      exact .inl stops

/-- A text that is split has the properties that it gives. -/
theorem split_gives {properties : Entries} {body : String} (read : split text = .ok (properties, body)) :
    Gives text properties := by
  rw [split, ← blockOf?] at read
  cases block : blockOf? text with
  | none =>
    rw [block] at read
    cases read
    exact .inr ⟨fun _ _ _ _ there => (nomatch block.symm.trans there), rfl⟩
  | some given =>
    obtain ⟨style, inside, behind⟩ := given
    rw [block] at read
    obtain ⟨found, taken, read⟩ := Except.bind_eq_ok.mp read
    have given : found.getD [] = properties := by
      cases found <;> cases read <;> rfl
    -- an empty map declares no properties and is no failure either; it is told apart first
    by_cases declares : ∃ entries, Declares style inside entries
    · obtain ⟨entries, declared⟩ := declares
      cases taken.symm.trans (properties?_declares declared)
      exact .inl ⟨style, inside, behind, block, given ▸ declared⟩
    · rcases (properties?_cases style inside).resolve_left declares with ⟨failure, stops⟩ | ⟨found', taken', none⟩
      · cases taken.symm.trans (properties?_stops stops)
      · cases taken.symm.trans taken'
        refine .inr ⟨fun _ _ _ entries there declared => declares ⟨entries, ?_⟩, given.symm.trans none⟩
        cases block.symm.trans there
        exact declared

theorem split_of_gives {properties : Entries} (gives : Gives text properties) (given : properties ≠ []) :
    ∃ body, split text = .ok (properties, body) := by
  cases read : split text with
  | ok found =>
    obtain ⟨other, body⟩ := found
    exact ⟨body, by rw [gives.unique (split_gives read)]⟩
  | error failure =>
    obtain ⟨_, _, _, block, stops⟩ := split_eq_error.mp read
    obtain ⟨_, _, _, block', declared⟩ | ⟨-, none⟩ := gives
    · cases block.symm.trans block'
      exact absurd declared stops.not_declares
    · exact absurd none given

end NoteQuery.FrontMatter
