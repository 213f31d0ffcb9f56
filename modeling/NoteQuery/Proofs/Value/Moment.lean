import NoteQuery.Proofs.Outcome
import NoteQuery.Value.Number

/-! Moments as which values are read. Whatever is read, a text, a day, a number or another moment, comes
to a moment without an offset. -/
namespace NoteQuery

namespace Moment

theorem ofLocalMicros?_offset {micros : Int} {offset : Option Offset} {m : Moment}
    (made : ofLocalMicros? micros offset = some m) : m.offset = offset := by
  unfold ofLocalMicros? at made
  dsimp only at made
  split at made
  · cases made
  · split at made
    · cases made
      rfl
    · cases made

theorem universal?_offset {m u : Moment} (made : m.universal? = some u) : u.offset = none := by
  unfold universal? at made
  split at made
  · rename_i plain
    cases made
    exact plain
  · exact ofLocalMicros?_offset made

end Moment

theorem Iso.read?_offset {text : List Char} {m : Moment} {micros : Option Int}
    (read : read? text = some (m, micros)) : m.offset = none := by
  unfold read? at read
  split at read
  · cases read
  · dsimp only at read
    split at read
    · cases read
    · split at read
      · cases read
        rfl
      · obtain ⟨_, _, same⟩ := Option.map_eq_some_iff.mp read
        cases same
        rfl

theorem Pattern.read?_offset {pattern : List Part} {text : List Char} {m : Moment}
    (read : read? pattern text = some m) : m.offset = none := by
  unfold read? at read
  split at read
  · cases read
  · split at read
    · cases read
      rfl
    · cases read

theorem readDate_offset {text : String} {m : Moment} (read : readDate text = .moment m) :
    m.offset = none := by
  unfold readDate at read
  dsimp only at read
  split at read
  · cases read
  · split at read
    · split at read
      · rename_i iso
        cases read
        exact Iso.read?_offset iso
      · split at read
        · rename_i shifted
          cases read
          exact Moment.ofLocalMicros?_offset shifted
        · cases read
      · split at read
        · rename_i found
          cases read
          obtain ⟨pattern, _, spelled⟩ := List.exists_of_findSome?_eq_some found
          exact Pattern.read?_offset spelled
        · cases read
    · cases read

theorem Moment.ofSeconds?_offset {seconds : Binary64} {m : Moment} (made : ofSeconds? seconds = some m) :
    m.offset = none := by
  unfold ofSeconds? at made
  split at made
  · split at made
    · split at made
      · rename_i counted
        split at made
        · cases made
          exact ofLocalMicros?_offset counted
        · cases made
      · cases made
    · cases made
  · cases made

namespace Value

theorem moment?_moment {m : Moment} (naive : m.offset = none) : (moment m).moment? = .ok (some m) := by
  simp [moment?, Moment.universal?, naive]

theorem momentOfNumber?_offset {n : Num} {m : Moment} (read : momentOfNumber? n = .ok (some m)) :
    m.offset = none := by
  obtain ⟨x, _, read⟩ := Except.bind_eq_ok.mp read
  split at read
  · split at read
    · rename_i seconds _
      have made : Moment.ofSeconds? seconds = some m := Except.ok.inj read
      exact Moment.ofSeconds?_offset made
    · cases read
  · cases read

theorem moment?_offset {v : Value} {m : Moment} (read : v.moment? = .ok (some m)) :
    m.offset = none := by
  cases v with
  | int n => exact momentOfNumber?_offset read
  | float x => exact momentOfNumber?_offset read
  | date d =>
    cases read
    rfl
  | moment m' =>
    cases made : m'.universal? with
    | none => simp [moment?, made] at read
    | some u =>
      simp only [moment?, made, Except.ok.injEq, Option.some.injEq] at read
      exact read ▸ Moment.universal?_offset made
  | text s =>
    cases spelled : readDate s with
    | none => simp [moment?, spelled] at read
    | outOfRange => simp [moment?, spelled] at read
    | moment m' =>
      simp only [moment?, spelled, Except.ok.injEq, Option.some.injEq] at read
      exact read ▸ readDate_offset spelled
  | _ => cases read

end Value

end NoteQuery
