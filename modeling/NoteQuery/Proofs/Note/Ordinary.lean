import NoteQuery.Note.Context
import NoteQuery.Proofs.Value.Moment
import NoteQuery.Proofs.Value.Parts

/-! The values that a note has once its dates are read. A value under a name of its own is never a day,
nor a moment with an offset. What stands inside a list or a map is left as it is written, so days and
offsets are met there exactly where the front matter has them. -/
namespace NoteQuery

namespace Value

/-- Values that expressions are made for: all but days and moments with an offset. -/
def Ordinary : Value → Prop
  | date _ => False
  | moment m => m.offset = none
  | _ => True

variable {isDate : Bool} {v v' : Value}

private theorem asMoment_cases (read : (do match ← v.moment? with
      | some m => .ok (.moment m)
      | none => .ok v : Except Fault Value) = .ok v') :
    v' = v ∧ v.moment? = .ok none ∨ ∃ m : Moment, v' = .moment m ∧ m.offset = none := by
  obtain ⟨found, made, read⟩ := Except.bind_eq_ok.mp read
  cases found with
  | none =>
    cases read
    exact .inl ⟨rfl, made⟩
  | some m =>
    cases read
    exact .inr ⟨m, rfl, moment?_offset made⟩

/-- A value that is read either stays as it is or becomes a moment without an offset. -/
theorem withDate_cases (read : v.withDate isDate = .ok v') :
    v' = v ∧ v.Ordinary ∨ ∃ m : Moment, v' = .moment m ∧ m.offset = none := by
  cases v with
  | date d =>
    cases read
    exact .inr ⟨.startOf d, rfl, rfl⟩
  | moment m =>
    refine (asMoment_cases read).imp_left fun ⟨_, lost⟩ => ?_
    unfold moment? at lost
    cases made : m.universal? <;> simp [made] at lost
  | text s =>
    cases isDate with
    | false =>
      cases read
      exact .inl ⟨rfl, trivial⟩
    | true => exact (asMoment_cases read).imp_left fun ⟨same, _⟩ => ⟨same, trivial⟩
  | _ =>
    cases read
    exact .inl ⟨rfl, trivial⟩

theorem withDate_ordinary (read : v.withDate isDate = .ok v') : v'.Ordinary := by
  rcases withDate_cases read with ⟨rfl, ordinary⟩ | ⟨m, rfl, plain⟩
  · exact ordinary
  · exact plain

/-- Reading leaves lists and maps alone, and what becomes a moment had no parts. -/
theorem withDate_part (read : v.withDate isDate = .ok v') (w : Value) :
    Part v' w ↔ Part v w := by
  rcases withDate_cases read with ⟨rfl, _⟩ | ⟨m, rfl, _⟩
  · exact Iff.rfl
  · cases v with
    | list items => cases read
    | map entries => cases read
    | _ => exact Iff.rfl

theorem withDate_inside (read : v.withDate isDate = .ok v') (w : Value) :
    Inside v' w ↔ Inside v w := by
  simp only [Inside, Relation.TransGen.head'_iff, withDate_part read]

end Value

namespace Entries

/-- Names stay, and each value is read by itself. -/
theorem withDates_forall₂ {settings : Settings} {entries note : Entries}
    (read : entries.withDates settings = .ok note) :
    List.Forall₂ (fun before after => after.1 = before.1 ∧
      before.2.withDate (settings.isDateProperty before.1) = .ok after.2) entries note := by
  induction entries generalizing note with
  | nil =>
    cases read
    exact .nil
  | cons entry entries ih =>
    obtain ⟨value, first, read⟩ := Except.bind_eq_ok.mp read
    obtain ⟨rest, later, read⟩ := Except.bind_eq_ok.mp read
    cases read
    exact .cons ⟨rfl, first⟩ (ih later)

end Entries

namespace Context

variable {d : Document} {metadata : Option Metadata} {settings : Settings} {content : Option String}
  {c : Context}

theorem ofDocument_note (made : ofDocument d metadata settings content = .ok c) :
    d.properties.withDates settings = .ok c.note := by
  obtain ⟨note, read, made⟩ := Except.bind_eq_ok.mp made
  cases made
  exact read

/-- Each property keeps its name and what stands in it, and is ordinary itself. So all that is met in
the properties is ordinary exactly if no list and no map of the front matter holds a day or a moment
with an offset. -/
theorem ofDocument_ordinary (made : ofDocument d metadata settings content = .ok c) :
    List.Forall₂ (fun written read => read.1 = written.1 ∧ read.2.Ordinary ∧
      ∀ w, read.2.Inside w ↔ written.2.Inside w) d.properties c.note ∧
    ((∀ entry ∈ c.note, ∀ w, entry.2.Reaches w → w.Ordinary) ↔
      ∀ entry ∈ d.properties, ∀ w, entry.2.Inside w → w.Ordinary) := by
  have paired : List.Forall₂ (fun written read : String × Value => read.1 = written.1 ∧
      read.2.Ordinary ∧ ∀ w, read.2.Inside w ↔ written.2.Inside w) d.properties c.note :=
    (Entries.withDates_forall₂ (ofDocument_note made)).imp fun _ _ ⟨name, read⟩ =>
      ⟨name, Value.withDate_ordinary read, Value.withDate_inside read⟩
  refine ⟨paired, ?_⟩
  generalize c.note = note at paired ⊢
  generalize d.properties = entries at paired ⊢
  induction paired with
  | nil => simp
  | @cons written read entries note first _ ih =>
    obtain ⟨_, ordinary, inside⟩ := first
    have here : (∀ w, read.2.Reaches w → w.Ordinary) ↔ ∀ w, written.2.Inside w → w.Ordinary := by
      constructor
      · intro all w within
        have reached : read.2.Reaches w := ((inside w).mpr within).to_reflTransGen
        exact all w reached
      · intro all w reached
        rcases Relation.reflTransGen_iff_eq_or_transGen.mp reached with rfl | within
        · exact ordinary
        · exact all w ((inside w).mp within)
    rw [List.forall_mem_cons, List.forall_mem_cons, here, ih]

section Sample

/-- A note with a day under a name of its own, and one in a list. -/
def dated : Document where
  path := "a.md"
  size := 0
  created := none
  modified := none
  properties :=
    let d : Date := ⟨2026, 2, 3, by decide, by decide, by decide⟩
    [("due", .date d), ("dates", .list [.date d])]

theorem dated_read : ∃ c, ofDocument dated none {} none = .ok c ∧ c.note =
    let d : Date := ⟨2026, 2, 3, by decide, by decide, by decide⟩
    [("due", .moment (.startOf d)), ("dates", .list [.date d])] := ⟨_, rfl, rfl⟩

theorem ofDocument_ordinary_dated : ∃ c, ofDocument dated none {} none = .ok c ∧
    List.Forall₂ (fun written read => read.1 = written.1 ∧ read.2.Ordinary ∧
      ∀ w, read.2.Inside w ↔ written.2.Inside w) dated.properties c.note ∧
    ((∀ entry ∈ c.note, ∀ w, entry.2.Reaches w → w.Ordinary) ↔
      ∀ entry ∈ dated.properties, ∀ w, entry.2.Inside w → w.Ordinary) := by
  obtain ⟨c, made, _⟩ := dated_read
  exact ⟨c, made, ofDocument_ordinary made⟩

/-- The day in the list is still met in the note. -/
theorem ofDocument_leaves_days : ¬ ∀ (d : Document) (metadata : Option Metadata)
    (settings : Settings) (content : Option String) (c : Context),
    ofDocument d metadata settings content = .ok c →
    ∀ entry ∈ c.note, ∀ w, entry.2.Reaches w → w.Ordinary := by
  intro all
  obtain ⟨c, made, note⟩ := dated_read
  have listed : ("dates", Value.list [.date ⟨2026, 2, 3, by decide, by decide, by decide⟩]) ∈ c.note := by
    simp [note]
  exact all dated none {} none c made _ listed _ (.single (List.mem_singleton_self _))

end Sample

end Context

end NoteQuery
