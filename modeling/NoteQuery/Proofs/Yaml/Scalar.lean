import NoteQuery.Proofs.Outcome
import NoteQuery.Proofs.Text.Search
import NoteQuery.Yaml.Data

/-! Why a scalar can have no value of the kind that it says. A kind that is read off the text itself
leaves only values that do not exist and numbers that are too large; a kind that a tag says can be
another than that of the text. -/
namespace NoteQuery.Yaml

/-- A failure that needs no tag. -/
def Failure.Untagged (failure : Failure) : Prop :=
  failure = .malformed ∨ failure = .badValue ∨ failure = .outOfRange

namespace Kind

/-- A whole number begins, behind its sign, with a digit. -/
theorem exists_digit_of_isWhole {cs : List Char} (whole : isWhole cs = true) :
    ∃ c rest, cs = c :: rest ∧ c.isDigit = true := by
  unfold isWhole at whole
  split at whole
  case h_5 =>
    cases cs with
    | nil => simp [Text.pieces, isCount] at whole
    | cons c cs =>
      obtain ⟨first, parts, pieces, begins⟩ := Text.pieces_cons ':' c cs
      rw [pieces, Bool.and_eq_true] at whole
      rcases begins with rfl | ⟨more, rfl⟩
      · cases whole.1
      · simp only [isCount, Bool.and_eq_true] at whole
        exact ⟨c, cs, rfl, whole.1.1.1⟩
  all_goals exact ⟨_, _, rfl, rfl⟩

theorem dropSign_filter_of_isWhole {cs : List Char} (whole : isWhole (dropSign cs) = true) :
    dropSign (cs.filter (· != '_')) ≠ [] := by
  obtain ⟨c, rest, same, digit⟩ := exists_digit_of_isWhole whole
  have solid : (c != '_') = true := by
    rw [bne_iff_ne]
    rintro rfl
    cases digit
  cases cs with
  | nil => cases same
  | cons d cs =>
    by_cases sign : d = '+' ∨ d = '-'
    · have behind : cs = c :: rest := by simpa [dropSign, sign] using same
      have kept : (d != '_') = true := by rcases sign with rfl | rfl <;> rfl
      simp [behind, kept, solid, dropSign, sign]
    · obtain ⟨rfl, rfl⟩ : d = c ∧ cs = rest := by simpa [dropSign, sign] using same
      simp [solid, dropSign, sign]

theorem mem_of_mem_dropSign {cs : List Char} {c : Char} (member : c ∈ dropSign cs) : c ∈ cs := by
  cases cs with
  | nil => cases member
  | cons d cs =>
    rw [dropSign] at member
    split at member
    · exact List.mem_cons_of_mem d member
    · exact member

/-- A binary number has a point in it or is not-a-number, so it is more than underscores. -/
theorem filter_of_isFloat {cs : List Char} (float : isFloat cs = true) : cs.filter (· != '_') ≠ [] := by
  have solid {c : Char} (member : c ∈ cs) (sign : c ≠ '_') : cs.filter (· != '_') ≠ [] :=
    List.ne_nil_of_mem (List.mem_filter.mpr ⟨member, bne_iff_ne.mpr sign⟩)
  have point (member : '.' ∈ dropSign cs) : cs.filter (· != '_') ≠ [] :=
    solid (mem_of_mem_dropSign member) (by decide)
  simp only [isFloat, Bool.or_eq_true] at float
  rcases float with (((pointed | sixty) | infinite) | nan) | part
  · rw [isPointed, Bool.and_eq_true] at pointed
    have behind := pointed.2
    split at behind
    next part dropped =>
      have inside : '.' ∈ (dropSign cs).dropWhile isRowSign := by simp [dropped]
      exact point ((List.dropWhile_suffix _).subset inside)
    · cases behind
  · simp only [isPointedSixty, Bool.and_eq_true, List.contains_iff_mem] at sixty
    exact point sixty.1.1
  · apply point
    simp only [List.any_cons, List.any_nil, Bool.or_false, Bool.or_eq_true, beq_iff_eq] at infinite
    rcases infinite with same | same | same <;> simp [← same]
  · simp only [List.any_cons, List.any_nil, Bool.or_false, Bool.or_eq_true, beq_iff_eq] at nan
    rcases nan with same | same | same <;> simp [← same]
  · split at part
    · exact solid List.mem_cons_self (by decide)
    · cases part

theorem truths_of_spelled {text : String} (word : spelled (truths.map Prod.fst) text = true) :
    ∃ b, truths.lookup (Text.lower text) = some b := by
  have known : ∀ text ∈ (truths.map Prod.fst).flatMap spellings,
      (truths.lookup (Text.lower text)).isSome := by
    decide +kernel
  simp only [spelled, List.any_eq_true, List.contains_iff_mem] at word
  exact Option.isSome_iff_exists.mp (known text (List.mem_flatMap.mpr word))

theorem form_of_implied {text : String} {kind : Kind} (said : implied? text = some kind) :
    match kind with
    | .bool => spelled (truths.map Prod.fst) text = true
    | .float => isFloat text.toList = true
    | .int => isWhole (dropSign text.toList) = true
    | .moment => isMoment text.toList = true
    | _ => True := by
  simp only [implied?] at said
  split_ifs at said <;> cases said <;> first | assumption | trivial

end Kind

namespace Scalar

theorem converted_failsOnly {α : Type} {x : Option α} : (converted x).FailsOnly (· = .badValue) := by
  cases x with
  | some a => exact Except.failsOnly_ok a
  | none => exact .error rfl

theorem unsignedInt_failsOnly {cs : List Char} :
    (unsignedInt cs).FailsOnly fun failure => failure = .badValue ∨ failure = .noDigits ∧ cs = [] := by
  have bad {x : Option Int} :
      (converted x).FailsOnly fun failure => failure = .badValue ∨ failure = .noDigits ∧ cs = [] :=
    converted_failsOnly.imp fun _ => .inl
  unfold unsignedInt
  split
  · exact .error (.inr ⟨rfl, rfl⟩)
  · exact Except.failsOnly_ok 0
  · exact bad
  · exact bad
  · exact bad
  · split
    · exact bad
    · exact bad

theorem int_failsOnly {cs : List Char} : (int cs).FailsOnly fun failure =>
    failure = .badValue ∨ failure = .noDigits ∧ Kind.dropSign (cs.filter (· != '_')) = [] := by
  unfold int
  split
  next empty =>
    rw [empty]
    exact .error (.inr ⟨rfl, rfl⟩)
  next c rest found =>
    rw [found]
    exact unsignedInt_failsOnly.map

theorem unsignedFloat_failsOnly {cs : List Char} :
    (unsignedFloat cs).FailsOnly fun failure => failure = .badValue ∨ failure = .outOfRange := by
  unfold unsignedFloat
  split
  · exact Except.failsOnly_ok _
  · split
    · exact Except.failsOnly_ok _
    · split
      · refine (converted_failsOnly.imp fun _ => .inl).bind ?_
        intro parts
        split
        · exact .error (.inr rfl)
        · exact Except.failsOnly_ok _
      · exact converted_failsOnly.imp fun _ => .inl

theorem float_failsOnly {cs : List Char} : (float cs).FailsOnly fun failure =>
    (failure = .badValue ∨ failure = .outOfRange) ∨ failure = .noDigits ∧ cs.filter (· != '_') = [] := by
  unfold float
  split
  next empty => exact .error (.inr ⟨rfl, empty⟩)
  next c rest found => exact (unsignedFloat_failsOnly.imp fun _ => .inl).map

theorem moment_failsOnly {cs : List Char} : (moment cs).FailsOnly fun failure =>
    failure = .badValue ∨ failure = .noMoment ∧ Kind.momentText? cs = none := by
  unfold moment
  split
  next none => exact .error (.inr ⟨rfl, none⟩)
  · exact converted_failsOnly.imp fun _ => .inl

theorem truth_failsOnly {text : String} : (truth text).FailsOnly fun failure =>
    failure = .noTruth ∧ Kind.truths.lookup (Text.lower text) = none := by
  unfold truth
  split
  · exact Except.failsOnly_ok _
  next none => exact .error ⟨rfl, none⟩

theorem value_eq_malformed {kind : Kind} {text : String} :
    value kind text = .error .malformed ↔ kind = .merge ∨ kind = .equals := by
  constructor
  · intro failed
    cases kind with
    | null => cases failed
    | text => cases failed
    | bool => simpa using truth_failsOnly _ failed
    | int => simpa using int_failsOnly _ failed
    | float => simpa using float_failsOnly _ failed
    | moment => simpa using moment_failsOnly _ failed
    | merge => exact .inl rfl
    | equals => exact .inr rfl
  · rintro (rfl | rfl) <;> rfl

/-- A scalar that says its kind itself has the form of that kind, so it fails only if what it names does
not exist or is too large. -/
theorem value_implied {kind : Kind} {text : String} (said : Kind.implied? text = some kind) :
    (value kind text).FailsOnly Failure.Untagged := by
  have form := Kind.form_of_implied said
  cases kind with
  | null => exact Except.failsOnly_ok _
  | text => exact Except.failsOnly_ok _
  | merge => exact .error (.inl rfl)
  | equals => exact .error (.inl rfl)
  | bool =>
    refine truth_failsOnly.imp ?_
    rintro _ ⟨_, unknown⟩
    obtain ⟨b, found⟩ := Kind.truths_of_spelled form
    cases found.symm.trans unknown
  | int =>
    refine int_failsOnly.imp ?_
    rintro _ (bad | ⟨_, empty⟩)
    · exact .inr (.inl bad)
    · exact absurd empty (Kind.dropSign_filter_of_isWhole form)
  | float =>
    refine float_failsOnly.imp ?_
    rintro _ (bad | ⟨_, empty⟩)
    · exact .inr bad
    · exact absurd empty (Kind.filter_of_isFloat form)
  | moment =>
    refine moment_failsOnly.imp ?_
    rintro _ (bad | ⟨_, unknown⟩)
    · exact .inr (.inl bad)
    · simp [Kind.isMoment, unknown] at form

end Scalar

end NoteQuery.Yaml
