import NoteQuery.Number.Numeral
import NoteQuery.Proofs.Text.Letter
import NoteQuery.Proofs.Text.Search

/-! Whole numbers are read back from their digits. A row of digits, with a point among them or not, is a number
unless one of the digits is raised or a whole number has too many. -/
namespace NoteQuery.Numeral

open NoteQuery.Text

variable {n : Nat}

theorem digits_plain {c : Char} (digit : c ∈ Nat.toDigits 10 n) : c.isDigit = true :=
  Nat.isDigit_of_mem_toDigits (by decide) (by decide) digit

theorem digits_isDecimal {c : Char} (digit : c ∈ Nat.toDigits 10 n) : isDecimal c = true := by
  rw [isDecimal, decimalValue?_plain (digits_plain digit)]
  rfl

theorem natOfDigits_digits (n : Nat) : natOfDigits (Nat.toDigits 10 n) = n := by
  calc natOfDigits (Nat.toDigits 10 n)
      = (Nat.toDigits 10 n).foldl (fun sum c => 10 * sum + (c.toNat - '0'.toNat)) 0 := by
        refine List.foldl_ext _ _ _ fun sum c digit => ?_
        rw [decimalValue?_plain (digits_plain digit), Option.getD_some]
    _ = Nat.ofDigitChars 10 (Nat.toDigits 10 n) 0 := Nat.ofDigitChars_eq_foldl.symm
    _ = n := Nat.ofDigitChars_ten_toDigits

section Digits

variable {c previous : Char} {text rest digits part : List Char}

/-- No digit is another sign of a number or begins one of the names. -/
theorem notMem_of_digit (digit : isDigit c = true) : c ∉ ['-', '+', '.', '_', 'e', 'E', 'i', 'n'] :=
  notMem_of_class digit (by decide +kernel)

theorem cutSign_digits (within : ∀ c ∈ digits, isDigit c = true) (rest : List Char) (some_digit : digits ≠ []) :
    cutSign (digits ++ rest) = (false, digits ++ rest) := by
  obtain ⟨c, digits, rfl⟩ := List.exists_cons_of_ne_nil some_digit
  have other := notMem_of_digit (within c List.mem_cons_self)
  rw [List.cons_append]
  unfold cutSign
  split
  · rename_i same
    cases same
    simp at other
  · rename_i same
    cases same
    simp at other
  · rfl

theorem readInt?_eq_none_iff (some_digit : digits ≠ []) (within : ∀ c ∈ digits, isDigit c = true) :
    readInt? digits = none ↔ (∃ c ∈ digits, isDecimal c = false) ∨ maxDigits < digits.length := by
  have unsigned := cutSign_digits within [] some_digit
  have some : digits.isEmpty = false := by simpa using some_digit
  have whole : readInt? digits = none ↔ readNat? digits = none := by
    rw [List.append_nil] at unsigned
    rw [readInt?, unsigned]
    dsimp only
    cases readNat? digits with
    | none => exact iff_of_true rfl rfl
    | some n => exact iff_of_false nofun nofun
  rw [whole, readNat?, some, Bool.not_false, Bool.true_and, ite_eq_right_iff]
  simp only [reduceCtorEq, imp_false, Bool.and_eq_true, List.all_eq_true, decide_eq_true_eq, not_and_or, not_le,
    not_forall, Bool.not_eq_true, exists_prop]

theorem underscoresFit_of_notMem (apart : '_' ∉ previous :: text) : underscoresFit previous text = true := by
  induction text generalizing previous with
  | nil =>
    rw [List.mem_singleton] at apart
    rw [underscoresFit, bne_iff_ne]
    exact Ne.symm apart
  | cons c text ih =>
    rw [List.mem_cons, not_or] at apart
    have here : (c == '_') = false := beq_eq_false_iff_ne.mpr fun same => apart.2 (by simp [same])
    have behind : (previous != '_') = true := bne_iff_ne.mpr (Ne.symm apart.1)
    rw [underscoresFit, here, behind, ih apart.2]
    rfl

theorem readExponent?_digit (digit : isDigit c = true) : readExponent? (c :: rest) = none := by
  have other := notMem_of_digit digit
  simp only [List.mem_cons, List.not_mem_nil, or_false, not_or] at other
  simp [readExponent?, other]

theorem readExponent?_eq_none_iff (within : ∀ c ∈ digits, isDigit c = true) :
    readExponent? digits = none ↔ digits ≠ [] := by
  cases digits with
  | nil => simp [readExponent?]
  | cons c digits => simp [readExponent?_digit (within c List.mem_cons_self)]

/-- What begins with a digit is none of the names. -/
theorem unnamed_of_digits {name : List Char} (starts : ∃ c ∈ name.head?, c = 'i' ∨ c = 'n')
    (some_digit : digits ≠ []) (within : ∀ c ∈ digits, isDigit c = true) :
    ((digits ++ rest).map Char.toLower == name) = false := by
  obtain ⟨c, digits, rfl⟩ := List.exists_cons_of_ne_nil some_digit
  obtain ⟨d, first, same⟩ := starts
  have digit := within c List.mem_cons_self
  have other := notMem_of_digit digit
  rw [List.cons_append, List.map_cons, toLower_of_digit digit, beq_eq_false_iff_ne]
  rintro rfl
  obtain rfl : c = d := by simpa using first
  simp [same] at other

theorem raised_of_dropWhile (left : text.dropWhile isDecimal = c :: rest) : isDecimal c = false := by
  have some : text.dropWhile isDecimal ≠ [] := by simp [left]
  simpa [left] using List.head_dropWhile_not isDecimal some

theorem readUnsigned?_eq_none_iff (negative : Bool) (some_digit : digits ≠ [])
    (within : ∀ c ∈ digits, isDigit c = true) (within' : ∀ c ∈ part, isDigit c = true) :
    readUnsigned? negative (digits ++ '.' :: part) = none ↔ ∃ c ∈ digits ++ part, isDecimal c = false := by
  have unnamed {name : List Char} (starts : ∃ c ∈ name.head?, c = 'i' ∨ c = 'n') :
      ((digits ++ '.' :: part).map Char.toLower == name) = false :=
    unnamed_of_digits starts some_digit within
  have point : ∀ d ∈ ('.' :: part).head?, isDecimal d = false := by
    simpa using (by decide +kernel : isDecimal '.' = false)
  obtain ⟨taken, dropped⟩ := span_append digits point
  unfold readUnsigned?
  dsimp only
  rw [if_neg, if_neg, taken, dropped]
  rotate_left
  · exact (Bool.not_eq_true _).mpr (unnamed (by simp))
  · rw [Bool.not_eq_true, Bool.or_eq_false_iff]
    exact ⟨unnamed (by simp), unnamed (by simp)⟩
  cases left : digits.dropWhile isDecimal with
  | nil =>
    have all : ∀ c ∈ digits, isDecimal c = true := List.dropWhile_eq_nil_iff.mp left
    have some : digits.isEmpty = false := by simpa using some_digit
    have within' : ∀ c ∈ part.dropWhile isDecimal, isDigit c = true := fun c inside =>
      within' c ((List.dropWhile_suffix isDecimal).mem inside)
    simp only [List.takeWhile_eq_self_iff.mpr all, List.nil_append, some, Bool.false_and, Bool.false_eq_true,
      if_false, Option.map_eq_none_iff, readExponent?_eq_none_iff within']
    constructor
    · intro going
      obtain ⟨c, rest, left⟩ := List.exists_cons_of_ne_nil going
      have inside : c ∈ part := (List.dropWhile_suffix isDecimal).mem (left ▸ List.mem_cons_self)
      exact ⟨c, List.mem_append_right _ inside, raised_of_dropWhile left⟩
    · rintro ⟨c, inside, raised⟩ ended
      rcases List.mem_append.mp inside with inside | inside
      · exact absurd (all c inside) (by simp [raised])
      · exact absurd (List.dropWhile_eq_nil_iff.mp ended c inside) (by simp [raised])
  | cons d more =>
    have inside : d ∈ digits := (List.dropWhile_suffix isDecimal).mem (left ▸ List.mem_cons_self)
    refine iff_of_true ?_ ⟨d, List.mem_append_left _ inside, raised_of_dropWhile left⟩
    have left' : readExponent? (d :: (more ++ '.' :: part)) = none := readExponent?_digit (within d inside)
    have unpointed : d ≠ '.' := fun same => notMem_of_digit (within d inside) (by simp [same])
    rw [List.cons_append]
    split
    · rename_i same
      exact absurd (List.cons.inj same).1 unpointed
    · simp [left']

theorem readFloat?_eq_none_iff (some_digit : digits ≠ []) (within : ∀ c ∈ digits, isDigit c = true)
    (within' : ∀ c ∈ part, isDigit c = true) :
    readFloat? (digits ++ '.' :: part) = none ↔ ∃ c ∈ digits ++ part, isDecimal c = false := by
  have signs {P : Char → Prop} (digit : ∀ c, isDigit c = true → P c) (point : P '.') :
      ∀ c ∈ digits ++ '.' :: part, P c := by
    rw [List.forall_mem_append, List.forall_mem_cons]
    exact ⟨fun c inside => digit c (within c inside), point, fun c inside => digit c (within' c inside)⟩
  have solid : ∀ c ∈ digits ++ '.' :: part, isBlank c = false := by
    refine signs (fun c digit => ?_) (by decide +kernel)
    by_contra blank
    rw [isDigit_of_blank (by simpa using blank)] at digit
    cases digit
  have plain : ∀ c ∈ digits ++ '.' :: part, c ≠ '_' :=
    signs (fun c digit same => notMem_of_digit digit (by simp [same])) (by decide)
  have apart : '_' ∉ ' ' :: (digits ++ '.' :: part) := by
    rw [List.mem_cons, not_or]
    exact ⟨by decide, fun inside => plain '_' inside rfl⟩
  have kept : (digits ++ '.' :: part).filter (· != '_') = digits ++ '.' :: part :=
    List.filter_eq_self.mpr fun c inside => bne_iff_ne.mpr (plain c inside)
  rw [readFloat?, trim_solid solid]
  simp only [underscoresFit_of_notMem apart, if_true, kept, cutSign_digits within _ some_digit]
  exact readUnsigned?_eq_none_iff false some_digit within within'

end Digits

theorem readNat?_digits (short : (Nat.toDigits 10 n).length ≤ maxDigits) : readNat? (Nat.toDigits 10 n) = some n := by
  have some : (Nat.toDigits 10 n).isEmpty = false := by simp [Nat.toDigits_ne_nil]
  have decimal : (Nat.toDigits 10 n).all isDecimal = true :=
    List.all_eq_true.mpr fun c digit => digits_isDecimal digit
  simp [readNat?, some, decimal, short, natOfDigits_digits]

theorem readInt?_digits (short : (Nat.toDigits 10 n).length ≤ maxDigits) :
    readInt? (Nat.toDigits 10 n) = some (n : Int) := by
  have within : ∀ c ∈ Nat.toDigits 10 n, isDigit c = true := fun c digit => isDigit_plain (digits_plain digit)
  have unsigned := cutSign_digits within [] Nat.toDigits_ne_nil
  rw [List.append_nil] at unsigned
  simp [readInt?, unsigned, readNat?_digits short]

section Signed

variable {k : Int}

theorem toList_toString (k : Int) :
    (toString k).toList = (if k < 0 then ['-'] else []) ++ Nat.toDigits 10 k.natAbs := by
  cases k with
  | ofNat n => simp [Int.repr, toString]
  | negSucc n => simp [Int.repr, toString]

theorem toString_solid {c : Char} (sign : c ∈ (toString k).toList) : isBlank c = false := by
  rw [toList_toString, List.mem_append] at sign
  rcases sign with sign | digit
  · obtain rfl : c = '-' := by
      split_ifs at sign
      · exact List.mem_singleton.mp sign
      · cases sign
    decide +kernel
  · by_contra blank
    rw [Bool.not_eq_false] at blank
    exact absurd (isDigit_plain (digits_plain digit)) (by simp [isDigit_of_blank blank])

theorem readInt?_toString (short : (Nat.toDigits 10 k.natAbs).length ≤ maxDigits) :
    readInt? (toString k).toList = some k := by
  rw [toList_toString]
  split_ifs with negative
  · have below : -(k.natAbs : Int) = k := by omega
    simp only [List.singleton_append, readInt?, cutSign, readNat?_digits short, if_true]
    exact congrArg some below
  · have above : (k.natAbs : Int) = k := by omega
    rw [List.nil_append, readInt?_digits short, above]

end Signed

end NoteQuery.Numeral
