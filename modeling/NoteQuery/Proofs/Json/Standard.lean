import NoteQuery.Proofs.Json.Reading
import NoteQuery.Proofs.Number.Shortest
import NoteQuery.Value.Text

/-! The dialect of standard JSON: three words and decimal numbers, which are read exactly. No name of an
infinity or of not-a-number is a value in it. Numbers that are written are read as what they stand for. -/
namespace NoteQuery.Json

/-- What a JSON text stands for. Entries keep their order, and names may come again. -/
inductive Datum where
  | null
  | bool (b : Bool)
  | number (size : ℚ)
  | text (s : String)
  | list (items : List Datum)
  | object (entries : List (String × Datum))

/-- The size of a number by its whole digits, the point with its digits, and the exponent. -/
def size? (whole part exponent : List Char) : Option ℚ :=
  let behind := part.drop 1
  (Numeral.readExponent? exponent).map fun power =>
    (Numeral.natOfDigits (whole ++ behind) : ℚ) * 10 ^ (power - behind.length : ℤ)

def signed (negative : Bool) (size : ℚ) : ℚ := if negative then -size else size

def standard : Dialect Datum where
  words := [("null".toList, .null), ("true".toList, .bool true), ("false".toList, .bool false)]
  number negative whole part exponent :=
    (size? whole part exponent).map fun size => .number (signed negative size)
  text := .text
  list := .list
  object := .object

variable {rest : List Char}

/-- The text of a number without its sign, spelled by parts that are read as its size. -/
def Spells (text : List Char) (size : ℚ) : Prop :=
  ∃ whole part power, Whole whole ∧ (∀ c ∈ part, c.isDigit = true) ∧ Power power ∧
    size? whole (point part) power = some size ∧ text = whole ++ (point part ++ power)

theorem words_none {c : Char} (other : c ≠ 'n' ∧ c ≠ 't' ∧ c ≠ 'f') (rest : List Char) :
    standard.words.findSome? (fun (word, v) =>
      (Text.dropPrefix? word (c :: rest)).map fun left => (v, left)) = none := by
  obtain ⟨n, t, f⟩ := other
  simp [standard, Text.dropPrefix?, n.symm, t.symm, f.symm]

theorem Spells.begins {text : List Char} {size : ℚ} (spells : Spells text size) :
    ∃ c more, text = c :: more ∧ c.isDigit = true := by
  obtain ⟨whole, part, power, isWhole, _, _, _, rfl⟩ := spells
  obtain ⟨c, more, rfl⟩ := List.exists_cons_of_ne_nil isWhole.some_digit
  exact ⟨c, _, rfl, isWhole.digits c List.mem_cons_self⟩

theorem Spells.readNumber {text : List Char} {size : ℚ} (spells : Spells text size) (negative : Bool)
    (ends : Ends rest) :
    readNumber standard negative (text ++ rest) = some (.number (signed negative size), rest) := by
  obtain ⟨whole, part, power, isWhole, digits, isPower, sized, rfl⟩ := spells
  rw [List.append_assoc, List.append_assoc, readNumber_append standard negative isWhole digits isPower ends]
  simp [standard, sized]

theorem value?_number {text : List Char} {size : ℚ} (spells : Spells text size) (negative : Bool)
    (ends : Ends rest) :
    value? standard ((if negative then ['-'] else []) ++ (text ++ rest)) =
      some (.number (signed negative size), skipSpace rest) := by
  have read := spells.readNumber negative ends
  obtain ⟨c, more, rfl, digit⟩ := spells.begins
  have apart (other : Char) (none : other.isDigit = false) : c ≠ other := by
    rintro rfl
    exact absurd (digit.symm.trans none) (by decide)
  cases negative with
  | true =>
    refine value?_of_simple ⟨by decide, by decide, by decide⟩ (by simp; omega) ?_
    rw [readSimple, words_none (by decide)]
    exact read
  | false =>
    refine value?_of_simple ⟨apart _ rfl, apart _ rfl, apart _ rfl⟩ (by simp) ?_
    change readSimple standard (c :: (more ++ rest)) = _
    rw [readSimple, words_none ⟨apart _ rfl, apart _ rfl, apart _ rfl⟩]
    · exact read
    · exact fun _ same => apart '-' rfl (List.cons.inj same).1

theorem size?_eq {whole part power : List Char} {n : Int}
    (read : Numeral.readExponent? power = some n) :
    size? whole (point part) power =
      some ((Numeral.natOfDigits (whole ++ part) : ℚ) * 10 ^ (n - part.length : ℤ)) := by
  have behind : (point part).drop 1 = part := by cases part <;> rfl
  rw [size?, behind, read]
  rfl

theorem whole_digits (n : Nat) : Whole (Nat.toDigits 10 n) where
  some_digit := Nat.toDigits_ne_nil
  digits _ digit := Numeral.digits_plain digit
  lead := Numeral.digits_lead n

theorem spells_digits (n : Nat) : Spells (Nat.toDigits 10 n) n := by
  refine ⟨Nat.toDigits 10 n, [], [], whole_digits n, by simp, .inl rfl, ?_, by simp [point]⟩
  rw [size?_eq (n := 0) rfl, List.append_nil, Numeral.natOfDigits_digits]
  simp

theorem zeros_plain {n : Nat} : ∀ c ∈ NumberLayout.zeros n, c.isDigit = true := by
  intro c zero
  rw [List.eq_of_mem_replicate zero]
  rfl

theorem power_exponentText (scale : Int) : Power ('e' :: NumberLayout.exponentText scale) := by
  refine .inr ⟨_, _, ?_, ?_, ?_, rfl⟩
  · split_ifs
    · exact .inr rfl
    · exact .inl rfl
  · simp [Nat.toDigits_ne_nil]
  · intro c inside
    rcases List.mem_append.mp inside with zero | digit
    · exact zeros_plain c zero
    · exact Numeral.digits_plain digit

theorem readExponent?_exponentText (scale : Int) :
    Numeral.readExponent? ('e' :: NumberLayout.exponentText scale) = some scale := by
  let digits := NumberLayout.zeros (2 - (Nat.toDigits 10 scale.natAbs).length) ++
    Nat.toDigits 10 scale.natAbs
  have some_digit : digits.isEmpty = false := by simp [digits, Nat.toDigits_ne_nil]
  have decimal : digits.all Text.isDecimal = true := by
    refine List.all_eq_true.mpr fun c inside => ?_
    rcases List.mem_append.mp inside with zero | digit
    · rw [Text.isDecimal, Text.decimalValue?_plain (zeros_plain c zero)]
      rfl
    · exact Numeral.digits_isDecimal digit
  have value : Numeral.natOfDigits digits = scale.natAbs := by
    rw [Numeral.natOfDigits_append, Numeral.natOfDigits_zeros, Numeral.natOfDigits_digits]
    simp
  by_cases negative : scale < 0
  · have spelled : NumberLayout.exponentText scale = '-' :: digits := by
      simp only [NumberLayout.exponentText, if_pos negative, digits]
    simp only [spelled, Numeral.readExponent?, Numeral.cutSign, some_digit, decimal, value]
    simp [abs_of_neg negative]
  · have spelled : NumberLayout.exponentText scale = '+' :: digits := by
      simp only [NumberLayout.exponentText, if_neg negative, digits]
    simp only [spelled, Numeral.readExponent?, Numeral.cutSign, some_digit, decimal, value]
    simp
    omega

section Layout

variable (d : Decimal)

theorem natOfDigits_decimal : Numeral.natOfDigits d.digits = d.coefficient :=
  Numeral.natOfDigits_digits _

theorem spells_fraction (small : d.scale < 0) :
    Spells ('0' :: '.' :: (NumberLayout.zeros (-d.scale - 1).toNat ++ d.digits)) d.value := by
  have scale : d.scale = d.exponent + d.digits.length - 1 := rfl
  obtain ⟨c, more, behind⟩ := List.exists_cons_of_ne_nil (show
    NumberLayout.zeros (-d.scale - 1).toNat ++ d.digits ≠ [] by
      simp [Decimal.digits, Nat.toDigits_ne_nil])
  refine ⟨['0'], NumberLayout.zeros (-d.scale - 1).toNat ++ d.digits, [],
    ⟨by simp, by simp, .inl rfl⟩, ?_, .inl rfl, ?_, ?_⟩
  · intro c inside
    rcases List.mem_append.mp inside with zero | digit
    · exact zeros_plain c zero
    · exact Numeral.digits_plain digit
  · have value : Numeral.natOfDigits (['0'] ++ (NumberLayout.zeros (-d.scale - 1).toNat ++ d.digits)) =
        d.coefficient := by
      rw [Numeral.natOfDigits_append, Numeral.natOfDigits_append, Numeral.natOfDigits_zeros,
        natOfDigits_decimal, show Numeral.natOfDigits ['0'] = 0 by decide +kernel]
      simp
    have power : (0 - (NumberLayout.zeros (-d.scale - 1).toNat ++ d.digits).length : ℤ) =
        d.exponent := by
      rw [List.length_append, NumberLayout.zeros, List.length_replicate]
      omega
    rw [size?_eq (n := 0) rfl, value, power]
    rfl
  · rw [behind]
    simp [point]

theorem spells_padded (large : 0 ≤ d.scale) (short : d.digits.length ≤ d.scale.toNat + 1)
    (nought : d.coefficient = 0 → d.exponent = 0) :
    Spells (d.digits ++ NumberLayout.zeros (d.scale.toNat + 1 - d.digits.length) ++ ['.', '0'])
      d.value := by
  have scale : d.scale = d.exponent + d.digits.length - 1 := rfl
  have digits : d.digits = Nat.toDigits 10 d.coefficient := rfl
  obtain ⟨k, exponent⟩ : ∃ k : Nat, d.exponent = k := Int.eq_ofNat_of_zero_le (by omega)
  have padding : d.scale.toNat + 1 - d.digits.length = k := by omega
  rw [padding]
  refine ⟨d.digits ++ NumberLayout.zeros k, ['0'], [], ⟨?_, ?_, ?_⟩, by simp, .inl rfl,
    ?_, rfl⟩
  · simp [digits, Nat.toDigits_ne_nil]
  · intro c inside
    rcases List.mem_append.mp inside with digit | zero
    · exact Numeral.digits_plain digit
    · exact zeros_plain c zero
  · rcases Numeral.digits_lead d.coefficient with zero | lead
    · have value := Numeral.natOfDigits_digits d.coefficient
      rw [zero, show Numeral.natOfDigits ['0'] = 0 by decide +kernel] at value
      rw [digits, zero, show k = 0 by have := nought value.symm; omega]
      exact .inl rfl
    · right
      obtain ⟨c, more, split⟩ :=
        List.exists_cons_of_ne_nil (Nat.toDigits_ne_nil (n := d.coefficient) (b := 10))
      rw [split] at lead
      rw [digits, split]
      exact lead
  · have value : Numeral.natOfDigits (d.digits ++ NumberLayout.zeros k ++ ['0']) =
        d.coefficient * 10 ^ k * 10 := by
      rw [Numeral.natOfDigits_append, Numeral.natOfDigits_append, Numeral.natOfDigits_zeros,
        natOfDigits_decimal, show Numeral.natOfDigits ['0'] = 0 by decide +kernel,
        NumberLayout.zeros, List.length_replicate]
      simp
    rw [size?_eq (n := 0) rfl, value, Decimal.value, exponent, zpow_natCast]
    have tenth : (10 : ℚ) ^ (0 - (['0'].length : ℤ)) = 10⁻¹ := by simp
    rw [tenth]
    push_cast
    field_simp

theorem spells_cut (large : 0 ≤ d.scale) (long : d.scale.toNat + 1 < d.digits.length) :
    Spells (d.digits.take (d.scale.toNat + 1) ++ '.' :: d.digits.drop (d.scale.toNat + 1))
      d.value := by
  have scale : d.scale = d.exponent + d.digits.length - 1 := rfl
  have digits : d.digits = Nat.toDigits 10 d.coefficient := rfl
  obtain ⟨c, more, behind⟩ := List.exists_cons_of_ne_nil (show
    d.digits.drop (d.scale.toNat + 1) ≠ [] by simpa using long)
  refine ⟨d.digits.take (d.scale.toNat + 1), d.digits.drop (d.scale.toNat + 1), [], ⟨?_, ?_, ?_⟩, ?_,
    .inl rfl, ?_, ?_⟩
  · simp [digits, Nat.toDigits_ne_nil]
  · exact fun c inside => Numeral.digits_plain (List.mem_of_mem_take inside)
  · rcases Numeral.digits_lead d.coefficient with zero | lead
    · rw [digits, zero] at long
      simp at long
    · right
      rw [List.head?_take, if_neg (Nat.succ_ne_zero _)]
      exact lead
  · exact fun c inside => Numeral.digits_plain (List.mem_of_mem_drop inside)
  · have power : (0 - (d.digits.drop (d.scale.toNat + 1)).length : ℤ) = d.exponent := by
      rw [List.length_drop]
      omega
    rw [size?_eq (n := 0) rfl, List.take_append_drop, natOfDigits_decimal, power]
    rfl
  · rw [behind]
    simp [point]

theorem spells_power {c : Char} {more : List Char} (split : d.digits = c :: more) :
    Spells (c :: (if more.isEmpty then [] else '.' :: more) ++
      'e' :: NumberLayout.exponentText d.scale) d.value := by
  have scale : d.scale = d.exponent + d.digits.length - 1 := rfl
  have plain : ∀ c ∈ d.digits, c.isDigit = true := fun c digit => Numeral.digits_plain digit
  rw [split] at plain
  refine ⟨[c], more, 'e' :: NumberLayout.exponentText d.scale, ⟨by simp, ?_, ?_⟩, ?_,
    power_exponentText _, ?_, ?_⟩
  · simpa using plain c List.mem_cons_self
  · by_cases zero : c = '0'
    · exact .inl (by rw [zero])
    · exact .inr (by simpa using zero)
  · exact fun c inside => plain c (List.mem_cons_of_mem _ inside)
  · have power : d.scale - more.length = d.exponent := by
      rw [scale, split, List.length_cons]
      push_cast
      ring
    rw [size?_eq (readExponent?_exponentText d.scale), List.singleton_append, ← split,
      natOfDigits_decimal, power]
    rfl
  · cases more <;> simp [point]

variable {d}

theorem spells_textOf (nought : d.coefficient = 0 → d.exponent = 0 ∨ 15 < d.exponent) :
    Spells (NumberLayout.json.textOf d) d.value := by
  have some_digit : d.digits ≠ [] := Nat.toDigits_ne_nil
  unfold NumberLayout.textOf NumberLayout.plainText
  dsimp only
  split_ifs with range small short
  · exact spells_fraction d small
  · refine spells_padded d (not_lt.mp small) short fun zero => ?_
    have single : d.digits.length = 1 := by simp [Decimal.digits, zero]
    have scale : d.scale = d.exponent + d.digits.length - 1 := rfl
    have least := range.2
    have bound : NumberLayout.json.greatestPlain = 15 := rfl
    have either := nought zero
    omega
  · exact spells_cut d (not_lt.mp small) (not_le.mp short)
  · split
    · rename_i none
      exact absurd none some_digit
    · rename_i c more split
      exact spells_power d split

end Layout

end NoteQuery.Json
