import NoteQuery.Json.Read
import NoteQuery.Proofs.Text.Letter
import NoteQuery.Proofs.Text.Search
import NoteQuery.Text.Quoted

/-! The readers of JSON with what they leave behind as a plain text, without blanks at its front. They
meet the equations of the readers for every dialect. -/
namespace NoteQuery.Json

variable {α : Type} {d : Dialect α} {text rest : List Char}

/-- What follows a sign, which stands at the front of a text. -/
def takeSign? (sign : Char) : List Char → Option (List Char)
  | [] => none
  | c :: rest => if c = sign then some (skipSpace rest) else none

def value? (d : Dialect α) (text : List Char) : Option (α × List Char) :=
  (readValue d text).map fun found => (found.1, skipSpace found.2.1)

def items? (d : Dialect α) (text : List Char) : Option (List α × List Char) :=
  (readItems d text).map fun found => (found.1, skipSpace found.2.1)

def entries? (d : Dialect α) (text : List Char) : Option (List (String × α) × List Char) :=
  (readEntries d text).map fun found => (found.1, skipSpace found.2.1)

@[simp] theorem skipSpace_skipSpace (text : List Char) :
    skipSpace (skipSpace text) = skipSpace text := List.dropWhile_idempotent _ _

theorem skipSpace_cons {c : Char} (solid : isSpace c = false) (rest : List Char) :
    skipSpace (c :: rest) = c :: rest := by
  simp [skipSpace, solid]

theorem skipSpace_blank {c : Char} (blank : isSpace c = true) (rest : List Char) :
    skipSpace (c :: rest) = skipSpace rest := by
  simp [skipSpace, blank]

theorem skipSpace_append {front : List Char} (blanks : ∀ c ∈ front, isSpace c = true) :
    skipSpace (front ++ rest) = skipSpace rest := List.dropWhile_append_of_pos blanks

theorem takeSign?_skip {sign : Char} {left : List Char} (taken : takeSign? sign text = some left) :
    skipSpace left = left := by
  cases text with
  | nil => simp [takeSign?] at taken
  | cons c rest =>
    obtain ⟨_, rfl⟩ : c = sign ∧ skipSpace rest = left := by simpa [takeSign?] using taken
    exact skipSpace_skipSpace rest

theorem sign?_eq (sign : Char) (text : List Char) :
    (sign? sign text).map Subtype.val = takeSign? sign (skipSpace text) := by
  unfold sign? takeSign?
  split
  · rename_i c rest front
    split <;> rename_i same <;> simp [front, same]
  · rename_i front
    simp [front]

theorem sign?_none {sign : Char} : sign? sign text = none ↔ takeSign? sign (skipSpace text) = none := by
  rw [← sign?_eq, Option.map_eq_none_iff]

theorem sign?_some {sign : Char} {left : After text} (found : sign? sign text = some left) :
    takeSign? sign (skipSpace text) = some left.1 := by
  rw [← sign?_eq, found]
  rfl

theorem value?_text (d : Dialect α) (rest : List Char) :
    value? d ('"' :: rest) =
      (readText rest).map fun found => (d.text (String.ofList found.1), skipSpace found.2) := by
  simp only [value?, readValue]
  cases read : readText rest with
  | none => rfl
  | some found =>
    have shorter : found.2.length < ('"' :: rest).length := Nat.lt_succ_of_lt (readText_length_lt read)
    simp only [Option.bind_some, after?, shorter, dif_pos, Option.map_some]

theorem value?_list (d : Dialect α) (rest : List Char) :
    value? d ('[' :: rest) = match takeSign? ']' (skipSpace rest) with
      | some left => some (d.list [], left)
      | none => (items? d rest).map fun found => (d.list found.1, found.2) := by
  simp only [value?, readValue]
  cases closed : sign? ']' rest with
  | some left =>
    rw [sign?_some closed]
    simp [takeSign?_skip (sign?_some closed)]
  | none =>
    rw [sign?_none.mp closed]
    unfold items?
    cases readItems d rest <;> rfl

theorem value?_object (d : Dialect α) (rest : List Char) :
    value? d ('\x7b' :: rest) = match takeSign? '\x7d' (skipSpace rest) with
      | some left => some (d.object [], left)
      | none => (entries? d rest).map fun found => (d.object found.1, found.2) := by
  simp only [value?, readValue]
  cases closed : sign? '\x7d' rest with
  | some left =>
    rw [sign?_some closed]
    simp [takeSign?_skip (sign?_some closed)]
  | none =>
    rw [sign?_none.mp closed]
    unfold entries?
    cases readEntries d rest <;> rfl

/-- A character that begins neither a text nor a list nor an object. -/
def BeginsSimple (c : Char) : Prop := c ≠ '"' ∧ c ≠ '[' ∧ c ≠ '\x7b'

theorem value?_simple {c : Char} (begins : BeginsSimple c) (rest : List Char) :
    value? d (c :: rest) = ((readSimple d (c :: rest)).bind (after? (c :: rest))).map
      fun found => (found.1, skipSpace found.2.1) := by
  obtain ⟨noText, noList, noObject⟩ := begins
  rw [value?, readValue.eq_5 d c rest noText noList noObject]

theorem value?_of_simple {c : Char} {v : α} {left : List Char} (begins : BeginsSimple c)
    (shorter : left.length < (c :: rest).length)
    (read : readSimple d (c :: rest) = some (v, left)) :
    value? d (c :: rest) = some (v, skipSpace left) := by
  rw [value?_simple begins, read]
  simp only [Option.bind_some, after?, shorter, Option.map_some, dif_pos]

theorem items?_eq (d : Dialect α) (text : List Char) :
    items? d text = (value? d (skipSpace text)).bind fun first =>
      match takeSign? ',' first.2 with
      | some more => (items? d more).map fun found => (first.1 :: found.1, found.2)
      | none => (takeSign? ']' first.2).map fun rest => ([first.1], rest) := by
  rw [items?, readItems, value?]
  cases readValue d (skipSpace text) with
  | none => rfl
  | some first =>
    obtain ⟨item, left, _⟩ := first
    simp only [Option.map_some, Option.bind_some, Option.bind_eq_bind]
    cases comma : sign? ',' left with
    | some found =>
      obtain ⟨more, _⟩ := found
      rw [sign?_some comma]
      simp only [items?]
      cases readItems d more <;> rfl
    | none =>
      rw [sign?_none.mp comma]
      cases closed : sign? ']' left with
      | some more =>
        rw [sign?_some closed]
        simp [takeSign?_skip (sign?_some closed)]
      | none =>
        rw [sign?_none.mp closed]
        rfl

theorem items?_skipSpace (d : Dialect α) (text : List Char) :
    items? d (skipSpace text) = items? d text := by
  rw [items?_eq, skipSpace_skipSpace, ← items?_eq]

theorem readKey_text (rest : List Char) :
    (readKey ('"' :: rest)).map (fun found => (found.1, found.2.1)) =
      (readText rest).map fun found => (String.ofList found.1, found.2) := by
  simp only [readKey]
  cases read : readText rest with
  | none => rfl
  | some found =>
    have shorter : found.2.length < ('"' :: rest).length := Nat.lt_succ_of_lt (readText_length_lt read)
    simp only [Option.bind_some, after?, shorter, dif_pos, Option.map_some]

theorem entries?_eq (d : Dialect α) (text : List Char) :
    entries? d text = ((readKey (skipSpace text)).map fun found => (found.1, found.2.1)).bind fun key =>
      (takeSign? ':' (skipSpace key.2)).bind fun start =>
      (value? d start).bind fun first =>
      match takeSign? ',' first.2 with
      | some more => (entries? d more).map fun found => ((key.1, first.1) :: found.1, found.2)
      | none => (takeSign? '\x7d' first.2).map fun rest => ([(key.1, first.1)], rest) := by
  rw [entries?, readEntries]
  cases readKey (skipSpace text) with
  | none => rfl
  | some found =>
    obtain ⟨key, left, _⟩ := found
    simp only [Option.map_some, Option.bind_some, Option.bind_eq_bind]
    cases colon : sign? ':' left with
    | none =>
      rw [sign?_none.mp colon]
      rfl
    | some found =>
      obtain ⟨start, _⟩ := found
      rw [sign?_some colon]
      simp only [Option.bind_some, value?]
      cases readValue d start with
      | none => rfl
      | some found =>
        obtain ⟨first, left, _⟩ := found
        simp only [Option.map_some, Option.bind_some]
        cases comma : sign? ',' left with
        | some found =>
          obtain ⟨more, _⟩ := found
          rw [sign?_some comma]
          simp only [entries?]
          cases readEntries d more <;> rfl
        | none =>
          rw [sign?_none.mp comma]
          cases closed : sign? '\x7d' left with
          | some found =>
            rw [sign?_some closed]
            simp [takeSign?_skip (sign?_some closed)]
          | none =>
            rw [sign?_none.mp closed]
            rfl

theorem entries?_skipSpace (d : Dialect α) (text : List Char) :
    entries? d (skipSpace text) = entries? d text := by
  rw [entries?_eq, skipSpace_skipSpace, ← entries?_eq]

theorem decode_eq (d : Dialect α) (text : String) :
    decode d text = (value? d (skipSpace text.toList)).bind fun found =>
      if found.2.isEmpty then some found.1 else none := by
  unfold decode value?
  cases readValue d (skipSpace text.toList) <;> rfl

section Texts

open NoteQuery.Text

theorem hexFour?_control : ∀ n < 0x20, ∃ a b c d, hexDigits 4 n = [a, b, c, d] ∧
    hexFour? a b c d = some n := by
  intro n small
  interval_cases n <;> exact ⟨_, _, _, _, rfl, rfl⟩

theorem pair?_control {high : Nat} (small : high < 0x20) (low : Nat) : pair? high low = none :=
  if_neg (by omega)

/-- An escape of a control character stands alone, whatever follows. -/
theorem readText_control {a b c d : Char} {n : Nat} (small : n < 0x20)
    (digits : hexFour? a b c d = some n) (rest : List Char) :
    readText ('\\' :: 'u' :: a :: b :: c :: d :: rest) =
      (readText rest).map fun found => (Char.ofNat n :: found.1, found.2) := by
  have alone : single n = Char.ofNat n := if_neg (by omega)
  rw [readText, digits]
  simp only [alone]
  split
  · simp [pair?_control small]
  · rfl

theorem readText_letter {e c : Char} (named : letter? e = some c) (rest : List Char) :
    readText ('\\' :: e :: rest) = (readText rest).map fun found => (c :: found.1, found.2) := by
  have plain : e ≠ 'u' := by
    rintro rfl
    cases named
  rw [readText]
  · simp [named]
  · simp [plain]

theorem readText_plain {c : Char} (plain : c ≠ '"' ∧ c ≠ '\\') (high : ¬ c.toNat < 0x20)
    (rest : List Char) :
    readText (c :: rest) = (readText rest).map fun found => (c :: found.1, found.2) := by
  rw [readText]
  · simp [high]
  all_goals simp [plain]

theorem readText_char (c : Char) (rest : List Char) :
    readText (jsonChar c ++ rest) = (readText rest).map fun found => (c :: found.1, found.2) := by
  unfold jsonChar
  simp only [Bool.or_eq_true, beq_iff_eq]
  split_ifs with mark feed back tab behind form control
  · rcases mark with rfl | rfl <;> exact readText_letter (by decide) rest
  · exact readText_letter (feed ▸ by decide) rest
  · exact readText_letter (back ▸ by decide) rest
  · exact readText_letter (tab ▸ by decide) rest
  · exact readText_letter (behind ▸ by decide) rest
  · exact readText_letter (form ▸ by decide) rest
  · obtain ⟨p, q, r, s, digits, number⟩ := hexFour?_control c.toNat control
    rw [digits]
    simpa using readText_control control number rest
  · exact readText_plain (not_or.mp mark) control rest

/-- A text that is written in quotes is read up to the closing quote. -/
theorem readText_quoted (text rest : List Char) :
    readText (text.flatMap jsonChar ++ '"' :: rest) = some (text, rest) := by
  induction text with
  | nil => simp [readText]
  | cons c text ih => simp [readText_char, ih]

end Texts

section Numbers

open NoteQuery.Text

variable {whole part power : List Char}

/-- Digits in front of a point: nought alone, or digits that do not begin with it. -/
structure Whole (whole : List Char) : Prop where
  some_digit : whole ≠ []
  digits : ∀ c ∈ whole, c.isDigit = true
  lead : whole = ['0'] ∨ whole.head? ≠ some '0'

/-- Digits with a point in front of them, if there are any. -/
def point : List Char → List Char
  | [] => []
  | c :: part => '.' :: c :: part

/-- No exponent, or one with a sign. -/
def Power (power : List Char) : Prop :=
  power = [] ∨ ∃ sign digits, (sign = '+' ∨ sign = '-') ∧ digits ≠ [] ∧
    (∀ c ∈ digits, c.isDigit = true) ∧ power = 'e' :: sign :: digits

/-- What may stand behind a value that is written: nothing, a comma or a line end. -/
def Ends (rest : List Char) : Prop := rest = [] ∨ ∃ more, rest = ',' :: more ∨ rest = '\n' :: more

theorem takeWhole_append (spelled : Whole whole) (ends : ∀ c ∈ rest.head?, c.isDigit = false) :
    takeWhole (whole ++ rest) = (whole, rest) := by
  obtain ⟨taken, dropped⟩ := span_front spelled.digits ends
  rcases spelled.lead with rfl | lead
  · rfl
  · cases whole with
    | nil => exact absurd rfl spelled.some_digit
    | cons c whole =>
      have first : c ≠ '0' := by simpa using lead
      rw [takeWhole, taken, dropped]
      simp [first]

theorem takeDigits_append {digits : List Char} (mark : List Char) (some_digit : digits ≠ [])
    (within : ∀ c ∈ digits, c.isDigit = true) (ends : ∀ c ∈ rest.head?, c.isDigit = false) :
    takeDigits mark (digits ++ rest) = (mark ++ digits, rest) := by
  obtain ⟨taken, dropped⟩ := span_front within ends
  simp [takeDigits, taken, dropped, some_digit]

theorem takePart_append (digits : ∀ c ∈ part, c.isDigit = true)
    (ends : ∀ c ∈ rest.head?, c.isDigit = false ∧ c ≠ '.') :
    takePart (point part ++ rest) = (point part, rest) := by
  cases part with
  | nil =>
    rw [point, List.nil_append, takePart]
    rintro more rfl
    exact absurd rfl (ends '.' rfl).2
  | cons c part =>
    exact takeDigits_append ['.'] (List.cons_ne_nil c part) digits fun c first => (ends c first).1

theorem Ends.head (ends : Ends rest) : ∀ c ∈ rest.head?, c = ',' ∨ c = '\n' := by
  rcases ends with rfl | ⟨more, rfl | rfl⟩ <;> simp

theorem takeExponent_append (spelled : Power power) (ends : Ends rest) :
    takeExponent (power ++ rest) = (power, rest) := by
  have stops : ∀ c ∈ rest.head?, c.isDigit = false := fun c first => by
    rcases ends.head c first with rfl | rfl <;> rfl
  rcases spelled with rfl | ⟨sign, digits, signed, some_digit, within, rfl⟩
  · rcases ends with rfl | ⟨_ | ⟨c, more⟩, rfl | rfl⟩ <;> rfl
  · have taken := takeDigits_append ['e', sign] some_digit within stops
    rcases signed with rfl | rfl <;> exact taken

/-- A number that is spelled by its parts is read as these. -/
theorem readNumber_append (d : Dialect α) (negative : Bool) (isWhole : Whole whole)
    (digits : ∀ c ∈ part, c.isDigit = true) (isPower : Power power) (ends : Ends rest) :
    readNumber d negative (whole ++ (point part ++ (power ++ rest))) =
      (d.number negative whole (point part) power).map (·, rest) := by
  have front : ∀ c ∈ (power ++ rest).head?, c = 'e' ∨ c = ',' ∨ c = '\n' := by
    rcases isPower with rfl | ⟨sign, digits, _, _, _, rfl⟩
    · exact fun c first => .inr (ends.head c first)
    · simp
  have behindPart : ∀ c ∈ (power ++ rest).head?, c.isDigit = false ∧ c ≠ '.' := fun c first => by
    rcases front c first with rfl | rfl | rfl <;> decide
  have behindWhole : ∀ c ∈ (point part ++ (power ++ rest)).head?, c.isDigit = false := by
    cases part with
    | nil => exact fun c first => (behindPart c first).1
    | cons c part => simp [point]
  rw [readNumber, takeWhole_append isWhole behindWhole]
  simp only [takePart_append digits behindPart, takeExponent_append isPower ends]
  simp [isWhole.some_digit]

end Numbers

end NoteQuery.Json
