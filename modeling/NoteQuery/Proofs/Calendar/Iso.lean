import NoteQuery.Calendar.Pattern
import NoteQuery.Proofs.Calendar.Count
import NoteQuery.Proofs.Text.Letter
import NoteQuery.Proofs.Text.Search

/-! Moments read back from their texts. A day and a clock are written with a fixed number of digits in
each part, and the standard reads these digits again. -/
namespace NoteQuery

namespace Date

variable {width n : Nat}

/-- The first of the last digits. -/
theorem lastDigits_succ (width n : Nat) :
    lastDigits (width + 1) n = (n / 10 ^ width % 10).digitChar :: lastDigits width n := by
  induction width generalizing n with
  | zero => simp [lastDigits]
  | succ width ih =>
    rw [lastDigits, ih, lastDigits, List.cons_append, Nat.div_div_eq_div_mul, ← pow_succ']

theorem lastDigits_plain {c : Char} (digit : c ∈ lastDigits width n) : c.isDigit = true := by
  have plain : ∀ d < 10, d.digitChar.isDigit = true := by decide
  induction width generalizing n with
  | zero => cases digit
  | succ width ih =>
    rw [lastDigits, List.mem_append, List.mem_singleton] at digit
    rcases digit with front | rfl
    · exact ih front
    · exact plain _ (Nat.mod_lt _ (by decide))

theorem lastDigits_head (width n : Nat) :
    ∃ c rest, lastDigits (width + 1) n = c :: rest ∧ c.isDigit = true := by
  have front := lastDigits_succ width n
  exact ⟨_, _, front, lastDigits_plain (front ▸ List.mem_cons_self)⟩

theorem text_plain {d : Date} {c : Char} (inside : c ∈ d.text.toList) : c.isDigit = true ∨ c = '-' := by
  simp only [text_toList, List.mem_append, List.mem_cons] at inside
  rcases inside with digit | rfl | digit | rfl | digit
  · exact .inl (lastDigits_plain digit)
  · exact .inr rfl
  · exact .inl (lastDigits_plain digit)
  · exact .inr rfl
  · exact .inl (lastDigits_plain digit)

end Date

open Date (lastDigits lastDigits_length lastDigits_head)

namespace Iso

variable {width n : Nat} {c : Char} {rest text : List Char}

theorem digit?_digitChar (short : n < 10) : digit? n.digitChar = some n := by
  have digits : ∀ n < 10, digit? n.digitChar = some n := by decide
  exact digits n short

theorem digits?_lastDigits_append (width n : Nat) (rest : List Char) :
    digits? width (lastDigits width n ++ rest) = some (n % 10 ^ width, rest) := by
  induction width with
  | zero => simp [lastDigits, digits?, Nat.mod_one]
  | succ width ih =>
    rw [Date.lastDigits_succ, List.cons_append, digits?, digit?_digitChar (Nat.mod_lt _ (by decide)), ih]
    simp only [Option.some.injEq, Prod.mk.injEq, and_true]
    rw [Nat.mod_pow_succ, Nat.add_comm, Nat.mul_comm]
    rfl

theorem digits?_lastDigits (short : n < 10 ^ width) (rest : List Char) :
    digits? width (lastDigits width n ++ rest) = some (n, rest) := by
  rw [digits?_lastDigits_append, Nat.mod_eq_of_lt short]

theorem digits?_whole (short : n < 10 ^ width) : digits? width (lastDigits width n) = some (n, []) := by
  have read := digits?_lastDigits short []
  rwa [List.append_nil] at read

theorem digits?_head {count : Nat} {text : List Char} {found : Nat × List Char}
    (read : digits? (count + 1) text = some found) : ∃ c rest, text = c :: rest ∧ c.isDigit = true := by
  cases text with
  | nil => cases read
  | cons c rest =>
    refine ⟨c, rest, rfl, ?_⟩
    rw [digits?, digit?] at read
    split_ifs at read with digit
    rw [Char.isDigit, Bool.and_eq_true, decide_eq_true_eq, decide_eq_true_eq]
    exact digit

theorem readDay?_head {text : List Char} {d : Date} (read : readDay? text = some d) :
    ∃ c rest, text = c :: rest ∧ c.isDigit = true := by
  unfold readDay? at read
  split at read
  · cases read
  · rename_i year
    exact digits?_head year

/-- An ISO text begins with a digit. -/
theorem read?_head {text : List Char} {found : Moment × Option Int}
    (read : read? text = some found) : ∃ c rest, text = c :: rest ∧ c.isDigit = true := by
  unfold read? at read
  split at read
  · cases read
  · dsimp only at read
    split at read
    · cases read
    · rename_i day
      obtain ⟨c, rest, front, digit⟩ := readDay?_head day
      have begins : c :: rest <+: text := front ▸ List.take_prefix _ text
      obtain ⟨more, rfl⟩ := begins
      exact ⟨c, rest ++ more, rfl, digit⟩

theorem ne_of_plain {sign : Char} (digit : c.isDigit = true) (other : sign.isDigit = false) : c ≠ sign := by
  rintro rfl
  cases digit.symm.trans other

theorem readDay?_text (d : Date) : readDay? d.text.toList = some d := by
  obtain ⟨year, month, day⟩ := d.parts_lt
  obtain ⟨c, more, front, digit⟩ := lastDigits_head 1 d.month
  rw [Date.text_toList, readDay?, digits?_lastDigits year]
  simp only [List.head?_cons, BEq.rfl, if_true, List.drop_one, List.tail_cons]
  split
  · rename_i rest begins
    rw [front] at begins
    cases begins
    cases digit
  · rw [digits?_lastDigits month]
    simp only [List.head?_cons, BEq.rfl, if_true, List.tail_cons, Option.bind_some]
    rw [digits?_whole day]
    exact Date.ofParts?_eq_some_iff.mpr ⟨rfl, rfl, rfl⟩

/-- Behind the year of a day stands a hyphen, which no week follows. -/
theorem dayLength_text (d : Date) (rest : List Char) : dayLength (d.text.toList ++ rest) = 10 := by
  obtain ⟨c, more, front, digit⟩ := lastDigits_head 1 d.month
  rw [dayLength, Date.text_toList, List.append_assoc, List.drop_left' (lastDigits_length 4 d.year), front]
  simp only [List.cons_append]
  split
  · rename_i begins
    cases begins
    cases digit
  · rfl
  · rename_i begins
    cases begins
  · rename_i other _
    exact absurd rfl (other _)

theorem text_length (d : Date) : d.text.toList.length = 10 := by
  simp only [Date.text_toList, List.length_append, List.length_cons, lastDigits_length]

/-- The day in front of a time is cut off and read. -/
theorem read?_front (d : Date) (rest : List Char) : read? (d.text.toList ++ rest) =
    match rest with
    | [] => some (.startOf d, none)
    | _ :: time => (readTime? time).map fun (clock, micros) => (⟨d, clock, none⟩, micros) := by
  have long := text_length d
  have some_day : ¬ (d.text.toList ++ rest).length < 7 := by rw [List.length_append]; omega
  have other : ¬ (d.text.toList ++ rest).length = 7 := by rw [List.length_append]; omega
  rw [read?, if_neg some_day]
  cases rest <;>
    simp only [other, false_and, if_false, dayLength_text, List.take_left' long, List.drop_left' long,
      readDay?_text]

theorem readNumbers?_colon {before : List Nat} {colons : Bool} (more : Nat) (short : n < 10 ^ 2)
    (first : before.isEmpty = false → colons = true) (goes_on : rest ≠ []) :
    readNumbers? before colons (more + 1) (lastDigits 2 n ++ ':' :: rest) =
      readNumbers? (before ++ [n]) true more rest := by
  obtain ⟨c, rest, rfl⟩ := List.exists_cons_of_ne_nil goes_on
  rw [readNumbers?, digits?_lastDigits short]
  cases begun : before.isEmpty with
  | true => simp
  | false => simp [first begun]

theorem readNumbers?_end {before : List Nat} {colons : Bool} (short : n < 10 ^ 2) :
    readNumbers? before colons 0 (lastDigits 2 n) = some (before ++ [n], 0, true) := by
  rw [readNumbers?, digits?_whole short]

theorem readFraction?_lastDigits (short : n < 10 ^ 6) : readFraction? (lastDigits 6 n) = some (n, true) := by
  rw [readFraction?, lastDigits_length]
  simp [digits?_whole short]

theorem readNumbers?_fraction {before : List Nat} {colons : Bool} (short : n < 10 ^ 2)
    {micro : Nat} (fine : micro < 10 ^ 6) :
    readNumbers? before colons 0 (lastDigits 2 n ++ '.' :: lastDigits 6 micro) =
      some (before ++ [n], micro, true) := by
  obtain ⟨c, rest, front, digit⟩ := lastDigits_head 5 micro
  have fraction := readFraction?_lastDigits fine
  rw [front] at fraction
  rw [readNumbers?, digits?_lastDigits short, front]
  cases before.isEmpty <;> simp [fraction]

end Iso

/-- The standard is tried before the patterns. -/
theorem readDate_iso {s : String} {m : Moment} {micros : Option Int}
    (read : Iso.read? (Text.trim s.toList) = some (m, micros)) :
    readDate s = micros.elim (.moment m) fun micros =>
      (Moment.ofLocalMicros? (m.localMicros - micros) none).elim .outOfRange .moment := by
  obtain ⟨c, rest, begins, digit⟩ := Iso.read?_head read
  rw [begins] at read
  simp only [readDate, begins, List.head?_cons, Text.isDigit_plain digit, Bool.true_or, if_true, read]
  cases micros with
  | none => rfl
  | some micros => cases found : Moment.ofLocalMicros? (m.localMicros - micros) none <;> simp [found]

namespace Clock

open Iso

/-- The fraction of a second, if there is one. -/
def fraction (c : Clock) : List Char := if c.micro = 0 then [] else '.' :: lastDigits 6 c.micro

/-- The parts of a time of day with colons between them. -/
def written (c : Clock) : List Char :=
  lastDigits 2 c.hour ++ ':' :: (lastDigits 2 c.minute ++ ':' :: (lastDigits 2 c.second ++ c.fraction))

theorem parts_lt (c : Clock) :
    c.hour < 10 ^ 2 ∧ c.minute < 10 ^ 2 ∧ c.second < 10 ^ 2 ∧ c.micro < 10 ^ 6 := by
  obtain ⟨hour, minute, second, micro, hours, minutes, seconds, micros⟩ := c
  dsimp only
  omega

theorem readParts?_written (c : Clock) :
    readParts? c.written = some ⟨c.hour, c.minute, c.second, c.micro, true⟩ := by
  obtain ⟨hour, minute, second, micro⟩ := c.parts_lt
  have digits (n : Nat) (rest : List Char) : lastDigits 2 n ++ rest ≠ [] := by
    simp [Date.lastDigits_succ]
  have seconds : readNumbers? [c.hour, c.minute] true 0 (lastDigits 2 c.second ++ c.fraction) =
      some ([c.hour, c.minute, c.second], c.micro, true) := by
    unfold fraction
    split_ifs with whole
    · rw [List.append_nil, readNumbers?_end second, whole]
      rfl
    · exact readNumbers?_fraction second micro
  rw [readParts?, written, readNumbers?_colon 1 hour (by simp) (digits _ _),
    readNumbers?_colon 0 minute (by simp) (digits _ _), List.nil_append, List.singleton_append, seconds]
  rfl

theorem written_plain (c : Clock) {sign : Char} (inside : sign ∈ c.written) :
    sign.isDigit = true ∨ sign = ':' ∨ sign = '.' := by
  simp only [written, fraction, List.mem_append, List.mem_cons] at inside
  rcases inside with digit | rfl | digit | rfl | digit | part
  · exact .inl (Date.lastDigits_plain digit)
  · exact .inr (.inl rfl)
  · exact .inl (Date.lastDigits_plain digit)
  · exact .inr (.inl rfl)
  · exact .inl (Date.lastDigits_plain digit)
  · split_ifs at part
    · cases part
    · rcases List.mem_cons.mp part with rfl | digit
      · exact .inr (.inr rfl)
      · exact .inl (Date.lastDigits_plain digit)

/-- No sign of an offset stands in a time of day. -/
theorem readTime?_written (c : Clock) : readTime? c.written = some (c, none) := by
  have offsetless : ∀ sign ∈ c.written, (!beginsOffset sign) = true := by
    intro sign inside
    rcases c.written_plain inside with digit | rfl | rfl
    · simp [beginsOffset, ne_of_plain digit]
    · rfl
    · rfl
  rw [readTime?]
  simp only [List.takeWhile_eq_self_iff.mpr offsetless, List.dropWhile_eq_nil_iff.mpr offsetless,
    readParts?_written, Clock.ofParts?_eq_some_iff.mpr ⟨rfl, rfl, rfl, rfl⟩]
  rfl

theorem micros_eq_zero_iff {c : Clock} : c.micros = 0 ↔ c = midnight := by
  obtain ⟨hour, minute, second, micro, _, _, _, _⟩ := c
  simp only [micros, midnight, Clock.mk.injEq]
  omega

end Clock

namespace Moment

variable {m : Moment}

theorem text_toList (naive : m.offset = none) :
    m.text.toList = m.date.text.toList ++ 'T' :: m.clock.written := by
  obtain ⟨hour, minute, second, micro⟩ := m.clock.parts_lt
  have fraction : (if m.clock.micro = 0 then "" else "." ++ Date.padded 6 m.clock.micro).toList =
      m.clock.fraction := by
    unfold Clock.fraction
    split_ifs
    · rfl
    · rw [String.toList_append, Date.padded_toList _ _ micro (by decide)]
      rfl
  simp only [text, naive, Option.map_none, Option.getD_none, String.toList_append, fraction,
    Date.padded_toList _ _ hour (by decide), Date.padded_toList _ _ minute (by decide),
    Date.padded_toList _ _ second (by decide), Clock.written]
  simp

/-- The text of a moment has no blanks and nothing that a table would escape. -/
theorem shortText_plain (naive : m.offset = none) {c : Char} (inside : c ∈ m.shortText.toList) :
    c.isDigit = true ∨ c = '-' ∨ c = 'T' ∨ c = ':' ∨ c = '.' := by
  unfold shortText at inside
  split_ifs at inside
  · rcases Date.text_plain inside with digit | rfl <;> simp [*]
  · rw [text_toList naive, List.mem_append, List.mem_cons] at inside
    rcases inside with front | rfl | clock
    · rcases Date.text_plain front with digit | rfl <;> simp [*]
    · simp
    · rcases m.clock.written_plain clock with digit | rfl | rfl <;> simp [*]

/-- A moment without an offset is read back from its text. -/
theorem read?_shortText (naive : m.offset = none) : Iso.read? m.shortText.toList = some (m, none) := by
  obtain ⟨date, clock, offset⟩ := m
  cases naive
  unfold shortText
  split_ifs with midnight
  · have day := Iso.read?_front date []
    rw [List.append_nil] at day
    have none : clock.micros = 0 := beq_iff_eq.mp midnight
    rw [day, Clock.micros_eq_zero_iff.mp none]
    rfl
  · rw [text_toList rfl, Iso.read?_front]
    simp only [Clock.readTime?_written, Option.map_some]

theorem readDate_shortText (naive : m.offset = none) : readDate m.shortText = .moment m := by
  have blankless : ∀ c ∈ m.shortText.toList, Text.isBlank c = false := by
    intro c inside
    rcases shortText_plain naive inside with digit | rfl | rfl | rfl | rfl
    · by_contra blank
      rw [Bool.not_eq_false] at blank
      cases (Text.isDigit_plain digit).symm.trans (Text.isDigit_of_blank blank)
    all_goals decide
  have read := read?_shortText naive
  rw [← Text.trim_solid blankless] at read
  exact readDate_iso read

end Moment

end NoteQuery
