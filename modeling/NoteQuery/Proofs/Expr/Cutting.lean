import NoteQuery.Proofs.Expr.Scanning
import NoteQuery.Proofs.Text.Letter
import NoteQuery.Proofs.Text.Search

/-! Cutting a text piece by piece. A word, a number, a text in quotes and a sign are each cut as one
token from the front, wherever the text begins, so texts put together give their tokens together. -/
namespace NoteQuery

namespace Token

open NoteQuery.Text

/-- The front of the text is cut into these tokens, and the cutting goes on with the rest. -/
def Leads (p : Position) (text : List Char) (cut : List Token) (p' : Position)
    (rest : List Char) : Prop :=
  scan p text = (scan p' rest).map (cut ++ ·)

section Front

variable {p p' p'' : Position} {c d : Char} {text rest rest' : List Char} {cut cut' : List Token}
  {kind : TokenKind}

theorem Leads.refl : Leads p text [] p text := by
  unfold Leads
  cases scan p text <;> rfl

theorem Leads.trans (first : Leads p text cut p' rest) (second : Leads p' rest cut' p'' rest') :
    Leads p text (cut ++ cut') p'' rest' := by
  unfold Leads at *
  rw [first, second]
  cases scan p'' rest' <;> simp [Except.map]

theorem Leads.scan {more : List Token} (leads : Leads p text cut p' rest)
    (later : scan p' rest = .ok more) : scan p text = .ok (cut ++ more) := by
  rw [show Token.scan p text = _ from leads, later]
  rfl

theorem leads_separator (blank : isSeparator c = true) :
    Leads p (c :: rest) [] (p.after c) rest := by
  unfold Leads
  rw [scan_eq, skip, if_pos blank, ← scan_eq]
  exact Leads.refl

theorem leads_next {token : Token} (solid : isSeparator c = false)
    (step : next p c rest = .ok (token, p', rest')) : Leads p (c :: rest) [token] p' rest' := by
  unfold Leads
  rw [scan_eq]
  simp only [skip, solid, step, Bool.false_eq_true, if_false]
  rfl

theorem plain_of_class {P : Char → Bool} (inside : P c = true)
    (outside : [' ', '\t', '\r', '\n', '"', '\''].all (fun d => !P d) = true) :
    isSeparator c = false ∧ ¬(c = '"' ∨ c = '\'') := by
  have other := notMem_of_class inside outside
  simp only [List.mem_cons, List.not_mem_nil, or_false, not_or] at other
  simp [isSeparator, other]

/-- The signs that operations of two signs begin with. -/
def doubling : List Char := ['=', '!', '<', '>', '&', '|']

/-- The signs that operations, brackets and the like begin with. -/
def marks : List Char :=
  doubling ++ ['+', '-', '*', '/', '%', ',', '(', ')', '[', ']', '.']

theorem doubling_of_pair (found : pairKind? c d = some kind) : c ∈ doubling :=
  of_lookup (P := fun entry => entry.1.1 ∈ doubling) (by decide) found

theorem mark_of_pair (found : pairKind? c d = some kind) : c ∈ marks :=
  List.mem_append_left _ (doubling_of_pair found)

theorem mark_of_sign (found : signKind? c = some kind) : c ∈ marks :=
  of_lookup (P := fun entry => entry.1 ∈ marks) (by decide) found

theorem pairless (lone : c ∉ doubling) : rest.head?.bind (pairKind? c) = none := by
  refine Option.eq_none_iff_forall_ne_some.mpr fun kind found => ?_
  obtain ⟨d, _, found⟩ := Option.bind_eq_some_iff.mp found
  exact lone (doubling_of_pair found)

theorem lone_of_unmarked (other : c ∉ marks) : c ∉ doubling :=
  fun member => other (List.mem_append_left _ member)

theorem signless (other : c ∉ marks) : signKind? c = none :=
  Option.eq_none_iff_forall_ne_some.mpr fun _ found => other (mark_of_sign found)

theorem isDigit_of_mark (mark : c ∈ marks) : isDigit c = false := by
  by_contra digit
  rw [Bool.not_eq_false] at digit
  exact notMem_of_class digit (by decide +kernel) mark

theorem plain_of_mark (mark : c ∈ marks) : isSeparator c = false ∧ ¬(c = '"' ∨ c = '\'') :=
  plain_of_class (P := marks.contains) (List.contains_iff_mem.mpr mark) (by decide)

theorem next_pair (p : Position) (rest : List Char) (found : pairKind? c d = some kind) :
    next p c (d :: rest) = .ok (⟨kind, String.ofList [c, d], p⟩, p.right 2, rest) := by
  have mark := mark_of_pair found
  simp [next, (plain_of_mark mark).2, isDigit_of_mark mark, found]

theorem leads_pair (found : pairKind? c d = some kind) :
    ∃ token, Leads p (c :: d :: rest) [token] (p.right 2) rest ∧ token.kind = kind :=
  ⟨_, leads_next (plain_of_mark (mark_of_pair found)).1 (next_pair p rest found), rfl⟩

theorem next_sign (p : Position) (found : signKind? c = some kind)
    (alone : rest.head?.bind (pairKind? c) = none) :
    next p c rest = .ok (⟨kind, String.ofList [c], p⟩, p.right 1, rest) := by
  have mark := mark_of_sign found
  simp [next, (plain_of_mark mark).2, isDigit_of_mark mark, alone, found]

theorem leads_sign (found : signKind? c = some kind)
    (alone : rest.head?.bind (pairKind? c) = none) :
    ∃ token, Leads p (c :: rest) [token] (p.right 1) rest ∧ token.kind = kind :=
  ⟨_, leads_next (plain_of_mark (mark_of_sign found)).1 (next_sign p found alone), rfl⟩

theorem leads_lone (p : Position) (rest : List Char) (found : signKind? c = some kind)
    (lone : c ∉ doubling) :
    ∃ token, Leads p (c :: rest) [token] (p.right 1) rest ∧ token.kind = kind :=
  leads_sign found (pairless lone)

end Front

section Blanks

variable {p : Position} {c : Char} {text rest : List Char}

/-- A blank that does not separate cannot be cut. -/
theorem next_blank (p : Position) (rest : List Char) (blank : isBlank c = true) :
    ∃ e, next p c rest = .error e := by
  have other : c ∉ '"' :: '\'' :: '_' :: marks := notMem_of_class blank (by decide +kernel)
  simp only [List.mem_cons, not_or] at other
  obtain ⟨double, single, line, mark⟩ := other
  simp only [next, double, single, isDigit_of_blank blank, pairless (lone_of_unmarked mark),
    signless mark, isLetter_of_blank blank, beq_eq_false_iff_ne.mpr line, or_self, Bool.or_self,
    Bool.false_eq_true, if_false]
  split <;> exact ⟨_, rfl⟩

theorem skip_suffix (p : Position) (text : List Char) : (skip p text).2 <:+ text := by
  induction text generalizing p with
  | nil => exact List.suffix_refl _
  | cons c rest ih =>
    rw [skip]
    split
    · exact (ih _).trans (List.suffix_cons _ _)
    · exact List.suffix_refl _

/-- A text of blanks alone is cut into the end token, if at all. -/
theorem scan_blank {tokens : List Token} (blank : ∀ c ∈ text, isBlank c = true)
    (scanned : scan p text = .ok tokens) : ∃ stop, tokens = [stop] := by
  rw [scan_eq] at scanned
  have suffix := skip_suffix p text
  rcases skipped : skip p text with ⟨p', _ | ⟨c, rest⟩⟩
  · simp only [skipped, Except.ok.injEq] at scanned
    exact ⟨_, scanned.symm⟩
  · rw [skipped] at suffix
    obtain ⟨e, failed⟩ := next_blank p' rest (blank c (suffix.mem List.mem_cons_self))
    simp [skipped, failed] at scanned

theorem full_of_tokens {text : String} {front rest : List Token} {token : Token}
    (scanned : NoteQuery.tokens text = .ok (front ++ token :: rest)) (going : token.kind ≠ .stop) : isBlankText text = false := by
  by_contra blank
  rw [Bool.not_eq_false, isBlankText, List.all_eq_true] at blank
  obtain ⟨stop, single⟩ := scan_blank blank scanned
  obtain ⟨body, last, split, _, ended⟩ := scan_ended scanned
  have only : token ∈ [stop] := single ▸ List.mem_append_right _ List.mem_cons_self
  have only' : last ∈ [stop] := single ▸ split ▸ List.mem_append_right _ List.mem_cons_self
  rw [List.mem_singleton] at only only'
  exact going (only ▸ only' ▸ ended)

end Blanks

section Runs

variable {p : Position} {c : Char} {front rest : List Char}

/-- What may stand behind a word or a number: neither goes on into it. -/
structure Clear (rest : List Char) : Prop where
  word : ∀ c ∈ rest.head?, isWordSign c = false
  fraction : ∀ c more, rest = '.' :: c :: more → isDigit c = false

namespace Clear

theorem nil : Clear [] := ⟨by simp, by simp⟩

theorem dot (letter : isDigit c = false) : Clear ('.' :: c :: rest) :=
  ⟨by simpa using (by decide +kernel : isWordSign '.' = false), by simp [letter]⟩

theorem digitless (clear : Clear rest) : ∀ c ∈ rest.head?, isDigit c = false := by
  intro c first
  by_contra digit
  rw [Bool.not_eq_false] at digit
  exact absurd (clear.word c first) (by simp [isWordSign_of_digit digit])

theorem blank (rest : List Char) : Clear (' ' :: rest) :=
  ⟨by simpa using (by decide +kernel : isWordSign ' ' = false), by simp⟩

theorem mark (mark : c ∈ marks) (other : c ≠ '.') : Clear (c :: rest) := by
  refine ⟨fun d first => ?_, by simp [other]⟩
  obtain rfl : c = d := by simpa using first
  by_contra sign
  rw [Bool.not_eq_false] at sign
  exact notMem_of_class sign (by decide +kernel) mark

end Clear

def startsWord (c : Char) : Bool := isLetter c || c == '_'

/-- A text that is one word, reserved or not. -/
def isWord (text : String) : Bool :=
  match text.toList with
  | [] => false
  | c :: rest => startsWord c && rest.all isWordSign

theorem isWord_front {text : String} (word : isWord text = true) :
    ∃ c more, text.toList = c :: more ∧ startsWord c = true ∧ ∀ d ∈ more, isWordSign d = true := by
  unfold isWord at word
  split at word
  · cases word
  · rename_i c more split
    rw [Bool.and_eq_true, List.all_eq_true] at word
    exact ⟨c, more, split, word⟩

theorem isDigit_of_startsWord (starts : startsWord c = true) : isDigit c = false := by
  rw [startsWord, Bool.or_eq_true, beq_iff_eq] at starts
  rcases starts with letter | rfl
  · exact isDigit_of_letter letter
  · decide +kernel

theorem leads_word (p : Position) (text : String) (word : isWord text = true) (clear : Clear rest) :
    ∃ p' token, Leads p (text.toList ++ rest) [token] p' rest ∧
      token.kind = (keyword? text).getD .name ∧ token.text = text := by
  obtain ⟨c, more, split, starts, signs⟩ := isWord_front word
  obtain ⟨taken, dropped⟩ := span_front signs clear.word
  obtain ⟨solid, unquoted⟩ := plain_of_class starts (by decide +kernel)
  have other : c ∉ marks := notMem_of_class starts (by decide +kernel)
  have same : String.ofList (c :: more) = text := by rw [← split, String.ofList_toList]
  have step : next p c (more ++ rest) = .ok (⟨(keyword? text).getD .name, text, p⟩,
      p.right (c :: more).length, rest) := by
    have digit := isDigit_of_startsWord starts
    rw [startsWord] at starts
    simp only [next, unquoted, digit, pairless (lone_of_unmarked other), signless other,
      Bool.false_eq_true, if_false, starts, if_true, taken, dropped, same]
  rw [split]
  exact ⟨_, _, leads_next solid step, rfl, rfl⟩

theorem readNumber_append (text : List Char) (clear : Clear rest) :
    readNumber (text ++ rest) = ((readNumber text).1, (readNumber text).2 ++ rest) := by
  obtain ⟨taken, dropped⟩ := span_append text clear.digitless
  unfold readNumber
  rw [taken, dropped]
  dsimp only
  rcases text.dropWhile isDigit with _ | ⟨c, others⟩
  · rw [List.nil_append]
    split
    · rename_i d more
      rw [clear.fraction d more rfl]
      rfl
    · rfl
  by_cases point : c = '.'
  · subst point
    cases others with
    | nil =>
      cases rest with
      | nil => rfl
      | cons d more => simp [clear.digitless d rfl]
    | cons d others =>
      obtain ⟨taken, dropped⟩ := span_append (d :: others) clear.digitless
      simp only [List.cons_append] at taken dropped ⊢
      split_ifs with digit
      · rw [taken, dropped]
      · rfl
  · simp [point]

theorem readNumber_digits {digits : List Char} (within : ∀ c ∈ digits, isDigit c = true) :
    readNumber digits = (digits, []) := by
  simp only [readNumber, List.takeWhile_eq_self_iff.mpr within, List.dropWhile_eq_nil_iff.mpr within]

/-- A number that is read whole is cut from in front of what it does not go on into. -/
theorem leads_number (p : Position) {digits : List Char} (digit : isDigit c = true)
    (whole : readNumber (c :: digits) = (c :: digits, [])) (clear : Clear rest) :
    ∃ p' token, Leads p (c :: digits ++ rest) [token] p' rest ∧
      token.kind = .number ∧ token.text.toList = c :: digits := by
  obtain ⟨solid, unquoted⟩ := plain_of_class digit (by decide +kernel)
  have step : next p c (digits ++ rest) = .ok (⟨.number, String.ofList (c :: digits), p⟩,
      p.right (c :: digits).length, rest) := by
    simp only [next, unquoted, digit, if_false, if_true, ← List.cons_append,
      readNumber_append (c :: digits) clear, whole, List.nil_append]
  exact ⟨_, _, leads_next solid step, rfl, String.toList_ofList⟩

theorem leads_digits (p : Position) {digits : List Char}
    (within : ∀ d ∈ c :: digits, isDigit d = true) (clear : Clear rest) :
    ∃ p' token, Leads p (c :: digits ++ rest) [token] p' rest ∧
      token.kind = .number ∧ token.text.toList = c :: digits :=
  leads_number p (within c List.mem_cons_self) (readNumber_digits within) clear

end Runs

section Texts

/-- A sign as it stands between double quotes. -/
def escape (c : Char) : List Char :=
  if c = '"' ∨ c = '\\' then ['\\', c]
  else if c = '\n' then ['\\', 'n']
  else if c = '\t' then ['\\', 't']
  else if c = '\r' then ['\\', 'r']
  else [c]

theorem readText_escape (p : Position) (c : Char) (rest : List Char) :
    ∃ p', readText '"' p (escape c ++ rest) =
      (readText '"' p' rest).map fun (cs, found) => (c :: cs, found) := by
  unfold escape
  split_ifs with special feed tab back
  · refine ⟨p.right 2, ?_⟩
    rcases special with rfl | rfl <;> simp [readText, escaped]
  · subst feed
    exact ⟨p.right 2, by simp [readText, escaped]⟩
  · subst tab
    exact ⟨p.right 2, by simp [readText, escaped]⟩
  · subst back
    exact ⟨p.right 2, by simp [readText, escaped]⟩
  · rw [not_or] at special
    refine ⟨p.after c, ?_⟩
    rw [List.singleton_append, readText.eq_def]
    simp [special]

/-- A text is read between quotes if each of its signs is. -/
theorem readText_written {quote : Char} {write : Char → List Char}
    (each : ∀ p c rest, ∃ p', readText quote p (write c ++ rest) =
      (readText quote p' rest).map fun (cs, found) => (c :: cs, found))
    (p : Position) (text rest : List Char) :
    ∃ p', readText quote p (text.flatMap write ++ quote :: rest) = some (text, p', rest) := by
  induction text generalizing p with
  | nil =>
    refine ⟨p.right 1, ?_⟩
    rw [readText.eq_def]
    simp
  | cons c text ih =>
    obtain ⟨between, step⟩ := each p c (text.flatMap write ++ quote :: rest)
    obtain ⟨p', read⟩ := ih between
    refine ⟨p', ?_⟩
    rw [List.flatMap_cons, List.append_assoc, step, read]
    rfl

/-- What is read up to the closing quote is cut as one token. -/
theorem leads_read {p p' : Position} {quote : Char} {text signs rest : List Char} (mark : quote = '"' ∨ quote = '\'')
    (read : readText quote (p.right 1) text = some (signs, p', rest)) :
    ∃ token, Leads p (quote :: text) [token] p' rest ∧ token.kind = .text ∧ token.text = String.ofList signs := by
  have step : next p quote text = .ok (⟨.text, String.ofList signs, p⟩, p', rest) := by
    simp [next, mark, read]
  have solid : isSeparator quote = false := by rcases mark with rfl | rfl <;> decide
  exact ⟨_, leads_next solid step, rfl, rfl⟩

theorem leads_quoted {quote : Char} {write : Char → List Char} (quoted : quote = '"' ∨ quote = '\'')
    (each : ∀ p c rest, ∃ p', readText quote p (write c ++ rest) =
      (readText quote p' rest).map fun (cs, found) => (c :: cs, found))
    (p : Position) (text : String) (rest : List Char) :
    ∃ p' token, Leads p (quote :: text.toList.flatMap write ++ quote :: rest) [token] p' rest ∧
      token.kind = .text ∧ token.text = text := by
  obtain ⟨p', read⟩ := readText_written each (p.right 1) text.toList rest
  obtain ⟨token, leads, kind, same⟩ := leads_read quoted read
  exact ⟨p', token, leads, kind, same.trans String.ofList_toList⟩

theorem leads_text (p : Position) (text : String) (rest : List Char) :
    ∃ p' token, Leads p ('"' :: text.toList.flatMap escape ++ '"' :: rest) [token] p' rest ∧
      token.kind = .text ∧ token.text = text :=
  leads_quoted (.inl rfl) readText_escape p text rest

end Texts

/-- In front of what does not go on into it, the text is cut into such tokens. -/
def Cuts (text : List Char) (good : List Token → Prop) : Prop :=
  ∀ p rest, Clear rest → ∃ p' cut, Leads p (text ++ rest) cut p' rest ∧ good cut

def Enclosed (opening closing : TokenKind) (good : List Token → Prop) (cut : List Token) : Prop :=
  ∃ start inside stop, cut = start :: inside ++ [stop] ∧ start.kind = opening ∧ good inside ∧
    stop.kind = closing

namespace Cuts

variable {text text' : List Char} {good good' : List Token → Prop}

theorem mono (cuts : Cuts text good) (weaker : ∀ cut, good cut → good' cut) : Cuts text good' := by
  intro p rest clear
  obtain ⟨p', cut, leads, fits⟩ := cuts p rest clear
  exact ⟨p', cut, leads, weaker cut fits⟩

theorem append (first : Cuts text good) (second : Cuts text' good')
    (clear : ∀ rest, Clear (text' ++ rest)) : Cuts (text ++ text')
      (fun cut => ∃ front back, cut = front ++ back ∧ good front ∧ good' back) := by
  intro p rest ends
  obtain ⟨between, front, leads, fits⟩ := first p (text' ++ rest) (clear rest)
  obtain ⟨p', back, leads', fits'⟩ := second between rest ends
  refine ⟨p', front ++ back, ?_, front, back, rfl, fits, fits'⟩
  rw [List.append_assoc]
  exact leads.trans leads'

theorem behind {c : Char} {kind : TokenKind} (found : signKind? c = some kind)
    (lone : c ∉ doubling) (cuts : Cuts text good) :
    Cuts (c :: text) (fun cut => ∃ sign back, cut = sign :: back ∧ sign.kind = kind ∧ good back) := by
  intro p rest clear
  obtain ⟨sign, first, same⟩ := leads_lone p (text ++ rest) found lone
  obtain ⟨p', back, second, fits⟩ := cuts (p.right 1) rest clear
  exact ⟨p', sign :: back, first.trans second, sign, back, rfl, same, fits⟩

theorem sign {c : Char} {kind : TokenKind} (found : signKind? c = some kind)
    (lone : c ∉ doubling) :
    Cuts [c] (fun cut => ∃ sign, cut = [sign] ∧ sign.kind = kind) := by
  intro p rest _
  obtain ⟨sign, leads, same⟩ := leads_lone p rest found lone
  exact ⟨_, [sign], leads, sign, rfl, same⟩

theorem enclosed {a b : Char} {opening closing : TokenKind} (opens : signKind? a = some opening)
    (lone : a ∉ doubling) (inside : Cuts text good) (closes : signKind? b = some closing)
    (lone' : b ∉ doubling) (other : b ≠ '.') :
    Cuts (a :: text ++ [b]) (Enclosed opening closing good) := by
  have closed := inside.append (sign closes lone') fun _ => .mark (mark_of_sign closes) other
  refine (closed.behind opens lone).mono ?_
  rintro _ ⟨start, _, rfl, kind, inside, _, rfl, fits, stop, rfl, kind'⟩
  exact ⟨start, inside, stop, rfl, kind, fits, kind'⟩

theorem parenthesized (inside : Cuts text good) :
    Cuts ('(' :: text ++ [')']) (Enclosed .openParen .closeParen good) :=
  enclosed rfl (by decide) inside rfl (by decide) (by decide)

theorem bracketed (inside : Cuts text good) :
    Cuts ('[' :: text ++ [']']) (Enclosed .openBracket .closeBracket good) :=
  enclosed rfl (by decide) inside rfl (by decide) (by decide)

theorem word (word : String) (named : isWord word = true) : Cuts word.toList (fun cut =>
    ∃ token, cut = [token] ∧ token.kind = (keyword? word).getD .name ∧ token.text = word) := by
  intro p rest clear
  obtain ⟨p', token, leads, kind, same⟩ := leads_word p word named clear
  exact ⟨p', [token], leads, token, rfl, kind, same⟩

theorem quoted (text : String) : Cuts ('"' :: text.toList.flatMap escape ++ ['"'])
    (fun cut => ∃ token, cut = [token] ∧ token.kind = .text ∧ token.text = text) := by
  intro p rest _
  obtain ⟨p', token, leads, kind, same⟩ := leads_text p text rest
  exact ⟨p', [token], by simpa using leads, token, rfl, kind, same⟩

theorem separated (cuts : Cuts text good) : Cuts (' ' :: text) good := by
  intro p rest clear
  obtain ⟨p', cut, leads, fits⟩ := cuts (p.after ' ') rest clear
  exact ⟨p', cut, (leads_separator rfl).trans leads, fits⟩

end Cuts

end Token

end NoteQuery
