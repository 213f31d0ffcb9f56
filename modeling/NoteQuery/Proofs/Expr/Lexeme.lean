import NoteQuery.Proofs.Expr.Enclosing

/-! Tokens written and cut again. Each token has texts that stand for it, of which a text in quotes has
two, and tokens are cut from their texts when separators stand between these. Whatever is cut from any text
can be written in this way. -/
namespace NoteQuery

open NoteQuery.Text NoteQuery.Token

/-- What a token says: its kind and the text that it stands for. -/
abbrev Lexeme := TokenKind × String

namespace Lexeme

/-- A sign of a text as it stands between such quotes. -/
def shielded (quote c : Char) : List Char := if c = quote ∨ c = '\\' then ['\\', c] else [c]

/-- The signs that are written for a token. -/
inductive Written : Lexeme → List Char → Prop
  | pair {c d : Char} {kind : TokenKind} (known : pairKind? c d = some kind) :
    Written (kind, String.ofList [c, d]) [c, d]
  | sign {c : Char} {kind : TokenKind} (known : signKind? c = some kind) :
    Written (kind, String.ofList [c]) [c]
  | word {text : String} (word : isWord text = true) :
    Written ((keyword? text).getD .name, text) text.toList
  | whole {digits : List Char} (some_digit : digits ≠ []) (within : ∀ c ∈ digits, isDigit c = true) :
    Written (.number, String.ofList digits) digits
  | decimal {digits part : List Char} (some_digit : digits ≠ []) (within : ∀ c ∈ digits, isDigit c = true)
    (some_digit' : part ≠ []) (within' : ∀ c ∈ part, isDigit c = true) :
    Written (.number, String.ofList (digits ++ '.' :: part)) (digits ++ '.' :: part)
  | quoted {quote : Char} (mark : quote = '"' ∨ quote = '\'') (text : String) :
    Written (.text, text) (quote :: text.toList.flatMap (shielded quote) ++ [quote])

/-- The tokens are written one after another with separators between any two of them, and perhaps more in
front and behind. -/
inductive Spaced : List Lexeme → List Char → Prop
  | nil : Spaced [] []
  | gap {c : Char} {lexemes : List Lexeme} {text : List Char} (blank : isSeparator c = true)
    (later : Spaced lexemes text) : Spaced lexemes (c :: text)
  | last {lexeme : Lexeme} {text : List Char} (written : lexeme.Written text) : Spaced [lexeme] text
  | next {c : Char} {lexeme : Lexeme} {lexemes : List Lexeme} {front text : List Char}
    (written : lexeme.Written front) (blank : isSeparator c = true) (later : Spaced lexemes text) :
    Spaced (lexeme :: lexemes) (front ++ c :: text)

section Cut

variable {p : Position} {quote c : Char} {text rest front : List Char} {lexeme : Lexeme}

theorem readText_shielded (mark : quote = '"' ∨ quote = '\'') (p : Position) (c : Char) (rest : List Char) :
    ∃ p', readText quote p (shielded quote c ++ rest) =
      (readText quote p' rest).map fun (cs, found) => (c :: cs, found) := by
  unfold shielded
  split_ifs with special
  · refine ⟨p.right 2, ?_⟩
    rcases mark with rfl | rfl <;> rcases special with rfl | rfl <;> simp [readText, escaped]
  · rw [not_or] at special
    refine ⟨p.after c, ?_⟩
    rw [List.singleton_append, readText.eq_def]
    simp [special]

theorem separator_iff : isSeparator c = true ↔ c ∈ [' ', '\t', '\r', '\n'] := by
  simp [isSeparator, or_assoc]

/-- A separator or the end ends every token. -/
theorem clear_of_apart (apart : ∀ c ∈ rest.head?, isSeparator c = true) : Clear rest := by
  constructor
  · intro c first
    have separator := separator_iff.mp (apart c first)
    by_contra sign
    rw [Bool.not_eq_false] at sign
    exact notMem_of_class sign (by decide +kernel) separator
  · rintro c more rfl
    cases apart '.' rfl

theorem pairless_of_apart (c : Char) (apart : ∀ c ∈ rest.head?, isSeparator c = true) :
    rest.head?.bind (pairKind? c) = none := by
  refine Option.eq_none_iff_forall_ne_some.mpr fun kind found => ?_
  obtain ⟨d, first, known⟩ := Option.bind_eq_some_iff.mp found
  have solid : isSeparator d = false :=
    of_lookup (P := fun entry => isSeparator entry.1.2 = false) (by decide) known
  cases (apart d first).symm.trans solid

theorem readNumber_decimal {digits part : List Char} (within : ∀ c ∈ digits, isDigit c = true)
    (some_digit : part ≠ []) (within' : ∀ c ∈ part, isDigit c = true) :
    readNumber (digits ++ '.' :: part) = (digits ++ '.' :: part, []) := by
  obtain ⟨d, part, rfl⟩ := List.exists_cons_of_ne_nil some_digit
  have point : ∀ c ∈ ('.' :: d :: part).head?, isDigit c = false := by
    simpa using (by decide +kernel : isDigit '.' = false)
  obtain ⟨taken, dropped⟩ := span_front within point
  simp only [readNumber, taken, dropped, within' d List.mem_cons_self, if_true,
    List.takeWhile_eq_self_iff.mpr within', List.dropWhile_eq_nil_iff.mpr within']

/-- In front of a separator or the end, the token is cut from what is written for it. -/
theorem Written.leads (written : lexeme.Written front) (p : Position) (rest : List Char)
    (apart : ∀ c ∈ rest.head?, isSeparator c = true) :
    ∃ p' token, Leads p (front ++ rest) [token] p' rest ∧ token.spelling = lexeme := by
  have clear := clear_of_apart apart
  have number {c : Char} {digits : List Char} (digit : isDigit c = true)
      (whole : readNumber (c :: digits) = (c :: digits, [])) : ∃ p' token,
      Leads p (c :: digits ++ rest) [token] p' rest ∧
        token.spelling = (.number, String.ofList (c :: digits)) := by
    obtain ⟨p', token, leads, kind, text⟩ := leads_number p digit whole clear
    refine ⟨p', token, leads, ?_⟩
    rw [Token.spelling, kind, ← text, String.ofList_toList]
  cases written with
  | pair known =>
    exact ⟨_, _, leads_next (plain_of_mark (mark_of_pair known)).1 (next_pair p rest known), rfl⟩
  | sign known =>
    exact ⟨_, _, leads_next (plain_of_mark (mark_of_sign known)).1
      (next_sign p known (pairless_of_apart _ apart)), rfl⟩
  | word word =>
    obtain ⟨p', token, leads, kind, text⟩ := leads_word p _ word clear
    exact ⟨p', token, leads, by rw [Token.spelling, kind, text]⟩
  | whole some_digit within =>
    obtain ⟨c, digits, rfl⟩ := List.exists_cons_of_ne_nil some_digit
    exact number (within c List.mem_cons_self) (readNumber_digits within)
  | decimal some_digit within some_digit' within' =>
    obtain ⟨c, digits, rfl⟩ := List.exists_cons_of_ne_nil some_digit
    exact number (within c List.mem_cons_self) (readNumber_decimal within some_digit' within')
  | quoted mark text =>
    obtain ⟨p', token, leads, kind, same⟩ := leads_quoted mark (readText_shielded mark) p text rest
    refine ⟨p', token, ?_, by rw [Token.spelling, kind, same]⟩
    simpa using leads

/-- What is written with separators is cut into the tokens that it is written for. -/
theorem Spaced.scans {lexemes : List Lexeme} (spaced : Spaced lexemes text) (p : Position) :
    ∃ cut, scan p text = .ok cut ∧ cut.map Token.spelling = lexemes ++ [(.stop, "")] := by
  induction spaced generalizing p with
  | nil => exact ⟨_, scan_end p, rfl⟩
  | gap blank _ ih =>
    obtain ⟨cut, scanned, spelled⟩ := ih (p.after _)
    exact ⟨cut, (leads_separator blank).scan scanned, spelled⟩
  | last written =>
    obtain ⟨p', token, leads, spelled⟩ := written.leads p [] (by simp)
    rw [List.append_nil] at leads
    refine ⟨_, leads.scan (scan_end p'), ?_⟩
    rw [List.map_append, List.map_singleton, spelled]
    rfl
  | next written blank _ ih =>
    obtain ⟨p', token, leads, spelled⟩ := written.leads p (_ :: _) (by simpa using blank)
    obtain ⟨cut, scanned, spelled'⟩ := ih (p'.after _)
    refine ⟨_, leads.scan ((leads_separator blank).scan scanned), ?_⟩
    simp [spelled, spelled']

end Cut

section Back

variable {p p' : Position} {c : Char} {rest left : List Char} {token : Token}

theorem written_number (digit : isDigit c = true) :
    ∃ text, Written (.number, String.ofList (readNumber (c :: rest)).1) text := by
  have some_digit {c : Char} {rest : List Char} (digit : isDigit c = true) :
      (c :: rest).takeWhile isDigit ≠ [] := by simp [digit]
  have within {text : List Char} : ∀ c ∈ text.takeWhile isDigit, isDigit c = true :=
    fun c inside => List.mem_takeWhile_imp inside
  unfold readNumber
  dsimp only
  split
  · split_ifs with part
    · exact ⟨_, .decimal (some_digit digit) within (some_digit part) within⟩
    · exact ⟨_, .whole (some_digit digit) within⟩
  · exact ⟨_, .whole (some_digit digit) within⟩

/-- Whatever is cut can be written. -/
theorem exists_written (step : next p c rest = .ok (token, p', left)) :
    ∃ text, Written token.spelling text := by
  unfold next at step
  split at step
  · split at step
    · cases step
      exact ⟨_, .quoted (.inl rfl) _⟩
    · cases step
  split at step
  · rename_i digit
    cases step
    exact written_number digit
  split at step
  · rename_i found
    cases step
    obtain ⟨d, first, known⟩ := Option.bind_eq_some_iff.mp found
    obtain ⟨others, rfl⟩ := List.head?_eq_some_iff.mp first
    exact ⟨_, .pair known⟩
  split at step
  · rename_i known
    cases step
    exact ⟨_, .sign known⟩
  split at step
  · rename_i starts
    cases step
    refine ⟨_, .word ?_⟩
    rw [isWord, String.toList_ofList, Bool.and_eq_true, List.all_eq_true]
    exact ⟨starts, fun d inside => List.mem_takeWhile_imp inside⟩
  · split at step <;> cases step

theorem exists_spaced {lexemes : List Lexeme}
    (each : ∀ lexeme ∈ lexemes, ∃ text, Written lexeme text) : ∃ text, Spaced lexemes text := by
  induction lexemes with
  | nil => exact ⟨[], .nil⟩
  | cons lexeme lexemes ih =>
    obtain ⟨⟨front, written⟩, others⟩ := List.forall_mem_cons.mp each
    obtain ⟨text, spaced⟩ := ih others
    exact ⟨front ++ ' ' :: text, .next written rfl spaced⟩

end Back

/-- Tokens that are written with separators between them are cut as what they are, and what any text is cut
into can be written in this way and is cut again. -/
theorem tokens_spaced :
    (∀ (lexemes : List Lexeme) (text : String), Spaced lexemes text.toList →
      ∃ cut, tokens text = .ok cut ∧ cut.map Token.spelling = lexemes ++ [(.stop, "")]) ∧
    (∀ (text : String) (cut : List Token), tokens text = .ok cut →
      ∃ lexemes, cut.map Token.spelling = lexemes ++ [(.stop, "")] ∧
        (∃ again : String, Spaced lexemes again.toList) ∧
        ∀ again : String, Spaced lexemes again.toList →
          ∃ cut', tokens again = .ok cut' ∧ cut'.map Token.spelling = cut.map Token.spelling) := by
  refine ⟨fun lexemes text spaced => spaced.scans _, fun text cut scanned => ?_⟩
  obtain ⟨body, p, rfl, each⟩ := scan_forall exists_written scanned
  have spelled : (body ++ [(⟨.stop, "", p⟩ : Token)]).map Token.spelling =
      body.map Token.spelling ++ [(.stop, "")] := List.map_append
  obtain ⟨again, spaced⟩ := exists_spaced (List.forall_mem_map.mpr each)
  refine ⟨_, spelled, ⟨String.ofList again, String.toList_ofList.symm ▸ spaced⟩, fun again spaced => ?_⟩
  rw [spelled]
  exact spaced.scans _

theorem tokens_spaced_sample : ∃ cut, tokens "'it\\'s' &&\n. 1.5" = .ok cut ∧
    cut.map Token.spelling =
      [(.text, "it's"), (.and, "&&"), (.dot, "."), (.number, "1.5"), (.stop, "")] := by
  have signs : "'it\\'s' &&\n. 1.5".toList = ('\'' :: "it's".toList.flatMap (shielded '\'') ++ ['\'']) ++
      ' ' :: (['&', '&'] ++ '\n' :: (['.'] ++ ' ' :: (['1'] ++ '.' :: ['5']))) := by decide +kernel
  have spaced : Spaced [(.text, "it's"), (.and, "&&"), (.dot, "."), (.number, "1.5")]
      "'it\\'s' &&\n. 1.5".toList := by
    rw [signs]
    refine .next (.quoted (.inr rfl) "it's") rfl (.next (.pair rfl) rfl (.next (.sign rfl) rfl (.last ?_)))
    exact .decimal (List.cons_ne_nil '1' []) (List.forall_mem_singleton.mpr (isDigit_plain rfl))
      (List.cons_ne_nil '5' []) (List.forall_mem_singleton.mpr (isDigit_plain rfl))
  exact tokens_spaced.1 _ _ spaced

end Lexeme

end NoteQuery
