import NoteQuery.Proofs.Expr.Halting
import NoteQuery.Proofs.Expr.Lexeme

/-! Texts that are no expression. The readers refuse them with an error of syntax that does not know the
text yet, or with a number that cannot be read. Read as a whole, a text that is refused stands in the
error. A number cannot be read if a digit of it is raised or if it is whole and too long, and it stops the
reading only where a part of the expression has to stand. -/
namespace NoteQuery

/-- A failure of a reader that has seen a part of a text. -/
def Failure.Unread (f : Failure) : Prop :=
  f = .fault .badValue ∨ ∃ cause position, f = .error (.malformed ⟨cause, position, none⟩)

namespace Token

theorem next_fails (p : Position) (c : Char) (rest : List Char) :
    (next p c rest).FailsOnly fun e => e.expression = none := by
  unfold next
  split
  · split
    · exact Except.failsOnly_ok _
    · exact .error rfl
  · split
    · exact Except.failsOnly_ok _
    · split
      · exact Except.failsOnly_ok _
      · split
        · exact Except.failsOnly_ok _
        · split
          · exact Except.failsOnly_ok _
          · split
            · exact .error rfl
            · exact .error rfl

theorem scan_fails (p : Position) (text : List Char) :
    (scan p text).FailsOnly fun e => e.expression = none := by
  fun_induction scan p text with
  | case1 p text p' found => exact Except.failsOnly_ok _
  | case2 p text p' c rest found e step =>
    exact .error (next_fails p' c rest e step)
  | case3 p text p' c rest found token after left step e later ih =>
    exact .error (ih e later)
  | case4 p text p' c rest found token after left step tokens later ih => exact Except.failsOnly_ok _

end Token

namespace Expr

open NoteQuery.Text NoteQuery.Token

theorem ofTokens_unread (tokens : List Token) : (ofTokens tokens).FailsOnly Failure.Unread := by
  intro f failed
  obtain ⟨_, _, _, _, stops, _⟩ := ofTokens_halts failed
  cases stops with
  | malformed => exact .inr ⟨_, _, rfl⟩
  | number => exact .inl rfl

/-- A text that is refused is known to the error of syntax, unless it holds a number that cannot be
read. -/
theorem ofText_refused (text : String) : (ofText text).FailsOnly fun f =>
    f = .fault .badValue ∨ ∃ e, f = .error (.malformed e) ∧ e.expression = some text := by
  unfold ofText
  split
  · exact .error (.inr ⟨_, rfl, rfl⟩)
  · split
    · rename_i e scanned
      have unnamed : e.expression = none := Token.scan_fails _ _ e scanned
      refine .error (.inr ⟨_, rfl, ?_⟩)
      rw [SyntaxError.inText, unnamed]
      rfl
    · rename_i tokens scanned
      split
      · rename_i e read
        rcases ofTokens_unread tokens _ read with fault | ⟨cause, position, same⟩
        · cases fault
        · cases same
          exact .error (.inr ⟨_, rfl, rfl⟩)
      · rename_i other
        intro f read
        rcases ofTokens_unread tokens f read with fault | ⟨cause, position, same⟩
        · exact .inl fault
        · exact absurd (same ▸ read) (other _)

section Numbers

variable {text : String} {lexeme : Lexeme} {signs : List Char}

/-- The digits are no number: one of them is raised, or there are more of them than a whole number may have. -/
def Unreadable (text : String) : Prop :=
  (∃ c ∈ text.toList, isDigit c = true ∧ isDecimal c = false) ∨
    ('.' ∉ text.toList ∧ Numeral.maxDigits < text.length)

theorem pointless {digits : List Char} (within : ∀ c ∈ digits, isDigit c = true) : '.' ∉ digits :=
  fun inside => Numeral.notMem_of_digit (within '.' inside) (by simp)

theorem numberLiteral_whole {digits : List Char} (some_digit : digits ≠ [])
    (within : ∀ c ∈ digits, isDigit c = true) :
    numberLiteral (String.ofList digits) = .error (.fault .badValue) ↔ Unreadable (String.ofList digits) := by
  have unread := Numeral.readInt?_eq_none_iff some_digit within
  have pointless := pointless within
  have fault : numberLiteral (String.ofList digits) = .error (.fault .badValue) ↔
      Numeral.readInt? digits = none := by
    simp only [numberLiteral, String.toList_ofList, List.contains_iff_mem, pointless, if_false]
    cases Numeral.readInt? digits <;> simp
  rw [fault, unread, Unreadable, String.toList_ofList, String.length_ofList]
  constructor
  · rintro (⟨c, inside, raised⟩ | long)
    · exact .inl ⟨c, inside, within c inside, raised⟩
    · exact .inr ⟨pointless, long⟩
  · rintro (⟨c, inside, _, raised⟩ | ⟨_, long⟩)
    · exact .inl ⟨c, inside, raised⟩
    · exact .inr long

theorem numberLiteral_decimal {digits part : List Char} (some_digit : digits ≠ [])
    (within : ∀ c ∈ digits, isDigit c = true) (within' : ∀ c ∈ part, isDigit c = true) :
    numberLiteral (String.ofList (digits ++ '.' :: part)) = .error (.fault .badValue) ↔
      Unreadable (String.ofList (digits ++ '.' :: part)) := by
  have unread := Numeral.readFloat?_eq_none_iff some_digit within within'
  have pointed : '.' ∈ digits ++ '.' :: part := by simp
  have fault : numberLiteral (String.ofList (digits ++ '.' :: part)) = .error (.fault .badValue) ↔
      Numeral.readFloat? (digits ++ '.' :: part) = none := by
    simp only [numberLiteral, String.toList_ofList, List.contains_iff_mem, pointed, if_true]
    cases Numeral.readFloat? (digits ++ '.' :: part) <;> simp
  rw [fault, unread, Unreadable, String.toList_ofList]
  constructor
  · rintro ⟨c, inside, raised⟩
    rcases List.mem_append.mp inside with inside | inside
    · exact .inl ⟨c, List.mem_append_left _ inside, within c inside, raised⟩
    · exact .inl ⟨c, List.mem_append_right _ (List.mem_cons_of_mem _ inside), within' c inside, raised⟩
  · rintro (⟨c, inside, digit, raised⟩ | ⟨pointless, _⟩)
    · have other : c ≠ '.' := fun same => Numeral.notMem_of_digit digit (by simp [same])
      exact ⟨c, by simpa [other] using inside, raised⟩
    · exact absurd pointed pointless

theorem numberLiteral_fails_iff (written : lexeme.Written signs) (kind : lexeme.1 = .number) :
    numberLiteral lexeme.2 = .error (.fault .badValue) ↔ Unreadable lexeme.2 := by
  cases written with
  | pair known => exact absurd kind (of_lookup (P := fun entry => entry.2 ≠ .number) (by decide) known)
  | sign known => exact absurd kind (of_lookup (P := fun entry => entry.2 ≠ .number) (by decide) known)
  | word => exact absurd kind (kind_of_word (P := (· ≠ .number)) (by decide) _)
  | whole some_digit within => exact numberLiteral_whole some_digit within
  | decimal some_digit within _ within' => exact numberLiteral_decimal some_digit within within'
  | quoted => cases kind

end Numbers

theorem unread_iff {text : String} {front rest : List Token} {number : Token}
    (scanned : tokens text = .ok (front ++ number :: rest)) (kind : number.kind = .number) :
    numberLiteral number.text = .error (.fault .badValue) ↔ Unreadable number.text := by
  obtain ⟨body, p, split, each⟩ := scan_forall Lexeme.exists_written scanned
  have inside : number ∈ body ++ [⟨.stop, "", p⟩] := split ▸ List.mem_append_right _ List.mem_cons_self
  rcases List.mem_append.mp inside with inside | ended
  · obtain ⟨signs, written⟩ := each number inside
    exact numberLiteral_fails_iff written kind
  · rw [List.mem_singleton] at ended
    cases kind.symm.trans (congrArg Token.kind ended)

theorem ofText_eq_fault {text : String} {fault : Fault} (failed : ofText text = .error (.fault fault)) :
    ∃ cut, tokens text = .ok cut ∧ ofTokens cut = .error (.fault fault) := by
  unfold ofText at failed
  split at failed
  · cases failed
  · split at failed
    · cases failed
    · rename_i cut scanned
      refine ⟨cut, scanned, ?_⟩
      split at failed
      · cases failed
      · exact failed

theorem ofText_eq_malformed {text : String} {e : SyntaxError}
    (failed : ofText text = .error (.error (.malformed e))) : e.position = none ∨
      ∃ e', e = e'.inText text ∧ (tokens text = .error e' ∨
        ∃ cut, tokens text = .ok cut ∧ ofTokens cut = .error (.error (.malformed e'))) := by
  unfold ofText at failed
  split at failed
  · cases failed
    exact .inl rfl
  · split at failed
    · rename_i e' scanned
      cases failed
      exact .inr ⟨e', rfl, .inl scanned⟩
    · rename_i cut scanned
      split at failed
      · rename_i e' read
        cases failed
        exact .inr ⟨e', rfl, .inr ⟨cut, scanned, read⟩⟩
      · rename_i other
        exact absurd failed (other e)

/-- A text is an expression, or is refused with an error of syntax that knows it, or else a number in it
cannot be read: what stands in front of the number is complete as far as it goes. -/
theorem ofText_outcome (text : String) :
    ((∃ e, ofText text = .ok e) ∨ (∃ e, ofText text = .error (.error (.malformed e)) ∧ e.expression = some text) ∨
      ofText text = .error (.fault .badValue)) ∧
    (ofText text = .error (.fault .badValue) ↔
      ∃ front number rest, tokens text = .ok (front ++ number :: rest) ∧ Awaits 0 front ∧
        number.kind = .number ∧ Unreadable number.text) := by
  refine ⟨?_, fun fault => ?_, ?_⟩
  · cases read : ofText text with
    | ok e => exact .inl ⟨e, rfl⟩
    | error f =>
      rcases ofText_refused text f read with rfl | ⟨e, rfl, known⟩
      · exact .inr (.inr rfl)
      · exact .inr (.inl ⟨e, rfl, known⟩)
  · obtain ⟨cut, scanned, failed⟩ := ofText_eq_fault fault
    obtain ⟨front, rest, rfl, _, stops, waits⟩ := ofTokens_halts failed
    cases stops with
    | @number number rest kind unread =>
    exact ⟨front, number, rest, scanned, waits rfl, kind, (unread_iff scanned kind).mp unread⟩
  · rintro ⟨front, number, rest, scanned, waits, kind, unread⟩
    have full := full_of_tokens scanned (by simp [kind])
    have failed := ofTokens_fails kind ((unread_iff scanned kind).mpr unread) waits rest
    simp [ofText, full, scanned, failed]

theorem ofText_superscript : ofText "²" = .error (.fault .badValue) := by
  have scanned : tokens "²" = .ok ([] ++ ⟨.number, "²", ⟨1, 1⟩⟩ :: [⟨.stop, "", ⟨1, 2⟩⟩]) := by decide +kernel
  have unread : numberLiteral "²" = .error (.fault .badValue) := rfl
  have failed : ofTokens ([] ++ ⟨.number, "²", ⟨1, 1⟩⟩ :: [⟨.stop, "", ⟨1, 2⟩⟩]) = .error (.fault .badValue) :=
    ofTokens_fails rfl unread (Awaits.here.loosen (Nat.zero_le 8)) _
  simp only [ofText, full_of_tokens scanned (by decide), scanned, failed, Bool.false_eq_true, if_false]

end Expr

end NoteQuery
