import Mathlib
import NoteQuery.Expr.Parser

/-! Expressions without infix operations. A part behind which no operation follows is read the same
at every level. -/
namespace NoteQuery

namespace Expr

/-- Where no operation of any level follows a part, the chain of operations is the part alone. -/
theorem readChain_of_readUnary {tokens rest : List Token} {token : Token} {e : Expr}
    {shorter : (token :: rest).length < tokens.length}
    (part : readUnary tokens = .ok (e, ⟨token :: rest, shorter⟩))
    (levels : List (List (TokenKind × BinaryOp)))
    (ends : ∀ ops ∈ levels, ops.lookup token.kind = none) :
    readChain levels tokens = .ok (e, ⟨token :: rest, shorter⟩) := by
  induction levels with
  | nil => rw [readChain, part]
  | cons ops tighter ih =>
    obtain ⟨none, later⟩ := List.forall_mem_cons.mp ends
    rw [readChain, ih later]
    simp only [bind, Except.bind, readMore, none]

theorem ofTokens_of_readUnary {tokens : List Token} {e : Expr} (stop : Token)
    (shorter : [stop].length < tokens.length)
    (part : readUnary tokens = .ok (e, ⟨[stop], shorter⟩)) (last : stop.kind = .stop) :
    ofTokens tokens = .ok e := by
  have ends : ∀ ops ∈ BinaryOp.levels, ops.lookup stop.kind = none := by
    rw [last]
    decide
  rw [ofTokens, readChain_of_readUnary part BinaryOp.levels ends]
  simp only [bind, Except.bind, last, if_true]

theorem ofText_of_tokens {text : String} {e : Expr} (cut : List Token)
    (full : Text.isBlankText text = false) (tokens : (tokens text).toOption = some cut)
    (read : ofTokens cut = .ok e) : ofText text = .ok e := by
  cases found : NoteQuery.tokens text with
  | error _ => simp [found, Except.toOption] at tokens
  | ok cut' =>
    simp only [found, Except.toOption, Option.some.injEq] at tokens
    subst tokens
    simp [ofText, full, found, read]

theorem ofText_eq_ok {text : String} {e : Expr} (read : ofText text = .ok e) :
    ∃ cut, NoteQuery.tokens text = .ok cut ∧ ofTokens cut = .ok e := by
  unfold ofText at read
  split at read
  · cases read
  · split at read
    · cases read
    · rename_i cut scanned
      refine ⟨cut, scanned, ?_⟩
      split at read
      · cases read
      · exact read

section Parts

variable (n m : String) (p₁ p₂ p₃ p₄ p₅ : Position) (dot stop mark : String)

theorem ofTokens_number (e : Expr) (value : numberLiteral n = .ok e) :
    ofTokens [⟨.number, n, p₁⟩, ⟨.stop, stop, p₂⟩] = .ok e := by
  refine ofTokens_of_readUnary ⟨.stop, stop, p₂⟩ (by simp) ?_ rfl
  simp [readUnary, readPostfix, readPrimary, single?, value, readTrailers, bind, Except.bind]

theorem ofTokens_name : ofTokens [⟨.name, n, p₁⟩, ⟨.stop, stop, p₂⟩] = .ok (name n) := by
  refine ofTokens_of_readUnary ⟨.stop, stop, p₂⟩ (by simp) ?_ rfl
  simp [readUnary, readPostfix, readPrimary, single?, readTrailers, bind, Except.bind]

theorem ofTokens_member :
    ofTokens [⟨.name, n, p₁⟩, ⟨.dot, dot, p₂⟩, ⟨.name, m, p₃⟩, ⟨.stop, stop, p₄⟩] =
      .ok (member (name n) m) := by
  refine ofTokens_of_readUnary ⟨.stop, stop, p₄⟩ (by simp) ?_ rfl
  simp [readUnary, readPostfix, readPrimary, single?, readTrailers, TokenKind.isMemberName, bind,
    Except.bind]

theorem ofTokens_not_member :
    ofTokens [⟨.not, mark, p₁⟩, ⟨.name, n, p₂⟩, ⟨.dot, dot, p₃⟩, ⟨.name, m, p₄⟩,
      ⟨.stop, stop, p₅⟩] = .ok (not (member (name n) m)) := by
  refine ofTokens_of_readUnary ⟨.stop, stop, p₅⟩ (by simp) ?_ rfl
  simp [readUnary, readPostfix, readPrimary, single?, readTrailers, TokenKind.isMemberName, bind,
    Except.bind]

end Parts

section Texts

theorem ofText_formula : ofText "formula" = .ok (name "formula") :=
  ofText_of_tokens [⟨.name, "formula", ⟨1, 1⟩⟩, ⟨.stop, "", ⟨1, 8⟩⟩] (by decide +kernel)
    (by decide +kernel) (ofTokens_name ..)

theorem ofText_formula_a : ofText "formula.a" = .ok (member (name "formula") "a") :=
  ofText_of_tokens [⟨.name, "formula", ⟨1, 1⟩⟩, ⟨.dot, ".", ⟨1, 8⟩⟩, ⟨.name, "a", ⟨1, 9⟩⟩,
    ⟨.stop, "", ⟨1, 10⟩⟩] (by decide +kernel) (by decide +kernel) (ofTokens_member ..)

theorem ofText_formula_b : ofText "formula.b" = .ok (member (name "formula") "b") :=
  ofText_of_tokens [⟨.name, "formula", ⟨1, 1⟩⟩, ⟨.dot, ".", ⟨1, 8⟩⟩, ⟨.name, "b", ⟨1, 9⟩⟩,
    ⟨.stop, "", ⟨1, 10⟩⟩] (by decide +kernel) (by decide +kernel) (ofTokens_member ..)

theorem ofText_not_formula_a : ofText "!formula.a" = .ok (not (member (name "formula") "a")) :=
  ofText_of_tokens [⟨.not, "!", ⟨1, 1⟩⟩, ⟨.name, "formula", ⟨1, 2⟩⟩, ⟨.dot, ".", ⟨1, 9⟩⟩,
    ⟨.name, "a", ⟨1, 10⟩⟩, ⟨.stop, "", ⟨1, 11⟩⟩] (by decide +kernel) (by decide +kernel)
    (ofTokens_not_member ..)

theorem ofText_one : ofText "1" = .ok (literal (.int 1)) :=
  ofText_of_tokens [⟨.number, "1", ⟨1, 1⟩⟩, ⟨.stop, "", ⟨1, 2⟩⟩] (by decide +kernel)
    (by decide +kernel) (ofTokens_number _ _ _ _ _ (by rfl))

theorem ofText_two : ofText "2" = .ok (literal (.int 2)) :=
  ofText_of_tokens [⟨.number, "2", ⟨1, 1⟩⟩, ⟨.stop, "", ⟨1, 2⟩⟩] (by decide +kernel)
    (by decide +kernel) (ofTokens_number _ _ _ _ _ (by rfl))

end Texts

end Expr

end NoteQuery
