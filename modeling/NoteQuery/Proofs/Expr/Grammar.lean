import Mathlib
import NoteQuery.Expr.Parser

/-! The grammar of expressions, told apart from how they are read. A part of some level is made of
parts of the same level and of tighter ones; the levels are those of the infix operations, the
weakest first, then parts behind signs, parts with trailers, and parts in themselves. -/
namespace NoteQuery

namespace BinaryOp

/-- The level of an operation. -/
def strength : BinaryOp → Nat
  | or => 0
  | and => 1
  | relation .equal => 2
  | relation .notEqual => 2
  | relation _ => 3
  | arith .add => 4
  | arith .sub => 4
  | arith _ => 5

def sign : BinaryOp → TokenKind
  | or => .or
  | and => .and
  | relation .equal => .equal
  | relation .notEqual => .notEqual
  | relation .less => .less
  | relation .greater => .greater
  | relation .lessEqual => .lessEqual
  | relation .greaterEqual => .greaterEqual
  | arith .add => .plus
  | arith .sub => .minus
  | arith .mul => .star
  | arith .div => .slash
  | arith .rem => .percent

theorem sign_ne_stop (op : BinaryOp) : op.sign ≠ .stop := by
  unfold sign
  split <;> decide

theorem strength_lt (op : BinaryOp) : op.strength < 6 := by
  unfold strength
  split <;> decide

theorem levels_at (op : BinaryOp) : ∃ ops,
    levels.drop op.strength = ops :: levels.drop (op.strength + 1) ∧ ops.lookup op.sign = some op := by
  rcases op with _ | _ | relation | arith
  · exact ⟨_, rfl, by decide⟩
  · exact ⟨_, rfl, by decide⟩
  · cases relation <;> exact ⟨_, rfl, by decide⟩
  · cases arith <;> exact ⟨_, rfl, by decide⟩

theorem levels_above (op : BinaryOp) :
    ∀ ops ∈ levels.drop (op.strength + 1), ops.lookup op.sign = none := by
  rcases op with _ | _ | relation | arith
  · decide
  · decide
  · cases relation <;> decide
  · cases arith <;> decide

theorem sign_no_trailer (op : BinaryOp) :
    op.sign ∉ [TokenKind.dot, .openBracket, .openParen] := by
  unfold sign
  split <;> decide

end BinaryOp

namespace Expr

/-- A literal into which a minus is folded. -/
def folds : Expr → Bool
  | literal (.int _) => true
  | literal (.float _) => true
  | literal (.bool _) => true
  | _ => false

mutual

/-- The tokens stand for the expression as a part of the level. -/
inductive Derives : Nat → List Token → Expr → Prop
  | tighter {n : Nat} {cut : List Token} {e : Expr} (part : Derives (n + 1) cut e) : Derives n cut e
  /-- Operations of one level join what is left of them first. -/
  | binary (op : BinaryOp) {sign : Token} {cut cut' : List Token} {e e' : Expr}
      (left : Derives op.strength cut e) (kind : sign.kind = op.sign)
      (right : Derives (op.strength + 1) cut' e') :
      Derives op.strength (cut ++ sign :: cut') (.binary op e e')
  | not {sign : Token} {cut : List Token} {e : Expr} (kind : sign.kind = .not)
      (operand : Derives 6 cut e) : Derives 6 (sign :: cut) (.not e)
  | plus {sign : Token} {cut : List Token} {e : Expr} (kind : sign.kind = .plus)
      (operand : Derives 6 cut e) : Derives 6 (sign :: cut) e
  | minusInt {sign : Token} {cut : List Token} {n : Int} (kind : sign.kind = .minus)
      (operand : Derives 6 cut (literal (.int n))) : Derives 6 (sign :: cut) (literal (.int (-n)))
  | minusFloat {sign : Token} {cut : List Token} {x : Binary64} (kind : sign.kind = .minus)
      (operand : Derives 6 cut (literal (.float x))) :
      Derives 6 (sign :: cut) (literal (.float x.neg))
  | minusBool {sign : Token} {cut : List Token} {b : Bool} (kind : sign.kind = .minus)
      (operand : Derives 6 cut (literal (.bool b))) :
      Derives 6 (sign :: cut) (literal (.int (if b then -1 else 0)))
  | negate {sign : Token} {cut : List Token} {e : Expr} (kind : sign.kind = .minus)
      (operand : Derives 6 cut e) (stays : e.folds = false) : Derives 6 (sign :: cut) (.negate e)
  | member {dot word : Token} {cut : List Token} {e : Expr} (target : Derives 7 cut e)
      (kind : dot.kind = .dot) (named : word.kind.isMemberName = true) :
      Derives 7 (cut ++ [dot, word]) (.member e word.text)
  | index {start stop : Token} {cut inside : List Token} {e key : Expr} (target : Derives 7 cut e)
      (opens : start.kind = .openBracket) (within : Derives 0 inside key)
      (closes : stop.kind = .closeBracket) :
      Derives 7 (cut ++ (start :: inside ++ [stop])) (.index e key)
  | call {start stop : Token} {cut inside : List Token} {function : String} {args : List Expr}
      (target : Derives 7 cut (.name function)) (opens : start.kind = .openParen)
      (within : Items inside args) (closes : stop.kind = .closeParen) :
      Derives 7 (cut ++ (start :: inside ++ [stop])) (.call function args)
  | send {start stop : Token} {cut inside : List Token} {e : Expr} {method : String}
      {args : List Expr} (target : Derives 7 cut (.member e method)) (opens : start.kind = .openParen)
      (within : Items inside args) (closes : stop.kind = .closeParen) :
      Derives 7 (cut ++ (start :: inside ++ [stop])) (.send e method args)
  | text {token : Token} (kind : token.kind = .text) :
      Derives 8 [token] (literal (.text token.text))
  | whole {token : Token} {n : Int} (kind : token.kind = .number)
      (pointless : '.' ∉ token.text.toList)
      (value : Numeral.readInt? token.text.toList = some n) : Derives 8 [token] (literal (.int n))
  | decimal {token : Token} {x : Binary64} (kind : token.kind = .number)
      (point : '.' ∈ token.text.toList)
      (value : Numeral.readFloat? token.text.toList = some x) :
      Derives 8 [token] (literal (.float x))
  | boolean {token : Token} (kind : token.kind = .boolean) :
      Derives 8 [token] (literal (.bool (token.text == "true")))
  | null {token : Token} (kind : token.kind = .null) : Derives 8 [token] (literal .null)
  | name {token : Token} (kind : token.kind = .name) : Derives 8 [token] (.name token.text)
  | list {start stop : Token} {inside : List Token} {items : List Expr}
      (opens : start.kind = .openBracket) (within : Items inside items)
      (closes : stop.kind = .closeBracket) : Derives 8 (start :: inside ++ [stop]) (.list items)
  | group {start stop : Token} {inside : List Token} {e : Expr} (opens : start.kind = .openParen)
      (within : Derives 0 inside e) (closes : stop.kind = .closeParen) :
      Derives 8 (start :: inside ++ [stop]) e

/-- The tokens stand for the expressions with commas between them. A comma may follow the last. -/
inductive Items : List Token → List Expr → Prop
  | none : Items [] []
  | last {cut : List Token} {e : Expr} (only : Derives 0 cut e) : Items cut [e]
  | more {comma : Token} {cut cut' : List Token} {e : Expr} {items : List Expr}
      (first : Derives 0 cut e) (kind : comma.kind = .comma) (others : Items cut' items) :
      Items (cut ++ comma :: cut') (e :: items)

end

theorem Derives.loosen {n m : Nat} {cut : List Token} {e : Expr} (part : Derives m cut e)
    (looser : n ≤ m) : Derives n cut e := by
  induction looser with
  | refl => exact part
  | step _ ih => exact ih part.tighter

theorem minus_of_stays {e : Expr} (stays : e.folds = false) : e.minus = .negate e := by
  unfold Expr.minus
  split
  all_goals simp [folds] at stays ⊢

theorem Derives.minus {sign : Token} {cut : List Token} {e : Expr} (kind : sign.kind = .minus)
    (operand : Derives 6 cut e) : Derives 6 (sign :: cut) (minus e) := by
  cases folded : e.folds with
  | false => exact minus_of_stays folded ▸ .negate kind operand folded
  | true =>
    unfold folds at folded
    split at folded
    · exact .minusInt kind operand
    · exact .minusFloat kind operand
    · exact .minusBool kind operand
    · cases folded

/-- The end token is not among these. -/
def Unended (cut : List Token) : Prop := ∀ token ∈ cut, token.kind ≠ .stop

namespace Unended

variable {token start stop : Token} {cut cut' : List Token}

theorem nil : Unended [] := List.forall_mem_nil _

theorem cons (here : token.kind ≠ .stop) (later : Unended cut) : Unended (token :: cut) :=
  List.forall_mem_cons.mpr ⟨here, later⟩

theorem single (here : token.kind ≠ .stop) : Unended [token] := cons here nil

theorem append (first : Unended cut) (second : Unended cut') : Unended (cut ++ cut') :=
  fun token member => (List.mem_append.mp member).elim (first token) (second token)

theorem enclosed (opens : start.kind ∈ [.openParen, .openBracket]) (inside : Unended cut)
    (closes : stop.kind ∈ [.closeParen, .closeBracket]) : Unended (start :: cut ++ [stop]) := by
  refine cons (fun ended => ?_) (inside.append (single fun ended => ?_))
  · simp [ended] at opens
  · simp [ended] at closes

end Unended

/-- What a part of a level looks like: there is no end token in it, and it begins with a sign only
where it may stand behind signs. -/
structure Shape (n : Nat) (cut : List Token) : Prop where
  level : n ≤ 8
  unended : Unended cut
  begins : ∃ token more, cut = token :: more ∧
    (n ≤ 6 ∧ token.kind ∈ [.not, .minus, .plus] ∨
      token.kind ∈ [.text, .number, .boolean, .null, .name, .openParen, .openBracket])

namespace Shape

variable {n : Nat} {token : Token} {cut cut' : List Token}

theorem weaken (shape : Shape (n + 1) cut) : Shape n cut := by
  obtain ⟨level, unended, token, more, split, begins⟩ := shape
  exact ⟨by omega, unended, token, more, split, begins.imp_left (.imp_left (by omega))⟩

theorem append (shape : Shape n cut) (unended : Unended cut') : Shape n (cut ++ cut') := by
  obtain ⟨level, unended', token, more, rfl, begins⟩ := shape
  exact ⟨level, unended'.append unended, token, more ++ cut', rfl, begins⟩

theorem signed (shape : Shape 6 cut) (sign : token.kind ∈ [.not, .minus, .plus]) :
    Shape 6 (token :: cut) := by
  refine ⟨by omega, .cons (fun ended => ?_) shape.unended, token, cut, rfl, .inl ⟨le_rfl, sign⟩⟩
  simp [ended] at sign

theorem single (begins : token.kind ∈ [.text, .number, .boolean, .null, .name]) :
    Shape 8 [token] := by
  refine ⟨le_rfl, .single fun ended => ?_, token, [], rfl, .inr ?_⟩
  · simp [ended] at begins
  · exact List.mem_append_left [.openParen, .openBracket] begins

end Shape

mutual

theorem Derives.shape : ∀ {n : Nat} {cut : List Token} {e : Expr}, Derives n cut e → Shape n cut
  | _, _, _, .tighter part => part.shape.weaken
  | _, _, _, .binary op left kind right =>
    left.shape.append (.cons (kind ▸ op.sign_ne_stop) right.shape.unended)
  | _, _, _, .not kind operand => operand.shape.signed (by simp [kind])
  | _, _, _, .plus kind operand => operand.shape.signed (by simp [kind])
  | _, _, _, .minusInt kind operand => operand.shape.signed (by simp [kind])
  | _, _, _, .minusFloat kind operand => operand.shape.signed (by simp [kind])
  | _, _, _, .minusBool kind operand => operand.shape.signed (by simp [kind])
  | _, _, _, .negate kind operand _ => operand.shape.signed (by simp [kind])
  | _, _, _, .member target kind named => by
    refine target.shape.append (.cons (by simp [kind]) (.single fun ended => ?_))
    simp [ended, TokenKind.isMemberName] at named
  | _, _, _, .index target opens within closes =>
    target.shape.append (.enclosed (by simp [opens]) within.shape.unended (by simp [closes]))
  | _, _, _, .call target opens within closes =>
    target.shape.append (.enclosed (by simp [opens]) within.unended (by simp [closes]))
  | _, _, _, .send target opens within closes =>
    target.shape.append (.enclosed (by simp [opens]) within.unended (by simp [closes]))
  | _, _, _, .text kind => .single (by simp [kind])
  | _, _, _, .whole kind _ _ => .single (by simp [kind])
  | _, _, _, .decimal kind _ _ => .single (by simp [kind])
  | _, _, _, .boolean kind => .single (by simp [kind])
  | _, _, _, .null kind => .single (by simp [kind])
  | _, _, _, .name kind => .single (by simp [kind])
  | _, _, _, .list opens within closes =>
    ⟨le_rfl, .enclosed (by simp [opens]) within.unended (by simp [closes]), _, _, rfl,
      .inr (by simp [opens])⟩
  | _, _, _, .group opens within closes =>
    ⟨le_rfl, .enclosed (by simp [opens]) within.shape.unended (by simp [closes]), _, _, rfl,
      .inr (by simp [opens])⟩

theorem Items.unended : ∀ {cut : List Token} {items : List Expr}, Items cut items → Unended cut
  | _, _, .none => .nil
  | _, _, .last only => only.shape.unended
  | _, _, .more first kind others =>
    first.shape.unended.append (.cons (by simp [kind]) others.unended)

end

end Expr

end NoteQuery
