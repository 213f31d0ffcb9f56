import NoteQuery.Expr.Parser
import NoteQuery.Proofs.Outcome

/-! The readers of expressions, plainly. A reader carries a proof that the tokens it leaves are fewer.
Here it is put aside: each reader is an equation for the part that it returns and the tokens after
the part. -/
namespace NoteQuery

namespace Expr

/-- The part that was read and the tokens after it. -/
def plain {α : Type} {P : List Token → Prop} (read : Except Failure (α × { rest // P rest })) :
    Except Failure (α × List Token) := read.map fun found => (found.1, found.2.1)

namespace Plain

def chain (levels : List (List (TokenKind × BinaryOp))) (tokens : List Token) :
    Except Failure (Expr × List Token) := plain (readChain levels tokens)

def more (ops : List (TokenKind × BinaryOp)) (tighter : List (List (TokenKind × BinaryOp)))
    (first : Expr) (tokens : List Token) : Except Failure (Expr × List Token) :=
  plain (readMore ops tighter first tokens)

def unary (tokens : List Token) : Except Failure (Expr × List Token) := plain (readUnary tokens)

def trailed (tokens : List Token) : Except Failure (Expr × List Token) := plain (readPostfix tokens)

def trailers (target : Expr) (tokens : List Token) : Except Failure (Expr × List Token) :=
  plain (readTrailers target tokens)

def primary (tokens : List Token) : Except Failure (Expr × List Token) := plain (readPrimary tokens)

def items (closing : Closing) (tokens : List Token) : Except Failure (List Expr × List Token) :=
  plain (readItems closing tokens)

def close (closing : Closing) (tokens : List Token) : Except Failure (List Token) :=
  (Expr.close closing tokens).map Subtype.val

/-- What a part in front of arguments makes of them. -/
def callee (target : Expr) (tokens : List Token) : Except Failure (List Expr → Expr) :=
  match target with
  | name function => .ok (call function)
  | member target method => .ok (send target method)
  | _ => failAt .notCallable tokens

variable (ops : List (TokenKind × BinaryOp)) (levels : List (List (TokenKind × BinaryOp)))
  (token : Token) (tokens rest : List Token) (first target : Expr) (closing : Closing)

theorem chain_nil : chain [] tokens = unary tokens := by
  rw [chain, readChain, unary]

theorem chain_cons : chain (ops :: levels) tokens =
    chain levels tokens >>= fun first => more ops levels first.1 first.2 := by
  rw [chain, readChain, chain]
  rcases readChain levels tokens with e | ⟨first, rest, _⟩
  · rfl
  · simp only [more, plain, bind, Except.bind, Except.map]
    rcases readMore ops levels first rest with e | ⟨whole, rest', _⟩ <;> rfl

theorem more_nil : more ops levels first [] = .ok (first, []) := by
  rw [more, readMore]
  rfl

theorem more_cons : more ops levels first (token :: rest) =
    match ops.lookup token.kind with
    | none => .ok (first, token :: rest)
    | some op => chain levels rest >>= fun right =>
        more ops levels (binary op first right.1) right.2 := by
  rw [more, readMore]
  cases ops.lookup token.kind with
  | none => rfl
  | some op =>
    simp only [chain]
    rcases readChain levels rest with e | ⟨right, rest', _⟩
    · rfl
    · simp only [more, plain, bind, Except.bind, Except.map]
      rcases readMore ops levels (binary op first right) rest' with e | ⟨whole, rest'', _⟩ <;> rfl

theorem unary_nil : unary [] = trailed [] := by
  rw [unary, readUnary, trailed]

theorem unary_cons : unary (token :: rest) =
    if token.kind = .not then (unary rest).map fun operand => (not operand.1, operand.2)
    else if token.kind = .minus then (unary rest).map fun operand => (minus operand.1, operand.2)
    else if token.kind = .plus then unary rest
    else trailed (token :: rest) := by
  rw [unary, readUnary, trailed, unary]
  split
  · rcases readUnary rest with e | ⟨operand, rest', _⟩ <;> rfl
  · split
    · rcases readUnary rest with e | ⟨operand, rest', _⟩ <;> rfl
    · split
      · rcases readUnary rest with e | ⟨operand, rest', _⟩ <;> rfl
      · rfl

theorem trailed_eq : trailed tokens = primary tokens >>= fun first => trailers first.1 first.2 := by
  rw [trailed, readPostfix, primary]
  rcases readPrimary tokens with e | ⟨first, rest, _⟩
  · rfl
  · simp only [trailers, plain, bind, Except.bind, Except.map]
    rcases readTrailers first rest with e | ⟨whole, rest', _⟩ <;> rfl

theorem trailers_nil : trailers target [] = .ok (target, []) := by
  rw [trailers, readTrailers]
  rfl

theorem trailers_cons : trailers target (token :: rest) =
    if token.kind = .dot then
      match rest with
      | [] => failAt .missingName []
      | word :: rest =>
        if word.kind.isMemberName then trailers (member target word.text) rest
        else failAt .missingName (word :: rest)
    else if token.kind = .openBracket then
      chain BinaryOp.levels rest >>= fun key =>
        close .index key.2 >>= trailers (index target key.1)
    else if token.kind = .openParen then
      callee target (token :: rest) >>= fun whole =>
        items .arguments rest >>= fun args =>
          close .arguments args.2 >>= trailers (whole args.1)
    else .ok (target, token :: rest) := by
  rw [trailers, readTrailers.eq_def]
  dsimp only
  split
  · cases rest with
    | nil => rfl
    | cons word rest =>
      dsimp only
      split
      · rw [trailers]
        rcases readTrailers (member target word.text) rest with e | ⟨whole, rest', _⟩ <;> rfl
      · rfl
  · split
    · rw [chain]
      rcases readChain BinaryOp.levels rest with e | ⟨key, rest₁, _⟩
      · rfl
      · simp only [close, plain, bind, Except.bind, Except.map]
        rcases Expr.close .index rest₁ with e | ⟨rest₂, _⟩
        · rfl
        · simp only [trailers, plain, Except.map]
          rcases readTrailers (index target key) rest₂ with e | ⟨whole, rest₃, _⟩ <;> rfl
    · split
      · cases target
        case name | member =>
          simp only [callee, items, close, plain, bind, Except.bind, Except.map]
          rcases readItems .arguments rest with e | ⟨args, rest₁, _⟩
          · rfl
          · dsimp only
            rcases Expr.close .arguments rest₁ with e | ⟨rest₂, _⟩
            · rfl
            · simp only [trailers, plain, Except.map]
              generalize readTrailers _ rest₂ = last
              rcases last with e | ⟨whole, rest₃, _⟩ <;> rfl
        all_goals rfl
      · rfl

theorem primary_cons : primary (token :: rest) =
    match single? token with
    | some result => result.map fun e => (e, rest)
    | none =>
      if token.kind = .openBracket then
        items .items rest >>= fun found => (close .items found.2).map fun rest => (list found.1, rest)
      else if token.kind = .openParen then
        chain BinaryOp.levels rest >>= fun found =>
          (close .group found.2).map fun rest => (found.1, rest)
      else unexpected (token :: rest) := by
  rw [primary, readPrimary]
  cases single? token with
  | some result => cases result <;> rfl
  | none =>
    dsimp only
    split
    · rw [items]
      rcases readItems .items rest with e | ⟨found, rest₁, _⟩
      · rfl
      · simp only [close, plain, bind, Except.bind, Except.map]
        rcases Expr.close .items rest₁ with e | ⟨rest₂, _⟩ <;> rfl
    · split
      · rw [chain]
        rcases readChain BinaryOp.levels rest with e | ⟨found, rest₁, _⟩
        · rfl
        · simp only [close, plain, bind, Except.bind, Except.map]
          rcases Expr.close .group rest₁ with e | ⟨rest₂, _⟩ <;> rfl
      · unfold unexpected failAt
        split
        · rfl
        · split <;> rfl

theorem primary_nil : primary [] = failAt .unexpectedEnd [] := by
  rw [primary, readPrimary]
  rfl

theorem items_closed (closed : tokens.head?.map Token.kind = some closing.kind) :
    items closing tokens = .ok ([], tokens) := by
  rw [items, readItems, if_pos closed]
  rfl

theorem items_open (going : tokens.head?.map Token.kind ≠ some closing.kind) :
    items closing tokens = chain BinaryOp.levels tokens >>= fun first =>
      match first.2 with
      | [] => .ok ([first.1], [])
      | token :: rest =>
        if token.kind = .comma then
          (items closing rest).map fun others => (first.1 :: others.1, others.2)
        else .ok ([first.1], token :: rest) := by
  rw [items, readItems, if_neg going, chain]
  rcases readChain BinaryOp.levels tokens with e | ⟨first, rest, _⟩
  · rfl
  · simp only [plain, bind, Except.bind, Except.map]
    cases rest with
    | nil => rfl
    | cons token rest =>
      by_cases comma : token.kind = .comma
      · simp only [comma, if_true, items, plain, Except.map]
        rcases readItems closing rest with e | ⟨others, rest', _⟩ <;> rfl
      · simp only [comma, if_false]

theorem close_eq : close closing tokens =
    match tokens with
    | [] => failAt (.missing closing) []
    | token :: rest =>
      if token.kind = closing.kind then .ok rest else failAt (.missing closing) (token :: rest) := by
  rw [close]
  unfold Expr.close
  cases tokens with
  | nil => rfl
  | cons token rest =>
    dsimp only
    split <;> rfl

theorem ofTokens_eq : ofTokens tokens = chain BinaryOp.levels tokens >>= fun found =>
    match found.2 with
    | [] => .ok found.1
    | token :: rest =>
      if token.kind = .stop then .ok found.1
      else failAt (.unexpectedToken token.text) (token :: rest) := by
  rw [ofTokens, chain]
  rcases readChain BinaryOp.levels tokens with e | ⟨found, rest, _⟩ <;> rfl

end Plain

end Expr

end NoteQuery
