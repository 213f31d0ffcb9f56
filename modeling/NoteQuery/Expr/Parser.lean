import NoteQuery.Expr.Basic
import NoteQuery.Expr.Token
import NoteQuery.Number.Numeral

/-!
The expression that a list of tokens stands for. Every reader takes the tokens of one part from
the front and returns the part with the tokens after it; a part has at least one token, a list of
arguments may have none. An operation joins the whole chain to its left. A fault is a number that
cannot be represented.
-/

namespace NoteQuery

namespace BinaryOp

/-- The infix operations by level, the weakest first. -/
def levels : List (List (TokenKind × BinaryOp)) := [
  [(.or, or)],
  [(.and, and)],
  [(.equal, relation .equal), (.notEqual, relation .notEqual)],
  [(.less, relation .less), (.greater, relation .greater), (.lessEqual, relation .lessEqual),
    (.greaterEqual, relation .greaterEqual)],
  [(.plus, arith .add), (.minus, arith .sub)],
  [(.star, arith .mul), (.slash, arith .div), (.percent, arith .rem)]]

end BinaryOp

namespace TokenKind

/-- Words that may stand after a dot; there the reserved ones are names too. -/
def isMemberName : TokenKind → Bool
  | name | and | or | not | boolean | null => true
  | _ => false

end TokenKind

namespace Closing

def kind : Closing → TokenKind
  | index => .closeBracket
  | arguments => .closeParen
  | items => .closeBracket
  | group => .closeParen

end Closing

namespace Expr

open NoteQuery.Text

/-- The part that is read, and the tokens after it. -/
abbrev Reading (α : Type) (tokens : List Token) :=
  Except Failure (α × { rest : List Token // rest.length < tokens.length })

abbrev ReadingAny (α : Type) (tokens : List Token) :=
  Except Failure (α × { rest : List Token // rest.length ≤ tokens.length })

def failAt {α : Type} (cause : SyntaxCause) (tokens : List Token) : Except Failure α :=
  .error (.error (.malformed ⟨cause, tokens.head?.map Token.position, none⟩))

def unexpected {α : Type} : List Token → Except Failure α
  | [] => failAt .unexpectedEnd []
  | token :: rest =>
    if token.kind = .stop then failAt .unexpectedEnd (token :: rest)
    else failAt (.unexpectedToken token.text) (token :: rest)

def numberLiteral (text : String) : Except Failure Expr :=
  let digits := text.toList
  if digits.contains '.' then
    match Numeral.readFloat? digits with
    | some x => .ok (literal (.float x))
    | none => .error (.fault .badValue)
  else
    match Numeral.readInt? digits with
    | some n => .ok (literal (.int n))
    | none => .error (.fault .badValue)

def single? (token : Token) : Option (Except Failure Expr) :=
  match token.kind with
  | .text => some (.ok (literal (.text token.text)))
  | .number => some (numberLiteral token.text)
  | .boolean => some (.ok (literal (.bool (token.text == "true"))))
  | .null => some (.ok (literal .null))
  | .name => some (.ok (name token.text))
  | _ => none

def close (closing : Closing) : (tokens : List Token) →
    Except Failure { rest : List Token // rest.length < tokens.length }
  | [] => failAt (.missing closing) []
  | token :: rest =>
    if token.kind = closing.kind then .ok ⟨rest, Nat.lt_succ_self _⟩
    else failAt (.missing closing) (token :: rest)

mutual

/-- A chain of the operations of the first level over parts of the tighter ones. -/
def readChain (levels : List (List (TokenKind × BinaryOp))) (tokens : List Token) :
    Reading Expr tokens :=
  match levels with
  | [] => readUnary tokens
  | ops :: tighter => do
    let (first, ⟨rest, shorter⟩) ← readChain tighter tokens
    let (whole, ⟨rest, shorter'⟩) ← readMore ops tighter first rest
    .ok (whole, ⟨rest, Nat.lt_of_le_of_lt shorter' shorter⟩)
termination_by (tokens.length, levels.length + 4)

def readMore (ops : List (TokenKind × BinaryOp)) (tighter : List (List (TokenKind × BinaryOp)))
    (left : Expr) (tokens : List Token) : ReadingAny Expr tokens :=
  match tokens with
  | [] => .ok (left, ⟨[], Nat.le_refl _⟩)
  | token :: rest =>
    match ops.lookup token.kind with
    | none => .ok (left, ⟨token :: rest, Nat.le_refl _⟩)
    | some op => do
      let (right, ⟨rest', shorter⟩) ← readChain tighter rest
      let (whole, ⟨rest'', shorter'⟩) ← readMore ops tighter (binary op left right) rest'
      .ok (whole, ⟨rest'', by simp only [List.length_cons]; omega⟩)
termination_by (tokens.length, 0)

/-- A part behind any number of signs. A plus is dropped. -/
def readUnary (tokens : List Token) : Reading Expr tokens :=
  match tokens with
  | [] => readPostfix []
  | token :: rest =>
    if token.kind = .not then do
      let (operand, ⟨rest', shorter⟩) ← readUnary rest
      .ok (not operand, ⟨rest', Nat.lt_succ_of_lt shorter⟩)
    else if token.kind = .minus then do
      let (operand, ⟨rest', shorter⟩) ← readUnary rest
      .ok (minus operand, ⟨rest', Nat.lt_succ_of_lt shorter⟩)
    else if token.kind = .plus then do
      let (operand, ⟨rest', shorter⟩) ← readUnary rest
      .ok (operand, ⟨rest', Nat.lt_succ_of_lt shorter⟩)
    else readPostfix (token :: rest)
termination_by (tokens.length, 3)

def readPostfix (tokens : List Token) : Reading Expr tokens := do
  let (first, ⟨rest, shorter⟩) ← readPrimary tokens
  let (whole, ⟨rest, shorter'⟩) ← readTrailers first rest
  .ok (whole, ⟨rest, Nat.lt_of_le_of_lt shorter' shorter⟩)
termination_by (tokens.length, 2)

def readTrailers (target : Expr) (tokens : List Token) : ReadingAny Expr tokens :=
  match tokens with
  | [] => .ok (target, ⟨[], Nat.le_refl _⟩)
  | token :: rest =>
    if token.kind = .dot then
      match rest with
      | [] => failAt .missingName []
      | word :: rest =>
        if word.kind.isMemberName then do
          let (whole, ⟨rest', shorter⟩) ← readTrailers (member target word.text) rest
          .ok (whole, ⟨rest', Nat.le_succ_of_le (Nat.le_succ_of_le shorter)⟩)
        else failAt .missingName (word :: rest)
    else if token.kind = .openBracket then do
      let (key, ⟨rest₁, shorter₁⟩) ← readChain BinaryOp.levels rest
      let ⟨rest₂, shorter₂⟩ ← close .index rest₁
      let (whole, ⟨rest₃, shorter₃⟩) ← readTrailers (index target key) rest₂
      .ok (whole, ⟨rest₃, Nat.le_succ_of_le
        (Nat.le_trans shorter₃ (Nat.le_of_lt (Nat.lt_trans shorter₂ shorter₁)))⟩)
    else if token.kind = .openParen then do
      let callee : List Expr → Expr ←
        match target with
        | name function => .ok (call function)
        | member target method => .ok (send target method)
        | _ => failAt .notCallable (token :: rest)
      let (args, ⟨rest₁, shorter₁⟩) ← readItems .arguments rest
      let ⟨rest₂, shorter₂⟩ ← close .arguments rest₁
      let (whole, ⟨rest₃, shorter₃⟩) ← readTrailers (callee args) rest₂
      .ok (whole, ⟨rest₃, Nat.le_succ_of_le
        (Nat.le_trans shorter₃ (Nat.le_of_lt (Nat.lt_of_lt_of_le shorter₂ shorter₁)))⟩)
    else .ok (target, ⟨token :: rest, Nat.le_refl _⟩)
termination_by (tokens.length, 0)

def readPrimary (tokens : List Token) : Reading Expr tokens :=
  match tokens with
  | [] => unexpected []
  | token :: rest =>
    match single? token with
    | some result => do
      let e ← result
      .ok (e, ⟨rest, Nat.lt_succ_self _⟩)
    | none =>
      if token.kind = .openBracket then do
        let (items, ⟨rest₁, shorter₁⟩) ← readItems .items rest
        let ⟨rest₂, shorter₂⟩ ← close .items rest₁
        .ok (list items, ⟨rest₂, by simp only [List.length_cons]; omega⟩)
      else if token.kind = .openParen then do
        let (e, ⟨rest₁, shorter₁⟩) ← readChain BinaryOp.levels rest
        let ⟨rest₂, shorter₂⟩ ← close .group rest₁
        .ok (e, ⟨rest₂, by simp only [List.length_cons]; omega⟩)
      else unexpected (token :: rest)
termination_by (tokens.length, 1)

/-- Expressions between commas up to the closing token, which is left. A comma may follow the
last one. -/
def readItems (closing : Closing) (tokens : List Token) : ReadingAny (List Expr) tokens :=
  if (tokens.head?.map Token.kind) = some closing.kind then .ok ([], ⟨tokens, Nat.le_refl _⟩)
  else do
    let (first, ⟨rest, shorter⟩) ← readChain BinaryOp.levels tokens
    match rest, shorter with
    | [], _ => .ok ([first], ⟨[], Nat.zero_le _⟩)
    | token :: rest, shorter =>
      have : rest.length < tokens.length := Nat.lt_of_succ_lt shorter
      if token.kind = .comma then do
        let (others, ⟨rest', shorter'⟩) ← readItems closing rest
        .ok (first :: others, ⟨rest', Nat.le_of_lt (Nat.lt_of_le_of_lt shorter' this)⟩)
      else .ok ([first], ⟨token :: rest, Nat.le_of_lt shorter⟩)
termination_by (tokens.length, BinaryOp.levels.length + 5)

end

def ofTokens (tokens : List Token) : Except Failure Expr := do
  let (e, ⟨rest, _⟩) ← readChain BinaryOp.levels tokens
  match rest with
  | [] => .ok e
  | token :: rest =>
    if token.kind = .stop then .ok e else failAt (.unexpectedToken token.text) (token :: rest)

def ofText (text : String) : Except Failure Expr :=
  if isBlankText text then .error (.error (.malformed ⟨.empty, none, some text⟩))
  else
    match NoteQuery.tokens text with
    | .error e => .error (.error (.malformed (e.inText text)))
    | .ok tokens =>
      match ofTokens tokens with
      | .error (.error (.malformed e)) => .error (.error (.malformed (e.inText text)))
      | result => result

end Expr

end NoteQuery
