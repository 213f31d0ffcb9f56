import NoteQuery.Expr.Error
import NoteQuery.Text.Letter

/-!
The words of an expression: each token has a kind, the text that it stands for, and the position
of its first character. `tokens` cuts a text into them and ends with an end token. Only blank,
tab, carriage return and line feed separate. A text literal stands for its characters after
escapes; a number is a row of digits, with a point only between digits.
-/

namespace NoteQuery

inductive TokenKind where
  | and
  | or
  | not
  | equal
  | notEqual
  | less
  | greater
  | lessEqual
  | greaterEqual
  | plus
  | minus
  | star
  | slash
  | percent
  | text
  | number
  | boolean
  | null
  | name
  | comma
  | openParen
  | closeParen
  | openBracket
  | closeBracket
  | dot
  | stop
  deriving DecidableEq, Repr

structure Token where
  kind : TokenKind
  text : String
  position : Position
  deriving DecidableEq, Repr

namespace Position

def after (p : Position) (c : Char) : Position :=
  if c = '\n' then ⟨p.line + 1, 1⟩ else ⟨p.line, p.column + 1⟩

def right (p : Position) (count : Nat) : Position :=
  ⟨p.line, p.column + count⟩

end Position

namespace Token

open NoteQuery.Text

def keyword? (word : String) : Option TokenKind :=
  [("and", TokenKind.and), ("or", .or), ("not", .not), ("true", .boolean), ("false", .boolean),
    ("null", .null), ("undefined", .null)].lookup word

def pairKind? (a b : Char) : Option TokenKind :=
  [(('=', '='), TokenKind.equal), (('!', '='), .notEqual), (('<', '='), .lessEqual),
    (('>', '='), .greaterEqual), (('&', '&'), .and), (('|', '|'), .or)].lookup (a, b)

def signKind? (c : Char) : Option TokenKind :=
  [('<', TokenKind.less), ('>', .greater), ('!', .not), ('+', .plus), ('-', .minus), ('*', .star),
    ('/', .slash), ('%', .percent), (',', .comma), ('(', .openParen), (')', .closeParen),
    ('[', .openBracket), (']', .closeBracket), ('.', .dot)].lookup c

def isSeparator (c : Char) : Bool := c == ' ' || c == '\t' || c == '\r' || c == '\n'

def skip (p : Position) : List Char → Position × List Char
  | [] => (p, [])
  | c :: rest => if isSeparator c then skip (p.after c) rest else (p, c :: rest)

def escaped (c : Char) : Char :=
  if c = 'n' then '\n' else if c = 't' then '\t' else if c = 'r' then '\r' else c

/-- The characters up to the closing quote, with the position and the text after it; nothing when
the quote is missing. An escaped line feed does not begin a new line. -/
def readText (quote : Char) (p : Position) : List Char → Option (List Char × Position × List Char)
  | [] => none
  | c :: rest =>
    if c = quote then some ([], p.right 1, rest)
    else if c = '\\' then
      match rest with
      | [] => none
      | d :: rest =>
        (readText quote (p.right 2) rest).map fun (cs, found) => (escaped d :: cs, found)
    else (readText quote (p.after c) rest).map fun (cs, found) => (c :: cs, found)

/-- A row of digits at the front, with a point and more digits when a digit follows the point. -/
def readNumber (text : List Char) : List Char × List Char :=
  let whole := text.takeWhile isDigit
  match text.dropWhile isDigit with
  | '.' :: d :: rest =>
    if isDigit d then
      (whole ++ '.' :: (d :: rest).takeWhile isDigit, (d :: rest).dropWhile isDigit)
    else (whole, '.' :: d :: rest)
  | rest => (whole, rest)

def next (p : Position) (c : Char) (rest : List Char) :
    Except SyntaxError (Token × Position × List Char) :=
  if c = '"' ∨ c = '\'' then
    match readText c (p.right 1) rest with
    | some (cs, after, rest) => .ok (⟨.text, String.ofList cs, p⟩, after, rest)
    | none => .error ⟨.openText, some p, none⟩
  else if isDigit c then
    let (digits, rest) := readNumber (c :: rest)
    .ok (⟨.number, String.ofList digits, p⟩, p.right digits.length, rest)
  else
    match rest.head?.bind (pairKind? c) with
    | some kind =>
      .ok (⟨kind, String.ofList (c :: rest.take 1), p⟩, p.right 2, rest.drop 1)
    | none =>
      match signKind? c with
      | some kind => .ok (⟨kind, String.ofList [c], p⟩, p.right 1, rest)
      | none =>
        if isLetter c || c == '_' then
          let word := c :: rest.takeWhile isWordSign
          let text := String.ofList word
          .ok (⟨(keyword? text).getD .name, text, p⟩, p.right word.length,
            rest.dropWhile isWordSign)
        else if c = '=' then .error ⟨.singleEquals, some p, none⟩
        else .error ⟨.unexpectedSign c, some p, none⟩

theorem skip_length_le (p : Position) (text : List Char) :
    (skip p text).2.length ≤ text.length := by
  induction text generalizing p with
  | nil => simp [skip]
  | cons c rest ih =>
    simp only [skip]
    split
    · exact Nat.le_succ_of_le (ih _)
    · exact Nat.le_refl _

private theorem readText_length_lt {quote : Char} {p : Position} {text cs rest : List Char}
    {after : Position} (h : readText quote p text = some (cs, after, rest)) :
    rest.length < text.length := by
  fun_induction readText quote p text generalizing cs with
  | case1 => simp at h
  | case2 p rest' => simp only [Option.some.injEq, Prod.mk.injEq] at h; simp [h.2.2]
  | case3 => simp at h
  | case4 p hq d rest' ih =>
    obtain ⟨⟨_, found⟩, hf, heq⟩ := Option.map_eq_some_iff.1 h
    simp only [Prod.mk.injEq] at heq
    obtain ⟨_, rfl⟩ := heq
    have := ih hf
    simp only [List.length_cons]
    omega
  | case5 p c rest' hq hb ih =>
    obtain ⟨⟨_, found⟩, hf, heq⟩ := Option.map_eq_some_iff.1 h
    simp only [Prod.mk.injEq] at heq
    obtain ⟨_, rfl⟩ := heq
    have := ih hf
    simp only [List.length_cons]
    omega

private theorem length_dropWhile_le (p : Char → Bool) (text : List Char) :
    (text.dropWhile p).length ≤ text.length := (List.dropWhile_sublist p).length_le

private theorem readNumber_length_lt {c : Char} (rest : List Char) (h : isDigit c = true) :
    (readNumber (c :: rest)).2.length < (c :: rest).length := by
  have whole : ((c :: rest).dropWhile isDigit).length ≤ rest.length := by
    simp only [List.dropWhile_cons, h, if_true]
    exact length_dropWhile_le _ _
  unfold readNumber
  simp only
  split
  · next d more heq =>
    split
    · have := length_dropWhile_le isDigit (d :: more)
      rw [heq] at whole
      simp only [List.length_cons] at *
      omega
    · rw [heq] at whole
      simp only [List.length_cons] at *
      omega
  · simp only [List.length_cons]
    omega

theorem next_length_lt {p after : Position} {c : Char} {rest left : List Char} {token : Token}
    (h : next p c rest = .ok (token, after, left)) : left.length < (c :: rest).length := by
  unfold next at h
  split at h
  · split at h
    · next heq =>
      have := readText_length_lt heq
      simp only [Except.ok.injEq, Prod.mk.injEq] at h
      simp only [List.length_cons, ← h.2.2]
      omega
    · simp at h
  · split at h
    · next hd =>
      simp only [Except.ok.injEq, Prod.mk.injEq] at h
      exact h.2.2 ▸ readNumber_length_lt rest hd
    · split at h
      · simp only [Except.ok.injEq, Prod.mk.injEq] at h
        simp only [← h.2.2, List.length_drop, List.length_cons]
        omega
      · split at h
        · simp only [Except.ok.injEq, Prod.mk.injEq] at h
          simp [← h.2.2]
        · split at h
          · simp only [Except.ok.injEq, Prod.mk.injEq] at h
            have := length_dropWhile_le isWordSign rest
            simp only [← h.2.2, List.length_cons]
            omega
          · split at h <;> simp at h

/-- The tokens of a text whose first character is at `p`, with an end token behind the last. -/
def scan (p : Position) (text : List Char) : Except SyntaxError (List Token) :=
  match _found : skip p text with
  | (p', []) => .ok [⟨.stop, "", p'⟩]
  | (p', c :: rest) =>
    match _step : next p' c rest with
    | .error e => .error e
    | .ok (token, after, left) =>
      match scan after left with
      | .error e => .error e
      | .ok tokens => .ok (token :: tokens)
termination_by text.length
decreasing_by
  have shorter := next_length_lt _step
  have := skip_length_le p text
  rw [_found] at this
  simp only at this
  omega

end Token

def tokens (text : String) : Except SyntaxError (List Token) := Token.scan ⟨1, 1⟩ text.toList

end NoteQuery
