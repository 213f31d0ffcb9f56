import NoteQuery.Proofs.Expr.Halting

/-! Reading with a cursor. The readers take tokens off the front of a list. Here they walk over tokens that stay
where they are: they look at the one under the cursor, move behind it, and call each other, with a loop where a
reader goes round. The cursor does not move behind the end token. Tokens with one end token, their last, are
enough for every walk: it comes to an end, looks at no other place, and finds what the reader of lists finds. -/
namespace NoteQuery

/-- The token of which a failure speaks: an error of syntax by its position, else a number without a value. -/
inductive Failure.Concerns : Failure → Token → Prop
  | malformed {token : Token} (cause : SyntaxCause) :
      Concerns (.error (.malformed ⟨cause, some token.position, none⟩)) token
  | number {token : Token} (kind : token.kind = .number)
      (unread : Expr.numberLiteral token.text = .error (.fault .badValue)) : Concerns (.fault .badValue) token

theorem Closing.kind_ne_stop (closing : Closing) : closing.kind ≠ .stop := by
  cases closing <;> decide

namespace Expr

/-- What is asked for at the cursor. -/
inductive Reader : Type → Type where
  /-- An expression with only the end token behind it. -/
  | whole : Reader Expr
  | chain (level : Nat) : Reader Expr
  /-- The operations of a level that follow what is left of them. -/
  | more (level : Nat) (left : Expr) : Reader Expr
  | signed : Reader Expr
  | trailed : Reader Expr
  | trailers (target : Expr) : Reader Expr
  | primary : Reader Expr
  | items (closing : Closing) : Reader (List Expr)
  /-- The items behind commas that follow these. -/
  | others (closing : Closing) (before : List Expr) : Reader (List Expr)
  | close (closing : Closing) : Reader Unit

/-- The moves of a reader. -/
inductive Walk (α : Type) : Type 1 where
  | done (result : α)
  | fail (cause : SyntaxCause)
  | look (next : Token → Walk α)
  /-- Moves behind the token, if it is not the end token. -/
  | advance (next : Token → Walk α)
  /-- Moves behind a token that is a part in itself. -/
  | single (next : Expr → Walk α)
  | read {β : Type} (reader : Reader β) (next : β → Walk α)

def operation? (level : Nat) (kind : TokenKind) : Option BinaryOp :=
  match BinaryOp.levels.drop level with
  | [] => none
  | ops :: _ => ops.lookup kind

def call? : Expr → Option (List Expr → Expr)
  | name function => some (call function)
  | member target method => some (send target method)
  | _ => none

namespace Reader

def walk {α : Type} : Reader α → Walk α
  | whole => .read (.chain 0) fun e => .look fun token =>
    if token.kind = .stop then .done e else .fail (.unexpectedToken token.text)
  | chain level =>
    if level < BinaryOp.levels.length then
      .read (.chain (level + 1)) fun left => .read (.more level left) .done
    else .read .signed .done
  | more level left => .look fun token =>
    match operation? level token.kind with
    | none => .done left
    | some op => .advance fun _ => .read (.chain (level + 1)) fun right =>
      .read (.more level (binary op left right)) .done
  | signed => .look fun token =>
    if token.kind = .not then .advance fun _ => .read .signed fun operand => .done (not operand)
    else if token.kind = .minus then .advance fun _ => .read .signed fun operand => .done (minus operand)
    else if token.kind = .plus then .advance fun _ => .read .signed .done
    else .read .trailed .done
  | trailed => .read .primary fun first => .read (.trailers first) .done
  | trailers target => .look fun token =>
    if token.kind = .dot then .advance fun _ => .look fun word =>
      if word.kind.isMemberName then .advance fun word => .read (.trailers (member target word.text)) .done
      else .fail .missingName
    else if token.kind = .openBracket then .advance fun _ => .read (.chain 0) fun key =>
      .read (.close .index) fun _ => .read (.trailers (index target key)) .done
    else if token.kind = .openParen then
      match call? target with
      | none => .fail .notCallable
      | some called => .advance fun _ => .read (.items .arguments) fun args =>
        .read (.close .arguments) fun _ => .read (.trailers (called args)) .done
    else .done target
  | primary => .look fun token =>
    if (single? token).isSome then .single .done
    else if token.kind = .openBracket then .advance fun _ => .read (.items .items) fun parts =>
      .read (.close .items) fun _ => .done (list parts)
    else if token.kind = .openParen then .advance fun _ => .read (.chain 0) fun e =>
      .read (.close .group) fun _ => .done e
    else if token.kind = .stop then .fail .unexpectedEnd
    else .fail (.unexpectedToken token.text)
  | items closing => .look fun token =>
    if token.kind = closing.kind then .done []
    else .read (.chain 0) fun first => .read (.others closing [first]) .done
  | others closing before => .look fun token =>
    if token.kind = .comma then .advance fun _ => .look fun token =>
      if token.kind = closing.kind then .done before
      else .read (.chain 0) fun item => .read (.others closing (before ++ [item])) .done
    else .done before
  | close closing => .look fun token =>
    if token.kind = closing.kind then .advance fun _ => .done () else .fail (.missing closing)

/-- What is found in a list of tokens, and those that are left. -/
def found {α : Type} : Reader α → List Token → Except Failure (α × List Token)
  | whole, tokens => (ofTokens tokens).map fun e => (e, tokens.getLast?.toList)
  | chain level, tokens => Plain.chain (BinaryOp.levels.drop level) tokens
  | more level left, tokens =>
    match BinaryOp.levels.drop level with
    | [] => .ok (left, tokens)
    | ops :: tighter => Plain.more ops tighter left tokens
  | signed, tokens => Plain.unary tokens
  | trailed, tokens => Plain.trailed tokens
  | trailers target, tokens => Plain.trailers target tokens
  | primary, tokens => Plain.primary tokens
  | items closing, tokens => Plain.items closing tokens
  | others _ before, [] => .ok (before, [])
  | others closing before, token :: rest =>
    if token.kind = .comma then (Plain.items closing rest).map fun later => (before ++ later.1, later.2)
    else .ok (before, token :: rest)
  | close closing, tokens => (Plain.close closing tokens).map fun rest => ((), rest)

/-- Whether the cursor moves for certain where the reader finds something. -/
def moves {α : Type} : Reader α → Bool
  | more _ _ => false
  | trailers _ => false
  | items _ => false
  | others _ _ => false
  | _ => true

end Reader

/-- Where the cursor is after a move. -/
def ahead (token : Token) (p : Nat) : Nat := if token.kind = .stop then p else p + 1

/-- A walk from a place comes to this where so much is seen. Without a token at the cursor it comes to
nothing. -/
inductive Runs (see : Nat → Option Token) : {α : Type} → Walk α → Nat → Except Failure (α × Nat) → Prop
  | done {α : Type} {result : α} {p : Nat} : Runs see (.done result) p (.ok (result, p))
  | fail {α : Type} {cause : SyntaxCause} {token : Token} {p : Nat} (here : see p = some token) :
      Runs see (.fail cause : Walk α) p (.error (.error (.malformed ⟨cause, some token.position, none⟩)))
  | look {α : Type} {next : Token → Walk α} {token : Token} {p : Nat} {r : Except Failure (α × Nat)}
      (here : see p = some token) (rest : Runs see (next token) p r) : Runs see (.look next) p r
  | advance {α : Type} {next : Token → Walk α} {token : Token} {p : Nat} {r : Except Failure (α × Nat)}
      (here : see p = some token) (rest : Runs see (next token) (ahead token p) r) :
      Runs see (.advance next) p r
  | single {α : Type} {next : Expr → Walk α} {token : Token} {e : Expr} {p : Nat}
      {r : Except Failure (α × Nat)} (here : see p = some token) (value : single? token = some (.ok e))
      (rest : Runs see (next e) (ahead token p) r) : Runs see (.single next) p r
  | unread {α : Type} {next : Expr → Walk α} {token : Token} {f : Failure} {p : Nat}
      (here : see p = some token) (unread : single? token = some (.error f)) :
      Runs see (.single next) p (.error f)
  | read {α β : Type} {reader : Reader β} {next : β → Walk α} {b : β} {p q : Nat}
      {r : Except Failure (α × Nat)} (part : Runs see reader.walk p (.ok (b, q)))
      (rest : Runs see (next b) q r) : Runs see (.read reader next) p r
  | stopped {α β : Type} {reader : Reader β} {next : β → Walk α} {f : Failure} {p : Nat}
      (part : Runs see reader.walk p (.error f)) : Runs see (.read reader next) p (.error f)

section Walking

variable {α : Type} {see : Nat → Option Token} {p : Nat}

/-- A walk comes to one thing at most. -/
theorem Runs.unique {walk : Walk α} {r r' : Except Failure (α × Nat)} (run : Runs see walk p r)
    (run' : Runs see walk p r') : r = r' := by
  induction run with
  | done =>
    cases run'
    rfl
  | fail here =>
    cases run' with
    | fail here' =>
    cases here.symm.trans here'
    rfl
  | look here _ ih =>
    cases run' with
    | look here' rest' =>
    cases here.symm.trans here'
    exact ih rest'
  | advance here _ ih =>
    cases run' with
    | advance here' rest' =>
    cases here.symm.trans here'
    exact ih rest'
  | single here value _ ih =>
    cases run' with
    | single here' value' rest' =>
      cases here.symm.trans here'
      cases value.symm.trans value'
      exact ih rest'
    | unread here' unread =>
      cases here.symm.trans here'
      cases value.symm.trans unread
  | unread here unread =>
    cases run' with
    | single here' value _ =>
      cases here.symm.trans here'
      cases unread.symm.trans value
    | unread here' unread' =>
      cases here.symm.trans here'
      cases unread.symm.trans unread'
      rfl
  | read _ _ ih ih' =>
    cases run' with
    | read part' rest' =>
      cases ih part'
      exact ih' rest'
    | stopped part' => cases ih part'
  | stopped _ ih =>
    cases run' with
    | read part' _ => cases ih part'
    | stopped part' =>
      cases ih part'
      rfl

theorem Runs.onto {reader : Reader α} {r : Except Failure (α × Nat)} (part : Runs see reader.walk p r) :
    Runs see (.read reader .done) p r := by
  rcases r with f | ⟨a, q⟩
  · exact .stopped part
  · exact .read part .done

end Walking

/-- What a look finds among the tokens. Past them it finds the same everywhere, or nothing. -/
def seen (tokens : List Token) (beyond : Option Token) (p : Nat) : Option Token := tokens[p]?.or beyond

/-- The last token is the end token and no other is. -/
def Ended (tokens : List Token) : Prop :=
  ∃ body stop, tokens = body ++ [stop] ∧ Unended body ∧ stop.kind = .stop

/-- The cursor is no further back than it was and at a token, or else a token that it had not passed is the one
of which the failure speaks. -/
inductive Stays {α : Type} (tokens : List Token) (p : Nat) : Except Failure (α × Nat) → Prop
  | found {a : α} {q : Nat} (onward : p ≤ q) (inside : q < tokens.length) : Stays tokens p (.ok (a, q))
  | failed {f : Failure} {q : Nat} {token : Token} (onward : p ≤ q) (here : tokens[q]? = some token)
      (concerns : f.Concerns token) : Stays tokens p (.error f)

section Inside

variable {α : Type} {tokens : List Token} {beyond : Option Token} {token : Token} {p q : Nat}
  {r : Except Failure (α × Nat)}

theorem Stays.earlier (stays : Stays tokens q r) (onward : p ≤ q) : Stays tokens p r := by
  cases stays with
  | found onward' inside => exact .found (onward.trans onward') inside
  | failed onward' here concerns => exact .failed (onward.trans onward') here concerns

theorem seen_inside (inside : p < tokens.length) : seen tokens beyond p = tokens[p]? := by
  simp [seen, inside]

/-- A move leads no further than to the end token. -/
theorem Ended.ahead_inside (ended : Ended tokens) (inside : p < tokens.length)
    (here : seen tokens beyond p = some token) : p ≤ ahead token p ∧ ahead token p < tokens.length := by
  obtain ⟨body, stop, rfl, _, kind⟩ := ended
  rw [seen_inside inside] at here
  rw [List.length_append, List.length_singleton] at inside ⊢
  unfold ahead
  split
  · exact ⟨le_rfl, inside⟩
  · rename_i going
    refine ⟨Nat.le_succ p, Nat.lt_of_le_of_ne inside fun last => going ?_⟩
    obtain rfl : p = body.length := by omega
    rw [List.getElem?_concat_length, Option.some.injEq] at here
    exact here ▸ kind

/-- A walk among the tokens stays there. -/
theorem Ended.stays (ended : Ended tokens) {walk : Walk α} (run : Runs (seen tokens beyond) walk p r)
    (inside : p < tokens.length) : Stays tokens p r := by
  induction run with
  | done => exact .found le_rfl inside
  | fail here => exact .failed le_rfl (seen_inside inside ▸ here) (.malformed _)
  | look _ _ ih => exact ih inside
  | advance here _ ih | single here _ _ ih =>
    obtain ⟨onward, inside'⟩ := ended.ahead_inside inside here
    exact (ih inside').earlier onward
  | unread here unread =>
    obtain ⟨rfl, kind, unread⟩ := single?_error unread
    exact .failed le_rfl (seen_inside inside ▸ here) (.number kind unread)
  | read _ _ ih ih' =>
    cases ih inside with
    | found onward inside' => exact (ih' inside').earlier onward
  | stopped _ ih =>
    cases ih inside with
    | failed onward here concerns => exact .failed onward here concerns

end Inside

/-- These are the tokens from some place to the end token. -/
structure Left (tokens rest : List Token) : Prop where
  behind : rest <:+ tokens
  ended : Ended rest

/-- Where the cursor is when these tokens are left. -/
def place (tokens rest : List Token) : Nat := tokens.length - rest.length

/-- What is found, with the place in front of the tokens that are left. -/
def located {α : Type} (tokens : List Token) (x : Except Failure (α × List Token)) : Except Failure (α × Nat) :=
  x.map fun found => (found.1, place tokens found.2)

/-- Tokens have been passed, and the end token is not among them. -/
def Passes (tokens rest : List Token) : Prop := ∃ cut, tokens = cut ++ rest ∧ Unended cut

namespace Left

variable {tokens rest rest' tail : List Token} {token : Token}

theorem exists_cons (left : Left tokens rest) : ∃ token tail, rest = token :: tail := by
  obtain ⟨body, stop, rfl, _⟩ := left.ended
  exact List.exists_cons_of_ne_nil (by simp)

theorem here (left : Left tokens (token :: tail)) (beyond : Option Token) :
    seen tokens beyond (place tokens (token :: tail)) = some token := by
  obtain ⟨front, rfl⟩ := left.behind
  simp [seen, place]

theorem tail_nil (left : Left tokens (token :: tail)) (stop : token.kind = .stop) : tail = [] := by
  obtain ⟨body, last, split, unended, _⟩ := left.ended
  cases body with
  | nil => exact (List.cons.inj split).2
  | cons first body =>
    obtain ⟨rfl, _⟩ := List.cons.inj split
    exact absurd stop (unended token List.mem_cons_self)

theorem next (left : Left tokens (token :: tail)) (going : token.kind ≠ .stop) : Left tokens tail := by
  refine ⟨(List.suffix_cons token tail).trans left.behind, ?_⟩
  obtain ⟨body, last, split, unended, stop⟩ := left.ended
  cases body with
  | nil =>
    obtain ⟨rfl, _⟩ := List.cons.inj split
    exact absurd stop going
  | cons first body => exact ⟨body, last, (List.cons.inj split).2, (List.forall_mem_cons.mp unended).2, stop⟩

theorem ahead_place (left : Left tokens (token :: tail)) (going : token.kind ≠ .stop) :
    ahead token (place tokens (token :: tail)) = place tokens tail := by
  have short := left.behind.length_le
  rw [List.length_cons] at short
  rw [ahead, if_neg going, place, place, List.length_cons]
  omega

theorem passed (left : Left tokens rest) (passes : Passes rest rest') : Left tokens rest' := by
  obtain ⟨cut, rfl, unended⟩ := passes
  induction cut with
  | nil => exact left
  | cons token cut ih =>
    obtain ⟨going, unended⟩ := List.forall_mem_cons.mp unended
    exact ih unended (left.next going)

end Left

section Found

open Plain

variable {tokens rest : List Token} {e : Expr} {closing : Closing}

theorem passes_readAt {n : Nat} (level : n ≤ 8) (read : readAt n tokens = .ok (e, rest)) : Passes tokens rest := by
  obtain ⟨cut, split, derives⟩ := readAt_derives level read
  exact ⟨cut, split, derives.shape.unended⟩

theorem passes_chain {level : Nat} (read : chain (BinaryOp.levels.drop level) tokens = .ok (e, rest)) :
    Passes tokens rest := by
  by_cases loose : level ≤ 6
  · exact passes_readAt (by omega) ((readAt_chain loose tokens).trans read)
  · have none : BinaryOp.levels.drop level = [] := List.drop_eq_nil_of_le (by simp [BinaryOp.levels]; omega)
    rw [none] at read
    exact passes_readAt (n := 6) (by omega) read

theorem passes_items {parts : List Expr} (read : items closing tokens = .ok (parts, rest)) :
    Passes tokens rest := by
  obtain ⟨cut, split, derives⟩ := (sound _).items closing tokens parts rest (Nat.lt_succ_self _) read
  exact ⟨cut, split, derives.unended⟩

theorem callee_eq (target : Expr) : callee target tokens =
    match call? target with
    | none => failAt .notCallable tokens
    | some called => .ok called := by
  cases target <;> rfl

theorem passes_close (closed : Plain.close closing tokens = .ok rest) : Passes tokens rest := by
  obtain ⟨stop, rfl, kind⟩ := close_ok closed
  exact ⟨[stop], rfl, .single (kind ▸ closing.kind_ne_stop)⟩

end Found

theorem plain_ok {α : Type} {P : List Token → Prop} {read : Except Failure (α × { rest // P rest })} {a : α}
    {rest : List Token} (found : plain read = .ok (a, rest)) : P rest := by
  obtain ⟨⟨_, rest, left⟩, _, same⟩ := Except.map_eq_ok.mp found
  cases same
  exact left

section Items

variable {token : Token} {rest : List Token} {closing : Closing}

theorem items_none (closed : token.kind = closing.kind) :
    (Reader.items closing).found (token :: rest) = .ok ([], token :: rest) :=
  Plain.items_closed _ _ (congrArg some closed)

theorem items_some (going : token.kind ≠ closing.kind) : (Reader.items closing).found (token :: rest) =
    (Reader.chain 0).found (token :: rest) >>= fun first => (Reader.others closing [first.1]).found first.2 := by
  have going : (token :: rest).head?.map Token.kind ≠ some closing.kind := fun closed =>
    going (Option.some.inj closed)
  refine (Plain.items_open _ _ going).trans (congrArg _ (funext fun first => ?_))
  obtain ⟨e, after⟩ := first
  cases after <;> rfl

theorem others_append (closing : Closing) (before parts : List Expr) (rest : List Token) :
    ((Reader.others closing parts).found rest).map (fun later => (before ++ later.1, later.2)) =
      (Reader.others closing (before ++ parts)).found rest := by
  cases rest with
  | nil => rfl
  | cons token rest =>
    simp only [Reader.found]
    split
    · cases Plain.items closing rest <;> simp [Except.map]
    · rfl

end Items

/-- The walk of a reader finds what the reader finds in the tokens that are left. -/
def Finds {α : Type} (tokens : List Token) (beyond : Option Token) (reader : Reader α) (rest : List Token) : Prop :=
  Runs (seen tokens beyond) reader.walk (place tokens rest) (located tokens (reader.found rest))

section Finding

variable {α β : Type} {tokens rest tail : List Token} {beyond : Option Token} {token : Token}

theorem Left.advance (left : Left tokens (token :: tail)) (going : token.kind ≠ .stop) {next : Token → Walk α}
    {r : Except Failure (α × Nat)} (further : Runs (seen tokens beyond) (next token) (place tokens tail) r) :
    Runs (seen tokens beyond) (.advance next) (place tokens (token :: tail)) r :=
  .advance (left.here beyond) (left.ahead_place going ▸ further)

theorem Left.fail (left : Left tokens (token :: tail)) (cause : SyntaxCause) :
    Runs (seen tokens beyond) (.fail cause : Walk α) (place tokens (token :: tail))
      (located tokens (failAt cause (token :: tail))) := .fail (left.here beyond)

theorem Finds.bind {reader : Reader β} {next : β → Walk α}
    {further : β × List Token → Except Failure (α × List Token)} (finds : Finds tokens beyond reader rest)
    (later : ∀ b after, reader.found rest = .ok (b, after) →
      Runs (seen tokens beyond) (next b) (place tokens after) (located tokens (further (b, after)))) :
    Runs (seen tokens beyond) (.read reader next) (place tokens rest)
      (located tokens (reader.found rest >>= further)) := by
  unfold Finds at finds
  cases found : reader.found rest with
  | error f =>
    rw [found] at finds
    exact .stopped finds
  | ok part =>
    rw [found] at finds
    exact .read finds (later part.1 part.2 found)

theorem Left.close (left : Left tokens rest) (closing : Closing) : Finds tokens beyond (.close closing) rest := by
  obtain ⟨token, tail, rfl⟩ := left.exists_cons
  refine .look (left.here beyond) ?_
  simp only [Reader.found, Plain.close_eq]
  split
  · rename_i closes
    exact left.advance (closes ▸ closing.kind_ne_stop) .done
  · exact left.fail (.missing closing)

/-- Where fewer tokens are left, all walks find what the readers find. -/
def FindsBelow (tokens : List Token) (beyond : Option Token) (bound : Nat) : Prop :=
  ∀ {α : Type} (reader : Reader α) (rest : List Token), Left tokens rest → rest.length < bound →
    Finds tokens beyond reader rest

namespace FindsBelow

/-- Something between signs, the first of which is under the cursor. -/
theorem enclosed {reader : Reader β} {closing : Closing} {next : β → Walk α}
    {last : β × List Token → List Token → Except Failure (α × List Token)}
    (below : FindsBelow tokens beyond (token :: tail).length) (left : Left tokens (token :: tail))
    (going : token.kind ≠ .stop) (passes : ∀ b after, reader.found tail = .ok (b, after) → Passes tail after)
    (later : ∀ part after, Left tokens after → after.length < (token :: tail).length →
      Runs (seen tokens beyond) (next part.1) (place tokens after) (located tokens (last part after))) :
    Runs (seen tokens beyond) (.advance fun _ => .read reader fun b => .read (.close closing) fun _ => next b)
      (place tokens (token :: tail))
      (located tokens (reader.found tail >>= fun part => Plain.close closing part.2 >>= last part)) := by
  have inside := below reader tail (left.next going) (Nat.lt_succ_self _)
  refine left.advance going (inside.bind fun b after found => ?_)
  have passes := passes b after found
  have left' := (left.next going).passed passes
  have closes : Plain.close closing after >>= last (b, after) =
      (Reader.close closing).found after >>= fun closed => last (b, after) closed.2 := by
    rw [Reader.found, Except.map_bind]
  rw [closes]
  refine (left'.close closing).bind fun _ behind closed => ?_
  obtain ⟨_, closed, same⟩ := Except.map_eq_ok.mp closed
  cases same
  obtain ⟨cut, rfl, _⟩ := passes
  obtain ⟨stop, rfl, _⟩ := close_ok closed
  refine later (b, _) behind (left'.passed (passes_close closed)) ?_
  simp only [List.length_append, List.length_cons]
  omega

theorem primary (below : FindsBelow tokens beyond rest.length) (left : Left tokens rest) :
    Finds tokens beyond .primary rest := by
  obtain ⟨token, tail, rfl⟩ := left.exists_cons
  refine .look (left.here beyond) ?_
  simp only [Reader.found, Plain.primary_cons, Except.map_eq_bind]
  cases single : single? token with
  | some result =>
    have going : token.kind ≠ .stop := fun stop => by simp [single?, stop] at single
    simp only [Option.isSome_some, if_true]
    cases result with
    | error f => exact .unread (left.here beyond) single
    | ok e => exact .single (left.here beyond) single (left.ahead_place going ▸ .done)
  | none =>
    simp only [Option.isSome_none, Bool.false_eq_true, if_false]
    split
    · rename_i opens
      have going : token.kind ≠ .stop := by simp [opens]
      exact below.enclosed left going (fun _ _ => passes_items) fun _ _ _ _ => .done
    · split
      · rename_i opens
        have going : token.kind ≠ .stop := by simp [opens]
        exact below.enclosed left going (fun _ _ => passes_chain) fun _ _ _ _ => .done
      · simp only [unexpected]
        split
        · exact left.fail .unexpectedEnd
        · exact left.fail (.unexpectedToken token.text)

theorem trailers (below : FindsBelow tokens beyond rest.length) (left : Left tokens rest) (target : Expr) :
    Finds tokens beyond (.trailers target) rest := by
  obtain ⟨token, tail, rfl⟩ := left.exists_cons
  have short : tail.length < (token :: tail).length := Nat.lt_succ_self _
  refine .look (left.here beyond) ?_
  simp only [Reader.found, Plain.trailers_cons, callee_eq]
  split
  · rename_i dot
    have going : token.kind ≠ .stop := by simp [dot]
    refine left.advance going ?_
    have left := left.next going
    obtain ⟨word, tail, rfl⟩ := left.exists_cons
    refine .look (left.here beyond) ?_
    dsimp only
    split
    · rename_i named
      have going : word.kind ≠ .stop := fun stop => by simp [stop, TokenKind.isMemberName] at named
      exact left.advance going
        (below (.trailers _) tail (left.next going) (Nat.lt_trans (Nat.lt_succ_self _) short)).onto
    · exact left.fail .missingName
  · split
    · rename_i opens
      have going : token.kind ≠ .stop := by simp [opens]
      exact below.enclosed left going (fun _ _ => passes_chain) fun key after left fewer =>
        (below (.trailers (index target key.1)) after left fewer).onto
    · split
      · rename_i opens
        have going : token.kind ≠ .stop := by simp [opens]
        cases call? target with
        | none => exact left.fail .notCallable
        | some called =>
          exact below.enclosed left going (fun _ _ => passes_items) fun args after left fewer =>
            (below (.trailers (called args.1)) after left fewer).onto
      · exact .done

theorem trailed (below : FindsBelow tokens beyond rest.length) (left : Left tokens rest) :
    Finds tokens beyond .trailed rest := by
  have whole : Reader.trailed.found rest = Reader.primary.found rest >>= fun first =>
    (Reader.trailers first.1).found first.2 := Plain.trailed_eq rest
  rw [Finds, whole]
  refine (below.primary left).bind fun e after found => ?_
  have left := left.passed (passes_readAt (n := 8) le_rfl found)
  exact (below (.trailers e) after left (plain_ok found)).onto

theorem signed (below : FindsBelow tokens beyond rest.length) (left : Left tokens rest) :
    Finds tokens beyond .signed rest := by
  have trailed := below.trailed left
  obtain ⟨token, tail, rfl⟩ := left.exists_cons
  have behind (sign : token.kind ≠ .stop) : Finds tokens beyond .signed tail :=
    below .signed tail (left.next sign) (Nat.lt_succ_self _)
  refine .look (left.here beyond) ?_
  simp only [Reader.found, Plain.unary_cons, Except.map_eq_bind]
  split
  · rename_i sign
    have going : token.kind ≠ .stop := by simp [sign]
    exact left.advance going ((behind going).bind fun _ _ _ => .done)
  · split
    · rename_i sign
      have going : token.kind ≠ .stop := by simp [sign]
      exact left.advance going ((behind going).bind fun _ _ _ => .done)
    · split
      · rename_i sign
        have going : token.kind ≠ .stop := by simp [sign]
        exact left.advance going (behind going).onto
      · exact trailed.onto

theorem more (below : FindsBelow tokens beyond rest.length) (left : Left tokens rest) (level : Nat) (first : Expr) :
    Finds tokens beyond (.more level first) rest := by
  obtain ⟨token, tail, rfl⟩ := left.exists_cons
  refine .look (left.here beyond) ?_
  cases ops : BinaryOp.levels.drop level with
  | nil =>
    simp only [operation?, Reader.found, ops]
    exact .done
  | cons here tighter =>
    simp only [operation?, Reader.found, ops, Plain.more_cons]
    cases found : here.lookup token.kind with
    | none => exact .done
    | some op =>
      obtain ⟨_, kind, rfl⟩ := levels_found ops found
      have going : token.kind ≠ .stop := kind ▸ op.sign_ne_stop
      have short : tail.length < (token :: tail).length := Nat.lt_succ_self _
      refine left.advance going
        ((below (.chain (level + 1)) tail (left.next going) short).bind fun right after found => ?_)
      have further := below (.more level (binary op first right)) after
        ((left.next going).passed (passes_chain found)) (Nat.lt_trans (plain_ok found) short)
      simp only [Finds, Reader.found, ops] at further
      exact further.onto

theorem chain (below : FindsBelow tokens beyond rest.length) (left : Left tokens rest) (level : Nat) :
    Finds tokens beyond (.chain level) rest := by
  -- A level begins where the next one does, and the tightest where the signs do.
  induction gap : BinaryOp.levels.length - level generalizing level with
  | zero =>
    have above : BinaryOp.levels.length ≤ level := by omega
    have signed := below.signed left
    simp only [Finds, Reader.found] at signed
    simp only [Finds, Reader.walk, Reader.found, Nat.not_lt.mpr above, if_false, List.drop_eq_nil_of_le above,
      Plain.chain_nil]
    exact signed.onto
  | succ gap ih =>
    have under : level < BinaryOp.levels.length := by omega
    have ops := List.drop_eq_getElem_cons under
    simp only [Finds, Reader.walk, Reader.found, under, if_true, ops, Plain.chain_cons]
    refine (ih (level + 1) (by omega)).bind fun first after found => ?_
    have further := below (.more level first) after (left.passed (passes_chain found)) (plain_ok found)
    simp only [Finds, Reader.found, ops] at further
    exact further.onto

theorem items (below : FindsBelow tokens beyond rest.length) (left : Left tokens rest) (closing : Closing) :
    Finds tokens beyond (.items closing) rest := by
  have chain := below.chain left 0
  obtain ⟨token, tail, rfl⟩ := left.exists_cons
  refine .look (left.here beyond) ?_
  split
  · rename_i closed
    rw [items_none closed]
    exact .done
  · rename_i going
    rw [items_some going]
    exact chain.bind fun first after found =>
      (below (.others closing [first]) after (left.passed (passes_chain found)) (plain_ok found)).onto

theorem others (below : FindsBelow tokens beyond rest.length) (left : Left tokens rest) (closing : Closing)
    (before : List Expr) : Finds tokens beyond (.others closing before) rest := by
  obtain ⟨token, tail, rfl⟩ := left.exists_cons
  have short : tail.length < (token :: tail).length := Nat.lt_succ_self _
  refine .look (left.here beyond) ?_
  rw [Reader.found]
  split
  · rename_i comma
    have going : token.kind ≠ .stop := by simp [comma]
    refine left.advance going ?_
    have left := left.next going
    have chain := below (.chain 0) tail left short
    obtain ⟨token, tail, rfl⟩ := left.exists_cons
    refine .look (left.here beyond) ?_
    change Runs _ _ _ (located tokens (((Reader.items closing).found (token :: tail)).map _))
    split
    · rename_i closed
      simp only [items_none closed, Except.map, List.append_nil]
      exact .done
    · rename_i going
      rw [items_some going, Except.map_eq_bind, bind_assoc]
      refine chain.bind fun item after found => ?_
      rw [← Except.map_eq_bind, others_append]
      exact (below (.others closing (before ++ [item])) after (left.passed (passes_chain found))
        (Nat.lt_trans (plain_ok found) short)).onto
  · exact .done

theorem whole (below : FindsBelow tokens beyond rest.length) (left : Left tokens rest) :
    Finds tokens beyond .whole rest := by
  rw [Finds, Reader.found, Plain.ofTokens_eq, Except.map_eq_bind, bind_assoc]
  refine (below.chain left 0).bind fun e after found => ?_
  have passes := passes_chain found
  have left' := left.passed passes
  obtain ⟨token, tail, rfl⟩ := left'.exists_cons
  refine .look (left'.here beyond) ?_
  dsimp only
  split
  · rename_i stop
    obtain rfl := left'.tail_nil stop
    obtain ⟨cut, rfl, _⟩ := passes
    simp only [List.getLast?_concat, Option.toList_some]
    exact .done
  · exact left'.fail (.unexpectedToken token.text)

end FindsBelow

theorem Left.finds (left : Left tokens rest) (beyond : Option Token) (reader : Reader α) :
    Finds tokens beyond reader rest := by
  -- By induction on how many tokens are left. Before it has moved, a reader calls only readers of tighter parts.
  induction length : rest.length using Nat.strong_induction_on generalizing α rest with
  | h _ ih =>
  subst length
  have below : FindsBelow tokens beyond rest.length := fun reader _ left' short => ih _ short left' reader rfl
  cases reader with
  | whole => exact below.whole left
  | chain level => exact below.chain left level
  | more level first => exact below.more left level first
  | signed => exact below.signed left
  | trailed => exact below.trailed left
  | trailers target => exact below.trailers left target
  | primary => exact below.primary left
  | items closing => exact below.items left closing
  | others closing before => exact below.others left closing before
  | close closing => exact left.close closing

theorem Ended.found_shorter {reader : Reader α} {a : α} {after : List Token} (ended : Ended rest)
    (moves : reader.moves = true) (found : reader.found rest = .ok (a, after)) : after.length < rest.length := by
  cases reader with
  | whole =>
    obtain ⟨body, stop, rfl, unended, kind⟩ := ended
    obtain ⟨e, read, same⟩ := Except.map_eq_ok.mp found
    obtain ⟨rfl, rfl⟩ := Prod.mk.inj same
    obtain ⟨_, _, token, more, rfl, _⟩ := ((ofTokens_iff unended kind e).mp read).shape
    rw [List.getLast?_concat]
    simp
  | close closing =>
    obtain ⟨rest', closed, same⟩ := Except.map_eq_ok.mp found
    cases same
    obtain ⟨stop, rfl, _⟩ := close_ok closed
    exact Nat.lt_succ_self _
  | chain _ | signed | trailed | primary => exact plain_ok found
  | more _ _ | trailers _ | items _ | others _ _ => cases moves

end Finding

/-- This and nothing else is what the walk of a reader from a place comes to. -/
structure ComesTo {α : Type} (tokens : List Token) (beyond : Option Token) (reader : Reader α) (p : Nat)
    (r : Except Failure (α × Nat)) : Prop where
  ends : ∀ r', Runs (seen tokens beyond) reader.walk p r' ↔ r' = r
  stays : Stays tokens p r
  moves : reader.moves = true → ∀ a q, r = .ok (a, q) → p < q

section Cursor

variable {α : Type} {tokens : List Token} {p : Nat}

theorem Ended.left (ended : Ended tokens) (inside : p < tokens.length) : Left tokens (tokens.drop p) := by
  obtain ⟨body, stop, rfl, unended, kind⟩ := ended
  rw [List.length_append, List.length_singleton] at inside
  refine ⟨List.drop_suffix _ _, body.drop p, stop, ?_, fun token later => ?_, kind⟩
  · exact List.drop_append_of_le_length (by omega)
  · exact unended token (List.mem_of_mem_drop later)

/-- From every token a walk comes to what the reader finds in the tokens from there on, whatever a look past them
would find: it never looks there. -/
theorem comesTo_found (ended : Ended tokens) (inside : p < tokens.length) (beyond : Option Token)
    (reader : Reader α) : ComesTo tokens beyond reader p (located tokens (reader.found (tokens.drop p))) := by
  have left := ended.left inside
  have here : place tokens (tokens.drop p) = p := by
    rw [place, List.length_drop]
    omega
  have run := left.finds beyond reader
  rw [Finds, here] at run
  refine ⟨fun r => ⟨fun run' => run'.unique run, fun same => same ▸ run⟩, ended.stays run inside, ?_⟩
  intro moves a q came
  obtain ⟨⟨a, after⟩, found, same⟩ := Except.map_eq_ok.mp came
  cases same
  have shorter := left.ended.found_shorter moves found
  rw [List.length_drop] at shorter
  simp only [place]
  omega

end Cursor

section Sample

/-- The walk over a whole text ends at its end token. -/
theorem comesTo_found_difference : ∃ ts, NoteQuery.tokens "a - 1" = .ok ts ∧ Ended ts ∧ 0 < ts.length ∧
    ComesTo ts none .whole 0 (.ok (binary (.arith .sub) (name "a") (literal (.int 1)), 3)) := by
  let a : Token := ⟨.name, "a", ⟨1, 1⟩⟩
  let minus : Token := ⟨.minus, "-", ⟨1, 3⟩⟩
  let one : Token := ⟨.number, "1", ⟨1, 5⟩⟩
  let stop : Token := ⟨.stop, "", ⟨1, 6⟩⟩
  have scanned : NoteQuery.tokens "a - 1" = .ok [a, minus, one, stop] :=
    Except.toOption_eq_some.mp (by decide +kernel)
  have unended : Unended [a, minus, one] := by simp [Unended, a, minus, one]
  have kind : stop.kind = .stop := rfl
  have ended : Ended [a, minus, one, stop] := ⟨[a, minus, one], stop, rfl, unended, kind⟩
  have derives : Derives 4 [a, minus, one] (binary (.arith .sub) (name "a") (literal (.int 1))) :=
    .binary (.arith .sub) (.loosen (.name rfl) (by decide)) rfl
      (.loosen (.whole rfl (by decide) (by decide +kernel)) (by decide))
  have read : ofTokens [a, minus, one, stop] = .ok (binary (.arith .sub) (name "a") (literal (.int 1))) :=
    (ofTokens_iff unended kind _).mpr (derives.loosen (by decide))
  have came := comesTo_found ended (p := 0) (by decide) none .whole
  rw [List.drop_zero, Reader.found, read] at came
  exact ⟨_, scanned, ended, by decide, came⟩

/-- A number without a value ends the walk with a failure that has no position. -/
theorem comesTo_superscript : ∃ ts f, NoteQuery.tokens "a + ²" = .ok ts ∧ Ended ts ∧ 0 < ts.length ∧
    Runs (seen ts ts.getLast?) Reader.whole.walk 0 (.error f) ∧
    ∀ (q : Nat) (token : Token) (cause : SyntaxCause), ts[q]? = some token →
      f ≠ .error (.malformed ⟨cause, some token.position, none⟩) := by
  let a : Token := ⟨.name, "a", ⟨1, 1⟩⟩
  let plus : Token := ⟨.plus, "+", ⟨1, 3⟩⟩
  let two : Token := ⟨.number, "²", ⟨1, 5⟩⟩
  let stop : Token := ⟨.stop, "", ⟨1, 6⟩⟩
  have scanned : NoteQuery.tokens "a + ²" = .ok [a, plus, two, stop] := by decide +kernel
  have unended : Unended [a, plus, two] := by simp [Unended, a, plus, two]
  have ended : Ended [a, plus, two, stop] := ⟨[a, plus, two], stop, rfl, unended, rfl⟩
  have unread : numberLiteral "²" = .error (.fault .badValue) := rfl
  have first : Derives 4 [a] (name "a") := .loosen (.name rfl) (by decide)
  have waits : Awaits 4 ([a] ++ [plus]) := .binary (.arith .add) first rfl (Awaits.here.loosen (by decide))
  have failed : ofTokens ([a] ++ [plus] ++ two :: [stop]) = .error (.fault .badValue) :=
    ofTokens_fails rfl unread (waits.loosen (by decide)) [stop]
  have run := (ended.left (p := 0) (by decide)).finds (some stop) Reader.whole
  rw [List.drop_zero, Finds, Reader.found, show ofTokens [a, plus, two, stop] = _ from failed] at run
  refine ⟨_, _, scanned, ended, by decide, run, ?_⟩
  intro q token cause _ same
  cases same

end Sample

end Expr

end NoteQuery
