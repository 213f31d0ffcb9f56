import NoteQuery.Proofs.Expr.Soundness

/-! Where reading stops. Tokens that are not read as an expression have a first token that cannot stand
where it does. Those in front of it are complete as far as they go: they break off either inside a bracket
or behind a dot, or where a part has to follow. A number without a value stops the reading exactly in a
place of the last kind. -/
namespace NoteQuery

/-- What is wrong with a token that stops the reading. -/
def SyntaxCause.Blames : SyntaxCause → Token → Prop
  | unexpectedEnd, token => token.kind = .stop
  | unexpectedToken text, token => token.kind ≠ .stop ∧ token.text = text
  | missingName, token => token.kind.isMemberName = false
  | missing closing, token => token.kind ≠ closing.kind
  | notCallable, token => token.kind = .openParen
  | _, _ => False

/-- Reading stops at the first of these tokens. -/
inductive Failure.At : Failure → List Token → Prop
  | malformed {cause : SyntaxCause} {rest : List Token} (blamed : ∀ token ∈ rest.head?, cause.Blames token) :
    At (.error (.malformed ⟨cause, rest.head?.map Token.position, none⟩)) rest
  | number {token : Token} {rest : List Token} (kind : token.kind = .number)
    (unread : Expr.numberLiteral token.text = .error (.fault .badValue)) : At (.fault .badValue) (token :: rest)

namespace Expr

def isCallee : Expr → Bool
  | name _ => true
  | member _ _ => true
  | _ => false

mutual

/-- The tokens begin a part of the level and break off where another part has to follow. -/
inductive Awaits : Nat → List Token → Prop
  | here : Awaits 8 []
  | tighter {n : Nat} {front : List Token} (part : Awaits (n + 1) front) : Awaits n front
  | binary (op : BinaryOp) {sign : Token} {cut front : List Token} {e : Expr} (left : Derives op.strength cut e)
      (kind : sign.kind = op.sign) (right : Awaits (op.strength + 1) front) :
      Awaits op.strength (cut ++ sign :: front)
  | signed {sign : Token} {front : List Token} (kind : sign.kind ∈ [.not, .minus, .plus])
      (operand : Awaits 6 front) : Awaits 6 (sign :: front)
  | index {start : Token} {cut front : List Token} {e : Expr} (target : Derives 7 cut e)
      (opens : start.kind = .openBracket) (within : Awaits 0 front) : Awaits 7 (cut ++ start :: front)
  | arguments {start : Token} {cut front : List Token} {e : Expr} (target : Derives 7 cut e)
      (called : e.isCallee = true) (opens : start.kind = .openParen) (within : AwaitsItem front) :
      Awaits 7 (cut ++ start :: front)
  | list {start : Token} {front : List Token} (opens : start.kind = .openBracket) (within : AwaitsItem front) :
      Awaits 8 (start :: front)
  | group {start : Token} {front : List Token} (opens : start.kind = .openParen) (within : Awaits 0 front) :
      Awaits 8 (start :: front)

/-- The tokens begin expressions with commas between them and break off where a part has to follow. -/
inductive AwaitsItem : List Token → Prop
  | first {front : List Token} (part : Awaits 0 front) : AwaitsItem front
  | later {comma : Token} {cut front : List Token} {e : Expr} (item : Derives 0 cut e)
      (kind : comma.kind = .comma) (others : AwaitsItem front) : AwaitsItem (cut ++ comma :: front)

end

theorem Awaits.loosen {n m : Nat} {front : List Token} (part : Awaits m front) (looser : n ≤ m) :
    Awaits n front := by
  induction looser with
  | refl => exact part
  | step _ ih => exact ih part.tighter

/-- Reading stops behind some of the tokens, at the end of which a part has to follow if it stops for want of
a value. -/
def Halts (awaits : List Token → Prop) (tokens : List Token) (f : Failure) : Prop :=
  ∃ front rest, tokens = front ++ rest ∧ Unended front ∧ f.At rest ∧ (f = .fault .badValue → awaits front)

section Halting

open Plain

variable {awaits awaits' : List Token → Prop} {n : Nat} {token : Token} {cut rest tokens : List Token}
  {e : Expr} {f : Failure}

theorem Halts.behind (unended : Unended cut) (further : ∀ front, awaits' front → awaits (cut ++ front))
    (halts : Halts awaits' tokens f) : Halts awaits (cut ++ tokens) f := by
  obtain ⟨front, rest, rfl, unended', stops, waits⟩ := halts
  exact ⟨cut ++ front, rest, by simp, unended.append unended', stops, fun fault => further front (waits fault)⟩

theorem Halts.next (going : token.kind ≠ .stop) (further : ∀ front, awaits' front → awaits (token :: front))
    (halts : Halts awaits' rest f) : Halts awaits (token :: rest) f :=
  halts.behind (.single going) further

theorem Halts.mono (weaker : ∀ front, awaits' front → awaits front) (halts : Halts awaits' tokens f) :
    Halts awaits tokens f := by
  obtain ⟨front, rest, split, unended, stops, waits⟩ := halts
  exact ⟨front, rest, split, unended, stops, fun fault => weaker front (waits fault)⟩

theorem Halts.here {cause : SyntaxCause} (blamed : ∀ token ∈ tokens.head?, cause.Blames token) {α : Type}
    (failed : (failAt cause tokens : Except Failure α) = .error f) : Halts awaits tokens f := by
  cases failed
  exact ⟨[], tokens, rfl, .nil, .malformed blamed, nofun⟩

theorem Halts.close {closing : Closing} (failed : Plain.close closing tokens = .error f) :
    Halts awaits tokens f := by
  rw [close_eq] at failed
  cases tokens with
  | nil => exact .here (by simp) failed
  | cons token rest =>
    dsimp only at failed
    split at failed
    · cases failed
    · rename_i other
      exact .here (by simpa [SyntaxCause.Blames] using other) failed

/-- A part in itself is without a value where it is a number that has none. -/
theorem single?_error (failed : single? token = some (.error f)) :
    f = .fault .badValue ∧ token.kind = .number ∧ numberLiteral token.text = .error f := by
  unfold single? at failed
  split at failed
  case h_2 kind =>
    have unread := Option.some.inj failed
    refine ⟨?_, kind, unread⟩
    unfold numberLiteral at unread
    dsimp only at unread
    split at unread
    · split at unread <;> cases unread
      rfl
    · split at unread <;> cases unread
      rfl
  all_goals cases failed

theorem Halts.single {result : Except Failure Expr} (single : single? token = some result)
    (failed : result = .error f) : Halts (Awaits 8) (token :: rest) f := by
  obtain ⟨rfl, kind, unread⟩ := single?_error (failed ▸ single)
  exact ⟨[], token :: rest, rfl, .nil, .number kind unread, fun _ => .here⟩

theorem Halts.unexpected {α : Type} (failed : (Expr.unexpected tokens : Except Failure α) = .error f) :
    Halts awaits tokens f := by
  unfold Expr.unexpected at failed
  split at failed
  · exact .here (by simp) failed
  · split at failed
    · rename_i ended
      exact .here (by simpa [SyntaxCause.Blames] using ended) failed
    · rename_i going
      exact .here (by simpa [SyntaxCause.Blames] using going) failed

theorem isCallee_of_ok {whole : List Expr → Expr} (called : callee e tokens = .ok whole) :
    e.isCallee = true := by
  obtain ⟨f, rfl, _⟩ | ⟨t, m, rfl, _⟩ := callee_ok called
  · rfl
  · rfl

theorem Halts.callee (opens : token.kind = .openParen) (failed : callee e (token :: rest) = .error f) :
    Halts awaits (token :: rest) f := by
  unfold Plain.callee at failed
  split at failed
  · cases failed
  · cases failed
  · exact .here (by simpa [SyntaxCause.Blames] using opens) failed

/-- Whatever is not read of fewer tokens than so many, reading it stops somewhere. -/
structure Stops (bound : Nat) : Prop where
  parts : ∀ n tokens f, n ≤ 8 → tokens.length < bound → readAt n tokens = .error f → Halts (Awaits n) tokens f
  items : ∀ closing tokens f, tokens.length < bound → Plain.items closing tokens = .error f →
    Halts AwaitsItem tokens f

variable {bound : Nat}

theorem Stops.enclosed (stops : Stops bound) {closing : Closing} {β : Type}
    (last : Expr → List Token → Except Failure β) (short : tokens.length < bound)
    (failed : (chain BinaryOp.levels tokens >>= fun found =>
      Plain.close closing found.2 >>= last found.1) = .error f) :
    Halts (Awaits 0) tokens f ∨ ∃ inside stop rest e, tokens = inside ++ stop :: rest ∧ Derives 0 inside e ∧
      stop.kind = closing.kind ∧ last e rest = .error f := by
  rcases Except.bind_eq_error.mp failed with inner | ⟨⟨e, rest⟩, inner, further⟩
  · exact .inl (stops.parts 0 tokens f (by omega) short inner)
  obtain ⟨inside, rfl, derives⟩ := readAt_derives (n := 0) (by omega) inner
  rcases Except.bind_eq_error.mp further with unclosed | ⟨after, closed, failed⟩
  · have halts : Halts (fun _ => False) rest f := .close unclosed
    exact .inl (halts.behind derives.shape.unended fun _ => False.elim)
  · obtain ⟨stop, rfl, kind⟩ := close_ok closed
    exact .inr ⟨inside, stop, after, e, rfl, derives, kind, failed⟩

theorem Stops.enclosed_items (stops : Stops bound) {closing : Closing} {β : Type}
    (last : List Expr → List Token → Except Failure β) (short : tokens.length < bound)
    (failed : (Plain.items closing tokens >>= fun found =>
      Plain.close closing found.2 >>= last found.1) = .error f) :
    Halts AwaitsItem tokens f ∨ ∃ inside stop rest items, tokens = inside ++ stop :: rest ∧
      Items inside items ∧ stop.kind = closing.kind ∧ last items rest = .error f := by
  rcases Except.bind_eq_error.mp failed with inner | ⟨⟨items, rest⟩, inner, further⟩
  · exact .inl (stops.items closing tokens f short inner)
  obtain ⟨inside, rfl, derives⟩ := (sound _).items closing tokens items rest (Nat.lt_succ_self _) inner
  rcases Except.bind_eq_error.mp further with unclosed | ⟨after, closed, failed⟩
  · have halts : Halts (fun _ => False) rest f := .close unclosed
    exact .inl (halts.behind derives.unended fun _ => False.elim)
  · obtain ⟨stop, rfl, kind⟩ := close_ok closed
    exact .inr ⟨inside, stop, after, items, rfl, derives, kind, failed⟩

theorem Stops.primary (stops : Stops bound) (short : tokens.length ≤ bound)
    (failed : Plain.primary tokens = .error f) : Halts (Awaits 8) tokens f := by
  cases tokens with
  | nil =>
    rw [primary_nil] at failed
    exact .here (by simp) failed
  | cons token tail =>
    have inside : tail.length < bound := short
    rw [primary_cons] at failed
    cases single : single? token with
    | some result =>
      simp only [single] at failed
      exact .single single (Except.map_eq_error.mp failed)
    | none =>
      simp only [single] at failed
      split at failed
      · rename_i opens
        obtain halts | ⟨_, _, _, _, _, _, _, read⟩ :=
          stops.enclosed_items (fun items rest => .ok (list items, rest)) inside failed
        · exact halts.next (by simp [opens]) fun _ => .list opens
        · cases read
      · split at failed
        · rename_i opens
          obtain halts | ⟨_, _, _, _, _, _, _, read⟩ :=
            stops.enclosed (fun e rest => .ok (e, rest)) inside failed
          · exact halts.next (by simp [opens]) fun _ => .group opens
          · cases read
        · exact .unexpected failed

theorem Stops.trailers (stops : Stops bound) {first : Expr} (derives : Derives 7 cut first)
    (short : tokens.length ≤ bound) (failed : Plain.trailers first tokens = .error f) :
    Halts (fun front => Awaits 7 (cut ++ front)) tokens f := by
  induction length : tokens.length using Nat.strong_induction_on generalizing tokens cut first with
  | h _ ih =>
  subst length
  cases tokens with
  | nil =>
    rw [trailers_nil] at failed
    cases failed
  | cons token tail =>
    -- Every trailer is followed by fewer tokens, of which the same is known.
    have further {first : Expr} {used after : List Token} (split : tail = used ++ after)
        (derives' : Derives 7 (cut ++ token :: used) first)
        (next : Plain.trailers first after = .error f) :
        Halts (fun front => Awaits 7 (cut ++ front)) (token :: tail) f := by
      subst split
      simp only [List.length_cons, List.length_append] at short ih
      have unended : Unended (token :: used) := fun token inside =>
        derives'.shape.unended token (List.mem_append_right cut inside)
      exact (ih after.length (by omega) derives' (by omega) next rfl).behind unended
        fun front waits => by simpa using waits
    have inside : tail.length < bound := short
    rw [trailers_cons] at failed
    split at failed
    · rename_i kind
      have halts (missing : ∀ word ∈ tail.head?, SyntaxCause.missingName.Blames word)
          (failed : (failAt .missingName tail : Except Failure (Expr × List Token)) = .error f) :
          Halts (fun front => Awaits 7 (cut ++ front)) (token :: tail) f := by
        have halts : Halts (fun _ => False) tail f := .here missing failed
        exact halts.next (by simp [kind]) fun _ => False.elim
      cases tail with
      | nil => exact halts (by simp) failed
      | cons word tail =>
        dsimp only at failed
        split at failed
        · rename_i named
          have split : word :: tail = [word] ++ tail := rfl
          exact further split (.member derives kind named) failed
        · rename_i other
          exact halts (by simpa [SyntaxCause.Blames] using other) failed
    · split at failed
      · rename_i opens
        obtain halts | ⟨within, stop, rest, key, split, derives', closes, failed⟩ :=
          stops.enclosed (fun key => Plain.trailers (.index first key)) inside failed
        · exact halts.next (by simp [opens]) fun _ => .index derives opens
        · exact further (split.trans (by simp)) (.index derives opens derives' closes) failed
      · split at failed
        · rename_i opens
          rcases Except.bind_eq_error.mp failed with uncalled | ⟨whole, called, failed⟩
          · exact .callee opens uncalled
          obtain halts | ⟨within, stop, rest, args, split, derives', closes, failed⟩ :=
            stops.enclosed_items (fun args => Plain.trailers (whole args)) inside failed
          · exact halts.next (by simp [opens]) fun _ => .arguments derives (isCallee_of_ok called) opens
          · obtain ⟨f, rfl, rfl⟩ | ⟨t, m, rfl, rfl⟩ := callee_ok called
            · exact further (split.trans (by simp)) (.call derives opens derives' closes) failed
            · exact further (split.trans (by simp)) (.send derives opens derives' closes) failed
        · cases failed

theorem Stops.trailed (stops : Stops bound) (short : tokens.length ≤ bound)
    (failed : Plain.trailed tokens = .error f) : Halts (Awaits 7) tokens f := by
  rw [trailed_eq] at failed
  rcases Except.bind_eq_error.mp failed with inner | ⟨⟨first, after⟩, inner, next⟩
  · exact (stops.primary short inner).mono fun _ => .tighter
  obtain ⟨cut, rfl, derives⟩ := readAt_derives (n := 8) le_rfl inner
  rw [List.length_append] at short
  have fewer : after.length ≤ bound := by omega
  exact (stops.trailers (.tighter derives) fewer next).behind derives.shape.unended fun _ => id

theorem Stops.unary (stops : Stops bound) (short : tokens.length ≤ bound)
    (failed : Plain.unary tokens = .error f) : Halts (Awaits 6) tokens f := by
  induction tokens with
  | nil =>
    rw [unary_nil] at failed
    exact (stops.trailed short failed).mono fun _ => .tighter
  | cons token tail ih =>
    have signed (sign : token.kind ∈ [.not, .minus, .plus]) (failed : Plain.unary tail = .error f) :
        Halts (Awaits 6) (token :: tail) f := by
      have going : token.kind ≠ .stop := fun ended => by simp [ended] at sign
      exact (ih (Nat.le_of_lt short) failed).next going fun _ => .signed sign
    rw [unary_cons] at failed
    split at failed
    · rename_i kind
      exact signed (by simp [kind]) (Except.map_eq_error.mp failed)
    · split at failed
      · rename_i kind
        exact signed (by simp [kind]) (Except.map_eq_error.mp failed)
      · split at failed
        · rename_i kind
          exact signed (by simp [kind]) failed
        · exact (stops.trailed short failed).mono fun _ => .tighter

theorem Stops.more (stops : Stops bound) {ops : List (TokenKind × BinaryOp)}
    {tighter : List (List (TokenKind × BinaryOp))}
    (level : BinaryOp.levels.drop n = ops :: tighter) {first : Expr} (derives : Derives n cut first)
    (short : tokens.length ≤ bound) (failed : Plain.more ops tighter first tokens = .error f) :
    Halts (fun front => Awaits n (cut ++ front)) tokens f := by
  induction length : tokens.length using Nat.strong_induction_on generalizing tokens cut first with
  | h _ ih =>
  subst length
  cases tokens with
  | nil =>
    rw [more_nil] at failed
    cases failed
  | cons token tail =>
    rw [more_cons] at failed
    cases found : ops.lookup token.kind with
    | none => simp [found] at failed
    | some op =>
      simp only [found] at failed
      obtain ⟨rfl, kind, next⟩ := levels_found level found
      have loose := op.strength_lt
      have going : token.kind ≠ .stop := kind ▸ op.sign_ne_stop
      rw [next, ← readAt_chain (by omega)] at failed
      rcases Except.bind_eq_error.mp failed with inner | ⟨⟨right, after⟩, inner, further⟩
      · exact (stops.parts (op.strength + 1) tail f (by omega) short inner).next going
          fun _ => .binary op derives kind
      · obtain ⟨cut', rfl, derives'⟩ := readAt_derives (by omega) inner
        simp only [List.length_cons, List.length_append] at short ih
        have further := ih after.length (by omega) (.binary op derives kind derives') (by omega)
          (next ▸ further) rfl
        exact further.behind (.cons going derives'.shape.unended) fun front waits => by simpa using waits

theorem Stops.part (stops : Stops bound) (level : n ≤ 8) (short : tokens.length ≤ bound)
    (failed : readAt n tokens = .error f) : Halts (Awaits n) tokens f := by
  induction gap : 8 - n generalizing n with
  | zero =>
    obtain rfl : n = 8 := by omega
    exact stops.primary short failed
  | succ gap ih =>
    by_cases signs : n = 6
    · subst signs
      exact stops.unary short (readAt_six tokens ▸ failed)
    · by_cases trails : n = 7
      · subst trails
        exact stops.trailed short failed
      · rw [readAt_step (by omega) signs] at failed
        rcases Except.bind_eq_error.mp failed with inner | ⟨⟨first, after⟩, inner, next⟩
        · exact (ih (by omega) inner (by omega)).mono fun _ => .tighter
        obtain ⟨cut, rfl, derives⟩ := readAt_derives (by omega) inner
        rw [List.length_append] at short
        rw [goOn_of_ne trails] at next
        cases level : BinaryOp.levels.drop n with
        | nil => simp [level] at next
        | cons ops tighter =>
          simp only [level] at next
          exact (stops.more level (.tighter derives) (by omega) next).behind derives.shape.unended
            fun _ => id

theorem Stops.separated (stops : Stops bound) {closing : Closing} (short : tokens.length ≤ bound)
    (failed : Plain.items closing tokens = .error f) : Halts AwaitsItem tokens f := by
  induction length : tokens.length using Nat.strong_induction_on generalizing tokens with
  | h _ ih =>
  subst length
  by_cases closed : tokens.head?.map Token.kind = some closing.kind
  · rw [items_closed _ _ closed] at failed
    cases failed
  · rw [items_open _ _ closed] at failed
    rcases Except.bind_eq_error.mp failed with inner | ⟨⟨first, after⟩, inner, next⟩
    · exact (stops.part (n := 0) (by omega) short inner).mono fun _ => .first
    obtain ⟨cut, rfl, derives⟩ := readAt_derives (n := 0) (by omega) inner
    cases after with
    | nil => cases next
    | cons token after =>
      dsimp only at next
      split at next
      · rename_i comma
        simp only [List.length_cons, List.length_append] at short ih
        have later := ih after.length (by omega) (by omega) (Except.map_eq_error.mp next) rfl
        have unended : Unended (cut ++ [token]) :=
          derives.shape.unended.append (.single (by simp [comma]))
        rw [List.append_cons]
        exact later.behind unended fun front waits => by
          simpa using AwaitsItem.later derives comma waits
      · cases next

theorem stops (bound : Nat) : Stops bound := by
  induction bound with
  | zero => exact ⟨fun _ _ _ _ short => by omega, fun _ _ _ short => by omega⟩
  | succ bound ih =>
    refine ⟨fun n tokens f level short failed => ?_, fun closing tokens f short failed => ?_⟩
    · exact ih.part level (Nat.le_of_lt_succ short) failed
    · exact ih.separated (Nat.le_of_lt_succ short) failed

/-- Tokens that are not read as an expression have one that stops the reading. -/
theorem ofTokens_halts (failed : ofTokens tokens = .error f) : Halts (Awaits 0) tokens f := by
  rw [ofTokens_eq] at failed
  rcases Except.bind_eq_error.mp failed with inner | ⟨⟨e, rest⟩, inner, last⟩
  · exact (stops _).parts 0 tokens f (by omega) (Nat.lt_succ_self _) inner
  obtain ⟨cut, rfl, derives⟩ := readAt_derives (n := 0) (by omega) inner
  cases rest with
  | nil => cases last
  | cons token rest =>
    dsimp only at last
    split at last
    · cases last
    · rename_i going
      have halts : Halts (fun _ => False) (token :: rest) f :=
        .here (by simpa [SyntaxCause.Blames] using going) last
      exact halts.behind derives.shape.unended fun _ => False.elim

end Halting

section Broken

open Plain

variable {n : Nat} {number : Token} {front : List Token}

mutual

theorem Awaits.shape : ∀ {n : Nat} {front : List Token}, Awaits n front → number.kind = .number →
    Shape n (front ++ [number])
  | _, _, .here, kind => .single (by simp [kind])
  | _, _, .tighter part, kind => (part.shape kind).weaken
  | _, _, .binary op left sign right, kind => by
    rw [List.append_assoc]
    exact left.shape.append (.cons (sign ▸ op.sign_ne_stop) (right.shape kind).unended)
  | _, _, .signed sign operand, kind => (operand.shape kind).signed sign
  | _, _, .index target opens within, kind => by
    rw [List.append_assoc]
    exact target.shape.append (.cons (by simp [opens]) (within.shape kind).unended)
  | _, _, .arguments target _ opens within, kind => by
    rw [List.append_assoc]
    exact target.shape.append (.cons (by simp [opens]) (within.unended kind))
  | _, _, .list opens within, kind =>
    ⟨le_rfl, .cons (by simp [opens]) (within.unended kind), _, _, rfl, .inr (by simp [opens])⟩
  | _, _, .group opens within, kind =>
    ⟨le_rfl, .cons (by simp [opens]) (within.shape kind).unended, _, _, rfl, .inr (by simp [opens])⟩

theorem AwaitsItem.unended : ∀ {front : List Token}, AwaitsItem front → number.kind = .number →
    Unended (front ++ [number])
  | _, .first part, kind => (part.shape kind).unended
  | _, .later item comma others, kind => by
    rw [List.append_assoc]
    exact item.shape.unended.append (.cons (by simp [comma]) (others.unended kind))

end

variable {f : Failure} {sign start : Token} {tail rest : List Token} {e : Expr} {closing : Closing}

theorem goOn_joins_fails {op : BinaryOp} (kind : sign.kind = op.sign)
    (failed : readAt (op.strength + 1) tail = .error f) : goOn op.strength e (sign :: tail) = .error f := by
  obtain ⟨ops, level, found⟩ := op.levels_at
  have loose := op.strength_lt
  rw [readAt_chain (by omega)] at failed
  rw [goOn_of_ne (by omega), level]
  simp only [more_cons, kind, found, failed]
  rfl

theorem readAt_signed_fails (kind : sign.kind ∈ [.not, .minus, .plus]) (failed : readAt 6 tail = .error f) :
    readAt 6 (sign :: tail) = .error f := by
  rw [readAt_six] at failed ⊢
  rw [unary_cons, failed]
  simp only [List.mem_cons, List.not_mem_nil, or_false] at kind
  rcases kind with kind | kind | kind <;> simp [kind, Except.map]

theorem goOn_index_fails (opens : start.kind = .openBracket) (failed : readAt 0 tail = .error f) :
    goOn 7 e (start :: tail) = .error f := by
  rw [readAt_chain (by omega)] at failed
  have failed : chain BinaryOp.levels tail = .error f := failed
  simp only [goOn, trailers_cons, opens, reduceCtorEq, if_false, if_true, failed]
  rfl

theorem goOn_arguments_fails (called : e.isCallee = true) (opens : start.kind = .openParen)
    (failed : Plain.items .arguments tail = .error f) : goOn 7 e (start :: tail) = .error f := by
  simp only [goOn, trailers_cons, opens, reduceCtorEq, if_false, if_true, failed]
  cases e
  case name | member => rfl
  all_goals cases called

theorem readAt_bracket_fails (opens : start.kind = .openBracket)
    (failed : Plain.items .items tail = .error f) : readAt 8 (start :: tail) = .error f := by
  have same : readAt 8 (start :: tail) = primary (start :: tail) := rfl
  rw [same, primary_cons, single?_open (by simp [opens])]
  simp only [opens, if_true, failed]
  rfl

theorem readAt_group_fails (opens : start.kind = .openParen) (failed : readAt 0 tail = .error f) :
    readAt 8 (start :: tail) = .error f := by
  rw [readAt_chain (by omega)] at failed
  have failed : chain BinaryOp.levels tail = .error f := failed
  have same : readAt 8 (start :: tail) = primary (start :: tail) := rfl
  rw [same, primary_cons, single?_open (by simp [opens])]
  simp only [opens, reduceCtorEq, if_false, if_true, failed]
  rfl

theorem items_first_fails (shape : Shape 0 front) (failed : readAt 0 (front ++ rest) = .error f) :
    Plain.items closing (front ++ rest) = .error f := by
  rw [readAt_chain (by omega)] at failed
  rw [items_open _ _ (items_going shape), show chain BinaryOp.levels _ = _ from failed]
  rfl

theorem items_later_fails {comma : Token} (item : Derives 0 front e) (kind : comma.kind = .comma)
    (failed : Plain.items closing tail = .error f) :
    Plain.items closing (front ++ comma :: tail) = .error f := by
  have read : readAt 0 (front ++ comma :: tail) = .ok (e, comma :: tail) :=
    (Ends.closed (by simp [kind])).leaves item.reads
  rw [readAt_chain (by omega)] at read
  rw [items_open _ _ (items_going item.shape), show chain BinaryOp.levels _ = _ from read]
  simp only [bind, Except.bind, kind, if_true, failed]
  rfl

mutual

/-- A number without a value stops the reading where a part has to follow. -/
theorem Awaits.fails (kind : number.kind = .number) (unread : numberLiteral number.text = .error f) :
    ∀ {n : Nat} {front : List Token}, Awaits n front → ∀ rest, readAt n (front ++ number :: rest) = .error f
  | _, _, .here, rest => by
    have single : single? number = some (.error f) := by simp [single?, kind, unread]
    have same : readAt 8 ([] ++ number :: rest) = primary (number :: rest) := rfl
    rw [same, primary_cons, single]
    rfl
  | _, _, .tighter part, rest => by
    have failed := Awaits.fails kind unread part rest
    rw [List.append_cons] at failed ⊢
    exact readAt_fails (part.shape kind) failed
  | _, _, .binary op left sign right, rest => by
    rw [List.append_assoc, List.cons_append, left.reads _ (.joined sign)]
    exact goOn_joins_fails sign (Awaits.fails kind unread right rest)
  | _, _, .signed sign operand, rest => readAt_signed_fails sign (Awaits.fails kind unread operand rest)
  | _, _, .index target opens within, rest => by
    rw [List.append_assoc, List.cons_append, target.reads _ (.eight _)]
    exact goOn_index_fails opens (Awaits.fails kind unread within rest)
  | _, _, .arguments target called opens within, rest => by
    rw [List.append_assoc, List.cons_append, target.reads _ (.eight _)]
    exact goOn_arguments_fails called opens (AwaitsItem.fails kind unread within _ rest)
  | _, _, .list opens within, rest => readAt_bracket_fails opens (AwaitsItem.fails kind unread within _ rest)
  | _, _, .group opens within, rest => readAt_group_fails opens (Awaits.fails kind unread within rest)

theorem AwaitsItem.fails (kind : number.kind = .number) (unread : numberLiteral number.text = .error f) :
    ∀ {front : List Token}, AwaitsItem front → ∀ closing rest,
      Plain.items closing (front ++ number :: rest) = .error f
  | _, .first part, closing, rest => by
    have failed := Awaits.fails kind unread part rest
    rw [List.append_cons] at failed ⊢
    exact items_first_fails (part.shape kind) failed
  | _, .later item comma others, closing, rest => by
    rw [List.append_assoc, List.cons_append]
    exact items_later_fails item comma (AwaitsItem.fails kind unread others closing rest)

end

theorem ofTokens_fails (kind : number.kind = .number) (unread : numberLiteral number.text = .error f)
    (waits : Awaits 0 front) (rest : List Token) : ofTokens (front ++ number :: rest) = .error f := by
  have failed := waits.fails kind unread rest
  rw [readAt_chain (by omega)] at failed
  rw [ofTokens_eq, show chain BinaryOp.levels _ = _ from failed]
  rfl

end Broken

end Expr

end NoteQuery
