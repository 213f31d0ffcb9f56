import NoteQuery.Proofs.Expr.Grammar
import NoteQuery.Proofs.Expr.Plain

/-! What the grammar has is read. The reader for a level goes on after a part of it as long as the
tokens that follow allow it. So a part is read from the front of any tokens, and the reader is then
where it would be had it read the part alone. -/
namespace NoteQuery

namespace Expr

open Plain

/-- The reader for parts of a level. -/
def readAt : Nat → List Token → Except Failure (Expr × List Token)
  | 7 => trailed
  | 8 => primary
  | n => chain (BinaryOp.levels.drop n)

/-- What the reader for a level does once it has a part of the level. -/
def goOn : Nat → Expr → List Token → Except Failure (Expr × List Token)
  | 7, e, rest => trailers e rest
  | n, e, rest =>
    match BinaryOp.levels.drop n with
    | [] => .ok (e, rest)
    | ops :: tighter => more ops tighter e rest

/-- Nothing here goes on with a part of the level or of a tighter one. -/
def Ends (n : Nat) (rest : List Token) : Prop := ∀ m, n ≤ m → ∀ e, goOn m e rest = .ok (e, rest)

theorem readAt_step {n : Nat} (below : n < 8) (unsigned : n ≠ 6) (tokens : List Token) :
    readAt n tokens = readAt (n + 1) tokens >>= fun found => goOn n found.1 found.2 := by
  interval_cases n
  case «6» => exact absurd rfl unsigned
  case «7» => exact trailed_eq tokens
  all_goals exact chain_cons _ _ tokens

variable {n : Nat} {token : Token} {cut rest : List Token} {e : Expr}

theorem goOn_of_ne {m : Nat} (other : m ≠ 7) (e : Expr) (rest : List Token) : goOn m e rest =
    match BinaryOp.levels.drop m with
    | [] => .ok (e, rest)
    | ops :: tighter => more ops tighter e rest := by
  unfold goOn
  split
  · exact absurd rfl other
  · rfl

theorem Ends.mono {m : Nat} (ends : Ends n rest) (above : n ≤ m) : Ends m rest :=
  fun k further => ends k (above.trans further)

theorem Ends.of_kind (free : ∀ ops ∈ BinaryOp.levels.drop n, ops.lookup token.kind = none)
    (trailer : token.kind ∉ [.dot, .openBracket, .openParen]) : Ends n (token :: rest) := by
  intro m above e
  by_cases trails : m = 7
  · subst trails
    simp only [List.mem_cons, List.not_mem_nil, or_false, not_or] at trailer
    simp only [goOn, trailers_cons, trailer, if_false]
  · rw [goOn_of_ne trails]
    cases dropped : BinaryOp.levels.drop m with
    | nil => rfl
    | cons ops tighter =>
      have inside : ops ∈ BinaryOp.levels.drop n :=
        (List.drop_sublist_drop_left _ above).subset (by simp [dropped])
      simp only [more_cons, free ops inside]

theorem Ends.closed (closes : token.kind ∈ [.closeParen, .closeBracket, .comma, .stop]) :
    Ends 0 (token :: rest) := by
  simp only [List.mem_cons, List.not_mem_nil, or_false] at closes
  rcases closes with kind | kind | kind | kind
  all_goals exact .of_kind (by rw [kind]; decide) (by rw [kind]; decide)

theorem Ends.joined {op : BinaryOp} (kind : token.kind = op.sign) :
    Ends (op.strength + 1) (token :: rest) :=
  .of_kind (kind ▸ op.levels_above) (kind ▸ op.sign_no_trailer)

/-- A part that does not begin with a sign is read with its trailers. -/
theorem readAt_unsigned (shape : Shape 7 cut) (rest : List Token) :
    readAt 6 (cut ++ rest) = readAt 7 (cut ++ rest) := by
  obtain ⟨_, _, token, more, rfl, begins⟩ := shape
  have unsigned : token.kind ≠ .not ∧ token.kind ≠ .minus ∧ token.kind ≠ .plus := by
    rcases begins with ⟨loose, _⟩ | begins
    · omega
    · refine ⟨?_, ?_, ?_⟩ <;> (rintro kind; simp [kind] at begins)
  have same : readAt 6 (token :: more ++ rest) = unary (token :: (more ++ rest)) := chain_nil _
  rw [same, unary_cons]
  simp only [unsigned, if_false]
  rfl

/-- What is read at a tighter level is read at this one when nothing goes on with it. -/
theorem readAt_tighter (shape : Shape (n + 1) cut) (ends : Ends (n + 1) rest)
    (read : readAt (n + 1) (cut ++ rest) = goOn (n + 1) e rest) :
    readAt n (cut ++ rest) = goOn n e rest := by
  have below : n < 8 := shape.level
  rw [ends (n + 1) le_rfl] at read
  by_cases signs : n = 6
  · subst signs
    rw [readAt_unsigned shape]
    exact read
  · rw [readAt_step below signs, read]
    rfl

theorem readAt_fails {f : Failure} (shape : Shape (n + 1) cut)
    (failed : readAt (n + 1) (cut ++ rest) = .error f) : readAt n (cut ++ rest) = .error f := by
  have below : n < 8 := shape.level
  by_cases signs : n = 6
  · subst signs
    rw [readAt_unsigned shape, failed]
  · rw [readAt_step below signs, failed]
    rfl

theorem readAt_chain (loose : n ≤ 6) (tokens : List Token) :
    readAt n tokens = chain (BinaryOp.levels.drop n) tokens := by
  unfold readAt
  split
  · omega
  · omega
  · rfl

theorem Ends.eight (rest : List Token) : Ends 8 rest := by
  intro m above e
  have none : BinaryOp.levels.drop m = [] := List.drop_eq_nil_of_le (Nat.le_trans (by decide) above)
  rw [goOn_of_ne (by omega), none]

theorem goOn_joins {op : BinaryOp} (kind : token.kind = op.sign) {tail : List Token} {e' : Expr}
    (right : readAt (op.strength + 1) tail = .ok (e', rest)) :
    goOn op.strength e (token :: tail) = goOn op.strength (.binary op e e') rest := by
  obtain ⟨ops, level, found⟩ := op.levels_at
  have loose := op.strength_lt
  rw [readAt_chain (by omega)] at right
  rw [goOn_of_ne (by omega), goOn_of_ne (by omega), level]
  simp only [more_cons, kind, found, right]
  rfl

theorem readAt_six (tokens : List Token) : readAt 6 tokens = unary tokens := chain_nil tokens

theorem readAt_not (kind : token.kind = .not) {tail : List Token}
    (operand : readAt 6 tail = goOn 6 e rest) :
    readAt 6 (token :: tail) = goOn 6 (.not e) rest := by
  rw [readAt_six] at operand ⊢
  rw [unary_cons, if_pos kind, operand]
  rfl

theorem readAt_plus (kind : token.kind = .plus) {tail : List Token}
    (operand : readAt 6 tail = goOn 6 e rest) : readAt 6 (token :: tail) = goOn 6 e rest := by
  rw [readAt_six] at operand ⊢
  rw [unary_cons]
  simpa only [kind, reduceCtorEq, if_false, if_true] using operand

theorem readAt_minus (kind : token.kind = .minus) {tail : List Token}
    (operand : readAt 6 tail = goOn 6 e rest) :
    readAt 6 (token :: tail) = goOn 6 e.minus rest := by
  rw [readAt_six] at operand ⊢
  rw [unary_cons]
  simp only [kind, reduceCtorEq, if_false, if_true, operand]
  rfl

theorem close_of_kind {closing : Closing} (kind : token.kind = closing.kind) :
    Plain.close closing (token :: rest) = .ok rest := by
  simp only [close_eq, kind, if_true]

theorem readAt_single (found : single? token = some (.ok e)) :
    readAt 8 ([token] ++ rest) = goOn 8 e rest := by
  have same : readAt 8 ([token] ++ rest) = primary (token :: rest) := rfl
  rw [same, primary_cons, found]
  rfl

theorem Ends.leaves (ends : Ends n rest)
    (reads : ∀ rest, Ends (n + 1) rest → readAt n (cut ++ rest) = goOn n e rest) :
    readAt n (cut ++ rest) = .ok (e, rest) :=
  (reads rest (ends.mono (Nat.le_succ n))).trans (ends n le_rfl e)

section Enclosed

variable {start stop : Token} {inside : List Token}

theorem goOn_index {key : Expr} (opens : start.kind = .openBracket)
    (closes : stop.kind = .closeBracket)
    (within : readAt 0 (inside ++ stop :: rest) = .ok (key, stop :: rest)) :
    goOn 7 e (start :: inside ++ [stop] ++ rest) = goOn 7 (.index e key) rest := by
  rw [readAt_chain (by omega)] at within
  have read : chain BinaryOp.levels (inside ++ stop :: rest) = .ok (key, stop :: rest) := within
  simp only [goOn, List.cons_append, List.append_assoc, trailers_cons, opens, reduceCtorEq, if_false,
    if_true, List.nil_append, read, bind, Except.bind,
    close_of_kind (show stop.kind = Closing.index.kind from closes)]

theorem goOn_arguments {whole : List Expr → Expr} {args : List Expr}
    (called : ∀ tokens, callee e tokens = .ok whole) (opens : start.kind = .openParen)
    (closes : stop.kind = .closeParen)
    (within : Plain.items .arguments (inside ++ stop :: rest) = .ok (args, stop :: rest)) :
    goOn 7 e (start :: inside ++ [stop] ++ rest) = goOn 7 (whole args) rest := by
  simp only [goOn, List.cons_append, List.append_assoc, trailers_cons, opens, reduceCtorEq, if_false,
    if_true, List.nil_append, called, within, bind, Except.bind,
    close_of_kind (show stop.kind = Closing.arguments.kind from closes)]

theorem single?_open (opens : start.kind ∈ [.openParen, .openBracket]) : single? start = none := by
  simp only [List.mem_cons, List.not_mem_nil, or_false] at opens
  rcases opens with kind | kind <;> simp [single?, kind]

theorem readAt_list {items : List Expr} (opens : start.kind = .openBracket)
    (closes : stop.kind = .closeBracket)
    (within : Plain.items .items (inside ++ stop :: rest) = .ok (items, stop :: rest)) :
    readAt 8 (start :: inside ++ [stop] ++ rest) = goOn 8 (.list items) rest := by
  have same : readAt 8 (start :: inside ++ [stop] ++ rest) =
      primary (start :: (inside ++ stop :: rest)) := by simp [readAt]
  rw [same, primary_cons, single?_open (by simp [opens])]
  simp only [opens, if_true, within, bind, Except.bind,
    close_of_kind (show stop.kind = Closing.items.kind from closes)]
  rfl

theorem readAt_group (opens : start.kind = .openParen) (closes : stop.kind = .closeParen)
    (within : readAt 0 (inside ++ stop :: rest) = .ok (e, stop :: rest)) :
    readAt 8 (start :: inside ++ [stop] ++ rest) = goOn 8 e rest := by
  rw [readAt_chain (by omega)] at within
  have read : chain BinaryOp.levels (inside ++ stop :: rest) = .ok (e, stop :: rest) := within
  have same : readAt 8 (start :: inside ++ [stop] ++ rest) =
      primary (start :: (inside ++ stop :: rest)) := by simp [readAt]
  rw [same, primary_cons, single?_open (by simp [opens])]
  simp only [opens, reduceCtorEq, if_false, if_true, read, bind, Except.bind,
    close_of_kind (show stop.kind = Closing.group.kind from closes)]
  rfl

end Enclosed

section Separated

variable {closing : Closing} {stop : Token}

theorem items_going (shape : Shape n cut) :
    (cut ++ rest).head?.map Token.kind ≠ some closing.kind := by
  obtain ⟨_, _, token, more, rfl, begins⟩ := shape
  intro closed
  have kind : token.kind = closing.kind := by simpa using closed
  rw [kind] at begins
  cases closing <;> simp [Closing.kind] at begins

theorem Ends.behind (kind : stop.kind = closing.kind) : Ends 0 (stop :: rest) :=
  .closed (by rw [kind]; cases closing <;> decide)

theorem items_last (shape : Shape 0 cut) (kind : stop.kind = closing.kind)
    (only : readAt 0 (cut ++ stop :: rest) = .ok (e, stop :: rest)) :
    Plain.items closing (cut ++ stop :: rest) = .ok ([e], stop :: rest) := by
  have no_comma : stop.kind ≠ .comma := by
    rw [kind]
    cases closing <;> decide
  rw [readAt_chain (by omega)] at only
  rw [items_open _ _ (items_going shape), show chain BinaryOp.levels _ = _ from only]
  exact if_neg no_comma

theorem items_more {comma : Token} {tail : List Token} {others : List Expr} (shape : Shape 0 cut)
    (kind : comma.kind = .comma) (first : readAt 0 (cut ++ comma :: tail) = .ok (e, comma :: tail))
    (later : Plain.items closing tail = .ok (others, stop :: rest)) :
    Plain.items closing (cut ++ comma :: tail) = .ok (e :: others, stop :: rest) := by
  rw [readAt_chain (by omega)] at first
  rw [items_open _ _ (items_going shape), show chain BinaryOp.levels _ = _ from first]
  simp only [bind, Except.bind, kind, if_true, later]
  rfl

end Separated

mutual

/-- Tokens that stand for an expression are read as it, whatever comes behind them. -/
theorem Derives.reads : ∀ {n : Nat} {cut : List Token} {e : Expr}, Derives n cut e →
    ∀ rest, Ends (n + 1) rest → readAt n (cut ++ rest) = goOn n e rest
  | _, _, _, .tighter part => fun rest ends =>
    readAt_tighter part.shape ends (part.reads rest (ends.mono (Nat.le_succ _)))
  | _, _, _, .binary op left kind right => fun rest ends => by
    rw [List.append_assoc, List.cons_append, left.reads _ (.joined kind)]
    exact goOn_joins kind (ends.leaves right.reads)
  | _, _, _, .not kind operand => fun rest ends => readAt_not kind (operand.reads rest ends)
  | _, _, _, .plus kind operand => fun rest ends => readAt_plus kind (operand.reads rest ends)
  | _, _, _, .minusInt kind operand => fun rest ends => readAt_minus kind (operand.reads rest ends)
  | _, _, _, .minusFloat kind operand => fun rest ends => readAt_minus kind (operand.reads rest ends)
  | _, _, _, .minusBool kind operand => fun rest ends => readAt_minus kind (operand.reads rest ends)
  | _, _, _, .negate kind operand stays => fun rest ends =>
    minus_of_stays stays ▸ readAt_minus kind (operand.reads rest ends)
  | _, _, _, .member target kind named => fun rest _ => by
    rw [List.append_assoc, target.reads _ (.eight _)]
    simp only [goOn, List.cons_append, trailers_cons, kind, named, if_true, List.nil_append]
  | _, _, _, .index target opens within closes => fun rest _ => by
    rw [List.append_assoc, target.reads _ (.eight _)]
    exact goOn_index opens closes ((Ends.closed (by simp [closes])).leaves within.reads)
  | _, _, _, .call target opens within closes => fun rest _ => by
    rw [List.append_assoc, target.reads _ (.eight _)]
    exact goOn_arguments (fun _ => rfl) opens closes (within.reads closes)
  | _, _, _, .send target opens within closes => fun rest _ => by
    rw [List.append_assoc, target.reads _ (.eight _)]
    exact goOn_arguments (fun _ => rfl) opens closes (within.reads closes)
  | _, _, _, .text kind => fun rest _ => readAt_single (by simp [single?, kind])
  | _, _, _, .whole kind pointless value => fun rest _ =>
    readAt_single (by simp [single?, kind, numberLiteral, pointless, value])
  | _, _, _, .decimal kind point value => fun rest _ =>
    readAt_single (by simp [single?, kind, numberLiteral, point, value])
  | _, _, _, .boolean kind => fun rest _ => readAt_single (by simp [single?, kind])
  | _, _, _, .null kind => fun rest _ => readAt_single (by simp [single?, kind])
  | _, _, _, .name kind => fun rest _ => readAt_single (by simp [single?, kind])
  | _, _, _, .list opens within closes => fun rest _ => readAt_list opens closes (within.reads closes)
  | _, _, _, .group opens within closes => fun rest _ =>
    readAt_group opens closes ((Ends.closed (by simp [closes])).leaves within.reads)

theorem Items.reads : ∀ {cut : List Token} {items : List Expr}, Items cut items →
    ∀ {closing : Closing} {stop : Token} {rest : List Token}, stop.kind = closing.kind →
      Plain.items closing (cut ++ stop :: rest) = .ok (items, stop :: rest)
  | _, _, .none, _, _, _, kind => items_closed _ _ (by simp [kind])
  | _, _, .last only, _, _, _, kind =>
    items_last only.shape kind ((Ends.behind kind).leaves only.reads)
  | _, _, .more first comma others, _, _, _, kind => by
    rw [List.append_assoc, List.cons_append]
    exact items_more first.shape comma ((Ends.closed (by simp [comma])).leaves first.reads)
      (others.reads kind)

end

end Expr

end NoteQuery
