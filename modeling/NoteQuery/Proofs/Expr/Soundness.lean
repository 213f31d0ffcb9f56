import NoteQuery.Proofs.Expr.Completeness
import NoteQuery.Proofs.Expr.Cutting
import NoteQuery.Proofs.Expr.Parser

/-! What is read is what the grammar has. A reader that returns has passed over tokens that stand for
the expression, by induction on how many tokens there are. So a text is read as an expression exactly
when its tokens stand for it, and they never stand for two. -/
namespace NoteQuery

namespace Expr

section Readers

open Plain

variable {n : Nat} {token : Token} {cut rest : List Token} {e : Expr}

/-- The reader has left these tokens, and those before them stand for the expression. -/
def Found (n : Nat) (tokens : List Token) (e : Expr) (rest : List Token) : Prop :=
  ∃ cut, tokens = cut ++ rest ∧ Derives n cut e

theorem Found.tighter {tokens : List Token} (found : Found (n + 1) tokens e rest) :
    Found n tokens e rest := by
  obtain ⟨cut, split, derives⟩ := found
  exact ⟨cut, split, .tighter derives⟩

theorem Found.shorter {tokens : List Token} (found : Found n tokens e rest) :
    rest.length < tokens.length := by
  obtain ⟨cut, rfl, derives⟩ := found
  obtain ⟨_, _, token, more, rfl, _⟩ := derives.shape
  simp only [List.cons_append, List.length_cons, List.length_append]
  omega

theorem close_ok {closing : Closing} {tokens : List Token}
    (closed : Plain.close closing tokens = .ok rest) :
    ∃ stop, tokens = stop :: rest ∧ stop.kind = closing.kind := by
  rw [close_eq] at closed
  cases tokens with
  | nil => cases closed
  | cons stop tokens =>
    dsimp only at closed
    split at closed
    · rename_i kind
      cases closed
      exact ⟨stop, rfl, kind⟩
    · cases closed

theorem callee_ok {target : Expr} {tokens : List Token} {whole : List Expr → Expr}
    (called : callee target tokens = .ok whole) : (∃ f, target = .name f ∧ whole = .call f) ∨
      ∃ t m, target = .member t m ∧ whole = .send t m := by
  unfold callee at called
  split at called
  · cases called
    exact .inl ⟨_, rfl, rfl⟩
  · cases called
    exact .inr ⟨_, _, rfl, rfl⟩
  · cases called

theorem single?_derives (single : single? token = some (.ok e)) : Derives 8 [token] e := by
  unfold single? at single
  split at single
  · rename_i kind
    cases single
    exact .text kind
  · rename_i kind
    have value := Option.some.inj single
    unfold numberLiteral at value
    dsimp only at value
    split at value
    · rename_i point
      split at value
      · cases value
        exact .decimal kind (by simpa using point) ‹_›
      · cases value
    · rename_i pointless
      split at value
      · cases value
        exact .whole kind (by simpa using pointless) ‹_›
      · cases value
  · rename_i kind
    cases single
    exact .boolean kind
  · rename_i kind
    cases single
    exact .null kind
  · rename_i kind
    cases single
    exact .name kind
  · cases single

theorem levels_found {ops : List (TokenKind × BinaryOp)}
    {tighter : List (List (TokenKind × BinaryOp))}
    (level : BinaryOp.levels.drop n = ops :: tighter) {kind : TokenKind} {op : BinaryOp}
    (found : ops.lookup kind = some op) :
    op.strength = n ∧ kind = op.sign ∧ tighter = BinaryOp.levels.drop (n + 1) := by
  have inside : (kind, op) ∈ ops := by
    obtain ⟨before, after, split, _⟩ := List.lookup_eq_some_iff.mp found
    simp [split]
  have below : n < 6 := by
    by_contra above
    rw [List.drop_eq_nil_of_le (Nat.le_of_not_lt above)] at level
    cases level
  interval_cases n
  all_goals
    cases level
    simp only [List.mem_cons, Prod.mk.injEq, List.not_mem_nil, or_false] at inside
    casesm* _ ∨ _, _ ∧ _ <;> subst_vars <;> exact ⟨rfl, rfl, rfl⟩

/-- Whatever is read of fewer tokens than so many, the tokens stand for it. -/
structure Sound (bound : Nat) : Prop where
  parts : ∀ n tokens e rest, n ≤ 8 → tokens.length < bound → readAt n tokens = .ok (e, rest) →
    Found n tokens e rest
  items : ∀ closing tokens items rest, tokens.length < bound →
    Plain.items closing tokens = .ok (items, rest) → ∃ cut, tokens = cut ++ rest ∧ Items cut items

section Sound

variable {bound : Nat} {tokens : List Token}

theorem Sound.enclosed (sound : Sound bound) {closing : Closing} {found : Expr × List Token}
    (short : tokens.length < bound) (read : chain BinaryOp.levels tokens = .ok found)
    (closed : Plain.close closing found.2 = .ok rest) :
    ∃ inside stop, tokens = inside ++ stop :: rest ∧ Derives 0 inside found.1 ∧
      stop.kind = closing.kind := by
  obtain ⟨inside, split, derives⟩ := sound.parts 0 tokens found.1 found.2 (by omega) short read
  obtain ⟨stop, split', kind⟩ := close_ok closed
  exact ⟨inside, stop, by rw [split, split'], derives, kind⟩

theorem Sound.enclosed_items (sound : Sound bound) {closing : Closing}
    {found : List Expr × List Token} (short : tokens.length < bound)
    (read : Plain.items closing tokens = .ok found)
    (closed : Plain.close closing found.2 = .ok rest) :
    ∃ inside stop, tokens = inside ++ stop :: rest ∧ Items inside found.1 ∧
      stop.kind = closing.kind := by
  obtain ⟨inside, split, derives⟩ := sound.items closing tokens found.1 found.2 short read
  obtain ⟨stop, split', kind⟩ := close_ok closed
  exact ⟨inside, stop, by rw [split, split'], derives, kind⟩

theorem Sound.primary (sound : Sound bound) (short : tokens.length ≤ bound)
    (read : Plain.primary tokens = .ok (e, rest)) : Found 8 tokens e rest := by
  cases tokens with
  | nil =>
    rw [primary_nil] at read
    cases read
  | cons token tail =>
    have inside : tail.length < bound := short
    rw [primary_cons] at read
    cases single : single? token with
    | some result =>
      simp only [single] at read
      obtain ⟨e', value, same⟩ := Except.map_eq_ok.mp read
      cases same
      exact ⟨[token], rfl, single?_derives (value ▸ single)⟩
    | none =>
      simp only [single] at read
      split at read
      · rename_i opens
        obtain ⟨found, inner, read⟩ := Except.bind_eq_ok.mp read
        obtain ⟨rest', closed, same⟩ := Except.map_eq_ok.mp read
        cases same
        obtain ⟨cut, stop, rfl, within, closes⟩ := sound.enclosed_items inside inner closed
        exact ⟨token :: cut ++ [stop], by simp, .list opens within closes⟩
      · split at read
        · rename_i opens
          obtain ⟨found, inner, read⟩ := Except.bind_eq_ok.mp read
          obtain ⟨rest', closed, same⟩ := Except.map_eq_ok.mp read
          cases same
          obtain ⟨cut, stop, rfl, within, closes⟩ := sound.enclosed inside inner closed
          exact ⟨token :: cut ++ [stop], by simp, .group opens within closes⟩
        · unfold unexpected failAt at read
          split at read
          · cases read
          · split at read <;> cases read

theorem Sound.trailers (sound : Sound bound) {first : Expr} (derives : Derives 7 cut first)
    (short : tokens.length ≤ bound) (read : Plain.trailers first tokens = .ok (e, rest)) :
    ∃ cut', tokens = cut' ++ rest ∧ Derives 7 (cut ++ cut') e := by
  induction length : tokens.length using Nat.strong_induction_on generalizing tokens cut first with
  | h _ ih =>
  subst length
  cases tokens with
  | nil =>
    rw [trailers_nil] at read
    cases read
    exact ⟨[], rfl, by simpa using derives⟩
  | cons token tail =>
    -- Every trailer is followed by fewer tokens, of which the same is known.
    have further {first : Expr} {used after : List Token} (split : tail = used ++ after)
        (derives' : Derives 7 (cut ++ token :: used) first)
        (next : Plain.trailers first after = .ok (e, rest)) :
        ∃ cut', token :: tail = cut' ++ rest ∧ Derives 7 (cut ++ cut') e := by
      subst split
      simp only [List.length_cons, List.length_append] at short ih
      obtain ⟨cut', rfl, whole⟩ := ih after.length (by omega) derives' (by omega) next rfl
      exact ⟨token :: used ++ cut', by simp, by simpa using whole⟩
    have inside : tail.length < bound := short
    rw [trailers_cons] at read
    split at read
    · rename_i kind
      cases tail with
      | nil => cases read
      | cons word tail =>
        dsimp only at read
        split at read
        · rename_i named
          have split : word :: tail = [word] ++ tail := rfl
          exact further split (.member derives kind named) read
        · cases read
    · split at read
      · rename_i opens
        obtain ⟨key, inner, read⟩ := Except.bind_eq_ok.mp read
        obtain ⟨after, closed, read⟩ := Except.bind_eq_ok.mp read
        obtain ⟨within, stop, split, derives', closes⟩ := sound.enclosed inside inner closed
        exact further (split.trans (by simp)) (.index derives opens derives' closes) read
      · split at read
        · rename_i opens
          obtain ⟨whole, called, read⟩ := Except.bind_eq_ok.mp read
          obtain ⟨args, inner, read⟩ := Except.bind_eq_ok.mp read
          obtain ⟨after, closed, read⟩ := Except.bind_eq_ok.mp read
          obtain ⟨within, stop, split, derives', closes⟩ := sound.enclosed_items inside inner closed
          obtain ⟨f, rfl, rfl⟩ | ⟨t, m, rfl, rfl⟩ := callee_ok called
          · exact further (split.trans (by simp)) (.call derives opens derives' closes) read
          · exact further (split.trans (by simp)) (.send derives opens derives' closes) read
        · cases read
          exact ⟨[], rfl, by simpa using derives⟩

theorem Sound.trailed (sound : Sound bound) (short : tokens.length ≤ bound)
    (read : Plain.trailed tokens = .ok (e, rest)) : Found 7 tokens e rest := by
  rw [trailed_eq] at read
  obtain ⟨⟨first, after⟩, inner, next⟩ := Except.bind_eq_ok.mp read
  obtain ⟨cut, rfl, derives⟩ := sound.primary short inner
  rw [List.length_append] at short
  have fewer : after.length ≤ bound := by omega
  obtain ⟨cut', rfl, whole⟩ := sound.trailers (.tighter derives) fewer next
  exact ⟨cut ++ cut', by simp, whole⟩

theorem Sound.unary (sound : Sound bound) (short : tokens.length ≤ bound)
    (read : Plain.unary tokens = .ok (e, rest)) : Found 6 tokens e rest := by
  induction tokens generalizing e with
  | nil =>
    rw [unary_nil] at read
    exact (sound.trailed short read).tighter
  | cons token tail ih =>
    have inside : tail.length ≤ bound := Nat.le_of_lt short
    rw [unary_cons] at read
    split at read
    · rename_i kind
      obtain ⟨operand, inner, same⟩ := Except.map_eq_ok.mp read
      cases same
      obtain ⟨cut, rfl, derives⟩ := ih inside inner
      exact ⟨token :: cut, rfl, .not kind derives⟩
    · split at read
      · rename_i kind
        obtain ⟨operand, inner, same⟩ := Except.map_eq_ok.mp read
        cases same
        obtain ⟨cut, rfl, derives⟩ := ih inside inner
        exact ⟨token :: cut, rfl, .minus kind derives⟩
      · split at read
        · rename_i kind
          obtain ⟨cut, rfl, derives⟩ := ih inside read
          exact ⟨token :: cut, rfl, .plus kind derives⟩
        · exact (sound.trailed short read).tighter

/-- Operations of a level follow a part of it, with parts of the next level between them. -/
theorem Sound.more (sound : Sound bound) {ops : List (TokenKind × BinaryOp)}
    {tighter : List (List (TokenKind × BinaryOp))}
    (level : BinaryOp.levels.drop n = ops :: tighter) {first : Expr} (derives : Derives n cut first)
    (short : tokens.length ≤ bound) (read : Plain.more ops tighter first tokens = .ok (e, rest)) :
    ∃ cut', tokens = cut' ++ rest ∧ Derives n (cut ++ cut') e := by
  induction length : tokens.length using Nat.strong_induction_on generalizing tokens cut first with
  | h _ ih =>
  subst length
  cases tokens with
  | nil =>
    rw [more_nil] at read
    cases read
    exact ⟨[], rfl, by simpa using derives⟩
  | cons token tail =>
    rw [more_cons] at read
    cases found : ops.lookup token.kind with
    | none =>
      simp only [found, Except.ok.injEq, Prod.mk.injEq] at read
      obtain ⟨rfl, rfl⟩ := read
      exact ⟨[], rfl, by simpa using derives⟩
    | some op =>
      simp only [found] at read
      obtain ⟨rfl, kind, next⟩ := levels_found level found
      obtain ⟨right, inner, further⟩ := Except.bind_eq_ok.mp read
      have loose := op.strength_lt
      rw [next, ← readAt_chain (by omega)] at inner
      obtain ⟨cut', rfl, derives'⟩ :=
        sound.parts (op.strength + 1) tail right.1 right.2 (by omega) short inner
      simp only [List.length_cons, List.length_append] at short ih
      obtain ⟨cut'', split, whole⟩ := ih right.2.length (by omega)
        (.binary op derives kind derives') (by omega) further rfl
      exact ⟨token :: cut' ++ cut'', by simp [← split], by simpa using whole⟩

theorem Sound.part (sound : Sound bound) (level : n ≤ 8) (short : tokens.length ≤ bound)
    (read : readAt n tokens = .ok (e, rest)) : Found n tokens e rest := by
  induction gap : 8 - n generalizing n e rest with
  | zero =>
    obtain rfl : n = 8 := by omega
    exact sound.primary short read
  | succ gap ih =>
    by_cases signs : n = 6
    · subst signs
      exact sound.unary short (readAt_six tokens ▸ read)
    · by_cases trails : n = 7
      · subst trails
        exact sound.trailed short read
      · rw [readAt_step (by omega) signs] at read
        obtain ⟨⟨first, after⟩, inner, next⟩ := Except.bind_eq_ok.mp read
        obtain ⟨cut, rfl, derives⟩ := ih (by omega) inner (by omega)
        rw [List.length_append] at short
        rw [goOn_of_ne trails] at next
        cases level : BinaryOp.levels.drop n with
        | nil =>
          simp only [level, Except.ok.injEq, Prod.mk.injEq] at next
          obtain ⟨rfl, rfl⟩ := next
          exact ⟨cut, rfl, .tighter derives⟩
        | cons ops tighter =>
          simp only [level] at next
          obtain ⟨cut', rfl, whole⟩ := sound.more level (.tighter derives) (by omega) next
          exact ⟨cut ++ cut', by simp, whole⟩

theorem Sound.separated (sound : Sound bound) {closing : Closing} {items : List Expr}
    (short : tokens.length ≤ bound) (read : Plain.items closing tokens = .ok (items, rest)) :
    ∃ cut, tokens = cut ++ rest ∧ Items cut items := by
  induction length : tokens.length using Nat.strong_induction_on generalizing tokens items with
  | h _ ih =>
  subst length
  by_cases closed : tokens.head?.map Token.kind = some closing.kind
  · rw [items_closed _ _ closed] at read
    cases read
    exact ⟨[], rfl, .none⟩
  · rw [items_open _ _ closed] at read
    obtain ⟨⟨first, after⟩, inner, next⟩ := Except.bind_eq_ok.mp read
    obtain ⟨cut, rfl, derives⟩ := sound.part (n := 0) (by omega) short inner
    cases after with
    | nil =>
      cases next
      exact ⟨cut, rfl, .last derives⟩
    | cons token after =>
      dsimp only at next
      split at next
      · rename_i comma
        obtain ⟨others, later, same⟩ := Except.map_eq_ok.mp next
        cases same
        simp only [List.length_cons, List.length_append] at short ih
        obtain ⟨cut', rfl, items⟩ := ih after.length (by omega) (by omega) later rfl
        exact ⟨cut ++ token :: cut', by simp, .more derives comma items⟩
      · cases next
        exact ⟨cut, rfl, .last derives⟩

theorem sound (bound : Nat) : Sound bound := by
  induction bound with
  | zero => exact ⟨fun _ _ _ _ _ short => by omega, fun _ _ _ _ short => by omega⟩
  | succ bound ih =>
    refine ⟨fun n tokens e rest level short read => ?_, fun closing tokens items rest short read => ?_⟩
    · exact ih.part level (Nat.le_of_lt_succ short) read
    · exact ih.separated (Nat.le_of_lt_succ short) read

end Sound

/-- What is read as a part of a level stands for it. -/
theorem readAt_derives (level : n ≤ 8) {tokens : List Token} (read : readAt n tokens = .ok (e, rest)) :
    Found n tokens e rest :=
  (sound (tokens.length + 1)).parts n tokens e rest level (Nat.lt_succ_self _) read

/-- Tokens up to an end token are read as an expression exactly when they stand for it. -/
theorem ofTokens_iff {body : List Token} {stop : Token} (unended : Unended body)
    (ended : stop.kind = .stop) (e : Expr) :
    ofTokens (body ++ [stop]) = .ok e ↔ Derives 0 body e := by
  constructor
  · intro read
    rw [ofTokens_eq] at read
    obtain ⟨⟨whole, rest⟩, inner, last⟩ := Except.bind_eq_ok.mp read
    obtain ⟨cut, split, derives⟩ := readAt_derives (n := 0) (by omega) inner
    cases rest with
    | nil =>
      -- The end token would be a part of the expression.
      rw [List.append_nil] at split
      exact absurd ended (derives.shape.unended stop (by simp [← split]))
    | cons token rest =>
      dsimp only at last
      split at last
      · rename_i kind
        cases last
        obtain ⟨more, rfl, behind⟩ | ⟨more, rfl, behind⟩ := List.append_eq_append_iff.mp split
        · cases more with
          | nil => simpa using derives
          | cons _ _ => simp at behind
        · cases more with
          | nil => simpa using derives
          | cons first more =>
            rw [List.cons_append, List.cons.injEq] at behind
            exact absurd kind (unended token (by simp [behind.1]))
      · cases last
  · intro derives
    have read : readAt 0 (body ++ [stop]) = .ok (e, [stop]) :=
      (Ends.closed (by simp [ended])).leaves derives.reads
    rw [readAt_chain (by omega)] at read
    rw [ofTokens_eq, show chain BinaryOp.levels _ = _ from read]
    exact if_pos ended

/-- Tokens stand for one expression at most. -/
theorem Derives.unique {e' : Expr} (derives : Derives 0 cut e) (derives' : Derives 0 cut e') :
    e = e' := by
  have read (e : Expr) : ofTokens (cut ++ [⟨.stop, "", ⟨1, 1⟩⟩]) = .ok e ↔ Derives 0 cut e :=
    ofTokens_iff derives.shape.unended rfl e
  exact Except.ok.inj (((read e).mpr derives).symm.trans ((read e').mpr derives'))

theorem ofText_iff {text : String} {stop : Token} (scanned : NoteQuery.tokens text = .ok (cut ++ [stop])) :
    ofText text = .ok e ↔ Derives 0 cut e := by
  obtain ⟨body, last, split, unended, ended⟩ := Token.scan_ended scanned
  obtain ⟨rfl, single⟩ := List.append_inj' split rfl
  obtain rfl := List.singleton_inj.mp single
  rw [← ofTokens_iff unended ended e]
  constructor
  · intro read
    obtain ⟨_, again, read'⟩ := ofText_eq_ok read
    cases scanned.symm.trans again
    exact read'
  · intro read
    -- A part begins with a token of its own, so the text is not blank.
    obtain ⟨token, more, rfl, _⟩ := ((ofTokens_iff unended ended e).mp read).shape.begins
    have split : NoteQuery.tokens text = .ok ([] ++ token :: (more ++ [stop])) := scanned
    have full := Token.full_of_tokens split (unended token List.mem_cons_self)
    exact ofText_of_tokens _ full (Except.toOption_eq_some.mpr scanned) read

end Readers

/-- The tokens of a text up to the end are read as an expression exactly when the grammar has it, and
the grammar has one at most. -/
theorem ofTokens_grammar (text : String) (ts : List Token)
    (scanned : NoteQuery.tokens text = .ok ts) :
    ∃ body stop, ts = body ++ [stop] ∧ (∀ token ∈ body, token.kind ≠ .stop) ∧ stop.kind = .stop ∧
      (∀ e, ofTokens ts = .ok e ↔ Derives 0 body e) ∧
      ∀ e e', Derives 0 body e → Derives 0 body e' → e = e' := by
  obtain ⟨body, stop, rfl, unended, ended⟩ := Token.scan_ended scanned
  exact ⟨body, stop, rfl, unended, ended, ofTokens_iff unended ended,
    fun _ _ derives derives' => derives.unique derives'⟩

section Sample

/-- Operations of one level join from the left. -/
theorem ofTokens_grammar_chain : ∃ ts, NoteQuery.tokens "a - 1 - b" = .ok ts ∧
    (∃ body stop, ts = body ++ [stop] ∧ (∀ token ∈ body, token.kind ≠ .stop) ∧ stop.kind = .stop ∧
      (∀ e, ofTokens ts = .ok e ↔ Derives 0 body e) ∧
      ∀ e e', Derives 0 body e → Derives 0 body e' → e = e') ∧
    ofTokens ts = .ok (.binary (.arith .sub)
      (.binary (.arith .sub) (.name "a") (literal (.int 1))) (.name "b")) := by
  let a : Token := ⟨.name, "a", ⟨1, 1⟩⟩
  let minus : Token := ⟨.minus, "-", ⟨1, 3⟩⟩
  let one : Token := ⟨.number, "1", ⟨1, 5⟩⟩
  let minus' : Token := ⟨.minus, "-", ⟨1, 7⟩⟩
  let b : Token := ⟨.name, "b", ⟨1, 9⟩⟩
  let stop : Token := ⟨.stop, "", ⟨1, 10⟩⟩
  have scanned : NoteQuery.tokens "a - 1 - b" = .ok [a, minus, one, minus', b, stop] :=
    Except.toOption_eq_some.mp (by decide +kernel)
  have grammar := ofTokens_grammar "a - 1 - b" _ scanned
  have first : Derives 4 [a, minus, one] (.binary (.arith .sub) (.name "a") (literal (.int 1))) :=
    .binary (.arith .sub) (.loosen (.name rfl) (by decide)) rfl
      (.loosen (.whole rfl (by decide) (by decide +kernel)) (by decide))
  have whole : Derives 4 [a, minus, one, minus', b] (.binary (.arith .sub)
      (.binary (.arith .sub) (.name "a") (literal (.int 1))) (.name "b")) :=
    .binary (.arith .sub) first rfl (.loosen (.name rfl) (by decide))
  have unended : Unended [a, minus, one, minus', b] := by simp [Unended, a, minus, one, minus', b]
  have ended : stop.kind = .stop := rfl
  exact ⟨_, scanned, grammar, (ofTokens_iff unended ended _).mpr (whole.loosen (by decide))⟩

end Sample

end Expr

end NoteQuery
