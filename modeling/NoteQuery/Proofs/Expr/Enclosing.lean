import NoteQuery.Proofs.Expr.Printing

/-! Putting a text in parentheses. What is cut from a text alone is cut from it in front of a closing
parenthesis, at other positions; and an expression does not depend on where its tokens stand. So the
text of any expression may be put where an operation, a sign or a call takes a part. -/
namespace NoteQuery

namespace Token

open NoteQuery.Text

def spelling (token : Token) : TokenKind × String := (token.kind, token.text)

/-- The same tokens at other positions. -/
def Respelled (cut cut' : List Token) : Prop := cut'.map spelling = cut.map spelling

namespace Respelled

variable {token start stop : Token} {cut cut' front back inside : List Token}

theorem nil (same : Respelled [] cut') : cut' = [] := List.map_eq_nil_iff.mp same

theorem cons (same : Respelled (token :: cut) cut') : ∃ token' rest, cut' = token' :: rest ∧
    token'.kind = token.kind ∧ token'.text = token.text ∧ Respelled cut rest := by
  obtain ⟨token', rest, split, spelled, others⟩ := List.map_eq_cons_iff.mp same
  obtain ⟨kind, text⟩ := Prod.mk.inj spelled
  exact ⟨token', rest, split, kind, text, others⟩

theorem append (same : Respelled (front ++ back) cut') :
    ∃ front' back', cut' = front' ++ back' ∧ Respelled front front' ∧ Respelled back back' := by
  rw [Respelled, List.map_append] at same
  obtain ⟨front', back', split, first, second⟩ := List.map_eq_append_iff.mp same
  exact ⟨front', back', split, first, second⟩

theorem single (same : Respelled [token] cut') :
    ∃ token', cut' = [token'] ∧ token'.kind = token.kind ∧ token'.text = token.text := by
  obtain ⟨token', rest, rfl, kind, text, others⟩ := same.cons
  obtain rfl := others.nil
  exact ⟨token', rfl, kind, text⟩

theorem enclosed (same : Respelled (start :: inside ++ [stop]) cut') : ∃ start' inside' stop',
    cut' = start' :: inside' ++ [stop'] ∧ start'.kind = start.kind ∧ Respelled inside inside' ∧
      stop'.kind = stop.kind := by
  obtain ⟨start', rest, rfl, opens, _, others⟩ := cons same
  obtain ⟨inside', last, rfl, within, ends⟩ := others.append
  obtain ⟨stop', rfl, closes, _⟩ := ends.single
  exact ⟨start', inside', stop', rfl, opens, within, closes⟩

end Respelled

section Front

variable {p q after : Position} {c quote : Char} {text rest left more cs : List Char} {token : Token}

theorem readText_append (q : Position) (more : List Char)
    (read : readText quote p text = some (cs, after, rest)) :
    ∃ after', readText quote q (text ++ more) = some (cs, after', rest ++ more) := by
  fun_induction readText quote p text generalizing q cs with
  | case1 => cases read
  | case2 p rest =>
    cases read
    exact ⟨q.right 1, by rw [List.cons_append, readText.eq_def]; simp⟩
  | case3 => cases read
  | case4 p d rest open' ih =>
    obtain ⟨⟨cs, found⟩, read, same⟩ := Option.map_eq_some_iff.mp read
    cases same
    obtain ⟨after', further⟩ := ih (q.right 2) read
    exact ⟨after', by rw [List.cons_append, List.cons_append, readText.eq_def]; simp [open', further]⟩
  | case5 p c rest open' plain ih =>
    obtain ⟨⟨cs, found⟩, read, same⟩ := Option.map_eq_some_iff.mp read
    cases same
    obtain ⟨after', further⟩ := ih (q.after c) read
    exact ⟨after', by rw [List.cons_append, readText.eq_def]; simp [open', plain, further]⟩

theorem clear_close (more : List Char) : Clear (')' :: more) := .mark (by decide) (by decide)

theorem pairKind?_close (c : Char) : pairKind? c ')' = none :=
  Option.eq_none_iff_forall_ne_some.mpr fun _ found =>
    of_lookup (P := fun entry => entry.1.2 ≠ ')') (by decide) found rfl

theorem pair_append (c : Char) (rest more : List Char) :
    (rest ++ ')' :: more).head?.bind (pairKind? c) = rest.head?.bind (pairKind? c) := by
  cases rest with
  | nil => exact pairKind?_close c
  | cons d rest => rfl

/-- What is cut from the front of a text is cut from it in front of a closing parenthesis. -/
theorem next_append (q : Position) (more : List Char)
    (step : next p c rest = .ok (token, after, left)) :
    ∃ token' after', next q c (rest ++ ')' :: more) = .ok (token', after', left ++ ')' :: more) ∧
      token'.spelling = token.spelling := by
  have clear := clear_close more
  unfold next at step ⊢
  split at step
  · rename_i quoted
    rw [if_pos quoted]
    split at step
    · rename_i read
      cases step
      obtain ⟨after', read⟩ := readText_append (q.right 1) (')' :: more) read
      refine ⟨⟨.text, _, q⟩, after', ?_, rfl⟩
      rw [read]
    · cases step
  rename_i unquoted
  rw [if_neg unquoted]
  split at step
  · rename_i digit
    cases step
    rw [if_pos digit, ← List.cons_append, readNumber_append (c :: rest) clear]
    exact ⟨_, _, rfl, rfl⟩
  rename_i digit
  rw [if_neg digit, pair_append]
  split at step
  · rename_i kind found
    cases step
    obtain ⟨d, first, _⟩ := Option.bind_eq_some_iff.mp found
    obtain ⟨others, rfl⟩ := List.head?_eq_some_iff.mp first
    exact ⟨_, _, rfl, rfl⟩
  split at step
  · cases step
    exact ⟨_, _, rfl, rfl⟩
  split at step
  · rename_i starts
    cases step
    obtain ⟨taken, dropped⟩ := span_append rest clear.word
    rw [if_pos starts, taken, dropped]
    exact ⟨_, _, rfl, rfl⟩
  · split at step <;> cases step

theorem skip_solid {p' : Position} (skipped : skip p text = (p', c :: rest)) :
    isSeparator c = false := by
  induction text generalizing p with
  | nil => cases skipped
  | cons d text ih =>
    rw [skip] at skipped
    split_ifs at skipped with blank
    · exact ih skipped
    · cases skipped
      exact Bool.eq_false_iff.mpr blank

theorem leads_skip (p q : Position) (text more : List Char) :
    ∃ q', Leads q (text ++ more) [] q' ((skip p text).2 ++ more) := by
  induction text generalizing p q with
  | nil => exact ⟨q, .refl⟩
  | cons c text ih =>
    rw [skip]
    split_ifs with blank
    · obtain ⟨q', leads⟩ := ih (p.after c) (q.after c)
      exact ⟨q', (leads_separator blank).trans leads⟩
    · exact ⟨q, .refl⟩

/-- A text that is cut alone is cut in the same way in front of a closing parenthesis, by induction
on its length. -/
theorem leads_inside {tokens : List Token} (scanned : scan p text = .ok tokens) (q : Position)
    (more : List Char) : ∃ q' cut stop, Leads q (text ++ ')' :: more) cut q' (')' :: more) ∧
      stop.kind = .stop ∧ Respelled tokens (cut ++ [stop]) := by
  induction length : text.length using Nat.strong_induction_on generalizing p q text tokens with
  | h _ ih =>
  subst length
  rw [scan_eq] at scanned
  obtain ⟨q₁, blanks⟩ := leads_skip p q text (')' :: more)
  have fewer := skip_length_le p text
  rcases skipped : skip p text with ⟨p', _ | ⟨c, rest⟩⟩
  · simp only [skipped, Except.ok.injEq] at scanned blanks
    subst scanned
    exact ⟨q₁, [], ⟨.stop, "", p'⟩, blanks, rfl, rfl⟩
  · simp only [skipped] at scanned blanks fewer
    cases step : next p' c rest with
    | error e => simp [step] at scanned
    | ok found =>
      obtain ⟨token, after, left⟩ := found
      simp only [step] at scanned
      obtain ⟨others, later, rfl⟩ := Except.map_eq_ok.mp scanned
      have shorter := next_length_lt step
      obtain ⟨token', q₂, step', same⟩ := next_append q₁ more step
      obtain ⟨q', cut, stop, further, ended, others'⟩ := ih left.length (by omega) later q₂ rfl
      have first := leads_next (skip_solid skipped) step'
      refine ⟨q', token' :: cut, stop, blanks.trans (first.trans further), ended, ?_⟩
      rw [Respelled, List.cons_append, List.map_cons, List.map_cons, same, others']

end Front

end Token

namespace Expr

open NoteQuery.Token

mutual

/-- Where the tokens stand does not matter for what they stand for. -/
theorem Derives.respelled : ∀ {n : Nat} {cut cut' : List Token} {e : Expr}, Derives n cut e →
    Respelled cut cut' → Derives n cut' e
  | _, _, _, _, .tighter part, same => .tighter (part.respelled same)
  | _, _, _, _, .binary op left kind right, same => by
    obtain ⟨front, _, rfl, first, others⟩ := same.append
    obtain ⟨sign, back, rfl, kind', _, second⟩ := others.cons
    exact .binary op (left.respelled first) (kind'.trans kind) (right.respelled second)
  | _, _, _, _, .not kind operand, same => by
    obtain ⟨sign, back, rfl, kind', _, others⟩ := same.cons
    exact .not (kind'.trans kind) (operand.respelled others)
  | _, _, _, _, .plus kind operand, same => by
    obtain ⟨sign, back, rfl, kind', _, others⟩ := same.cons
    exact .plus (kind'.trans kind) (operand.respelled others)
  | _, _, _, _, .minusInt kind operand, same => by
    obtain ⟨sign, back, rfl, kind', _, others⟩ := same.cons
    exact .minusInt (kind'.trans kind) (operand.respelled others)
  | _, _, _, _, .minusFloat kind operand, same => by
    obtain ⟨sign, back, rfl, kind', _, others⟩ := same.cons
    exact .minusFloat (kind'.trans kind) (operand.respelled others)
  | _, _, _, _, .minusBool kind operand, same => by
    obtain ⟨sign, back, rfl, kind', _, others⟩ := same.cons
    exact .minusBool (kind'.trans kind) (operand.respelled others)
  | _, _, _, _, .negate kind operand stays, same => by
    obtain ⟨sign, back, rfl, kind', _, others⟩ := same.cons
    exact .negate (kind'.trans kind) (operand.respelled others) stays
  | _, _, _, _, .member target kind named, same => by
    obtain ⟨front, _, rfl, first, others⟩ := same.append
    obtain ⟨dot, _, rfl, kind', _, others⟩ := others.cons
    obtain ⟨word, rfl, named', text⟩ := others.single
    exact text ▸ .member (target.respelled first) (kind'.trans kind) (named' ▸ named)
  | _, _, _, _, .index target opens within closes, same => by
    obtain ⟨front, _, rfl, first, others⟩ := same.append
    obtain ⟨start, inside, stop, rfl, opens', second, closes'⟩ := others.enclosed
    exact .index (target.respelled first) (opens'.trans opens) (within.respelled second)
      (closes'.trans closes)
  | _, _, _, _, .call target opens within closes, same => by
    obtain ⟨front, _, rfl, first, others⟩ := same.append
    obtain ⟨start, inside, stop, rfl, opens', second, closes'⟩ := others.enclosed
    exact .call (target.respelled first) (opens'.trans opens) (within.respelled second)
      (closes'.trans closes)
  | _, _, _, _, .send target opens within closes, same => by
    obtain ⟨front, _, rfl, first, others⟩ := same.append
    obtain ⟨start, inside, stop, rfl, opens', second, closes'⟩ := others.enclosed
    exact .send (target.respelled first) (opens'.trans opens) (within.respelled second)
      (closes'.trans closes)
  | _, _, _, _, .text kind, same => by
    obtain ⟨token, rfl, kind', text⟩ := same.single
    exact text ▸ .text (kind'.trans kind)
  | _, _, _, _, .whole kind pointless value, same => by
    obtain ⟨token, rfl, kind', text⟩ := same.single
    exact .whole (kind'.trans kind) (text ▸ pointless) (text ▸ value)
  | _, _, _, _, .decimal kind point value, same => by
    obtain ⟨token, rfl, kind', text⟩ := same.single
    exact .decimal (kind'.trans kind) (text ▸ point) (text ▸ value)
  | _, _, _, _, .boolean kind, same => by
    obtain ⟨token, rfl, kind', text⟩ := same.single
    exact text ▸ .boolean (kind'.trans kind)
  | _, _, _, _, .null kind, same => by
    obtain ⟨token, rfl, kind', _⟩ := same.single
    exact .null (kind'.trans kind)
  | _, _, _, _, .name kind, same => by
    obtain ⟨token, rfl, kind', text⟩ := same.single
    exact text ▸ .name (kind'.trans kind)
  | _, _, _, _, .list opens within closes, same => by
    obtain ⟨start, inside, stop, rfl, opens', others, closes'⟩ := same.enclosed
    exact .list (opens'.trans opens) (within.respelled others) (closes'.trans closes)
  | _, _, _, _, .group opens within closes, same => by
    obtain ⟨start, inside, stop, rfl, opens', others, closes'⟩ := same.enclosed
    exact .group (opens'.trans opens) (within.respelled others) (closes'.trans closes)

theorem Items.respelled : ∀ {cut cut' : List Token} {items : List Expr}, Items cut items →
    Respelled cut cut' → Items cut' items
  | _, _, _, .none, same => same.nil ▸ .none
  | _, _, _, .last only, same => .last (only.respelled same)
  | _, _, _, .more first kind others, same => by
    obtain ⟨front, _, rfl, here, rest⟩ := same.append
    obtain ⟨comma, back, rfl, kind', _, there⟩ := rest.cons
    exact .more (first.respelled here) (kind'.trans kind) (others.respelled there)

end

/-- The text of an expression in parentheses is read as a part that goes wherever one is taken. -/
theorem reads_enclosed {text : String} {e : Expr} (read : ofText text = .ok e) :
    Reads 8 ('(' :: text.toList ++ [')']) e := by
  obtain ⟨cut, scanned, read⟩ := ofText_eq_ok read
  obtain ⟨body, stop, rfl, unended, ended⟩ := scan_ended scanned
  have derives := (ofTokens_iff unended ended e).mp read
  intro p rest _
  obtain ⟨start, first, opens⟩ := leads_lone p (text.toList ++ ')' :: rest)
    (rfl : signKind? '(' = some .openParen) (by decide)
  obtain ⟨p', cut, stop', second, _, same⟩ := leads_inside scanned (p.right 1) rest
  obtain ⟨close, third, closes⟩ := leads_lone p' rest
    (rfl : signKind? ')' = some .closeParen) (by decide)
  have same' : Respelled body cut := by
    simp only [Respelled, List.map_append, List.map_cons, List.map_nil] at same
    exact (List.append_inj' same rfl).1
  have whole : Leads p ('(' :: text.toList ++ [')'] ++ rest) (start :: cut ++ [close]) (p'.right 1)
      rest := by
    simpa using first.trans (second.trans third)
  exact ⟨p'.right 1, start :: cut ++ [close], whole, .group opens (derives.respelled same') closes⟩

theorem reads_bang {text : List Char} {e : Expr} (operand : Reads 6 ('(' :: text) e) :
    Reads 6 ('!' :: '(' :: text) (.not e) := by
  intro p rest clear
  have apart : ('(' :: text ++ rest).head?.bind (pairKind? '!') = none := rfl
  obtain ⟨sign, first, kind⟩ := leads_sign (p := p) (rfl : signKind? '!' = some .not) apart
  obtain ⟨p', cut, second, derives⟩ := operand (p.right 1) rest clear
  exact ⟨p', sign :: cut, first.trans second, .not kind derives⟩

theorem ofText_of_reads {n : Nat} {text : String} {signs : List Char} {e : Expr}
    (reads : Reads n signs e) (spelled : text.toList = signs) : ofText text = .ok e := by
  rw [← String.ofList_toList (s := text), spelled]
  exact reads.ofText

section Composed

variable {text : String} {e e' : Expr} {symbol other : List Char}

theorem reads_not (read : ofText text = .ok e) :
    Reads 6 ('!' :: '(' :: text.toList ++ [')']) (.not e) :=
  reads_bang ((reads_enclosed read).loosen (by decide))

theorem reads_joined {op : BinaryOp} (spells : Spells symbol op) (read : ofText text = .ok e)
    (right : Reads 8 other e') : Reads op.strength
      ('(' :: text.toList ++ [')'] ++ (' ' :: symbol ++ ' ' :: other)) (.binary op e e') := by
  have level := op.strength_lt
  have left := (reads_enclosed read).loosen (by omega : op.strength ≤ 8)
  exact Reads.joined spells left (right.loosen (by omega))

theorem reads_call {f : String} {args : List Expr} (named : isName f = true)
    (read : ofText text = .ok e) (others : Cuts other (Items · args)) : Reads 7
      (f.toList ++ ('(' :: ('(' :: text.toList ++ [')'] ++ ',' :: ' ' :: other) ++ [')']))
      (.call f (e :: args)) := by
  have first := (reads_enclosed read).loosen (Nat.zero_le 8)
  have function := (Reads.name named).loosen (by decide : 7 ≤ 8)
  exact function.call (cuts_more first others)

end Composed

end Expr

end NoteQuery
