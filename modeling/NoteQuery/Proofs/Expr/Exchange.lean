import NoteQuery.Proofs.Expr.Member
import NoteQuery.Proofs.Formula.Inquiry

/-! A literal and a property that holds its value. In place of the literal the name of the property is read as
the same part, and comes to the same wherever it stands, with one exception: a minus in front of a literal is
part of the literal, whose value it leaves a binary number even if that is whole. -/
namespace NoteQuery

open NoteQuery.Token

/-- The kinds of the tokens that are a part in themselves. -/
def leafKinds : List TokenKind := [.text, .number, .boolean, .null, .name]

theorem BinaryOp.sign_notMem_leafKinds (op : BinaryOp) : op.sign ∉ leafKinds := by
  unfold sign
  split <;> decide

namespace Value

/-- As a number it stays what it is: it is no binary number that is whole and not too large. -/
def Steady (v : Value) : Prop := ∀ y, v = float y → collapse y = float y

theorem steady_int (n : Int) : (int n).Steady := by
  intro y same
  cases same

theorem toInt?_neg (y : Binary64) : y.neg.toInt? = y.toInt?.map (- ·) := by
  cases y with
  | nan => rfl
  | infinite => rfl
  | finite negative m =>
    simp only [Binary64.neg, Binary64.toInt?]
    split <;> cases negative <;> simp

theorem collapse_neg {y : Binary64} (stays : collapse y = float y) : collapse y.neg = float y.neg := by
  unfold collapse at stays ⊢
  generalize Nat.pow 2 53 = bound at stays ⊢
  rw [toInt?_neg]
  cases whole : y.toInt? with
  | none => rfl
  | some n =>
    rw [whole] at stays
    dsimp only [Option.map_some] at stays ⊢
    by_cases small : n.natAbs < bound
    · rw [if_pos small] at stays
      cases stays
    · rw [Int.natAbs_neg, if_neg small]

theorem steady_neg {y : Binary64} (stays : collapse y.neg = float y.neg) : (float y).Steady := by
  rintro _ ⟨⟩
  have twice : y.neg.neg = y := by cases y <;> simp [Binary64.neg]
  have stays' := collapse_neg stays
  rwa [twice] at stays'

end Value

namespace Expr

variable {v w : Value} {x : String}

theorem negate_of_steady (steady : w.Steady) (folds : (literal w).folds = true) :
    ∃ w', (literal w).minus = literal w' ∧ w.negate = .ok w' ∧ w'.Steady := by
  cases w <;> cases folds
  case int n => exact ⟨.int (-n), rfl, rfl, Value.steady_int _⟩
  case bool b =>
    refine ⟨.int (if b then -1 else 0), rfl, ?_, Value.steady_int _⟩
    cases b <;> rfl
  case float y =>
    have stays := Value.collapse_neg (steady y rfl)
    refine ⟨.float y.neg, rfl, congrArg Except.ok stays, ?_⟩
    rintro _ ⟨⟩
    exact stays

variable (v x)

mutual

/-- In the second expression the name stands in one place or more where the first has the literal. -/
inductive Exchanged : Expr → Expr → Prop
  | here : Exchanged (literal v) (name x)
  | same (e : Expr) : Exchanged e e
  | minus {e e' : Expr} (operand : Exchanged e e') : Exchanged e.minus e'.minus
  | not {e e' : Expr} (operand : Exchanged e e') : Exchanged (not e) (not e')
  | list {items items' : List Expr} (each : ExchangedEach items items') : Exchanged (list items) (list items')
  | member {e e' : Expr} (target : Exchanged e e') (n : String) : Exchanged (member e n) (member e' n)
  | index {e e' key key' : Expr} (target : Exchanged e e') (within : Exchanged key key') :
      Exchanged (index e key) (index e' key')
  | call (f : String) {args args' : List Expr} (each : ExchangedEach args args') :
      Exchanged (call f args) (call f args')
  | send {e e' : Expr} (target : Exchanged e e') (m : String) {args args' : List Expr}
      (each : ExchangedEach args args') : Exchanged (send e m args) (send e' m args')
  | binary (op : BinaryOp) {l l' r r' : Expr} (left : Exchanged l l') (right : Exchanged r r') :
      Exchanged (binary op l r) (binary op l' r')

inductive ExchangedEach : List Expr → List Expr → Prop
  | nil : ExchangedEach [] []
  | cons {e e' : Expr} {es es' : List Expr} (first : Exchanged e e') (others : ExchangedEach es es') :
      ExchangedEach (e :: es) (e' :: es')

end

variable {v x} {e e' target : Expr} {n f : String}

theorem ExchangedEach.same (es : List Expr) : ExchangedEach v x es es := by
  induction es with
  | nil => exact .nil
  | cons e es ih => exact .cons (.same e) ih

theorem literal_of_folds (folds : e.folds = true) : ∃ w, e = literal w := by
  unfold Expr.folds at folds
  split at folds
  · exact ⟨_, rfl⟩
  · exact ⟨_, rfl⟩
  · exact ⟨_, rfl⟩
  · cases folds

theorem minus_cases (e : Expr) : (∃ w, e.minus = literal w) ∨ e.minus = negate e := by
  cases folded : e.folds with
  | false => exact .inr (minus_of_stays folded)
  | true =>
    obtain ⟨w, rfl⟩ := literal_of_folds folded
    cases w
    case int | float | bool => exact .inl ⟨_, rfl⟩
    all_goals cases folded

theorem Exchanged.of_name (exchanged : Exchanged v x e e') (named : e = name f) : e' = name f := by
  cases exchanged
  case same => exact named
  case minus e e' _ => rcases minus_cases e with ⟨w, same⟩ | same <;> cases same.symm.trans named
  all_goals cases named

theorem Exchanged.of_member (exchanged : Exchanged v x e e') (dotted : e = .member target n) :
    ∃ target', e' = .member target' n ∧ Exchanged v x target target' := by
  cases exchanged
  case same => exact ⟨target, dotted, .same target⟩
  case minus e e' _ => rcases minus_cases e with ⟨w, same⟩ | same <;> cases same.symm.trans dotted
  case member e e' exchanged n' =>
    cases dotted
    exact ⟨_, rfl, exchanged⟩
  all_goals cases dotted

theorem folds_minus (stays : e.folds = false) : e.minus.folds = false := by
  rw [minus_of_stays stays]
  rfl

theorem Exchanged.eq_of_folds : ∀ {e e' : Expr}, Exchanged v x e e' → e'.folds = true → e = e'
  | _, _, .same _, _ => rfl
  | _, _, @Exchanged.minus _ _ e e' operand, folds => by
    have folds' : e'.folds = true := by
      by_contra stays
      rw [folds_minus (Bool.eq_false_of_not_eq_true stays)] at folds
      cases folds
    rw [operand.eq_of_folds folds']
  | _, _, .here, folds => by cases folds
  | _, _, .not _, folds => by cases folds
  | _, _, .list _, folds => by cases folds
  | _, _, .member _ _, folds => by cases folds
  | _, _, .index _ _, folds => by cases folds
  | _, _, .call _ _, folds => by cases folds
  | _, _, .send _ _ _, folds => by cases folds
  | _, _, .binary _ _ _, folds => by cases folds

section Same

variable {s : Surroundings} {parts parts' : List Expr}

def Harmless (v : Value) (x : String) (parts : List Expr) : Prop := v.Steady ∨ negate (name x) ∉ parts

theorem Harmless.mono (harmless : Harmless v x parts') (within : parts ⊆ parts') : Harmless v x parts :=
  harmless.imp_right fun outside inside => outside (within inside)

/-- What the name comes to in place of the literal: the same value, and a minus behind it does no harm. -/
structure Agrees (s : Surroundings) (v : Value) (x : String) (e e' : Expr) : Prop where
  evals : eval s e = eval s e'
  literals : ∀ w, e = literal w → e' = literal w ∨ (e' = name x ∧ w = v) ∨ (w.Steady ∧ e'.folds = false)

theorem Agrees.of_eval (same : eval s e = eval s e') (other : ∀ w, e ≠ literal w) : Agrees s v x e e' :=
  ⟨same, fun w literal => absurd literal (other w)⟩

theorem Agrees.refl (e : Expr) : Agrees s v x e e := ⟨rfl, fun _ => .inl⟩

theorem eval_negated {w' : Value} (same : eval s e = eval s (literal w)) (negated : w.negate = .ok w') :
    eval s (literal w') = eval s (negate e) := by
  rw [eval, eval, same, eval, pure_bind]
  dsimp only
  rw [negated]
  rfl

theorem Agrees.minus (agrees : e'.folds = false → Agrees s v x e e') (exchanged : Exchanged v x e e')
    (harmless : Harmless v x e'.minus.parts) : Agrees s v x e.minus e'.minus := by
  cases folds' : e'.folds with
  | true =>
    rw [exchanged.eq_of_folds folds']
    exact .refl _
  | false =>
    have agrees := agrees folds'
    rw [minus_of_stays folds'] at harmless ⊢
    cases folds : e.folds with
    | false =>
      rw [minus_of_stays folds]
      refine .of_eval ?_ nofun
      rw [eval, eval, agrees.evals]
    | true =>
      -- A literal takes the minus in, and only a steady one stands for what the name is worth behind a minus.
      obtain ⟨w, rfl⟩ := literal_of_folds folds
      have steady : w.Steady := by
        rcases agrees.literals w rfl with rfl | ⟨rfl, rfl⟩ | ⟨steady, _⟩
        · cases folds.symm.trans folds'
        · exact harmless.resolve_right fun outside => outside (self_mem_parts _)
        · exact steady
      obtain ⟨w', folded, negated, steady'⟩ := negate_of_steady steady folds
      rw [folded]
      refine ⟨eval_negated agrees.evals.symm negated, fun u same => .inr (.inr ⟨?_, rfl⟩)⟩
      cases same
      exact steady'

mutual

theorem Exchanged.agrees (held : s.lookup x = .value v) : ∀ {e e' : Expr}, Exchanged v x e e' →
    Harmless v x e'.parts → Agrees s v x e e'
  | _, _, .here, _ => by
    refine ⟨?_, ?_⟩
    · rw [eval, eval, held]
    · rintro w ⟨⟩
      exact .inr (.inl ⟨rfl, rfl⟩)
  | _, _, .same e, _ => .refl e
  | _, _, .minus operand, harmless => by
    refine .minus (fun stays => ?_) operand harmless
    rw [minus_of_stays stays] at harmless
    exact operand.agrees held (harmless.mono (by simp [parts]))
  | _, _, .not operand, harmless => by
    have agrees := operand.agrees held (harmless.mono (by simp [parts]))
    exact .of_eval (by rw [eval, eval, agrees.evals]) nofun
  | _, _, .list each, harmless => by
    have same := each.agrees held (harmless.mono (by simp [parts]))
    exact .of_eval (by rw [eval, eval, same]) nofun
  | _, _, .member target n, harmless => by
    have agrees := target.agrees held (harmless.mono (by simp [parts]))
    exact .of_eval (by rw [eval, eval, agrees.evals]) nofun
  | _, _, .index target within, harmless => by
    have agrees := target.agrees held (harmless.mono (by simp [parts]))
    have agrees' := within.agrees held (harmless.mono (by simp [parts]))
    exact .of_eval (by rw [eval, eval, agrees.evals, agrees'.evals]) nofun
  | _, _, .call f each, harmless => by
    have same := each.agrees held (harmless.mono (by simp [parts]))
    exact .of_eval (by rw [eval, eval, same]) nofun
  | _, _, .send target m each, harmless => by
    have agrees := target.agrees held (harmless.mono (by simp [parts]))
    have same := each.agrees held (harmless.mono fun _ inside => by simp [parts, inside])
    exact .of_eval (by rw [eval, eval, agrees.evals, same]) nofun
  | _, _, .binary op left right, harmless => by
    have agrees := left.agrees held (harmless.mono (by simp [parts]))
    have agrees' := right.agrees held (harmless.mono (by simp [parts]))
    exact .of_eval (by rw [eval, eval, agrees.evals, agrees'.evals]) nofun

theorem ExchangedEach.agrees (held : s.lookup x = .value v) : ∀ {es es' : List Expr}, ExchangedEach v x es es' →
    Harmless v x (eachParts es') → evalEach s es = evalEach s es'
  | _, _, .nil, _ => rfl
  | _, _, .cons first others, harmless => by
    have agrees := first.agrees held (harmless.mono (by simp [eachParts]))
    have same := others.agrees held (harmless.mono (by simp [eachParts]))
    rw [evalEach, evalEach, agrees.evals, same]

end

end Same

/-- The rows of tokens differ in one token, which does not stand behind a dot. -/
def Swap (old new : Token) (cut cut' : List Token) : Prop :=
  ∃ front back, cut = front ++ old :: back ∧ cut' = front ++ new :: back ∧
    ∀ token ∈ front.getLast?, token.kind ≠ .dot

namespace Swap

variable {old new token dot word : Token} {cut cut' front back : List Token}

theorem nil (swap : Swap old new [] cut') : False := by
  obtain ⟨front, back, split, _⟩ := swap
  simp at split

theorem cons (other : token ≠ old) (swap : Swap old new (token :: cut) cut') :
    ∃ back, cut' = token :: back ∧ Swap old new cut back := by
  obtain ⟨front, back, split, rfl, free⟩ := swap
  cases front with
  | nil => exact absurd (List.cons.inj split).1 other
  | cons first front =>
    obtain ⟨rfl, rfl⟩ := List.cons.inj split
    refine ⟨_, rfl, front, back, rfl, rfl, fun last inside => free last ?_⟩
    rw [List.getLast?_cons, Option.mem_def.mp inside]
    rfl

theorem single (swap : Swap old new [token] cut') : token = old ∧ cut' = [new] := by
  obtain ⟨front, back, split, rfl, _⟩ := swap
  cases front with
  | nil =>
    obtain ⟨rfl, rfl⟩ := List.cons.inj split
    exact ⟨rfl, rfl⟩
  | cons first front => simp at split

theorem append (swap : Swap old new (front ++ back) cut') :
    (∃ front', cut' = front' ++ back ∧ Swap old new front front') ∨
      ∃ back', cut' = front ++ back' ∧ Swap old new back back' := by
  obtain ⟨before, after, split, rfl, free⟩ := swap
  rcases List.append_eq_append_iff.mp split with ⟨rest, rfl, rfl⟩ | ⟨rest, rfl, same⟩
  · refine .inr ⟨rest ++ new :: after, by simp, rest, after, rfl, rfl, fun last inside => free last ?_⟩
    rw [List.getLast?_append, Option.mem_def.mp inside]
    rfl
  · cases rest with
    | nil => exact .inr ⟨new :: after, by simp, [], after, same.symm, rfl, by simp⟩
    | cons first rest =>
      obtain ⟨rfl, rfl⟩ := List.cons.inj same
      exact .inl ⟨before ++ new :: rest, by simp, before, rest, rfl, rfl, free⟩

theorem undotted (kind : dot.kind = .dot) (other : dot ≠ old) (swap : Swap old new [dot, word] cut') : False := by
  obtain ⟨front, back, split, _, free⟩ := swap
  cases front with
  | nil => exact other (List.cons.inj split).1
  | cons first front =>
    obtain ⟨rfl, split⟩ := List.cons.inj split
    cases front with
    | nil => exact free dot rfl kind
    | cons second front => simp at split

end Swap

section Read

variable {old new sign token start stop : Token} {cut' inside : List Token}

/-- The first token is a literal and the second the name of a property for it. -/
structure StandsFor (v : Value) (x : String) (old new : Token) : Prop where
  single : single? old = some (.ok (literal v))
  named : new.kind = .name
  spelled : new.text = x

theorem StandsFor.ne (stands : StandsFor v x old new) (kind : sign.kind ∉ leafKinds) : sign ≠ old := by
  rintro rfl
  have single := stands.single
  unfold single? at single
  split at single <;> simp_all [leafKinds]

theorem StandsFor.swapped (stands : StandsFor v x old new) (derives : Derives 8 [token] e)
    (swap : Swap old new [token] cut') : ∃ e', Derives 8 cut' e' ∧ Exchanged v x e e' := by
  obtain ⟨rfl, rfl⟩ := swap.single
  have same := (derives.loosen (Nat.zero_le 8)).unique ((single?_derives stands.single).loosen (Nat.zero_le 8))
  subst same
  exact ⟨_, .name stands.named, stands.spelled ▸ .here⟩

theorem StandsFor.enclosed (stands : StandsFor v x old new) (opens : start.kind ∈ [.openParen, .openBracket])
    (closes : stop.kind ∈ [.closeParen, .closeBracket]) (swap : Swap old new (start :: inside ++ [stop]) cut') :
    ∃ inside', cut' = start :: inside' ++ [stop] ∧ Swap old new inside inside' := by
  have apart : ∀ kind ∈ [TokenKind.openParen, .openBracket, .closeParen, .closeBracket], kind ∉ leafKinds := by decide
  obtain ⟨back, rfl, within⟩ := swap.cons (stands.ne (apart _ (List.mem_append_left [_, _] opens)))
  rcases Swap.append within with ⟨inside', rfl, later⟩ | ⟨last, rfl, later⟩
  · exact ⟨inside', rfl, later⟩
  · exact absurd later.single.1 (stands.ne (apart _ (List.mem_append_right [_, _] closes)))

mutual

/-- By induction on how the tokens are read: a name is a part wherever a literal is, but behind a dot. -/
theorem Derives.exchanged (stands : StandsFor v x old new) : ∀ {n : Nat} {cut cut' : List Token} {e : Expr},
    Derives n cut e → Swap old new cut cut' → ∃ e', Derives n cut' e' ∧ Exchanged v x e e'
  | _, _, _, _, .tighter part, swap => by
    obtain ⟨e', derives, exchanged⟩ := part.exchanged stands swap
    exact ⟨e', .tighter derives, exchanged⟩
  | _, _, _, _, .binary op left kind right, swap => by
    rcases swap.append with ⟨front, rfl, within⟩ | ⟨back, rfl, within⟩
    · obtain ⟨e', derives, exchanged⟩ := left.exchanged stands within
      exact ⟨_, .binary op derives kind right, .binary op exchanged (.same _)⟩
    · obtain ⟨after, rfl, later⟩ := within.cons (stands.ne (kind ▸ op.sign_notMem_leafKinds))
      obtain ⟨e', derives, exchanged⟩ := right.exchanged stands later
      exact ⟨_, .binary op left kind derives, .binary op (.same _) exchanged⟩
  | _, _, _, _, .not kind operand, swap => by
    obtain ⟨back, rfl, later⟩ := swap.cons (stands.ne (by simp [kind, leafKinds]))
    obtain ⟨e', derives, exchanged⟩ := operand.exchanged stands later
    exact ⟨_, .not kind derives, .not exchanged⟩
  | _, _, _, _, .plus kind operand, swap => by
    obtain ⟨back, rfl, later⟩ := swap.cons (stands.ne (by simp [kind, leafKinds]))
    obtain ⟨e', derives, exchanged⟩ := operand.exchanged stands later
    exact ⟨_, .plus kind derives, exchanged⟩
  | _, _, _, _, .minusInt kind operand, swap => by
    obtain ⟨back, rfl, later⟩ := swap.cons (stands.ne (by simp [kind, leafKinds]))
    obtain ⟨e', derives, exchanged⟩ := operand.exchanged stands later
    exact ⟨_, .minus kind derives, .minus exchanged⟩
  | _, _, _, _, .minusFloat kind operand, swap => by
    obtain ⟨back, rfl, later⟩ := swap.cons (stands.ne (by simp [kind, leafKinds]))
    obtain ⟨e', derives, exchanged⟩ := operand.exchanged stands later
    exact ⟨_, .minus kind derives, .minus exchanged⟩
  | _, _, _, _, .minusBool kind operand, swap => by
    obtain ⟨back, rfl, later⟩ := swap.cons (stands.ne (by simp [kind, leafKinds]))
    obtain ⟨e', derives, exchanged⟩ := operand.exchanged stands later
    exact ⟨_, .minus kind derives, .minus exchanged⟩
  | _, _, _, _, .negate kind operand stays, swap => by
    obtain ⟨back, rfl, later⟩ := swap.cons (stands.ne (by simp [kind, leafKinds]))
    obtain ⟨e', derives, exchanged⟩ := operand.exchanged stands later
    rw [← minus_of_stays stays]
    exact ⟨_, .minus kind derives, .minus exchanged⟩
  | _, _, _, _, .member target kind named, swap => by
    rcases swap.append with ⟨front, rfl, within⟩ | ⟨back, rfl, within⟩
    · obtain ⟨e', derives, exchanged⟩ := target.exchanged stands within
      exact ⟨_, .member derives kind named, .member exchanged _⟩
    · exact (within.undotted kind (stands.ne (by simp [kind, leafKinds]))).elim
  | _, _, _, _, .index target opens within closes, swap => by
    rcases swap.append with ⟨front, rfl, later⟩ | ⟨back, rfl, later⟩
    · obtain ⟨e', derives, exchanged⟩ := target.exchanged stands later
      exact ⟨_, .index derives opens within closes, .index exchanged (.same _)⟩
    · obtain ⟨inside, rfl, inner⟩ := stands.enclosed (by simp [opens]) (by simp [closes]) later
      obtain ⟨e', derives, exchanged⟩ := within.exchanged stands inner
      exact ⟨_, .index target opens derives closes, .index (.same _) exchanged⟩
  | _, _, _, _, .call target opens within closes, swap => by
    rcases swap.append with ⟨front, rfl, later⟩ | ⟨back, rfl, later⟩
    · obtain ⟨e', derives, exchanged⟩ := target.exchanged stands later
      rw [exchanged.of_name rfl] at derives
      exact ⟨_, .call derives opens within closes, .same _⟩
    · obtain ⟨inside, rfl, inner⟩ := stands.enclosed (by simp [opens]) (by simp [closes]) later
      obtain ⟨items, derives, exchanged⟩ := within.exchanged stands inner
      exact ⟨_, .call target opens derives closes, .call _ exchanged⟩
  | _, _, _, _, .send target opens within closes, swap => by
    rcases swap.append with ⟨front, rfl, later⟩ | ⟨back, rfl, later⟩
    · obtain ⟨e', derives, exchanged⟩ := target.exchanged stands later
      obtain ⟨target', rfl, exchanged'⟩ := exchanged.of_member rfl
      exact ⟨_, .send derives opens within closes, .send exchanged' _ (.same _)⟩
    · obtain ⟨inside, rfl, inner⟩ := stands.enclosed (by simp [opens]) (by simp [closes]) later
      obtain ⟨items, derives, exchanged⟩ := within.exchanged stands inner
      exact ⟨_, .send target opens derives closes, .send (.same _) _ exchanged⟩
  | _, _, _, _, .text kind, swap => stands.swapped (.text kind) swap
  | _, _, _, _, .whole kind pointless value, swap => stands.swapped (.whole kind pointless value) swap
  | _, _, _, _, .decimal kind point value, swap => stands.swapped (.decimal kind point value) swap
  | _, _, _, _, .boolean kind, swap => stands.swapped (.boolean kind) swap
  | _, _, _, _, .null kind, swap => stands.swapped (.null kind) swap
  | _, _, _, _, .name kind, swap => stands.swapped (.name kind) swap
  | _, _, _, _, .list opens within closes, swap => by
    obtain ⟨inside, rfl, inner⟩ := stands.enclosed (by simp [opens]) (by simp [closes]) swap
    obtain ⟨items, derives, exchanged⟩ := within.exchanged stands inner
    exact ⟨_, .list opens derives closes, .list exchanged⟩
  | _, _, _, _, .group opens within closes, swap => by
    obtain ⟨inside, rfl, inner⟩ := stands.enclosed (by simp [opens]) (by simp [closes]) swap
    obtain ⟨e', derives, exchanged⟩ := within.exchanged stands inner
    exact ⟨e', .group opens derives closes, exchanged⟩

theorem Items.exchanged (stands : StandsFor v x old new) : ∀ {cut cut' : List Token} {items : List Expr},
    Items cut items → Swap old new cut cut' → ∃ items', Items cut' items' ∧ ExchangedEach v x items items'
  | _, _, _, .none, swap => swap.nil.elim
  | _, _, _, .last only, swap => by
    obtain ⟨e', derives, exchanged⟩ := only.exchanged stands swap
    exact ⟨_, .last derives, .cons exchanged .nil⟩
  | _, _, _, .more first kind others, swap => by
    rcases swap.append with ⟨front, rfl, within⟩ | ⟨back, rfl, within⟩
    · obtain ⟨e', derives, exchanged⟩ := first.exchanged stands within
      exact ⟨_, .more derives kind others, .cons exchanged (.same _)⟩
    · obtain ⟨after, rfl, later⟩ := within.cons (stands.ne (by simp [kind, leafKinds]))
      obtain ⟨items, derives, exchanged⟩ := others.exchanged stands later
      exact ⟨_, .more first kind derives, .cons (.same _) exchanged⟩

end

end Read

section Texts

variable {text text' : String} {front back cut cut' cut'' : List Token} {token new : Token} {s : Surroundings}

theorem ofText_swapped (stands : StandsFor v x token new) (read : ofText text = .ok e)
    (scanned : tokens text = .ok cut) (swap : Swap token new cut cut') (scanned' : tokens text' = .ok cut'')
    (same : Respelled cut' cut'') : ∃ e', ofText text' = .ok e' ∧ Exchanged v x e e' := by
  obtain ⟨body, stop, rfl, _, ended⟩ := scan_ended scanned
  rcases swap.append with ⟨body', rfl, within⟩ | ⟨last, _, within⟩
  · obtain ⟨e', derives, exchanged⟩ := ((ofText_iff scanned).mp read).exchanged stands within
    obtain ⟨body'', last, rfl, respelled, after⟩ := same.append
    obtain ⟨stop', rfl, _⟩ := after.single
    exact ⟨e', (ofText_iff scanned').mpr (derives.respelled respelled), exchanged⟩
  · exact absurd within.single.1 (stands.ne (by simp [ended, leafKinds]))

/-- In a note with a property that holds the value of a literal, the name of the property in place of the literal
changes nothing of what a text comes to but the text that an error tells, except behind a minus where the value
is a binary number without a fraction. -/
theorem evaluateText_exchanged {p : Position} (read : ofText text = .ok e)
    (scanned : tokens text = .ok (front ++ token :: back)) (single : single? token = some (.ok (literal v)))
    (free : ∀ before ∈ front.getLast?, before.kind ≠ .dot) (scanned' : tokens text' = .ok cut')
    (same : Respelled (front ++ ⟨.name, x, p⟩ :: back) cut') (unscoped : Scope.ofName? x = none)
    (held : s.context.note.get x = v) :
    ∃ e', ofText text' = .ok e' ∧ (v.Steady ∨ negate (name x) ∉ e'.parts → ∀ memo,
      ((evaluateText s text').run memo).map (Except.mapError ExpressionError.error) id =
        ((evaluateText s text).run memo).map (Except.mapError ExpressionError.error) id) := by
  obtain ⟨e', read', exchanged⟩ :=
    ofText_swapped ⟨single, rfl, rfl⟩ read scanned ⟨front, back, rfl, rfl, free⟩ scanned' same
  refine ⟨e', read', fun harmless memo => ?_⟩
  have holds : s.lookup x = .value v := by rw [Surroundings.lookup, unscoped, held]
  have agrees := exchanged.agrees holds harmless
  rw [evaluateText_run, evaluateText_run, ofTextIn_spelled read, ofTextIn_spelled read', agrees.evals]
  rcases (do s.settle (← eval s e') : Eval Value).on memo with ⟨(_ | _) | w, after⟩ <;> rfl

/-- Behind a minus it takes a value that stays what it is. -/
theorem eval_minus_iff_steady (held : s.lookup x = .value v) (folds : (literal v).folds = true) :
    eval s (literal v).minus = eval s (name x).minus ↔ v.Steady := by
  have named : eval s (name x) = eval s (literal v) := by rw [eval, eval, held]
  have stays : (name x).minus = negate (name x) := rfl
  rw [stays]
  constructor
  · rintro same y rfl
    have spelled := same.trans (eval_negated named rfl).symm
    rw [minus, eval, eval] at spelled
    have values : (Except.ok (Scoped.value (.float y.neg)) : Except Failure Scoped) = .ok (.value (.collapse y.neg)) :=
      congrArg (fun run : Eval Scoped => (run.on (.fresh [])).1) spelled
    exact Value.steady_neg (Scoped.value.inj (Except.ok.inj values)).symm y rfl
  · intro steady
    obtain ⟨w, folded, negated, _⟩ := negate_of_steady steady folds
    rw [folded]
    exact eval_negated named negated

section Sample

open Formulas (blankNote)

def noteWith (v : Value) : Context := { blankNote with note := [("n", v)] }

theorem evaluateText_exchanged_two : ∃ present, ∃ s : Surroundings, s = ⟨present, noteWith (.int 2), none⟩ ∧
    ∀ memo, ((evaluateText s "-n").run memo).map (Except.mapError ExpressionError.error) id =
      ((evaluateText s "-2").run memo).map (Except.mapError ExpressionError.error) id := by
  let s : Surroundings := ⟨.startOf ⟨2024, 1, 1, by decide, by decide, by decide⟩, noteWith (.int 2), none⟩
  let minus : Token := ⟨.minus, "-", ⟨1, 1⟩⟩
  let two : Token := ⟨.number, "2", ⟨1, 2⟩⟩
  let stop : Token := ⟨.stop, "", ⟨1, 3⟩⟩
  have scanned : tokens "-2" = .ok ([minus, two] ++ [stop]) := by decide +kernel
  have split : tokens "-2" = .ok ([minus] ++ two :: [stop]) := scanned
  have scanned' : tokens "-n" = .ok [minus, ⟨.name, "n", ⟨1, 2⟩⟩, stop] := by decide +kernel
  have single : single? two = some (.ok (literal (.int 2))) :=
    congrArg some (by rfl : numberLiteral "2" = .ok (literal (.int 2)))
  have derives : Derives 6 [minus, two] (literal (.int (-2))) :=
    .minusInt rfl ((single?_derives single).loosen (by decide))
  have read := (ofText_iff scanned).mpr (derives.loosen (Nat.zero_le 6))
  have held : s.context.note.get "n" = .int 2 := rfl
  obtain ⟨_, _, same⟩ :=
    evaluateText_exchanged read split single (by simp [minus]) scanned' rfl (by decide) held
  exact ⟨_, s, rfl, same (.inl (Value.steady_int 2))⟩

/-- The minus is part of the literal, which stays a binary number; in front of the name it makes a whole number. -/
theorem minus_exchanged_one : ∃ present, ∃ s : Surroundings, ∃ one : Binary64,
    s = ⟨present, noteWith (.float one), none⟩ ∧ ofText "1.0" = .ok (literal (.float one)) ∧
      (evaluateText s "-1.0").run ⟨[], []⟩ = (.ok (.float one.neg), ⟨[], []⟩) ∧
      (evaluateText s "-n").run ⟨[], []⟩ = (.ok (.int (-1)), ⟨[], []⟩) := by
  let one : Binary64 := .ofRatio false 1 1
  let s : Surroundings := ⟨.startOf ⟨2024, 1, 1, by decide, by decide, by decide⟩, noteWith (.float one), none⟩
  let minus : Token := ⟨.minus, "-", ⟨1, 1⟩⟩
  have scanned : tokens "1.0" = .ok ([⟨.number, "1.0", ⟨1, 1⟩⟩] ++ [⟨.stop, "", ⟨1, 4⟩⟩]) := by
    decide +kernel
  have scanned' : tokens "-1.0" = .ok ([minus, ⟨.number, "1.0", ⟨1, 2⟩⟩] ++ [⟨.stop, "", ⟨1, 5⟩⟩]) := by
    decide +kernel
  have scanned'' : tokens "-n" = .ok ([minus, ⟨.name, "n", ⟨1, 2⟩⟩] ++ [⟨.stop, "", ⟨1, 3⟩⟩]) := by
    decide +kernel
  have number : ∀ p, Derives 8 [⟨.number, "1.0", p⟩] (literal (.float one)) := fun _ =>
    .decimal rfl (by decide +kernel : '.' ∈ "1.0".toList)
      (by decide +kernel : Numeral.readFloat? "1.0".toList = some (.ofRatio false 1 1))
  have named : Derives 8 [⟨.name, "n", ⟨1, 2⟩⟩] (name "n") := .name rfl
  have plain := (ofText_iff scanned).mpr ((number _).loosen (Nat.zero_le 8))
  have folded := (ofText_iff scanned').mpr
    ((Derives.minusFloat rfl ((number _).loosen (by decide))).loosen (Nat.zero_le 6))
  have negated := (ofText_iff scanned'').mpr
    ((Derives.negate rfl (named.loosen (by decide)) rfl).loosen (Nat.zero_le 6))
  refine ⟨_, s, one, rfl, plain, ?_, ?_⟩
  · rw [evaluateText_eq_ok, ofTextIn_spelled folded]
    rfl
  · rw [evaluateText_eq_ok, ofTextIn_spelled negated]
    rfl

end Sample

end Texts

end Expr

end NoteQuery
