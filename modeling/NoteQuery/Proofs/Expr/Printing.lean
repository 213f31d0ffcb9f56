import NoteQuery.Proofs.Expr.Cutting
import NoteQuery.Proofs.Expr.Soundness
import NoteQuery.Proofs.Number.Numeral

/-! Expressions as text. A part is put in parentheses only where it would not be read as one part of
the level that its place takes, and the text is read as the expression again. -/
namespace NoteQuery

namespace Expr

open NoteQuery.Token

/-- The tightest level of which the text of an expression is a part. A number below zero begins with
a sign. -/
def level : Expr → Nat
  | binary op _ _ => op.strength
  | not _ => 6
  | negate _ => 6
  | literal (.int n) => if n < 0 then 6 else 8
  | member _ _ => 7
  | index _ _ => 7
  | call _ _ => 7
  | send _ _ _ => 7
  | _ => 8

def literalText : Value → List Char
  | .null => "null".toList
  | .bool b => (if b then "true" else "false").toList
  | .int n => (if n < 0 then ['-'] else []) ++ Nat.toDigits 10 n.natAbs
  | .text text => '"' :: text.toList.flatMap escape ++ ['"']
  | _ => []

/-- The text of a part where one of level `n` is taken. -/
def placed (n level : Nat) (text : List Char) : List Char :=
  if n ≤ level then text else '(' :: text ++ [')']

mutual

def written : Expr → List Char
  | literal v => literalText v
  | list items => '[' :: writtenItems items ++ [']']
  | name word => word.toList
  | member target word => placed 7 target.level target.written ++ '.' :: word.toList
  | index target key => placed 7 target.level target.written ++ ('[' :: key.written ++ [']'])
  | call function args => function.toList ++ ('(' :: writtenItems args ++ [')'])
  | send target method args =>
    placed 7 target.level target.written ++ '.' :: method.toList ++
      ('(' :: writtenItems args ++ [')'])
  | not operand => "not".toList ++ ' ' :: placed 6 operand.level operand.written
  | negate operand => '-' :: placed 6 operand.level operand.written
  | binary op left right =>
    placed op.strength left.level left.written ++
      (' ' :: op.symbol.toList ++ ' ' :: placed (op.strength + 1) right.level right.written)

def writtenItems : List Expr → List Char
  | [] => []
  | [e] => e.written
  | e :: more :: items => e.written ++ ',' :: ' ' :: writtenItems (more :: items)

end

def isName (text : String) : Bool := isWord text && (keyword? text).isNone

/-- Literals that have a text. A whole number has it up to the digits that are read. -/
def isPlain : Value → Bool
  | .null => true
  | .bool _ => true
  | .text _ => true
  | .int n => (Nat.toDigits 10 n.natAbs).length ≤ Numeral.maxDigits
  | _ => false

mutual

/-- The names are words, the literals have a text, and no minus is in front of a literal that would
take it in. -/
def printable : Expr → Bool
  | literal v => isPlain v
  | list items => allPrintable items
  | name word => isName word
  | member target word => target.printable && isWord word
  | index target key => target.printable && key.printable
  | call function args => isName function && allPrintable args
  | send target method args => target.printable && isWord method && allPrintable args
  | not operand => operand.printable
  | negate operand => operand.printable && !operand.folds
  | binary _ left right => left.printable && right.printable

def allPrintable : List Expr → Bool
  | [] => true
  | e :: items => e.printable && allPrintable items

end

/-- The text is cut into tokens that stand for the expression as a part of the level. -/
def Reads (n : Nat) (text : List Char) (e : Expr) : Prop := Cuts text (Derives n · e)

/-- The text is cut as one sign of the operation where a blank follows. -/
def Spells (symbol : List Char) (op : BinaryOp) : Prop :=
  ∀ p rest, ∃ p' sign, Leads p (symbol ++ ' ' :: rest) [sign] p' (' ' :: rest) ∧ sign.kind = op.sign

theorem spells_word (word : String) {op : BinaryOp} (named : isWord word = true)
    (kind : (keyword? word).getD .name = op.sign) : Spells word.toList op := by
  intro p rest
  obtain ⟨p', sign, leads, same, _⟩ := leads_word p word named (.blank rest)
  exact ⟨p', sign, leads, same.trans kind⟩

theorem spells_pair {c d : Char} {op : BinaryOp} (found : pairKind? c d = some op.sign) :
    Spells [c, d] op := fun _ _ => ⟨_, leads_pair found⟩

theorem spells_symbol (op : BinaryOp) : Spells op.symbol.toList op := by
  rcases op with _ | _ | relation | arith
  · exact spells_word "or" (by decide +kernel) rfl
  · exact spells_word "and" (by decide +kernel) rfl
  · cases relation
    case less | greater => exact fun _ _ => ⟨_, leads_sign rfl rfl⟩
    all_goals exact fun _ _ => ⟨_, leads_pair rfl⟩
  · cases arith <;> exact fun _ _ => ⟨_, leads_sign rfl rfl⟩

theorem Spells.cuts {symbol text : List Char} {op : BinaryOp} {good : List Token → Prop}
    (spells : Spells symbol op) (cuts : Cuts text good) : Cuts (' ' :: symbol ++ ' ' :: text)
      (fun cut => ∃ sign back, cut = sign :: back ∧ sign.kind = op.sign ∧ good back) := by
  intro p rest clear
  obtain ⟨p₁, sign, first, kind⟩ := spells (p.after ' ') (text ++ rest)
  obtain ⟨p', back, second, fits⟩ := cuts (p₁.after ' ') rest clear
  have leads : Leads (p.after ' ') (symbol ++ ' ' :: text ++ rest) (sign :: back) p' rest := by
    simpa using first.trans ((leads_separator rfl).trans second)
  exact ⟨p', sign :: back, (leads_separator rfl).trans leads, sign, back, rfl, kind, fits⟩

/-- A reserved word may stand after a dot too. -/
theorem isMemberName_of_word (word : String) :
    ((keyword? word).getD .name).isMemberName = true :=
  kind_of_word (P := (·.isMemberName = true)) (by decide) word

namespace Reads

variable {text text' : List Char} {word : String} {e e' : Expr} {args : List Expr} {n m : Nat}

theorem loosen (reads : Reads m text e) (looser : n ≤ m) : Reads n text e :=
  reads.mono fun _ derives => derives.loosen looser

theorem group (inside : Reads 0 text e) : Reads 8 ('(' :: text ++ [')']) e := by
  refine inside.parenthesized.mono ?_
  rintro _ ⟨start, inside, stop, rfl, opens, derives, closes⟩
  exact .group opens derives closes

theorem placed (reads : Reads m text e) (level : n ≤ 8) : Reads n (placed n m text) e := by
  unfold Expr.placed
  split_ifs with tight
  · exact reads.loosen tight
  · exact (reads.loosen (Nat.zero_le m)).group.loosen level

theorem member (target : Reads 7 text e) (named : isWord word = true) :
    Reads 7 (text ++ '.' :: word.toList) (.member e word) := by
  obtain ⟨c, more, spelled, starts, _⟩ := isWord_front named
  have clear : ∀ rest, Clear ('.' :: word.toList ++ rest) := fun rest => by
    rw [spelled]
    exact .dot (isDigit_of_startsWord starts)
  have trailer := (Cuts.word word named).behind (c := '.') rfl (by decide)
  refine (target.append trailer clear).mono ?_
  rintro _ ⟨front, _, rfl, derives, dot, _, rfl, kind, token, rfl, kind', rfl⟩
  exact .member derives kind (kind' ▸ isMemberName_of_word token.text)

theorem index {key : Expr} (target : Reads 7 text e) (within : Reads 0 text' key) :
    Reads 7 (text ++ ('[' :: text' ++ [']'])) (.index e key) := by
  refine (target.append within.bracketed fun _ => .mark (by decide) (by decide)).mono ?_
  rintro _ ⟨front, _, rfl, derives, start, inside, stop, rfl, opens, key, closes⟩
  exact .index derives opens key closes

theorem send {method : String} (target : Reads 7 text (.member e method))
    (within : Cuts text' (Items · args)) :
    Reads 7 (text ++ ('(' :: text' ++ [')'])) (.send e method args) := by
  refine (target.append within.parenthesized fun _ => .mark (by decide) (by decide)).mono ?_
  rintro _ ⟨front, _, rfl, derives, start, inside, stop, rfl, opens, items, closes⟩
  exact .send derives opens items closes

theorem call (target : Reads 7 text (.name word)) (within : Cuts text' (Items · args)) :
    Reads 7 (text ++ ('(' :: text' ++ [')'])) (.call word args) := by
  refine (target.append within.parenthesized fun _ => .mark (by decide) (by decide)).mono ?_
  rintro _ ⟨front, _, rfl, derives, start, inside, stop, rfl, opens, items, closes⟩
  exact .call derives opens items closes

theorem list (within : Cuts text (Items · args)) : Reads 8 ('[' :: text ++ [']']) (.list args) := by
  refine within.bracketed.mono ?_
  rintro _ ⟨start, inside, stop, rfl, opens, items, closes⟩
  exact .list opens items closes

theorem name (named : isName word = true) : Reads 8 word.toList (.name word) := by
  rw [isName, Bool.and_eq_true, Option.isNone_iff_eq_none] at named
  refine (Cuts.word word named.1).mono ?_
  rintro _ ⟨token, rfl, kind, rfl⟩
  rw [named.2] at kind
  exact .name kind

theorem not (operand : Reads 6 text e) : Reads 6 ("not".toList ++ ' ' :: text) (.not e) := by
  have word := Cuts.word "not" (by decide +kernel)
  refine (word.append operand.separated fun _ => .blank _).mono ?_
  rintro _ ⟨_, back, rfl, ⟨token, rfl, kind, _⟩, derives⟩
  exact .not kind derives

theorem minus (operand : Reads 6 text e) : Reads 6 ('-' :: text) e.minus := by
  refine (operand.behind (c := '-') rfl (by decide)).mono ?_
  rintro _ ⟨sign, back, rfl, kind, derives⟩
  exact derives.minus kind

theorem joined {symbol : List Char} {op : BinaryOp} (spells : Spells symbol op)
    (left : Reads op.strength text e) (right : Reads (op.strength + 1) text' e') :
    Reads op.strength (text ++ (' ' :: symbol ++ ' ' :: text')) (.binary op e e') := by
  refine (left.append (spells.cuts right) fun _ => .blank _).mono ?_
  rintro _ ⟨front, _, rfl, derives, sign, back, rfl, kind, derives'⟩
  exact .binary op derives kind derives'

theorem digits {n : Nat} (short : (Nat.toDigits 10 n).length ≤ Numeral.maxDigits) :
    Reads 8 (Nat.toDigits 10 n) (literal (.int n)) := by
  intro p rest clear
  obtain ⟨c, digits, split⟩ := List.exists_cons_of_ne_nil (Nat.toDigits_ne_nil (n := n) (b := 10))
  have within : ∀ d ∈ c :: digits, Text.isDigit d = true := fun d digit => by
    simp [Text.isDigit, Numeral.digits_isDecimal (split ▸ digit)]
  obtain ⟨p', token, leads, kind, spelled⟩ := leads_digits p within clear
  rw [← split] at leads spelled
  refine ⟨p', [token], leads, .whole kind ?_ ?_⟩
  · rw [spelled]
    exact fun point => absurd (Numeral.digits_plain point) (by decide)
  · rw [spelled]
    exact Numeral.readInt?_digits short

theorem ofText (reads : Reads n text e) : ofText (String.ofList text) = .ok e := by
  obtain ⟨p, cut, leads, derives⟩ := reads ⟨1, 1⟩ [] .nil
  have scanned : tokens (String.ofList text) = .ok (cut ++ [⟨.stop, "", p⟩]) := by
    rw [tokens, String.toList_ofList, ← List.append_nil text]
    exact leads.scan (scan_end p)
  exact (ofText_iff scanned).mpr (derives.loosen (Nat.zero_le n))

end Reads

theorem cuts_more {text text' : List Char} {e : Expr} {items : List Expr} (first : Reads 0 text e)
    (others : Cuts text' (Items · items)) :
    Cuts (text ++ ',' :: ' ' :: text') (Items · (e :: items)) := by
  have behind := others.separated.behind (c := ',') rfl (by decide)
  refine (first.append behind fun _ => .mark (by decide) (by decide)).mono ?_
  rintro _ ⟨front, _, rfl, derives, comma, back, rfl, kind, items⟩
  exact .more derives kind items

theorem whole_reads (n : Int) (short : (Nat.toDigits 10 n.natAbs).length ≤ Numeral.maxDigits) :
    Reads (literal (.int n)).level (literalText (.int n)) (literal (.int n)) := by
  have digits := Reads.digits short
  by_cases negative : n < 0
  · have minus := (digits.loosen (by decide : 6 ≤ 8)).minus
    rw [Expr.minus, show -(n.natAbs : Int) = n by omega] at minus
    simpa [level, literalText, negative] using minus
  · rw [show (n.natAbs : Int) = n by omega] at digits
    simpa [level, literalText, negative] using digits

theorem literal_reads (v : Value) (plain : isPlain v = true) :
    Reads (literal v).level (literalText v) (literal v) := by
  cases v with
  | null =>
    refine (Cuts.word "null" (by decide +kernel)).mono ?_
    rintro _ ⟨token, rfl, kind, _⟩
    exact .null kind
  | bool b =>
    refine (Cuts.word (if b then "true" else "false") (by cases b <;> decide +kernel)).mono ?_
    rintro _ ⟨token, rfl, kind, same⟩
    have derives : Derives 8 [token] (literal (.bool (token.text == "true"))) :=
      .boolean (kind.trans (by cases b <;> rfl))
    rw [same] at derives
    cases b <;> exact derives
  | int n => exact whole_reads n (of_decide_eq_true plain)
  | text text =>
    refine (Cuts.quoted text).mono ?_
    rintro _ ⟨token, rfl, kind, rfl⟩
    exact .text kind
  | float _ => cases plain
  | moment _ => cases plain
  | date _ => cases plain
  | list _ => cases plain
  | map _ => cases plain

mutual

theorem written_reads : ∀ e : Expr, e.printable = true → Reads e.level e.written e
  | literal v, ok => literal_reads v ok
  | list items, ok => Reads.list (items_read items ok)
  | name word, ok => .name ok
  | member target word, ok => by
    rw [printable, Bool.and_eq_true] at ok
    exact ((written_reads target ok.1).placed (by decide)).member ok.2
  | index target key, ok => by
    rw [printable, Bool.and_eq_true] at ok
    exact ((written_reads target ok.1).placed (by decide)).index
      ((written_reads key ok.2).loosen (Nat.zero_le _))
  | call function args, ok => by
    rw [printable, Bool.and_eq_true] at ok
    exact ((Reads.name ok.1).loosen (by decide)).call (items_read args ok.2)
  | send target method args, ok => by
    rw [printable, Bool.and_eq_true, Bool.and_eq_true] at ok
    exact (((written_reads target ok.1.1).placed (by decide)).member ok.1.2).send
      (items_read args ok.2)
  | not operand, ok => ((written_reads operand ok).placed (by decide)).not
  | negate operand, ok => by
    rw [printable, Bool.and_eq_true, Bool.not_eq_true'] at ok
    -- The operand is no literal that would take the minus in.
    have minus := ((written_reads operand ok.1).placed (by decide : 6 ≤ 8)).minus
    rwa [minus_of_stays ok.2] at minus
  | binary op left right, ok => by
    rw [printable, Bool.and_eq_true] at ok
    have := op.strength_lt
    exact .joined (spells_symbol op) ((written_reads left ok.1).placed (by omega))
      ((written_reads right ok.2).placed (by omega))

theorem items_read : ∀ items : List Expr, allPrintable items = true →
    Cuts (writtenItems items) (Items · items)
  | [], _ => fun p rest _ => ⟨p, [], .refl, .none⟩
  | [e], ok => by
    rw [allPrintable, Bool.and_eq_true] at ok
    exact ((written_reads e ok.1).loosen (Nat.zero_le _)).mono fun _ derives => .last derives
  | e :: more :: items, ok => by
    rw [allPrintable, Bool.and_eq_true] at ok
    exact cuts_more ((written_reads e ok.1).loosen (Nat.zero_le _)) (items_read (more :: items) ok.2)

end

/-- The text of an expression is read as the expression. -/
theorem ofText_written (e : Expr) (ok : e.printable = true) :
    ofText (String.ofList e.written) = .ok e := (written_reads e ok).ofText

section Sample

def sample : Expr :=
  .binary (.arith .sub) (.name "a") (.binary (.arith .sub)
    (.index (literal (.int (-3))) (literal (.text "the \"b\" key"))) (literal (.int (-4))))

/-- A chain that does not join from the left keeps its parentheses, a number below zero gets them in
front of a bracket only. -/
theorem ofText_written_sample : sample.printable = true ∧
    String.ofList sample.written = "a - ((-3)[\"the \\\"b\\\" key\"] - -4)" ∧
    ofText "a - ((-3)[\"the \\\"b\\\" key\"] - -4)" = .ok sample := by
  have ok : sample.printable = true := by decide +kernel
  have text : String.ofList sample.written = "a - ((-3)[\"the \\\"b\\\" key\"] - -4)" := by
    decide +kernel
  exact ⟨ok, text, text ▸ ofText_written sample ok⟩

end Sample

end Expr

end NoteQuery
