import NoteQuery.Proofs.Expr.Place
import NoteQuery.Proofs.Formula.Reading
import NoteQuery.Proofs.Note.Ordinary
import NoteQuery.Proofs.Value.Rendered

/-! A property and the text that the note gives for it. Whether the settings let the text be read as a date
or not, the property is equal to the text, in whichever way an expression puts it in quotes. -/
namespace NoteQuery

namespace Value

variable {isDate : Bool} {s : String} {v : Value}

theorem withDate_text (read : (text s).withDate isDate = .ok v) :
    v = text s ∨ ∃ m, v = moment m ∧ (text s).moment? = .ok (some m) := by
  cases isDate with
  | false =>
    cases read
    exact .inl rfl
  | true =>
    obtain ⟨found, spelled, read⟩ := Except.bind_eq_ok.mp read
    cases found with
    | none =>
      cases read
      exact .inl rfl
    | some m =>
      cases read
      exact .inr ⟨m, rfl, spelled⟩

/-- A text that is read as a date or kept is equal to itself as it was written. -/
theorem withDate_equals (read : (text s).withDate isDate = .ok v) : equals v (text s) = .ok true := by
  rcases withDate_text read with rfl | ⟨m, rfl, spelled⟩
  · simp [equals, equalSingle, isMoment, isNumber, isBool, same]
  · exact (compared_with_text (moment?_offset spelled) spelled).1

end Value

theorem Entries.find?_withDates {settings : Settings} {entries note : Entries} {name : String} {v : Value}
    (read : entries.withDates settings = .ok note) (held : entries.find? name = some v) :
    ∃ v', note.find? name = some v' ∧ v.withDate (settings.isDateProperty name) = .ok v' := by
  have paired := withDates_forall₂ read
  clear read
  unfold find? at held ⊢
  induction paired with
  | nil => cases held
  | @cons written read entries note first _ ih =>
    obtain ⟨same, here⟩ := first
    by_cases sought : name = written.1
    · subst sought
      rw [List.lookup_cons, beq_self_eq_true] at held
      cases held
      exact ⟨read.2, by rw [List.lookup_cons, same, beq_self_eq_true], here⟩
    · have apart : (name == written.1) = false := beq_eq_false_iff_ne.mpr sought
      rw [List.lookup_cons, apart] at held
      rw [List.lookup_cons, same, apart]
      exact ih held

namespace Token

variable {quote : Char} {body signs : List Char}

/-- Every text can be put in quotes of either kind: a backslash shields quotes and backslashes. -/
theorem inside_shielded (mark : quote = '"' ∨ quote = '\'') (signs : List Char) :
    Inside quote (signs.flatMap (Lexeme.shielded quote)) signs := by
  induction signs with
  | nil => exact .nil
  | cons c signs ih =>
    rw [List.flatMap_cons, Lexeme.shielded]
    split_ifs with special
    · have itself : escaped c = c := by rcases mark with rfl | rfl <;> rcases special with rfl | rfl <;> rfl
      have behind := Inside.escape c ih
      rwa [itself] at behind
    · rw [not_or] at special
      exact .sign special.1 special.2 ih

theorem Inside.cuts (inside : Inside quote body signs) (mark : quote = '"' ∨ quote = '\'') :
    Cuts (quote :: body ++ [quote])
      (fun cut => ∃ token, cut = [token] ∧ token.kind = .text ∧ token.text = String.ofList signs) := by
  intro p rest _
  obtain ⟨p', read⟩ := inside.reads mark (p.right 1) rest
  obtain ⟨token, leads, kind, same⟩ := leads_read mark read
  exact ⟨p', [token], by simpa using leads, token, rfl, kind, same⟩

end Token

namespace Expr

open Token (Inside)

variable {x s : String} {quote : Char} {body : List Char}

theorem ofText_equation (named : isName x = true) (mark : quote = '"' ∨ quote = '\'')
    (inside : Inside quote body s.toList) : ofText (x ++ " == " ++ String.ofList (quote :: body ++ [quote])) =
      .ok (.binary (.relation .equal) (.name x) (literal (.text s))) := by
  have right : Reads 8 (quote :: body ++ [quote]) (literal (.text s)) := by
    refine (inside.cuts mark).mono ?_
    rintro _ ⟨token, rfl, kind, same⟩
    rw [String.ofList_toList] at same
    exact same ▸ .text kind
  have joined := Reads.joined (spells_symbol (.relation .equal)) ((Reads.name named).loosen (by decide))
    (right.loosen (by decide))
  have spelled : x ++ " == " ++ String.ofList (quote :: body ++ [quote]) = String.ofList
      (x.toList ++ (' ' :: (BinaryOp.relation .equal).symbol.toList ++ ' ' :: (quote :: body ++ [quote]))) := by
    rw [← String.toList_inj]
    simp [BinaryOp.symbol, Relation.symbol]
  rw [spelled]
  exact joined.ofText

/-- What a name stands for and a text are compared as values. -/
theorem eval_equation {s : Surroundings} {v : Value} {shown : String} {b : Bool} (held : s.lookup x = .value v)
    (equal : v.equals (.text shown) = .ok b) (memo : Memo) :
    (eval s (.binary (.relation .equal) (.name x) (literal (.text shown)))).on memo =
      (.ok (.value (.bool b)), memo) := by
  have related : Value.related .equal v (.text shown) = .ok b := equal
  have named : eval s (.name x) = pure (.value v) := by rw [eval, held]
  rw [eval, operate, named, eval]
  simp only [Surroundings.settle, pure_bind, related]
  rfl

end Expr

namespace Context

variable {d : Document} {metadata : Option Metadata} {settings : Settings} {content : Option String} {c : Context}

/-- Where a note gives a text for a property and has a context at all, the equation of the property and the
text holds, for every way to put the text in quotes. To shield quotes and backslashes is one of them. -/
theorem property_equals_own_text (made : ofDocument d metadata settings content = .ok c) {x s : String}
    (held : d.properties.find? x = some (.text s)) (named : Expr.isName x = true)
    (unscoped : Scope.ofName? x = none) {quote : Char} (mark : quote = '"' ∨ quote = '\'') :
    Token.Inside quote (s.toList.flatMap (Lexeme.shielded quote)) s.toList ∧
    ∀ body, Token.Inside quote body s.toList → ∀ present formulas memo,
      (Expr.evaluateText ⟨present, c, formulas⟩ (x ++ " == " ++ String.ofList (quote :: body ++ [quote]))).run memo =
        (.ok (.bool true), memo) := by
  refine ⟨Token.inside_shielded mark s.toList, fun body inside present formulas memo => ?_⟩
  obtain ⟨v, found, read⟩ := Entries.find?_withDates (ofDocument_note made) held
  have stands : (⟨present, c, formulas⟩ : Surroundings).lookup x = .value v := by
    rw [Surroundings.lookup, unscoped, Entries.get, found, Option.getD_some]
  exact Expr.evaluateText_of_value (Expr.ofText_equation named mark inside)
    (Expr.eval_equation stands (Value.withDate_equals read) memo)

section Sample

/-- A note that is due on a day that is spelled out. -/
def spelled : Document where
  path := "a.md"
  size := 0
  created := none
  modified := none
  properties := [("due", .text "29 February 2024")]

theorem property_equals_own_text_spelled : ∃ c m, ofDocument spelled none {} none = .ok c ∧
    c.note = [("due", .moment m)] ∧ ∀ present,
      (Expr.evaluateText ⟨present, c, none⟩ "due == '29 February 2024'").run ⟨[], []⟩ =
        (.ok (.bool true), ⟨[], []⟩) := by
  let leap : Moment := .startOf ⟨2024, 2, 29, by decide, by decide, by decide⟩
  have read : (Value.text "29 February 2024").moment? = .ok (some leap) := by decide +kernel
  obtain ⟨c, made, note⟩ : ∃ c, ofDocument spelled none {} none = .ok c ∧ c.note = [("due", .moment leap)] := by
    refine ⟨⟨"a.md", .ofDocument spelled none, spelled.properties, [("due", .moment leap)], none⟩, ?_, rfl⟩
    simp only [ofDocument, spelled, Entries.withDates, Value.withDate, read]
    rfl
  obtain ⟨shielded, holds⟩ := property_equals_own_text made (x := "due") (s := "29 February 2024") rfl
    (by decide +kernel) (by decide) (.inr rfl)
  have plain : "29 February 2024".toList.flatMap (Lexeme.shielded '\'') = "29 February 2024".toList := by decide
  rw [plain] at shielded
  exact ⟨c, leap, made, note, fun present => holds _ shielded present none _⟩

end Sample

end Context

end NoteQuery
