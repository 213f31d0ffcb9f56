import NoteQuery.Expr.Token
import NoteQuery.Proofs.Outcome

/-! How a text is cut into tokens. -/
namespace NoteQuery

namespace Token

open NoteQuery.Text

theorem scan_eq (p : Position) (text : List Char) : scan p text =
    match skip p text with
    | (p', []) => .ok [⟨.stop, "", p'⟩]
    | (p', c :: rest) =>
      match next p' c rest with
      | .error e => .error e
      | .ok (token, after, left) => (scan after left).map (token :: ·) := by
  rw [scan]
  split
  · rename_i found
    simp only [found]
  · rename_i found
    simp only [found]
    split
    · rename_i step
      simp only [step]
    · rename_i step
      simp only [step]
      split <;> rename_i later <;> simp only [later, Except.map]

theorem scan_end (p : Position) : scan p [] = .ok [⟨.stop, "", p⟩] := by
  rw [scan_eq]
  rfl

theorem of_lookup {α β : Type} [BEq α] [LawfulBEq α] {table : List (α × β)} {key : α} {value : β}
    {P : α × β → Prop} (entries : ∀ entry ∈ table, P entry)
    (found : table.lookup key = some value) : P (key, value) := by
  obtain ⟨before, after, split, _⟩ := List.lookup_eq_some_iff.mp found
  exact entries (key, value) (by simp [split])

theorem kind_of_word {P : TokenKind → Prop} (kinds : ∀ kind ∈ [TokenKind.and, .or, .not, .boolean, .null, .name], P kind)
    (word : String) : P ((keyword? word).getD .name) := by
  cases reserved : keyword? word with
  | none => exact kinds .name (by decide)
  | some kind =>
    have inside : kind ∈ [TokenKind.and, .or, .not, .boolean, .null, .name] :=
      of_lookup (P := fun entry => entry.2 ∈ [TokenKind.and, .or, .not, .boolean, .null, .name]) (by decide) reserved
    exact kinds kind inside

/-- No part of a text is an end token. -/
theorem next_ne_stop {p after : Position} {c : Char} {rest left : List Char} {token : Token}
    (step : next p c rest = .ok (token, after, left)) : token.kind ≠ .stop := by
  unfold next at step
  split at step
  · split at step
    · cases step
      simp
    · cases step
  · split at step
    · cases step
      simp
    · split at step
      · rename_i kind found
        cases step
        obtain ⟨d, _, found⟩ := Option.bind_eq_some_iff.mp found
        exact of_lookup (P := fun entry => entry.2 ≠ .stop) (by decide) found
      · split at step
        · rename_i kind found
          cases step
          exact of_lookup (P := fun entry => entry.2 ≠ .stop) (by decide) found
        · split at step
          · cases step
            exact kind_of_word (P := (· ≠ .stop)) (by decide) _
          · split at step <;> cases step

/-- What every part that is cut has, the tokens of a text have in front of their end token, by induction on
the length of the text. -/
theorem scan_forall {P : Token → Prop} (each : ∀ {p after : Position} {c : Char} {rest left : List Char}
      {token : Token}, next p c rest = .ok (token, after, left) → P token)
    {p : Position} {text : List Char} {tokens : List Token} (scanned : scan p text = .ok tokens) :
    ∃ body p', tokens = body ++ [⟨.stop, "", p'⟩] ∧ ∀ token ∈ body, P token := by
  induction length : text.length using Nat.strong_induction_on generalizing p text tokens with
  | h _ ih =>
  subst length
  rw [scan_eq] at scanned
  have fewer := skip_length_le p text
  rcases skipped : skip p text with ⟨p', _ | ⟨c, rest⟩⟩
  · simp only [skipped, Except.ok.injEq] at scanned
    exact ⟨[], p', scanned.symm, by simp⟩
  · simp only [skipped] at scanned fewer
    cases step : next p' c rest with
    | error e => simp [step] at scanned
    | ok found =>
      obtain ⟨token, after, left⟩ := found
      simp only [step] at scanned
      obtain ⟨tokens', later, rfl⟩ := Except.map_eq_ok.mp scanned
      have shorter := next_length_lt step
      obtain ⟨body, stop, rfl, others⟩ := ih left.length (by omega) later rfl
      exact ⟨token :: body, stop, rfl, List.forall_mem_cons.mpr ⟨each step, others⟩⟩

/-- The tokens of a text end with the one end token among them. -/
theorem scan_ended {p : Position} {text : List Char} {tokens : List Token}
    (scanned : scan p text = .ok tokens) : ∃ body stop, tokens = body ++ [stop] ∧
      (∀ token ∈ body, token.kind ≠ .stop) ∧ stop.kind = .stop := by
  obtain ⟨body, p', split, unended⟩ := scan_forall next_ne_stop scanned
  exact ⟨body, _, split, unended, rfl⟩

end Token

end NoteQuery
