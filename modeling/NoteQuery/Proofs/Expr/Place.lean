import NoteQuery.Proofs.Expr.Refusal

/-! Where the tokens of a text stand and where an error of syntax is found. Line and column are counted from
sign to sign, over blanks, tokens and texts in quotes; they are those of the place, except that a line feed
behind a backslash is counted as a sign of its line. -/
namespace NoteQuery

open NoteQuery.Text NoteQuery.Token

namespace Position

/-- The place behind these signs: every line feed begins a line. -/
def behind (front : List Char) : Position :=
  ⟨1 + front.count '\n', 1 + (front.reverse.takeWhile (· != '\n')).length⟩

/-- The signs without the line feeds that stand behind a backslash. -/
def joinLines : List Char → List Char
  | [] => []
  | [c] => [c]
  | c :: d :: rest =>
    if c = '\\' then c :: (if d = '\n' then ' ' else d) :: joinLines rest else c :: joinLines (d :: rest)

/-- What is counted for the place behind these signs. -/
def Marks (p : Position) (front : List Char) : Prop :=
  p = behind (joinLines front) ∧ (p = behind front ↔ joinLines front = front)

/-- The way from the first sign to the position. -/
inductive Counted : List Char → Position → Prop
  | start : Counted [] ⟨1, 1⟩
  | sign {front : List Char} {p : Position} {c : Char} (counted : Counted front p) (other : c ≠ '\\') :
      Counted (front ++ [c]) (p.after c)
  | escape {front : List Char} {p : Position} (counted : Counted front p) (d : Char) :
      Counted (front ++ ['\\', d]) (p.right 2)

variable {front more signs : List Char} {p : Position} {c : Char}

theorem behind_append (front : List Char) (c : Char) : behind (front ++ [c]) = (behind front).after c := by
  by_cases feed : c = '\n'
  · subst feed
    simp [behind, after, Nat.add_assoc]
  · simp [behind, after, feed, Nat.add_assoc]

theorem joinLines_cons (other : c ≠ '\\') : joinLines (c :: more) = c :: joinLines more := by
  cases more with
  | nil => rfl
  | cons d more => rw [joinLines, if_neg other]

theorem joinLines_fewer (front : List Char) :
    joinLines front = front ∨ (joinLines front).count '\n' < front.count '\n' := by
  fun_induction joinLines front with
  | case1 => exact .inl rfl
  | case2 => exact .inl rfl
  | case3 d rest ih =>
    by_cases feed : d = '\n'
    · subst feed
      refine .inr ?_
      have fewer : (joinLines rest).count '\n' ≤ rest.count '\n' :=
        ih.elim (fun same => by rw [same]) Nat.le_of_lt
      simpa using Nat.lt_succ_of_le fewer
    · rw [if_neg feed]
      refine ih.imp (fun same => by rw [same]) fun fewer => ?_
      simpa [feed] using fewer
  | case4 c d rest other ih =>
    refine ih.imp (fun same => by rw [same]) fun fewer => ?_
    rw [List.count_cons, List.count_cons]
    exact Nat.add_lt_add_right fewer _

theorem behind_joinLines_iff : behind (joinLines front) = behind front ↔ joinLines front = front := by
  refine ⟨fun same => ?_, fun same => by rw [same]⟩
  have lines : 1 + (joinLines front).count '\n' = 1 + front.count '\n' := congrArg Position.line same
  exact (joinLines_fewer front).resolve_right (by omega)

theorem Counted.joinLines_append (counted : Counted front p) (more : List Char) :
    joinLines (front ++ more) = joinLines front ++ joinLines more := by
  induction counted generalizing more with
  | start => rfl
  | sign _ other ih =>
    rw [List.append_assoc, List.singleton_append, ih, ih, joinLines_cons other, joinLines_cons other]
    simp [joinLines]
  | escape _ d ih =>
    rw [List.append_assoc, ih, ih]
    simp [joinLines]

theorem Counted.eq (counted : Counted front p) : p = behind (joinLines front) := by
  induction counted with
  | start => rfl
  | sign counted _ ih => rw [counted.joinLines_append, joinLines, behind_append, ← ih]
  | escape counted d ih =>
    have joined : joinLines ['\\', d] = ['\\'] ++ [if d = '\n' then ' ' else d] := rfl
    have lasts : (if d = '\n' then ' ' else d) ≠ '\n' := by
      split_ifs with feed
      · decide
      · exact feed
    rw [counted.joinLines_append, joined, ← List.append_assoc, behind_append, behind_append, ← ih]
    simp [after, right, lasts]

theorem Counted.marks (counted : Counted front p) : p.Marks front := by
  constructor
  · exact counted.eq
  · rw [counted.eq]
    exact behind_joinLines_iff

theorem Counted.run (counted : Counted front p) (within : ∀ c ∈ signs, c ≠ '\\' ∧ c ≠ '\n') :
    Counted (front ++ signs) (p.right signs.length) := by
  induction signs generalizing front p with
  | nil => rwa [List.append_nil]
  | cons c signs ih =>
    obtain ⟨⟨other, same_line⟩, others⟩ := List.forall_mem_cons.mp within
    have next := ih (counted.sign other) others
    have step : (p.after c).right signs.length = p.right (signs.length + 1) := by
      simp [after, right, same_line, Nat.add_comm, Nat.add_left_comm]
    rw [List.append_assoc, step] at next
    exact next

end Position

open Position (Counted)

namespace Token

/-- Between the quotes, what stands for these signs. -/
inductive Inside (quote : Char) : List Char → List Char → Prop
  | nil : Inside quote [] []
  | sign {c : Char} {body signs : List Char} (other : c ≠ quote) (other' : c ≠ '\\') (later : Inside quote body signs) :
      Inside quote (c :: body) (c :: signs)
  | escape {body signs : List Char} (d : Char) (later : Inside quote body signs) :
      Inside quote ('\\' :: d :: body) (escaped d :: signs)

/-- The signs of the text that the token is. -/
inductive Stands : Token → List Char → Prop
  | solid {token : Token} (kind : token.kind ≠ .text) (written : Lexeme.Written token.spelling token.text.toList) :
      Stands token token.text.toList
  | quoted {token : Token} {quote : Char} {body : List Char} (kind : token.kind = .text)
      (mark : quote = '"' ∨ quote = '\'') (inside : Inside quote body token.text.toList) :
      Stands token (quote :: body ++ [quote])

/-- Separators and tokens one after another, each token with what is in front of it. -/
inductive Laid : List Char → List (List Char × Token) → Prop
  | start : Laid [] []
  | gap {front : List Char} {placed : List (List Char × Token)} {c : Char} (laid : Laid front placed)
      (blank : isSeparator c = true) : Laid (front ++ [c]) placed
  | token {front signs : List Char} {placed : List (List Char × Token)} {token : Token} (laid : Laid front placed)
      (stands : token.Stands signs) : Laid (front ++ signs) (placed ++ [(front, token)])

/-- No token begins the text. -/
def Strange (text : List Char) : Prop := ∀ token signs, Stands token signs → ¬ signs <+: text

end Token

/-- What is wrong with the text at the place of the error. -/
inductive SyntaxCause.Offends : SyntaxCause → List Char → Prop
  | equals {rest : List Char} (strange : Strange ('=' :: rest)) : singleEquals.Offends ('=' :: rest)
  | sign {c : Char} {rest : List Char} (strange : Strange (c :: rest)) : (unexpectedSign c).Offends (c :: rest)
  | quote {c : Char} {rest : List Char} (mark : c = '"' ∨ c = '\'') (strange : Strange (c :: rest)) :
      openText.Offends (c :: rest)
  | token {cause : SyntaxCause} {token : Token} {signs rest : List Char} (stands : token.Stands signs)
      (blamed : cause.Blames token) : cause.Offends (signs ++ rest)
  | stop {cause : SyntaxCause} {p : Position} (blamed : cause.Blames ⟨.stop, "", p⟩) : cause.Offends []

/-- The position is counted for a place of the text where something is wrong, behind tokens that are right. -/
def SyntaxCause.FoundAt (cause : SyntaxCause) (p : Position) (text : List Char) : Prop :=
  ∃ front placed rest, text = front ++ rest ∧ Laid front placed ∧ p.Marks front ∧ cause.Offends rest

namespace Token

variable {p p' after : Position} {quote c : Char} {front text rest left signs body : List Char} {token : Token}
  {lexeme : Lexeme} {e : SyntaxError}

theorem quote_plain (mark : quote = '"' ∨ quote = '\'') : quote ≠ '\\' ∧ quote ≠ '\n' := by
  rcases mark with rfl | rfl <;> decide

theorem readText_inside (mark : quote = '"' ∨ quote = '\'')
    (read : readText quote p text = some (signs, p', rest)) :
    ∃ body, text = body ++ quote :: rest ∧ Inside quote body signs ∧
      ∀ front, Counted front p → Counted (front ++ (body ++ [quote])) p' := by
  fun_induction readText quote p text generalizing signs with
  | case1 => cases read
  | case2 p rest =>
    cases read
    exact ⟨[], rfl, .nil, fun front counted => counted.run (by simpa using quote_plain mark)⟩
  | case3 => cases read
  | case4 p d rest other ih =>
    obtain ⟨⟨signs, p', left⟩, found, same⟩ := Option.map_eq_some_iff.mp read
    cases same
    obtain ⟨body, rfl, inside, later⟩ := ih found
    refine ⟨'\\' :: d :: body, rfl, .escape d inside, fun front counted => ?_⟩
    have next := later _ (counted.escape d)
    rwa [List.append_assoc] at next
  | case5 p c rest other plain ih =>
    obtain ⟨⟨signs, p', left⟩, found, same⟩ := Option.map_eq_some_iff.mp read
    cases same
    obtain ⟨body, rfl, inside, later⟩ := ih found
    refine ⟨c :: body, rfl, .sign other plain inside, fun front counted => ?_⟩
    have next := later _ (counted.sign plain)
    rwa [List.append_assoc] at next

theorem Inside.reads (mark : quote = '"' ∨ quote = '\'') (inside : Inside quote body signs) (p : Position)
    (rest : List Char) : ∃ p', readText quote p (body ++ quote :: rest) = some (signs, p', rest) := by
  induction inside generalizing p with
  | nil => exact ⟨p.right 1, by rw [List.nil_append, readText.eq_def]; simp⟩
  | @sign c _ _ other other' _ ih =>
    obtain ⟨p', read⟩ := ih (p.after c)
    refine ⟨p', ?_⟩
    rw [List.cons_append, readText.eq_def]
    simp [other, other', read]
  | escape d _ ih =>
    obtain ⟨p', read⟩ := ih (p.right 2)
    refine ⟨p', ?_⟩
    have other : '\\' ≠ quote := (quote_plain mark).1.symm
    rw [List.cons_append, List.cons_append, readText.eq_def]
    simp [other, read]

theorem written_solid (written : lexeme.Written signs) (kind : lexeme.1 ≠ .text) :
    signs = lexeme.2.toList ∧ ∀ c ∈ signs, c ≠ '\\' ∧ c ≠ '\n' := by
  have plain {P : Char → Bool} {c : Char} (inside : P c = true)
      (outside : ['\\', '\n'].all (fun d => !P d) = true) : c ≠ '\\' ∧ c ≠ '\n' := by
    simpa using notMem_of_class inside outside
  have digit {c : Char} (digit : isDigit c = true) : c ≠ '\\' ∧ c ≠ '\n' := plain digit (by decide +kernel)
  have mark {c : Char} (mark : c ∈ marks) : c ≠ '\\' ∧ c ≠ '\n' :=
    plain (P := marks.contains) (List.contains_iff_mem.mpr mark) (by decide)
  cases written with
  | pair known =>
    have second := of_lookup (P := fun entry => entry.1.2 ∈ marks) (by decide) known
    exact ⟨String.toList_ofList.symm, by simp [mark (mark_of_pair known), mark second]⟩
  | sign known => exact ⟨String.toList_ofList.symm, by simp [mark (mark_of_sign known)]⟩
  | word word =>
    obtain ⟨c, more, split, starts, signs⟩ := isWord_front word
    refine ⟨rfl, ?_⟩
    rw [split, List.forall_mem_cons]
    exact ⟨plain starts (by decide +kernel), fun d inside => plain (signs d inside) (by decide +kernel)⟩
  | whole _ within => exact ⟨String.toList_ofList.symm, fun c inside => digit (within c inside)⟩
  | decimal _ within _ within' =>
    refine ⟨String.toList_ofList.symm, ?_⟩
    rw [List.forall_mem_append, List.forall_mem_cons]
    exact ⟨fun c inside => digit (within c inside), by decide, fun c inside => digit (within' c inside)⟩
  | quoted => exact absurd rfl kind

theorem readNumber_split (text : List Char) : (readNumber text).1 ++ (readNumber text).2 = text := by
  unfold readNumber
  dsimp only
  split
  · rename_i d rest dropped
    split_ifs
    · rw [List.append_assoc, List.cons_append, List.takeWhile_append_dropWhile, ← dropped,
        List.takeWhile_append_dropWhile]
    · rw [← dropped, List.takeWhile_append_dropWhile]
  · rw [List.takeWhile_append_dropWhile]

theorem next_solid (step : next p c rest = .ok (token, p', left)) (kind : token.kind ≠ .text) :
    c :: rest = token.text.toList ++ left ∧ p' = p.right token.text.toList.length ∧ token.position = p := by
  unfold next at step
  split at step
  · split at step <;> cases step
    exact absurd rfl kind
  split at step
  · have split := readNumber_split (c :: rest)
    rcases found : readNumber (c :: rest) with ⟨digits, left'⟩
    rw [found] at step split
    cases step
    rw [String.toList_ofList]
    exact ⟨split.symm, rfl, rfl⟩
  split at step
  · rename_i found
    cases step
    obtain ⟨d, first, _⟩ := Option.bind_eq_some_iff.mp found
    obtain ⟨others, rfl⟩ := List.head?_eq_some_iff.mp first
    rw [String.toList_ofList]
    exact ⟨rfl, rfl, rfl⟩
  split at step
  · cases step
    rw [String.toList_ofList]
    exact ⟨rfl, rfl, rfl⟩
  split at step
  · cases step
    rw [String.toList_ofList, List.cons_append, List.takeWhile_append_dropWhile]
    exact ⟨rfl, rfl, rfl⟩
  · split at step <;> cases step

theorem next_text (step : next p c rest = .ok (token, p', left)) (kind : token.kind = .text) :
    (c = '"' ∨ c = '\'') ∧ ∃ signs, readText c (p.right 1) rest = some (signs, p', left) ∧
      token = ⟨.text, String.ofList signs, p⟩ := by
  unfold next at step
  split at step
  · rename_i mark
    split at step <;> cases step
    rename_i read
    exact ⟨mark, _, read, rfl⟩
  split at step
  · cases step
    cases kind
  split at step
  · rename_i found
    cases step
    obtain ⟨d, _, known⟩ := Option.bind_eq_some_iff.mp found
    exact absurd kind (of_lookup (P := fun entry => entry.2 ≠ .text) (by decide) known)
  split at step
  · rename_i known
    cases step
    exact absurd kind (of_lookup (P := fun entry => entry.2 ≠ .text) (by decide) known)
  split at step
  · cases step
    exact absurd kind (kind_of_word (P := (· ≠ .text)) (by decide) _)
  · split at step <;> cases step

theorem next_stands (step : next p c rest = .ok (token, p', left)) :
    ∃ signs, c :: rest = signs ++ left ∧ token.Stands signs ∧ token.position = p ∧
      ∀ front, Counted front p → Counted (front ++ signs) p' := by
  by_cases kind : token.kind = .text
  · obtain ⟨mark, signs, read, rfl⟩ := next_text step kind
    obtain ⟨body, rfl, inside, later⟩ := readText_inside mark read
    refine ⟨c :: body ++ [c], by simp, .quoted rfl mark ?_, rfl, fun front counted => ?_⟩
    · rwa [String.toList_ofList]
    · have plain : ∀ d ∈ [c], d ≠ '\\' ∧ d ≠ '\n' := by simpa using quote_plain mark
      simpa using later _ (counted.run plain)
  · obtain ⟨split, rfl, position⟩ := next_solid step kind
    obtain ⟨signs, written⟩ := Lexeme.exists_written step
    obtain ⟨rfl, plain⟩ := written_solid written kind
    exact ⟨token.text.toList, split, .solid kind written, position, fun front counted => counted.run plain⟩

theorem exists_next_written (written : lexeme.Written signs) (kind : lexeme.1 ≠ .text)
    (split : signs ++ left = c :: rest) (p : Position) : ∃ found, next p c rest = .ok found := by
  have number {digits more : List Char} (some_digit : digits ≠ []) (within : ∀ c ∈ digits, isDigit c = true)
      (split : digits ++ more = c :: rest) : ∃ found, next p c rest = .ok found := by
    obtain ⟨d, digits, rfl⟩ := List.exists_cons_of_ne_nil some_digit
    obtain ⟨rfl, rfl⟩ := List.cons.inj split
    have digit := within d List.mem_cons_self
    simp only [next, (plain_of_class digit (by decide +kernel)).2, digit, if_false, if_true]
    exact ⟨_, rfl⟩
  cases written with
  | pair known =>
    cases split
    exact ⟨_, next_pair p left known⟩
  | sign known =>
    cases split
    cases pair : left.head?.bind (pairKind? _) with
    | none => exact ⟨_, next_sign p known pair⟩
    | some kind =>
      obtain ⟨d, first, known⟩ := Option.bind_eq_some_iff.mp pair
      obtain ⟨more, rfl⟩ := List.head?_eq_some_iff.mp first
      exact ⟨_, next_pair p more known⟩
  | word word =>
    obtain ⟨d, more, signs, starts, _⟩ := isWord_front word
    rw [signs] at split
    obtain ⟨rfl, rfl⟩ := List.cons.inj split
    have digit := isDigit_of_startsWord starts
    have other : d ∉ marks := notMem_of_class starts (by decide +kernel)
    have unquoted := (plain_of_class starts (by decide +kernel)).2
    rw [startsWord] at starts
    simp only [next, unquoted, digit, pairless (lone_of_unmarked other), signless other, starts,
      Bool.false_eq_true, if_false, if_true]
    exact ⟨_, rfl⟩
  | whole some_digit within => exact number some_digit within split
  | decimal some_digit within => exact number some_digit within (by simpa using split)
  | quoted => exact absurd rfl kind

theorem Stands.next (stands : token.Stands signs) (split : signs ++ left = c :: rest) (p : Position) :
    ∃ found, Token.next p c rest = .ok found := by
  cases stands with
  | @quoted quote body kind mark inside =>
    rw [List.append_assoc, List.cons_append] at split
    obtain ⟨rfl, rfl⟩ := List.cons.inj split
    obtain ⟨p', read⟩ := inside.reads mark (p.right 1) left
    have step : Token.next p quote (body ++ quote :: left) = .ok (⟨.text, token.text, p⟩, p', left) := by
      simp [Token.next, mark, read]
    exact ⟨_, step⟩
  | solid kind written => exact exists_next_written written kind split p

theorem next_offends (failed : next p c rest = .error e) : e.position = some p ∧ e.cause.Offends (c :: rest) := by
  have strange : Strange (c :: rest) := by
    rintro token signs stands ⟨left, split⟩
    obtain ⟨found, read⟩ := stands.next split p
    cases read.symm.trans failed
  unfold next at failed
  split at failed
  · rename_i mark
    split at failed <;> cases failed
    exact ⟨rfl, .quote mark strange⟩
  split at failed
  · cases failed
  split at failed
  · cases failed
  split at failed
  · cases failed
  split at failed
  · cases failed
  split at failed
  · rename_i equals
    subst equals
    cases failed
    exact ⟨rfl, .equals strange⟩
  · cases failed
    exact ⟨rfl, .sign strange⟩

/-- The cutting has come to here. -/
structure Reached (front : List Char) (placed : List (List Char × Token)) (p : Position) : Prop where
  laid : Laid front placed
  counted : Counted front p

variable {placed : List (List Char × Token)}

theorem Reached.skip (reached : Reached front placed p) (skipped : skip p text = (p', rest)) :
    ∃ gap, text = gap ++ rest ∧ Reached (front ++ gap) placed p' := by
  induction text generalizing front p with
  | nil =>
    cases skipped
    exact ⟨[], rfl, by rwa [List.append_nil]⟩
  | cons c text ih =>
    rw [Token.skip] at skipped
    split at skipped
    · rename_i blank
      have other : c ≠ '\\' := by
        rintro rfl
        cases blank
      obtain ⟨gap, rfl, later⟩ := ih ⟨reached.laid.gap blank, reached.counted.sign other⟩ skipped
      rw [List.append_assoc] at later
      exact ⟨c :: gap, rfl, later⟩
    · cases skipped
      exact ⟨[], rfl, by rwa [List.append_nil]⟩

theorem Reached.next (reached : Reached front placed p) (step : next p c rest = .ok (token, p', left)) :
    token.position = p ∧ ∃ signs, c :: rest = signs ++ left ∧
      Reached (front ++ signs) (placed ++ [(front, token)]) p' := by
  obtain ⟨signs, split, stands, position, later⟩ := next_stands step
  exact ⟨position, signs, split, reached.laid.token stands, later front reached.counted⟩

/-- All that is cut behind here stands where it is counted to stand, up to the end or to the error. -/
theorem Reached.scan (reached : Reached front placed p) :
    (∀ cut, scan p text = .ok cut → ∃ more p', cut = more.map Prod.snd ++ [⟨.stop, "", p'⟩] ∧
      Reached (front ++ text) (placed ++ more) p' ∧ ∀ piece ∈ more, Counted piece.1 piece.2.position) ∧
    (∀ e, scan p text = .error e → ∃ front' placed' p' rest, front ++ text = front' ++ rest ∧
      Reached front' placed' p' ∧ e.position = some p' ∧ e.cause.Offends rest) := by
  induction length : text.length using Nat.strong_induction_on generalizing front placed p text with
  | h _ ih =>
  subst length
  rw [scan_eq]
  rcases skipped : Token.skip p text with ⟨p', _ | ⟨c, rest⟩⟩
  · obtain ⟨gap, rfl, here⟩ := reached.skip skipped
    constructor
    · intro cut scanned
      cases scanned
      exact ⟨[], p', rfl, by simpa using here, by simp⟩
    · intro e failed
      cases failed
  · have fewer := skip_length_le p text
    rw [skipped] at fewer
    obtain ⟨gap, rfl, here⟩ := reached.skip skipped
    dsimp only at fewer ⊢
    cases step : Token.next p' c rest with
    | error e =>
      constructor
      · intro cut scanned
        cases scanned
      · intro e' failed
        cases failed
        obtain ⟨position, offends⟩ := next_offends step
        exact ⟨_, _, p', _, by rw [← List.append_assoc], here, position, offends⟩
    | ok found =>
      obtain ⟨token, after, left⟩ := found
      have shorter := next_length_lt step
      obtain ⟨position, signs, split, here'⟩ := here.next step
      obtain ⟨cuts, fails⟩ := ih left.length (by omega) here' rfl
      have whole : front ++ (gap ++ c :: rest) = front ++ gap ++ signs ++ left := by
        rw [split]
        simp
      rw [whole]
      constructor
      · intro cut scanned
        obtain ⟨others, later, rfl⟩ := Except.map_eq_ok.mp scanned
        obtain ⟨more, last, rfl, there, each⟩ := cuts others later
        refine ⟨(front ++ gap, token) :: more, last, rfl, by simpa using there, ?_⟩
        rw [List.forall_mem_cons]
        exact ⟨position ▸ here.counted, each⟩
      · intro e failed
        exact fails e (Except.map_eq_error.mp failed)

theorem Laid.split (laid : Laid text placed) {piece : List Char × Token} (inside : piece ∈ placed) :
    ∃ before signs rest, text = piece.1 ++ (signs ++ rest) ∧ Laid piece.1 before ∧ piece.2.Stands signs := by
  induction laid with
  | start => cases inside
  | @gap _ _ c _ _ ih =>
    obtain ⟨before, signs, rest, rfl, laid, stands⟩ := ih inside
    exact ⟨before, signs, rest ++ [c], by simp, laid, stands⟩
  | @token _ signs' _ _ laid stands ih =>
    rcases List.mem_append.mp inside with earlier | last
    · obtain ⟨before, signs, rest, rfl, laid, stands⟩ := ih earlier
      exact ⟨before, signs, rest ++ signs', by simp, laid, stands⟩
    · obtain rfl := List.mem_singleton.mp last
      exact ⟨_, _, [], by simp, laid, stands⟩

end Token

section Whole

variable {text : String} {e : SyntaxError} {p : Position}

theorem reached_start : Reached [] [] ⟨1, 1⟩ := ⟨.start, .start⟩

theorem tokens_placed {cut : List Token} (scanned : tokens text = .ok cut) :
    ∃ placed p, cut = placed.map Prod.snd ++ [⟨.stop, "", p⟩] ∧ Laid text.toList placed ∧
      p.Marks text.toList ∧ ∀ piece ∈ placed, piece.2.position.Marks piece.1 := by
  obtain ⟨placed, p, split, reached, each⟩ := reached_start.scan.1 cut scanned
  exact ⟨placed, p, split, reached.laid, reached.counted.marks, fun piece inside => (each piece inside).marks⟩

theorem tokens_found (failed : tokens text = .error e) (position : e.position = some p) :
    e.cause.FoundAt p text.toList := by
  obtain ⟨front, placed, p', rest, split, reached, known, offends⟩ := reached_start.scan.2 e failed
  obtain rfl : p' = p := Option.some.inj (known.symm.trans position)
  exact ⟨front, placed, rest, split, reached.laid, reached.counted.marks, offends⟩

theorem ofTokens_found {cut : List Token} (scanned : tokens text = .ok cut)
    (failed : Expr.ofTokens cut = .error (.error (.malformed e))) (position : e.position = some p) :
    e.cause.FoundAt p text.toList := by
  obtain ⟨placed, last, rfl, laid, marks, each⟩ := tokens_placed scanned
  obtain ⟨front, rest, split, _, stops, _⟩ := Expr.ofTokens_halts failed
  cases stops with
  | malformed blamed =>
  obtain ⟨token, first, rfl⟩ := Option.map_eq_some_iff.mp position
  obtain ⟨more, rfl⟩ := List.head?_eq_some_iff.mp first
  have blamed := blamed token first
  have inside : token ∈ placed.map Prod.snd ++ [⟨.stop, "", last⟩] :=
    split ▸ List.mem_append_right _ List.mem_cons_self
  rcases List.mem_append.mp inside with cut | ended
  · obtain ⟨piece, inside', rfl⟩ := List.mem_map.mp cut
    obtain ⟨before, signs, rest, whole, laid, stands⟩ := laid.split inside'
    exact ⟨piece.1, before, signs ++ rest, whole, laid, each piece inside', .token stands blamed⟩
  · obtain rfl := List.mem_singleton.mp ended
    exact ⟨text.toList, placed, [], by simp, laid, marks, .stop blamed⟩

end Whole

/-- Tokens and errors of syntax are where they are said to be, except that a line feed behind a backslash is
not counted. -/
theorem tokens_positions (text : String) :
    (∀ cut, tokens text = .ok cut → ∃ placed p, cut = placed.map Prod.snd ++ [⟨.stop, "", p⟩] ∧
      Laid text.toList placed ∧ p.Marks text.toList ∧ ∀ piece ∈ placed, piece.2.position.Marks piece.1) ∧
    (∀ e p, tokens text = .error e ∨ Expr.ofText text = .error (.error (.malformed e)) → e.position = some p →
      e.cause.FoundAt p text.toList) := by
  refine ⟨fun cut => tokens_placed, ?_⟩
  rintro e p (failed | failed) position
  · exact tokens_found failed position
  · rcases Expr.ofText_eq_malformed failed with unplaced | ⟨e', rfl, failed | ⟨cut, scanned, failed⟩⟩
    · cases unplaced.symm.trans position
    · have found : e'.cause.FoundAt p text.toList := tokens_found failed position
      exact found
    · have found : e'.cause.FoundAt p text.toList := ofTokens_found scanned failed position
      exact found

theorem tokens_positions_lines :
    (∃ placed p, [⟨.text, "x\ny", ⟨1, 1⟩⟩, ⟨.name, "b", ⟨2, 4⟩⟩, ⟨.stop, "", ⟨2, 5⟩⟩] =
        placed.map Prod.snd ++ [⟨.stop, "", p⟩] ∧
      Laid "'x\ny' b".toList placed ∧ p.Marks "'x\ny' b".toList ∧
        ∀ piece ∈ placed, piece.2.position.Marks piece.1) ∧
    (SyntaxCause.unexpectedSign '@').FoundAt ⟨2, 1⟩ "a\n@".toList := by
  have scanned : tokens "'x\ny' b" =
      .ok [⟨.text, "x\ny", ⟨1, 1⟩⟩, ⟨.name, "b", ⟨2, 4⟩⟩, ⟨.stop, "", ⟨2, 5⟩⟩] := by decide +kernel
  have failed : tokens "a\n@" = .error ⟨.unexpectedSign '@', some ⟨2, 1⟩, none⟩ := by decide +kernel
  exact ⟨(tokens_positions _).1 _ scanned, (tokens_positions _).2 _ _ (.inl failed) rfl⟩

theorem tokens_hidden_feed :
    tokens "\"\\\n\" x" = .ok [⟨.text, "\n", ⟨1, 1⟩⟩, ⟨.name, "x", ⟨1, 6⟩⟩, ⟨.stop, "", ⟨1, 7⟩⟩] ∧
      Position.behind "\"\\\n\" ".toList = ⟨2, 3⟩ ∧ Position.behind "\"\\\n\" x".toList = ⟨2, 4⟩ := by
  decide +kernel

end NoteQuery
