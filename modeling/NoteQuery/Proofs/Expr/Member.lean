import NoteQuery.Proofs.Expr.Lexeme

/-! Names of members. What stands behind a dot is a name by the kind of the token, and the kinds of the
reserved words are those of some signs too. Names of other parts are words, and a path is a word with the
names of members behind it. -/
namespace NoteQuery

open NoteQuery.Token

/-- The members that a path goes through, each behind its dot. -/
def memberText (names : List String) : List Char := names.flatMap fun name => '.' :: name.toList

theorem toList_path (root : String) (names : List String) :
    (".".intercalate (root :: names)).toList = root.toList ++ memberText names := by
  rw [String.toList_intercalate]
  induction names generalizing root with
  | nil => simp [memberText]
  | cons name names ih =>
    rw [List.map_cons, List.map_cons, List.intercalate_cons_cons, ← List.map_cons, ih]
    simp [memberText]

/-- The tokens that stand behind a dot. -/
def Token.dotted : List Token → List Token
  | [] => []
  | token :: rest => if token.kind = .dot then rest.head?.toList ++ dotted rest else dotted rest

theorem BinaryOp.sign_ne_dot (op : BinaryOp) : op.sign ≠ .dot := fun kind => by
  simpa [kind] using op.sign_no_trailer

namespace Expr

mutual

/-- The expression and all parts of it in the order of the text. A function is a name and a method is a member,
as where they are not called. -/
def parts : Expr → List Expr
  | literal v => [literal v]
  | list items => eachParts items ++ [list items]
  | name n => [name n]
  | member target n => parts target ++ [member target n]
  | index target key => parts target ++ parts key ++ [index target key]
  | call function args => name function :: eachParts args ++ [call function args]
  | send target method args =>
    parts target ++ [member target method] ++ eachParts args ++ [send target method args]
  | not operand => parts operand ++ [not operand]
  | negate operand => parts operand ++ [negate operand]
  | binary op left right => parts left ++ parts right ++ [binary op left right]

def eachParts : List Expr → List Expr
  | [] => []
  | e :: es => parts e ++ eachParts es

end

def memberName? : Expr → Option String
  | member _ n => some n
  | _ => none

def memberNames (e : Expr) : List String := e.parts.filterMap memberName?

/-- The tokens spell the names of these parts and of no others. -/
structure Names (cut : List Token) (parts : List Expr) : Prop where
  members : ∃ words, (∀ rest, dotted (cut ++ rest) = words ++ dotted rest) ∧
    words.map Token.text = parts.filterMap memberName? ∧ ∀ word ∈ words, word ∈ cut ∧ word.kind.isMemberName = true
  names : ∀ n, name n ∈ parts → ∃ token ∈ cut, token.kind = .name ∧ token.text = n

namespace Names

variable {token dot word start stop : Token} {cut cut' inside : List Token} {e : Expr} {parts parts' : List Expr}
  {v w : Value} {n : String}

theorem nil : Names [] [] := ⟨⟨[], by simp⟩, by simp⟩

theorem append (front : Names cut parts) (back : Names cut' parts') : Names (cut ++ cut') (parts ++ parts') := by
  obtain ⟨words, split, spelled, named⟩ := front.members
  obtain ⟨words', split', spelled', named'⟩ := back.members
  refine ⟨⟨words ++ words', fun rest => ?_, ?_, ?_⟩, fun n inside => ?_⟩
  · rw [List.append_assoc, split, split', List.append_assoc]
  · rw [List.map_append, List.filterMap_append, spelled, spelled']
  · rw [List.forall_mem_append]
    exact ⟨fun word inside => ⟨List.mem_append_left _ (named word inside).1, (named word inside).2⟩,
      fun word inside => ⟨List.mem_append_right _ (named' word inside).1, (named' word inside).2⟩⟩
  · rcases List.mem_append.mp inside with inside | inside
    · obtain ⟨token, inside, same⟩ := front.names n inside
      exact ⟨token, List.mem_append_left _ inside, same⟩
    · obtain ⟨token, inside, same⟩ := back.names n inside
      exact ⟨token, List.mem_append_right _ inside, same⟩

theorem other (kind : token.kind ≠ .dot) : Names [token] [] := by
  refine ⟨⟨[], fun rest => ?_, rfl, by simp⟩, by simp⟩
  rw [List.singleton_append, dotted, if_neg kind, List.nil_append]

theorem unnamed (other : ∀ n, e ≠ name n) (other' : e.memberName? = none) : Names [] [e] := by
  refine ⟨⟨[], by simp [other']⟩, fun n inside => ?_⟩
  exact absurd (List.mem_singleton.mp inside).symm (other n)

theorem name (kind : token.kind = .name) : Names [token] [.name token.text] := by
  refine ⟨(other (by simp [kind])).members, fun n inside => ?_⟩
  cases List.mem_singleton.mp inside
  exact ⟨token, List.mem_singleton_self token, kind, rfl⟩

theorem literal (kind : token.kind ≠ .dot) : Names [token] [.literal v] :=
  (other kind).append (unnamed nofun rfl)

theorem member (kind : dot.kind = .dot) (named : word.kind.isMemberName = true) :
    Names [dot, word] [.member e word.text] := by
  have undotted : word.kind ≠ .dot := fun kind => by simp [kind, TokenKind.isMemberName] at named
  refine ⟨⟨[word], fun rest => ?_, rfl, by simpa using named⟩, by simp⟩
  simp [dotted, kind, undotted]

/-- Literals have no names. -/
theorem relabel (names : Names cut [.literal v]) : Names cut [.literal w] := ⟨names.members, by simp⟩

theorem behind (kind : token.kind ≠ .dot) (names : Names cut parts) : Names (token :: cut) parts :=
  (other kind).append names

theorem enclosed (opens : start.kind ≠ .dot) (names : Names inside parts) (closes : stop.kind ≠ .dot) :
    Names (start :: inside ++ [stop]) parts := by
  have whole := (names.behind opens).append (other closes)
  rwa [List.append_nil] at whole

theorem whole (names : Names cut parts) (other : ∀ n, e ≠ .name n) (other' : e.memberName? = none) :
    Names cut (parts ++ [e]) := by
  have whole := names.append (unnamed other other')
  rwa [List.append_nil] at whole

end Names

mutual

/-- By induction on how the tokens are read: no part ends with a dot. -/
theorem Derives.names : ∀ {n : Nat} {cut : List Token} {e : Expr}, Derives n cut e → Names cut e.parts
  | _, _, _, .tighter part => part.names
  | _, _, _, .binary op left kind right => by
    have sign := Names.behind (kind ▸ op.sign_ne_dot) right.names
    exact (left.names.append sign).whole nofun rfl
  | _, _, _, .not kind operand => (operand.names.behind (by simp [kind])).whole nofun rfl
  | _, _, _, .plus kind operand => operand.names.behind (by simp [kind])
  | _, _, _, .minusInt kind operand => (operand.names.behind (by simp [kind])).relabel
  | _, _, _, .minusFloat kind operand => (operand.names.behind (by simp [kind])).relabel
  | _, _, _, .minusBool kind operand => (operand.names.behind (by simp [kind])).relabel
  | _, _, _, .negate kind operand _ => (operand.names.behind (by simp [kind])).whole nofun rfl
  | _, _, _, .member target kind named => target.names.append (.member kind named)
  | _, _, _, .index target opens within closes =>
    (target.names.append (within.names.enclosed (by simp [opens]) (by simp [closes]))).whole nofun rfl
  | _, _, _, .call target opens within closes =>
    (target.names.append (within.names.enclosed (by simp [opens]) (by simp [closes]))).whole nofun rfl
  | _, _, _, .send target opens within closes =>
    (target.names.append (within.names.enclosed (by simp [opens]) (by simp [closes]))).whole nofun rfl
  | _, _, _, .text kind => .literal (by simp [kind])
  | _, _, _, .whole kind _ _ => .literal (by simp [kind])
  | _, _, _, .decimal kind _ _ => .literal (by simp [kind])
  | _, _, _, .boolean kind => .literal (by simp [kind])
  | _, _, _, .null kind => .literal (by simp [kind])
  | _, _, _, .name kind => .name kind
  | _, _, _, .list opens within closes => (within.names.enclosed (by simp [opens]) (by simp [closes])).whole nofun rfl
  | _, _, _, .group opens within closes => within.names.enclosed (by simp [opens]) (by simp [closes])

theorem Items.names : ∀ {cut : List Token} {items : List Expr}, Items cut items → Names cut (eachParts items)
  | _, _, .none => .nil
  | _, _, .last only => by simpa [eachParts] using only.names
  | _, _, .more first kind others => first.names.append (others.names.behind (by simp [kind]))

end

theorem self_mem_parts (e : Expr) : e ∈ e.parts := by
  cases e <;> simp [parts]

mutual

theorem target_mem_parts : ∀ (e : Expr) {target : Expr} {n : String}, member target n ∈ e.parts → target ∈ e.parts
  | .literal _, _, _, inside => by simp [parts] at inside
  | .name _, _, _, inside => by simp [parts] at inside
  | .list items, _, _, inside => by
    simp only [parts, List.mem_append, List.mem_singleton, reduceCtorEq, or_false] at inside ⊢
    exact .inl (target_mem_eachParts items inside)
  | .call function args, _, _, inside => by
    simp only [parts, List.cons_append, List.mem_cons, List.mem_append, List.not_mem_nil, reduceCtorEq, false_or,
      or_false] at inside ⊢
    exact .inr (.inl (target_mem_eachParts args inside))
  | .not operand, _, _, inside => by
    simp only [parts, List.mem_append, List.mem_singleton, reduceCtorEq, or_false] at inside ⊢
    exact .inl (target_mem_parts operand inside)
  | .negate operand, _, _, inside => by
    simp only [parts, List.mem_append, List.mem_singleton, reduceCtorEq, or_false] at inside ⊢
    exact .inl (target_mem_parts operand inside)
  | .index target key, _, _, inside => by
    simp only [parts, List.mem_append, List.mem_singleton, reduceCtorEq, or_false] at inside ⊢
    exact .inl (inside.imp (target_mem_parts target) (target_mem_parts key))
  | .binary _ left right, _, _, inside => by
    simp only [parts, List.mem_append, List.mem_singleton, reduceCtorEq, or_false] at inside ⊢
    exact .inl (inside.imp (target_mem_parts left) (target_mem_parts right))
  | .member front _, _, _, inside => by
    simp only [parts, List.mem_append, List.mem_singleton] at inside ⊢
    rcases inside with inside | same
    · exact .inl (target_mem_parts front inside)
    · cases same
      exact .inl (self_mem_parts front)
  | .send front _ args, _, _, inside => by
    simp only [parts, List.mem_append, List.mem_singleton, reduceCtorEq, or_false] at inside ⊢
    rcases inside with (inside | same) | inside
    · exact .inl (.inl (.inl (target_mem_parts front inside)))
    · cases same
      exact .inl (.inl (.inl (self_mem_parts front)))
    · exact .inl (.inr (target_mem_eachParts args inside))

theorem target_mem_eachParts : ∀ (es : List Expr) {target : Expr} {n : String}, member target n ∈ eachParts es →
    target ∈ eachParts es
  | [], _, _, inside => by cases inside
  | e :: es, _, _, inside => by
    simp only [eachParts, List.mem_append] at inside ⊢
    exact inside.imp (target_mem_parts e) (target_mem_eachParts es)

end

section Paths

variable {e part : Expr} {root path : String}

theorem path?_eq_some : ∀ {part : Expr} {path : String}, part.path? = some path →
    ∃ root names, part = names.foldl member (name root) ∧ path = ".".intercalate (root :: names)
  | .name n, _, found => ⟨n, [], rfl, by simpa [path?, eq_comm] using found⟩
  | .member target n, path, found => by
    obtain ⟨front, path, same⟩ := Option.map_eq_some_iff.mp found
    obtain ⟨root, names, rfl, rfl⟩ := path?_eq_some path
    subst same
    refine ⟨root, names ++ [n], by rw [List.foldl_append]; rfl, ?_⟩
    rw [← String.toList_inj, String.toList_append, String.toList_append, toList_path, toList_path]
    simp [memberText]

/-- Where a path is a part, all that it goes through are parts. -/
theorem path_mem_parts {names : List String} (inside : names.foldl member (name root) ∈ e.parts) :
    name root ∈ e.parts ∧ ∀ n ∈ names, n ∈ e.memberNames := by
  induction names using List.reverseRecOn with
  | nil => exact ⟨inside, by simp⟩
  | append_singleton names n ih =>
    rw [List.foldl_append] at inside
    obtain ⟨first, others⟩ := ih (target_mem_parts e inside)
    refine ⟨first, List.forall_mem_append.mpr ⟨others, List.forall_mem_singleton.mpr ?_⟩⟩
    exact List.mem_filterMap.mpr ⟨_, inside, rfl⟩

end Paths

section Words

variable {lexeme : Lexeme} {signs : List Char}

/-- The signs that stand for words. -/
def wordSigns : List String := ["&&", "||", "!"]

theorem isWord_or_sign (written : lexeme.Written signs) (named : lexeme.1.isMemberName = true) :
    isWord lexeme.2 = true ∨ lexeme.2 ∈ wordSigns := by
  cases written with
  | pair known =>
    have sign := of_lookup (P := fun entry => entry.2.isMemberName = true →
      String.ofList [entry.1.1, entry.1.2] ∈ wordSigns) (by decide) known
    exact .inr (sign named)
  | sign known =>
    have sign := of_lookup (P := fun entry => entry.2.isMemberName = true →
      String.ofList [entry.1] ∈ wordSigns) (by decide) known
    exact .inr (sign named)
  | word word => exact .inl word
  | whole => cases named
  | decimal => cases named
  | quoted => cases named

theorem isWord_of_name (written : lexeme.Written signs) (kind : lexeme.1 = .name) : isWord lexeme.2 = true := by
  cases written with
  | pair known => exact absurd kind (of_lookup (P := fun entry => entry.2 ≠ .name) (by decide) known)
  | sign known => exact absurd kind (of_lookup (P := fun entry => entry.2 ≠ .name) (by decide) known)
  | word word => exact word
  | whole => cases kind
  | decimal => cases kind
  | quoted => cases kind

end Words

/-- The names of members are what stands behind the dots: words, or signs that stand for words. Without such
a sign every path is made of words. -/
theorem ofText_memberNames {text : String} {e : Expr} (read : ofText text = .ok e) :
    ∃ cut, tokens text = .ok cut ∧ e.memberNames = (dotted cut).map Token.text ∧
      (∀ n ∈ e.memberNames, isWord n = true ∨ n ∈ wordSigns) ∧
      ((∀ n ∈ e.memberNames, isWord n = true) ↔ ∀ word ∈ dotted cut, word.text ∉ wordSigns) ∧
      ∀ part ∈ e.parts, ∀ path, part.path? = some path → ∃ root names, path = ".".intercalate (root :: names) ∧
        isWord root = true ∧ ∀ n ∈ names, n ∈ e.memberNames := by
  obtain ⟨cut, scanned, _⟩ := ofText_eq_ok read
  obtain ⟨body, p, rfl, each⟩ := scan_forall Lexeme.exists_written scanned
  have names := ((ofText_iff scanned).mp read).names
  obtain ⟨words, split, spelled, named⟩ := names.members
  have same : dotted (body ++ [⟨.stop, "", p⟩]) = words := by
    rw [split, dotted, if_neg (by simp), dotted, List.append_nil]
  have spelled : e.memberNames = words.map Token.text := spelled.symm
  have shaped : ∀ word ∈ words, isWord word.text = true ∨ word.text ∈ wordSigns := by
    intro word inside
    obtain ⟨inside, kind⟩ := named word inside
    obtain ⟨signs, written⟩ := each word inside
    exact isWord_or_sign written kind
  have apart : ∀ sign ∈ wordSigns, isWord sign = false := by decide +kernel
  refine ⟨_, scanned, by rw [same, spelled], ?_, ?_, ?_⟩
  · rw [spelled]
    exact List.forall_mem_map.mpr shaped
  · rw [same, spelled, List.forall_mem_map]
    refine forall₂_congr fun word inside => ⟨fun word sign => ?_, (shaped word inside).resolve_right⟩
    cases word.symm.trans (apart _ sign)
  · intro part inside path found
    obtain ⟨root, members, rfl, rfl⟩ := path?_eq_some found
    obtain ⟨first, others⟩ := path_mem_parts inside
    obtain ⟨token, cut, kind, rfl⟩ := names.names root first
    obtain ⟨signs, written⟩ := each token cut
    exact ⟨token.text, members, rfl, isWord_of_name written kind, others⟩

theorem ofText_memberNames_formula : ∃ cut, tokens "formula.a" = .ok cut ∧
    (member (name "formula") "a").memberNames = (dotted cut).map Token.text ∧
      (∀ n ∈ (member (name "formula") "a").memberNames, isWord n = true ∨ n ∈ wordSigns) ∧
      ((∀ n ∈ (member (name "formula") "a").memberNames, isWord n = true) ↔
        ∀ word ∈ dotted cut, word.text ∉ wordSigns) ∧
      ∀ part ∈ (member (name "formula") "a").parts, ∀ path, part.path? = some path →
        ∃ root names, path = ".".intercalate (root :: names) ∧ isWord root = true ∧
          ∀ n ∈ names, n ∈ (member (name "formula") "a").memberNames :=
  ofText_memberNames ofText_formula_a

/-- A sign that stands for a word is taken for the name of a member. -/
theorem ofText_member_sign : ofText "file.&&" = .ok (member (name "file") "&&") ∧ isWord "&&" = false := by
  let file : Token := ⟨.name, "file", ⟨1, 1⟩⟩
  let dot : Token := ⟨.dot, ".", ⟨1, 5⟩⟩
  let sign : Token := ⟨.and, "&&", ⟨1, 6⟩⟩
  let stop : Token := ⟨.stop, "", ⟨1, 8⟩⟩
  have target : Derives 7 [file] (name "file") := .tighter (.name rfl)
  have derives : Derives 7 ([file] ++ [dot, sign]) (member (name "file") sign.text) := .member target rfl rfl
  have scanned : tokens "file.&&" = .ok ([file, dot, sign] ++ [stop]) := by decide +kernel
  exact ⟨(ofText_iff scanned).mpr (derives.loosen (Nat.zero_le 7)), by decide +kernel⟩

end Expr

end NoteQuery
