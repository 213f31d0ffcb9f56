import NoteQuery.Proofs.Expr.Failing
import NoteQuery.Proofs.Expr.Member
import NoteQuery.Proofs.Query.Condition
import NoteQuery.Proofs.Query.Projection

/-! Paths as expressions. A path is cut at its dots and looked up, first as a name that has dots itself;
as an expression the same text is read word by word and evaluated member by member. Where no name has a
dot both come to the same, whatever the depth, and change what is known of formulas in the same way. -/
namespace NoteQuery

namespace Token

open NoteQuery.Text

/-- The text is cut into one word, which may be reserved, and the end. -/
def IsOneWord (text : String) : Prop :=
  ∃ token stop, tokens text = .ok [token, stop] ∧ token.text = text ∧
    token.kind = (keyword? text).getD .name

theorem keyword_unmarked {c : Char} {more : List Char} {kind : TokenKind} (mark : c ∈ marks)
    (other : kind ≠ .name) : (keyword? (String.ofList (c :: more))).getD .name ≠ kind := by
  cases reserved : keyword? (String.ofList (c :: more)) with
  | none => exact Ne.symm other
  | some kind' =>
    have word : isWord (String.ofList (c :: more)) = true :=
      of_lookup (P := fun entry => isWord entry.1 = true) (by decide +kernel) reserved
    obtain ⟨d, others, split, starts, _⟩ := isWord_front word
    rw [String.toList_ofList, List.cons.injEq] at split
    have unmarked : d ∉ marks := notMem_of_class starts (by decide +kernel)
    exact absurd (split.1 ▸ mark) unmarked

/-- What comes with the kind of its text is a word from its first sign on. -/
theorem next_word {p after : Position} {c : Char} {rest left : List Char} {token : Token}
    (step : next p c rest = .ok (token, after, left))
    (kind : token.kind = (keyword? token.text).getD .name) :
    startsWord c = true ∧ token.text = String.ofList (c :: rest.takeWhile isWordSign) := by
  have named := Expr.isMemberName_of_word token.text
  rw [← kind] at named
  unfold next at step
  split at step
  · split at step <;> cases step
    cases named
  split at step
  · cases step
    cases named
  split at step
  · rename_i pair found
    cases step
    obtain ⟨d, _, found⟩ := Option.bind_eq_some_iff.mp found
    have other := of_lookup (P := fun entry => entry.2 ≠ .name) (by decide) found
    exact absurd kind.symm (keyword_unmarked (mark_of_pair found) other)
  split at step
  · rename_i sign found
    cases step
    have other := of_lookup (P := fun entry => entry.2 ≠ .name) (by decide) found
    exact absurd kind.symm (keyword_unmarked (mark_of_sign found) other)
  split at step
  · rename_i starts
    cases step
    exact ⟨starts, rfl⟩
  · split at step <;> cases step

theorem isWord_of_oneWord {text : String} (one : IsOneWord text) : isWord text = true := by
  obtain ⟨token, stop, cut, same, kind⟩ := one
  rw [tokens, scan_eq] at cut
  have suffix := skip_suffix ⟨1, 1⟩ text.toList
  rcases skipped : skip ⟨1, 1⟩ text.toList with ⟨p, _ | ⟨c, rest⟩⟩
  · simp [skipped] at cut
  · simp only [skipped] at cut suffix
    cases step : next p c rest with
    | error e => simp [step] at cut
    | ok found =>
      obtain ⟨first, after, left⟩ := found
      simp only [step] at cut
      obtain ⟨others, _, same'⟩ := Except.map_eq_ok.mp cut
      obtain ⟨rfl, _⟩ := List.cons.inj same'
      obtain ⟨starts, spelled⟩ := next_word step (same ▸ kind)
      rw [same] at spelled
      -- The word is no longer than what is left of the text, so it is all of it.
      have whole : text.toList = c :: rest.takeWhile isWordSign := by
        rw [spelled, String.toList_ofList]
      have most := (List.takeWhile_prefix isWordSign (l := rest)).length_le
      have least := suffix.length_le
      rw [whole, List.length_cons, List.length_cons] at least
      have signs : rest.takeWhile isWordSign = rest :=
        (List.takeWhile_prefix isWordSign).eq_of_length (by omega)
      rw [isWord, whole, signs, Bool.and_eq_true, List.all_eq_true]
      exact ⟨starts, List.takeWhile_eq_self_iff.mp signs⟩

theorem isOneWord_iff {text : String} : IsOneWord text ↔ isWord text = true := by
  refine ⟨isWord_of_oneWord, fun word => ?_⟩
  obtain ⟨p, token, leads, kind, spelled⟩ := leads_word ⟨1, 1⟩ text word .nil
  rw [List.append_nil] at leads
  exact ⟨token, ⟨.stop, "", p⟩, leads.scan (scan_end p), spelled, kind⟩

theorem dot_notMem_of_word {text : String} (word : isWord text = true) : '.' ∉ text.toList := by
  obtain ⟨c, more, split, starts, signs⟩ := isWord_front word
  rw [split, List.mem_cons, not_or]
  constructor
  · rintro rfl
    exact absurd starts (by decide +kernel)
  · intro member
    exact absurd (signs '.' member) (by decide +kernel)

end Token

section Undotted

theorem lookup_dotted {α : Type} {table : List (String × α)} {path : String}
    (undotted : ∀ name ∈ table.map Prod.fst, '.' ∉ name.toList) (dotted : '.' ∈ path.toList) :
    table.lookup path = none := by
  rw [List.lookup_eq_none_iff]
  intro entry inside
  rw [bne_iff_ne]
  rintro rfl
  exact undotted entry.1 (List.mem_map_of_mem inside) dotted

theorem FileInfo.get_dotted (f : FileInfo) {path : String} (dotted : '.' ∈ path.toList) :
    f.get path = .null := by
  have other : path ≠ "link" := by
    rintro rfl
    exact absurd dotted (by decide)
  have unaliased : FileInfo.aliases.lookup path = none := lookup_dotted (by decide) dotted
  have unlisted : f.entries.lookup path = none := by
    refine lookup_dotted ?_ dotted
    simp [FileInfo.entries]
  rw [FileInfo.get, if_neg other, unaliased, Option.getD_none, Entries.get, Entries.find?, unlisted,
    Option.getD_none]

variable {entries : Entries} {path : String}

theorem Entries.find?_dotted (undotted : ∀ name ∈ entries.names, '.' ∉ name.toList)
    (dotted : '.' ∈ path.toList) : entries.find? path = none := lookup_dotted undotted dotted

end Undotted

namespace Expr

open NoteQuery.Token

variable {s : Surroundings} {e : Expr} {memo after : Memo} {v : Value}

theorem reads_members {text : List Char} (reads : Reads 7 text e) {names : List String}
    (words : ∀ name ∈ names, isWord name = true) :
    Reads 7 (text ++ memberText names) (names.foldl member e) := by
  induction names generalizing text e with
  | nil => simpa [memberText] using reads
  | cons name names ih =>
    obtain ⟨word, words⟩ := List.forall_mem_cons.mp words
    simpa [memberText] using ih (reads.member word) words

/-- The text of a path is read as the members that it goes through. -/
theorem ofText_path {root : String} {names : List String} (named : isName root = true)
    (words : ∀ name ∈ names, isWord name = true) :
    ofText (".".intercalate (root :: names)) = .ok (names.foldl member (.name root)) :=
  ofText_of_reads (reads_members ((Reads.name named).loosen (by decide)) words)
    (toList_path root names)

theorem eval_members (names : List String) (run : (eval s e).on memo = (.ok (.value v), after)) :
    (eval s (names.foldl member e)).on memo = (.ok (.value (names.foldl Value.member v)), after) := by
  induction names generalizing e v with
  | nil => exact run
  | cons name names ih =>
    refine ih ?_
    rw [eval, ExceptT.on_bind, run]
    rfl

theorem eval_scope_member {scope : Scope} {name : String}
    (run : (s.member scope name).on memo = (.ok v, after)) :
    (eval s (.member (.name scope.name) name)).on memo = (.ok (.value v), after) := by
  have named : (eval s (.name scope.name)).on memo = (.ok (.scope scope), memo) := by
    rw [eval, lookup_scope]
    rfl
  rw [eval, ExceptT.on_bind, named]
  simp only [memberOf, ExceptT.on_bind, run]
  rfl

theorem eval_property {root : String} (unscoped : Scope.ofName? root = none) (memo : Memo) :
    (eval s (.name root)).on memo = (.ok (.value (s.context.note.get root)), memo) := by
  rw [eval, Surroundings.lookup, unscoped]
  rfl

end Expr

namespace Surroundings

open NoteQuery.Token
open NoteQuery.Expr (evaluateText)

variable {present : Moment} {context : Context} {formulas : Option Formulas} {memo after : Memo}
  {v : Value}

/-- No property and no formula has a dot in its name. -/
structure Undotted (context : Context) (formulas : Option Formulas) : Prop where
  note : ∀ name ∈ context.note.names, '.' ∉ name.toList
  formula : ∀ fs, formulas = some fs → ∀ name ∈ fs.names, '.' ∉ name.toList

theorem attached_context : (attached present context formulas).context = context := by
  cases formulas <;> rfl

theorem member_dotted (undotted : Undotted context formulas) (scope : Scope) {path : String}
    (dotted : '.' ∈ path.toList) (memo : Memo) :
    ((attached present context formulas).member scope path).on memo = (.ok .null, memo) := by
  cases scope with
  | file =>
    have absent := (attached present context formulas).context.file.get_dotted dotted
    rw [member, absent]
    rfl
  | note =>
    have absent := Entries.find?_dotted undotted.note dotted
    rw [member, attached_context, Entries.get, absent]
    rfl
  | formula =>
    cases formulas with
    | none => rfl
    | some formulas =>
      have unknown := lookup_dotted (undotted.formula formulas rfl) dotted
      change (formulas.read present context (formulas.length + 1) [] path).on memo = _
      rw [Formulas.read_on, unknown]

section Cut

variable {root first : String} {more : List String}

theorem cut_path (undotted : '.' ∉ root.toList) :
    Text.cutAt '.' (".".intercalate (root :: first :: more)).toList =
      (root.toList, (".".intercalate (first :: more)).toList) := by
  rw [toList_path, toList_path, ← Text.cutAt_append undotted]
  simp [memberText]

theorem pieces_path (undotted : ∀ name ∈ first :: more, '.' ∉ name.toList) :
    (Text.pieces '.' (".".intercalate (first :: more)).toList).map String.ofList =
      first :: more := by
  rw [Text.pieces_names rfl (List.cons_ne_nil _ _) undotted, List.map_map]
  simp

theorem path_full (more : List String) (word : isWord first = true) :
    (".".intercalate (first :: more)).toList.isEmpty = false := by
  obtain ⟨c, rest, split, _⟩ := isWord_front word
  simp [split]

theorem path_dotted (root first : String) (more : List String) :
    '.' ∈ (".".intercalate (root :: first :: more)).toList := by
  rw [toList_path]
  simp [memberText]

end Cut

variable {s : Surroundings}

/-- A path into a scope comes to the members of what the scope has under the first name, where it has
nothing under the dotted one. -/
theorem resolve_scope {scope : Scope} {first : String} {more : List String}
    (words : ∀ name ∈ first :: more, isWord name = true)
    (absent : more ≠ [] →
      (s.member scope (".".intercalate (first :: more))).on memo = (.ok .null, memo))
    (run : (s.member scope first).on memo = (.ok v, after)) :
    (s.resolve (".".intercalate (scope.name :: first :: more))).on memo =
      (.ok (more.foldl Value.member v), after) := by
  have undotted : '.' ∉ scope.name.toList := by cases scope <;> decide
  have parts := pieces_path fun name member => dot_notMem_of_word (words name member)
  have full := path_full more (words first List.mem_cons_self)
  unfold resolve
  simp only [cut_path undotted, full, parts, String.ofList_toList, Scope.ofName?_name,
    Bool.false_eq_true, if_false]
  cases more with
  | nil =>
    rw [String.intercalate_singleton, ExceptT.on_bind, run]
    cases v <;> rfl
  | cons name more =>
    rw [ExceptT.on_bind, absent (List.cons_ne_nil name more)]
    dsimp only
    rw [ExceptT.on_bind, run]
    rfl

/-- Any other path comes to the members of a property, where none has the path for its name. -/
theorem resolve_property {root : String} {names : List String}
    (words : ∀ name ∈ root :: names, isWord name = true) (unscoped : Scope.ofName? root = none)
    (undotted : ∀ name ∈ s.context.note.names, '.' ∉ name.toList) (memo : Memo) :
    (s.resolve (".".intercalate (root :: names))).on memo =
      (.ok (names.foldl Value.member (s.context.note.get root)), memo) := by
  obtain ⟨word, words⟩ := List.forall_mem_cons.mp words
  have start := dot_notMem_of_word word
  unfold resolve
  cases names with
  | nil =>
    simp only [String.intercalate_singleton, Text.cutAt_whole start, List.isEmpty_nil, if_true]
    cases known : s.context.note.find? root <;> simp [Entries.has, Entries.get, known] <;> rfl
  | cons first more =>
    have parts := pieces_path fun name member => dot_notMem_of_word (words name member)
    have full := path_full more (words first List.mem_cons_self)
    have unknown := Entries.find?_dotted undotted (path_dotted root first more)
    simp only [cut_path start, full, parts, String.ofList_toList, unscoped, Bool.false_eq_true,
      if_false, Entries.has, unknown, Option.isSome_none]
    rfl

/-- A path resolves to what its members come to, one after the other. -/
theorem resolve_follows (undotted : Undotted context formulas) {root : String} {names : List String}
    (words : ∀ name ∈ root :: names, isWord name = true)
    (longer : names = [] → ∀ scope : Scope, root ≠ scope.name) (memo : Memo) : ∃ v after,
    ((attached present context formulas).resolve (".".intercalate (root :: names))).on memo =
      (.ok v, after) ∧
    (Expr.eval (attached present context formulas) (names.foldl Expr.member (.name root))).on memo =
      (.ok (.value v), after) := by
  cases known : Scope.ofName? root with
  | none =>
    have resolved := resolve_property (s := attached present context formulas) words known
      (attached_context ▸ undotted.note) memo
    exact ⟨_, memo, resolved, Expr.eval_members names (Expr.eval_property known memo)⟩
  | some scope =>
    obtain rfl := Scope.ofName?_eq_some known
    cases names with
    | nil => exact absurd rfl (longer rfl scope)
    | cons first more =>
      have contained := attached_contained present context formulas
      obtain ⟨v, after, run⟩ := member_returns contained scope first memo
      have absent (deeper : more ≠ []) :
          ((attached present context formulas).member scope
            (".".intercalate (first :: more))).on memo = (.ok .null, memo) := by
        obtain ⟨name, more, rfl⟩ := List.exists_cons_of_ne_nil deeper
        exact member_dotted undotted scope (path_dotted first name more) memo
      have resolved := resolve_scope (List.forall_mem_cons.mp words).2 absent run
      exact ⟨_, after, resolved, Expr.eval_members more (Expr.eval_scope_member run)⟩

/-- What a path resolves to is what it has for its value as an expression, from the same that is known
of formulas and with the same known after it, and a filter on the path finds that it holds or not. -/
theorem resolve_evaluates (present : Moment) (context : Context) (formulas : Option Formulas)
    (undotted : Undotted context formulas) (root : String) (names : List String)
    (words : ∀ name ∈ root :: names, IsOneWord name) (free : keyword? root = none)
    (longer : names = [] → ∀ scope : Scope, root ≠ scope.name) (memo : Memo) : ∃ v after,
    ((attached present context formulas).resolve (".".intercalate (root :: names))).on memo =
      (.ok v, after) ∧
    (evaluateText (attached present context formulas) (".".intercalate (root :: names))).run memo =
      (.ok v, after) ∧
    ((attached present context formulas).admitsValue (.text (".".intercalate (root :: names)))).on
      memo = (.ok v.truthy, after) := by
  have all : ∀ name ∈ root :: names, isWord name = true := fun name member =>
    isOneWord_iff.mp (words name member)
  obtain ⟨word, others⟩ := List.forall_mem_cons.mp all
  have named : Expr.isName root = true := by simp [Expr.isName, word, free]
  obtain ⟨v, after, resolved, run⟩ := resolve_follows undotted all longer memo
  have returned := Expr.evaluateText_of_value (Expr.ofText_path named others) run
  exact ⟨v, after, resolved, returned, admitsValue_text returned⟩

section Sample

open Formulas (blankNote)

def boxNote : Context := { blankNote with note := [("box", .map [("unit", .text "cm")])] }

theorem resolve_evaluates_length : ∃ present, ∃ s, s = attached present boxNote (some [("x", "1")]) ∧
    Undotted boxNote (some [("x", "1")]) ∧
    (∀ name ∈ ["note", "box", "unit", "length"], IsOneWord name) ∧ keyword? "note" = none ∧
    (s.resolve "note.box.unit.length").on ⟨[], []⟩ = (.ok (.int 2), ⟨[], []⟩) ∧
    (evaluateText s "note.box.unit.length").run ⟨[], []⟩ = (.ok (.int 2), ⟨[], []⟩) ∧
    (s.admitsValue (.text "note.box.unit.length")).on ⟨[], []⟩ = (.ok true, ⟨[], []⟩) := by
  let present : Moment := .startOf ⟨2024, 1, 1, by decide, by decide, by decide⟩
  have undotted : Undotted boxNote (some [("x", "1")]) := by
    refine ⟨by decide, fun formulas same => ?_⟩
    obtain rfl := Option.some.inj same
    decide
  have words : ∀ name ∈ ["note", "box", "unit", "length"], IsOneWord name := fun name member =>
    isOneWord_iff.mpr ((by decide +kernel : ∀ name ∈ ["note", "box", "unit", "length"],
      isWord name = true) name member)
  have free : keyword? "note" = none := by decide
  obtain ⟨v, after, resolved, evaluated, admitted⟩ := resolve_evaluates present boxNote
    (some [("x", "1")]) undotted "note" ["box", "unit", "length"] words free (by simp) ⟨[], []⟩
  have found : ((attached present boxNote (some [("x", "1")])).resolve "note.box.unit.length").on
      ⟨[], []⟩ = (.ok (.int 2), ⟨[], []⟩) := rfl
  have path : ".".intercalate ["note", "box", "unit", "length"] = "note.box.unit.length" := rfl
  rw [path] at resolved evaluated admitted
  cases found.symm.trans resolved
  exact ⟨present, _, rfl, undotted, words, free, resolved, evaluated, admitted⟩

end Sample

end Surroundings

end NoteQuery
