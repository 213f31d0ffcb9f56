import NoteQuery.Proofs.Yaml.Reading

/-! Why YAML that is well written can have no data. A tree has data unless something in it is built
wrongly, which is malformed, or some scalar in it says a kind of which it has no value. -/
namespace NoteQuery.Yaml

/-- The scalar says a kind, and has no value of that kind for this reason. -/
def Hollow (tag : ScalarTag) (text : String) (failure : Failure) : Prop :=
  failure ≠ .malformed ∧ ∃ kind, Kind.of? tag text = some kind ∧ Scalar.value kind text = .error failure

theorem hollow_untagged {tag : ScalarTag} {text : String} {failure : Failure}
    (hollow : Hollow tag text failure) (untagged : ∀ t, tag ≠ .explicit t) : failure.Untagged := by
  obtain ⟨_, kind, said, failed⟩ := hollow
  cases tag with
  | explicit t => exact absurd rfl (untagged t)
  | implied => exact Scalar.value_implied said failure failed
  | text =>
    cases said
    cases failed

namespace Node

/-- The scalar stands somewhere in the tree, be it as a key. -/
inductive Has (tag : ScalarTag) (text : String) : Node → Prop
  | here : Has tag text (.scalar tag text)
  | item {t : Option String} {items : List Node} {node : Node} (member : node ∈ items)
      (inside : Has tag text node) : Has tag text (.sequence t items)
  | key {t : Option String} {pairs : List (Node × Node)} {pair : Node × Node} (member : pair ∈ pairs)
      (inside : Has tag text pair.1) : Has tag text (.mapping t pairs)
  | value {t : Option String} {pairs : List (Node × Node)} {pair : Node × Node} (member : pair ∈ pairs)
      (inside : Has tag text pair.2) : Has tag text (.mapping t pairs)

/-- Some scalar in the tree has no value for this reason. -/
def Lacks (node : Node) (failure : Failure) : Prop :=
  ∃ tag text, node.Has tag text ∧ Hollow tag text failure

mutual

/-- The tree is built as trees of data are: its tags are known and fit, keys are scalars, and what is
merged are mappings. -/
def Sound : Node → Prop
  | .scalar tag text => ∃ kind, Kind.of? tag text = some kind ∧ kind ≠ .merge ∧ kind ≠ .equals
  | .sequence tag items => Data.fits "seq" tag = true ∧ SoundAll items
  | .mapping tag pairs => Data.fits "map" tag = true ∧ SoundPairs pairs

def SoundAll : List Node → Prop
  | [] => True
  | node :: nodes => Sound node ∧ SoundAll nodes

def SoundPairs : List (Node × Node) → Prop
  | [] => True
  | (.scalar tag text, node) :: pairs =>
    (∃ kind, Kind.of? tag text = some kind ∧ if kind = .merge then Mergeable node else Sound node) ∧
      SoundPairs pairs
  | _ :: _ => False

def Mergeable : Node → Prop
  | .scalar _ _ => False
  | .sequence _ items => AllMergeable items
  | .mapping _ pairs => SoundPairs pairs

def AllMergeable : List Node → Prop
  | [] => True
  | .mapping _ pairs :: nodes => SoundPairs pairs ∧ AllMergeable nodes
  | _ :: _ => False

end

section Lacks

variable {failure : Failure} {tag : ScalarTag} {t : Option String} {text : String} {items : List Node}
  {pairs : List (Node × Node)}

theorem lacks_scalar : (scalar tag text).Lacks failure ↔ Hollow tag text failure := by
  constructor
  · rintro ⟨_, _, ⟨⟩, hollow⟩
    exact hollow
  · intro hollow
    exact ⟨tag, text, .here, hollow⟩

theorem lacks_sequence : (sequence t items).Lacks failure ↔ ∃ node ∈ items, node.Lacks failure := by
  constructor
  · rintro ⟨_, _, has, hollow⟩
    cases has with
    | item member inside => exact ⟨_, member, _, _, inside, hollow⟩
  · rintro ⟨_, member, _, _, inside, hollow⟩
    exact ⟨_, _, .item member inside, hollow⟩

theorem lacks_mapping : (mapping t pairs).Lacks failure ↔
    ∃ pair ∈ pairs, pair.1.Lacks failure ∨ pair.2.Lacks failure := by
  constructor
  · rintro ⟨_, _, has, hollow⟩
    cases has with
    | key member inside => exact ⟨_, member, .inl ⟨_, _, inside, hollow⟩⟩
    | value member inside => exact ⟨_, member, .inr ⟨_, _, inside, hollow⟩⟩
  · rintro ⟨_, member, ⟨_, _, inside, hollow⟩ | ⟨_, _, inside, hollow⟩⟩
    · exact ⟨_, _, .key member inside, hollow⟩
    · exact ⟨_, _, .value member inside, hollow⟩

end Lacks

end Node

/-- The outcome is owed to what it was made of: there is one where that is sound and nothing is
missing, it is malformed only where that is not sound, and otherwise it lacks what is missing. -/
def Owed {α : Type} (x : Except Failure α) (sound : Prop) (missing : Failure → Prop) : Prop :=
  match x with
  | .ok _ => sound ∧ ∀ failure, ¬missing failure
  | .error .malformed => ¬sound
  | .error failure => missing failure

namespace Owed

variable {α β : Type} {x : Except Failure α} {f : α → Except Failure β} {sound sound' : Prop}
  {missing missing' : Failure → Prop}

theorem ok_iff {a : α} : Owed (.ok a) sound missing ↔ sound ∧ ∀ failure, ¬missing failure := Iff.rfl

theorem malformed (unsound : ¬sound) : Owed (.error .malformed : Except Failure α) sound missing :=
  unsound

theorem error {failure : Failure} (other : failure ≠ .malformed) :
    Owed (.error failure : Except Failure α) sound missing ↔ missing failure := by
  cases failure <;> first | exact absurd rfl other | rfl

theorem congr (owed : Owed x sound missing) (same : sound ↔ sound')
    (same' : ∀ failure, missing failure ↔ missing' failure) : Owed x sound' missing' := by
  rwa [← propext same, ← funext fun failure => propext (same' failure)]

/-- What comes of two steps is owed to what both were made of. -/
theorem bind (first : Owed x sound missing) (rest : ∀ a, Owed (f a) sound' missing') :
    Owed (x >>= f) (sound ∧ sound') fun failure => missing failure ∨ missing' failure := by
  cases x with
  | error failure =>
    change Owed (.error failure) _ _
    by_cases bad : failure = .malformed
    · rw [bad] at first ⊢
      exact fun both => first both.1
    · rw [error bad] at first ⊢
      exact .inl first
  | ok a =>
    obtain ⟨sound, complete⟩ := first
    exact (rest a).congr (by simp [sound]) (by simp [complete])

theorem map {g : α → β} (owed : Owed x sound missing) : Owed (x.map g) sound missing := by
  cases x with
  | ok a => exact owed
  | error failure => cases failure <;> exact owed

theorem bind_ok {g : α → β} (owed : Owed x sound missing) :
    Owed (x >>= fun a => .ok (g a)) sound missing := by
  cases x with
  | ok a => exact owed
  | error failure => cases failure <;> exact owed

end Owed

theorem Scalar.value_owed {tag : ScalarTag} {text : String} {kind : Kind}
    (known : Kind.of? tag text = some kind) :
    Owed (Scalar.value kind text) (kind ≠ .merge ∧ kind ≠ .equals) (Hollow tag text) := by
  cases found : Scalar.value kind text with
  | ok v =>
    have own : ¬(kind = .merge ∨ kind = .equals) := by
      intro bad
      cases found.symm.trans (Scalar.value_eq_malformed.mpr bad)
    refine ⟨not_or.mp own, ?_⟩
    rintro failure ⟨_, kind', known', failed⟩
    cases known.symm.trans known'
    cases found.symm.trans failed
  | error failure =>
    by_cases bad : failure = .malformed
    · rw [bad] at found ⊢
      exact fun own => not_or.mpr own (Scalar.value_eq_malformed.mp found)
    · rw [Owed.error bad]
      exact ⟨bad, kind, known, found⟩

namespace Data

theorem keyOf_merge {tag : ScalarTag} {text : String} (known : Kind.of? tag text = some .merge) :
    keyOf tag text = .ok none := by
  rw [keyOf, known]

/-- A key that does not merge is a value, or lacks what its scalar lacks. -/
theorem keyOf_owed {tag : ScalarTag} {text : String} {kind : Kind} (known : Kind.of? tag text = some kind)
    (own : kind ≠ .merge) : ∃ x : Except Failure Value, keyOf tag text = x.map some ∧
      Owed x True (Hollow tag text) := by
  have owed := Scalar.value_owed known
  by_cases equals : kind = .equals
  · refine ⟨.ok (.text text), by rw [keyOf, known, equals]; rfl, trivial, ?_⟩
    rintro failure ⟨bad, kind', known', failed⟩
    cases known.symm.trans known'
    rw [equals, Scalar.value] at failed
    cases failed
    exact bad rfl
  · refine ⟨Scalar.value kind text, ?_, owed.congr (by simp [own, equals]) fun _ => Iff.rfl⟩
    rw [keyOf, known]
    cases kind <;> first | rfl | contradiction

open Node in
/-- Data of a tree, of pairs and of what is merged are all owed to the scalars in them. -/
theorem ofNode_owed :
    (∀ node, Owed (ofNode node) node.Sound node.Lacks) ∧
    (∀ pairs, Owed (ofPairs pairs) (SoundPairs pairs)
      fun failure => ∃ pair ∈ pairs, pair.1.Lacks failure ∨ pair.2.Lacks failure) ∧
    (∀ node, Owed (mergedFrom node) node.Mergeable node.Lacks) ∧
    (∀ nodes, Owed (mergedFromAll nodes) (AllMergeable nodes)
      fun failure => ∃ node ∈ nodes, node.Lacks failure) ∧
    (∀ nodes, Owed (ofNodes nodes) (SoundAll nodes) fun failure => ∃ node ∈ nodes, node.Lacks failure) := by
  apply ofNode.mutual_induct
  case case1 =>
    intro tag text kind known
    simp only [ofNode, known, Sound, Option.some.injEq]
    exact (Scalar.value_owed known).map.congr (by simp) fun _ => lacks_scalar.symm
  case case2 =>
    intro tag text unknown
    simp only [ofNode, unknown, Sound]
    exact .malformed (by simp)
  case case3 =>
    intro tag items unfit _
    rw [ofNode, if_pos unfit, Sound]
    rw [Bool.not_eq_true'] at unfit
    exact .malformed (by simp [unfit])
  case case4 =>
    intro tag items fit items_owed
    rw [ofNode, if_neg fit, Sound]
    rw [Bool.not_eq_true', Bool.not_eq_false] at fit
    exact items_owed.bind_ok.congr (by simp [fit]) fun _ => lacks_sequence.symm
  case case5 =>
    intro tag pairs unfit _
    rw [ofNode, if_pos unfit, Sound]
    rw [Bool.not_eq_true'] at unfit
    exact .malformed (by simp [unfit])
  case case6 =>
    intro tag pairs fit pairs_owed
    rw [ofNode, if_neg fit, Sound]
    rw [Bool.not_eq_true', Bool.not_eq_false] at fit
    exact pairs_owed.bind_ok.congr (by simp [fit]) fun _ => lacks_mapping.symm
  case case7 =>
    intro tag pairs pairs_owed
    rw [mergedFrom, Mergeable]
    exact pairs_owed.bind_ok.congr Iff.rfl fun _ => lacks_mapping.symm
  case case8 =>
    intro tag items items_owed
    rw [mergedFrom, Mergeable]
    exact items_owed.congr Iff.rfl fun _ => lacks_sequence.symm
  case case9 =>
    intro tag text
    rw [mergedFrom, Mergeable]
    exact .malformed not_false
  case case10 => simp [mergedFromAll, AllMergeable, Owed.ok_iff]
  case case11 =>
    intro tag pairs nodes first others
    rw [mergedFromAll, AllMergeable]
    exact (first.bind fun _ => others.bind_ok).congr Iff.rfl (by simp [lacks_mapping])
  case case12 =>
    intro node nodes other
    rw [mergedFromAll, AllMergeable]
    · exact .malformed not_false
    · exact other
    · exact other
  case case13 => simp [ofNodes, SoundAll, Owed.ok_iff]
  case case14 =>
    intro node nodes first others
    rw [ofNodes, SoundAll]
    exact (first.bind fun _ => others.bind_ok).congr Iff.rfl (by simp)
  case case15 => simp [ofPairs, SoundPairs, Owed.ok_iff]
  case case16 =>
    intro tag text node pairs own others taken
    cases known : Kind.of? tag text with
    | none =>
      simp only [ofPairs, SoundPairs, keyOf, known]
      exact .malformed (by simp)
    | some kind =>
      by_cases merges : kind = .merge
      · rw [merges] at known
        have unhollow : ∀ failure, ¬Hollow tag text failure := by
          rintro failure ⟨bad, _, known', failed⟩
          cases known.symm.trans known'
          cases failed
          exact bad rfl
        simp only [ofPairs, SoundPairs, keyOf_merge known, known]
        exact (taken.bind fun _ => others.bind_ok).congr (by simp) (by simp [lacks_scalar, unhollow])
      · obtain ⟨x, key, key_owed⟩ := keyOf_owed known merges
        rw [ofPairs, key, SoundPairs, known, Except.map_bind]
        exact (key_owed.bind fun _ => own.bind fun _ => others.bind_ok).congr (by simp [merges])
          (by simp [lacks_scalar, or_assoc])
  case case17 =>
    intro pair pairs other
    rw [ofPairs, SoundPairs]
    · exact .malformed not_false
    · exact other
    · exact other

end Data

section Text

variable (d : Dialect) (text : String)

/-- The text is YAML, and its tree, if there is one, is built as trees of data are. -/
def Built : Prop := ∃ found, Node.ofText d text = .ok found ∧ ∀ node ∈ found, node.Sound

/-- Something in the text is well written and cannot be converted: a number of a character or of the
version as the text is read, or else a scalar of its tree. -/
def Unconverted (failure : Failure) : Prop :=
  failure ≠ .malformed ∧ Node.ofText d text = .error failure ∨
    ∃ node, Node.ofText d text = .ok (some node) ∧ node.Lacks failure

theorem Data.ofText_owed : Owed (ofText d text) (Built d text) (Unconverted d text) := by
  unfold ofText Built Unconverted
  cases read : Node.ofText d text with
  | error failure =>
    change Owed (.error failure) _ _
    by_cases bad : failure = .malformed
    · rw [bad]
      exact .malformed (by simp)
    · exact (Owed.error bad).mpr (.inl ⟨bad, rfl⟩)
  | ok found =>
    cases found with
    | none => exact Owed.ok_iff.mpr (by simp)
    | some node => exact (ofNode_owed.1 node).congr (by simp) (by simp)

/-- Only a scalar with a tag can fail in another way than by a bad value or one out of range. -/
theorem unconverted_untagged {failure : Failure} (unconverted : Unconverted d text failure) :
    failure.Untagged ∨ ∃ node tag written, Node.ofText d text = .ok (some node) ∧
      node.Has (.explicit tag) written ∧ Hollow (.explicit tag) written failure := by
  rcases unconverted with ⟨_, failed⟩ | ⟨node, read, tag, written, has, hollow⟩
  · exact .inl (Node.ofText_failsOnly failure failed)
  · cases tag with
    | explicit t => exact .inr ⟨node, t, written, read, has, hollow⟩
    | implied => exact .inl (hollow_untagged hollow (by simp))
    | text => exact .inl (hollow_untagged hollow (by simp))

end Text

end NoteQuery.Yaml
