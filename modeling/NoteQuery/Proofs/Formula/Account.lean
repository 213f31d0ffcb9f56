import Mathlib
import NoteQuery.Proofs.Expr.Script

/-! The meaning of formulas apart from the order of their evaluation. An account says of each
settled formula which formulas it asks for and what it is worth. A formula that asks for one which
leads back to it goes no further and is null. Two accounts of the same formulas agree wherever both
say anything, so whatever evaluates formulas to an account finds the one meaning they have. -/
namespace NoteQuery

/-- What a formula is worth when its text comes to this: null when it fails. -/
def worth : Except Failure Value → Value
  | .ok v => v
  | .error _ => .null

/-- A formula leads to itself, to those it asks for and to those they lead to. -/
def Leads (asks : String → List String) : String → String → Prop :=
  Relation.ReflTransGen fun a b => b ∈ asks a

instance (asks : String → List String) : Trans (Leads asks) (Leads asks) (Leads asks) :=
  ⟨Relation.ReflTransGen.trans⟩

/-- The formula is on a cycle: something that it asks for leads back to it. -/
def OnCycle (asks : String → List String) (n : String) : Prop := ∃ m ∈ asks n, Leads asks m n

/-- How a formula comes by its value. -/
inductive Settled (script : String → Script Value) (value : String → Value)
    (asks : String → List String) (n : String) : Prop
  | straight (all : asks n = (script n).asked value)
      (equal : value n = worth ((script n).result value))
      (apart : ∀ m ∈ asks n, ¬ Leads asks m n)
  | looped (front : List String) (last : String) (asked : asks n = front ++ [last])
      (begins : front ++ [last] <+: (script n).asked value)
      (apart : ∀ m ∈ front, ¬ Leads asks m n) (back : Leads asks last n) (null : value n = .null)

/-- An account of the formulas that are known. It knows whatever they ask for. -/
structure Account (script : String → Script Value) (known : String → Prop)
    (value : String → Value) (asks : String → List String) : Prop where
  closed : ∀ n, known n → ∀ m ∈ asks n, known m
  settled : ∀ n, known n → Settled script value asks n

variable {script : String → Script Value} {known known' : String → Prop}
  {value value' : String → Value} {asks asks' : String → List String}

namespace Settled

theorem begins {n : String} (s : Settled script value asks n) :
    asks n <+: (script n).asked value := by
  cases s with
  | straight all _ _ => rw [all]
  | looped front last asked begins _ _ _ => rwa [asked]

/-- Only the last question of a formula can lead back to it. -/
theorem apart_of_front {n : String} (s : Settled script value asks n) {front rest : List String}
    {next : String} (split : asks n = front ++ next :: rest) :
    ∀ m ∈ front, ¬ Leads asks m n := by
  cases s with
  | straight _ _ apart => exact fun m member => apart m (by simp [split, member])
  | looped before last asked _ apart _ _ =>
    have shorter : front <+: before := by
      have both : front ++ next :: rest = before ++ [last] := split.symm.trans asked
      have within : front <+: before ++ [last] := both ▸ List.prefix_append _ _
      rcases List.prefix_concat_iff.mp within with whole | inside
      · have sizes := congrArg List.length both
        simp [whole] at sizes
      · exact inside
    exact fun m member => apart m (shorter.subset member)

theorem of_cycle {n : String} (s : Settled script value asks n) (cycle : OnCycle asks n) :
    value n = .null ∧ ∃ front last, asks n = front ++ [last] ∧
      (∀ m ∈ front, ¬ Leads asks m n) ∧ Leads asks last n := by
  cases s with
  | straight _ _ apart =>
    obtain ⟨m, member, back⟩ := cycle
    exact absurd back (apart m member)
  | looped front last asked _ apart back null => exact ⟨null, front, last, asked, apart, back⟩

theorem of_straight {n : String} (s : Settled script value asks n) (straight : ¬ OnCycle asks n) :
    asks n = (script n).asked value ∧ value n = worth ((script n).result value) := by
  cases s with
  | straight all equal _ => exact ⟨all, equal⟩
  | looped front last asked _ _ back _ =>
    exact absurd ⟨last, by simp [asked], back⟩ straight

end Settled

namespace Account

theorem leads_known (A : Account script known value asks) {m x : String} (here : known m)
    (path : Leads asks m x) : known x := by
  induction path with
  | refl => exact here
  | tail _ step ih => exact A.closed _ ih _ step

theorem congr (A : Account script known value asks) (values : ∀ n, known n → value' n = value n)
    (questions : ∀ n, known n → asks' n = asks n) : Account script known value' asks' := by
  have forward {m x : String} (here : known m) (path : Leads asks m x) : Leads asks' m x := by
    induction path with
    | refl => exact .refl
    | tail before step ih =>
      exact ih.tail (by rw [questions _ (A.leads_known here before)]; exact step)
  have backward {m x : String} (here : known m) (path : Leads asks' m x) : Leads asks m x := by
    induction path with
    | refl => exact .refl
    | tail _ step ih => exact ih.tail (by rwa [questions _ (A.leads_known here ih)] at step)
  refine ⟨fun n here m asked => A.closed n here m (questions n here ▸ asked), fun n here => ?_⟩
  have inner : ∀ m ∈ asks n, known m := A.closed n here
  have still : ∀ m ∈ asks n, ¬ Leads asks m n → ¬ Leads asks' m n :=
    fun m member apart path => apart (backward (inner m member) path)
  cases A.settled n here with
  | straight all equal apart =>
    have same := Script.asked_congr value value' (script n) fun m member =>
      (values m (inner m (all ▸ member))).symm
    refine .straight ?_ ?_ ?_
    · rw [questions n here, all, same.1]
    · rw [values n here, equal, same.2]
    · rw [questions n here]
      exact fun m member => still m member (apart m member)
  | looped front last asked begins apart back null =>
    have member {m : String} (inside : m ∈ front) : m ∈ asks n := by simp [asked, inside]
    refine .looped front last ?_ ?_ ?_ ?_ ?_
    · rw [questions n here, asked]
    · exact Script.asked_front value value' _ front last begins fun m inside =>
        (values m (inner m (member inside))).symm
    · exact fun m inside => still m (member inside) (apart m inside)
    · exact forward (inner last (by simp [asked])) back
    · rw [values n here, null]

end Account

namespace Account

theorem of_iff (A : Account script known value asks) (same : ∀ n, known' n ↔ known n) :
    Account script known' value asks :=
  ⟨fun n here m asked => (same m).mpr (A.closed n ((same n).mp here) m asked),
    fun n here => A.settled n ((same n).mp here)⟩

/-- A formula whose questions are all answered from the account can be added to it. -/
theorem add (A : Account script known value asks) (n : String) (fresh : ¬ known n)
    (answered : ∀ m ∈ (script n).asked value, known m)
    (values : ∀ m, known m → value' m = value m)
    (equal : value' n = worth ((script n).result value)) :
    Account script (fun m => known m ∨ m = n) value'
      (Function.update asks n ((script n).asked value)) := by
  have old : Account script known value' (Function.update asks n ((script n).asked value)) :=
    A.congr values fun m here => Function.update_of_ne (fun same : m = n => fresh (same ▸ here)) _ _
  have same := Script.asked_congr value value' (script n) fun m member =>
    (values m (answered m member)).symm
  refine ⟨fun m here x asked => ?_, fun m here => ?_⟩
  · rcases here with here | rfl
    · exact Or.inl (old.closed m here x asked)
    · rw [Function.update_self] at asked
      exact Or.inl (answered x asked)
  · rcases here with here | rfl
    · exact old.settled m here
    · refine .straight ?_ ?_ fun x member path => ?_
      · rw [Function.update_self, same.1]
      · rw [equal, same.2]
      · rw [Function.update_self] at member
        exact fresh (old.leads_known (answered x member) path)

end Account

/-- On the way round a cycle a formula has asked settled formulas and then the next on the way. -/
structure Link (script : String → Script Value) (settled : String → Prop)
    (value : String → Value) (asks : String → List String) (n next : String) : Prop where
  fresh : ¬ settled n
  null : value n = .null
  asked : ∃ front, asks n = front ++ [next] ∧ (∀ m ∈ front, settled m) ∧
    front ++ [next] <+: (script n).asked value

private theorem related_left {α β : Type} {R : α → β → Prop} {as : List α} {bs : List β}
    (related : List.Forall₂ R as bs) (a : α) (member : a ∈ as) : ∃ b ∈ bs, R a b := by
  induction related with
  | nil => simp at member
  | cons head tail ih =>
    rcases List.mem_cons.mp member with rfl | inside
    · exact ⟨_, by simp, head⟩
    · obtain ⟨b, there, relation⟩ := ih inside
      exact ⟨b, by simp [there], relation⟩

/-- A cycle that has come back to its beginning joins the account as a whole. -/
theorem Account.close (A : Account script known value asks) (first : String) (path : List String)
    (linked : (first :: path ++ [first]).IsChain (Link script known value asks)) :
    Account script (fun n => known n ∨ n ∈ first :: path) value asks := by
  have steps := linked.imp fun n next link => by
    obtain ⟨front, asked, _, _⟩ := link.asked
    exact (.single (by simp [asked]) : Leads asks n next)
  have leads : (first :: path ++ [first]).Pairwise (Leads asks) := List.isChain_iff_pairwise.mp steps
  have out (n : String) (member : n ∈ path ++ [first]) : Leads asks first n :=
    (List.pairwise_cons.mp leads).1 n member
  have home (n : String) (member : n ∈ path ++ [first]) : Leads asks n first := by
    rcases List.mem_append.mp member with inside | last
    · exact (List.pairwise_append.mp leads).2.2 n (by simp [inside]) first (by simp)
    · simp only [List.mem_singleton] at last
      exact last ▸ .refl
  have round (n : String) (member : n ∈ first :: path) (m : String) (there : m ∈ path ++ [first]) :
      Leads asks m n := by
    refine (home m there).trans ?_
    rcases List.mem_cons.mp member with rfl | inside
    · exact .refl
    · exact out n (by simp [inside])
  have links := List.isChain_cons_append_singleton_iff_forall₂.mp linked
  refine ⟨fun n here m asked => ?_, fun n here => ?_⟩
  · rcases here with here | member
    · exact Or.inl (A.closed n here m asked)
    · obtain ⟨next, there, link⟩ := related_left links n member
      obtain ⟨front, split, settled, _⟩ := link.asked
      rcases List.mem_append.mp (split ▸ asked) with inside | last
      · exact Or.inl (settled m inside)
      · simp only [List.mem_singleton] at last
        exact Or.inr (by simpa [last, or_comm] using there)
  · rcases here with here | member
    · exact A.settled n here
    · obtain ⟨next, there, link⟩ := related_left links n member
      obtain ⟨front, split, settled, begins⟩ := link.asked
      exact .looped front next split begins
        (fun m inside path => link.fresh (A.leads_known (settled m inside) path))
        (round n member next there) link.null

def Agree (value value' : String → Value) (asks asks' : String → List String) (n : String) : Prop :=
  value n = value' n ∧ asks n = asks' n

namespace Account

private theorem leads_iff (B : Account script known' value' asks') {m : String} (here : known' m)
    (below : ∀ x, Leads asks m x → known' x → Agree value value' asks asks' x) (x : String) :
    Leads asks m x ↔ Leads asks' m x := by
  constructor
  · intro path
    have both : Leads asks' m x ∧ known' x := by
      induction path with
      | refl => exact ⟨.refl, here⟩
      | tail before step ih =>
        have asked := (below _ before ih.2).2 ▸ step
        exact ⟨ih.1.tail asked, B.closed _ ih.2 _ asked⟩
    exact both.1
  · intro path
    have both : Leads asks m x ∧ known' x := by
      induction path with
      | refl => exact ⟨.refl, here⟩
      | tail _ step ih =>
        exact ⟨ih.1.tail ((below _ ih.1 ih.2).2 ▸ step), B.closed _ ih.2 _ step⟩
    exact both.1

/-- The accounts agree on what a formula leads to without being led back to. -/
private def Below (known' : String → Prop) (value value' : String → Value)
    (asks asks' : String → List String) (n : String) : Prop :=
  ∀ m, Leads asks n m → ¬ Leads asks m n → known' m → Agree value value' asks asks' m

private theorem Below.leads_iff {n : String} (below : Below known' value value' asks asks' n)
    (B : Account script known' value' asks') {m : String} (here : known' m)
    (path : Leads asks n m) (apart : ¬ Leads asks m n) (x : String) :
    Leads asks m x ↔ Leads asks' m x :=
  Account.leads_iff B here (fun y further known => below y (path.trans further)
    (fun back => apart (further.trans back)) known) x

/-- Where two accounts agree below a formula, the second asks at least what the first asks. -/
private theorem asks_prefix (A : Account script known value asks)
    (B : Account script known' value' asks') {n : String} (here : known n) (there : known' n)
    (below : Below known' value value' asks asks' n) : asks n <+: asks' n := by
  have fronts (front : List String) : ∀ rest, asks n = front ++ rest → front <+: asks' n := by
    induction front using List.reverseRecOn with
    | nil => exact fun _ _ => List.nil_prefix
    | append_singleton front next ih =>
      intro rest split
      replace split : asks n = front ++ next :: rest := by simpa using split
      have shorter := ih (next :: rest) split
      have apart := (A.settled n here).apart_of_front split
      have direct (m : String) (member : m ∈ front) : Leads asks n m :=
        .single (by simp [split, member])
      have beyond (m : String) (member : m ∈ front) : known' m :=
        B.closed n there m (shorter.subset member)
      have asked : front ++ [next] <+: (script n).asked value' := by
        refine Script.asked_front value value' _ front next ?_ fun m member =>
          (below m (direct m member) (apart m member) (beyond m member)).1
        exact List.IsPrefix.trans ⟨rest, by simp [split]⟩ (A.settled n here).begins
      cases B.settled n there with
      | straight all _ _ => rwa [all]
      | looped before last asked' begins apart' back _ =>
        -- The second account stops at `last`, which leads back; nothing in `front` does.
        have longer : front.length < (asks' n).length := by
          rcases shorter.length_le.lt_or_eq with less | equal
          · exact less
          · have whole := shorter.eq_of_length equal
            have member : last ∈ front := by simp [whole, asked']
            exact absurd ((below.leads_iff B (beyond last member) (direct last member)
              (apart last member) n).mpr back) (apart last member)
        have begins' : asks' n <+: (script n).asked value' := (B.settled n there).begins
        exact List.prefix_of_prefix_length_le asked begins' (by simpa [Nat.succ_le_iff] using longer)
  exact fronts (asks n) [] (by simp)

/-- Around a cycle the second account asks at least as much, so it goes round as well. -/
private theorem Below.around {n m : String} (below : Below known' value value' asks asks' n)
    (A : Account script known value asks) (B : Account script known' value' asks') (here : known n)
    (out : Leads asks n m) (back : Leads asks m n) (beyond : known' m) : Leads asks' m n := by
  induction back using Relation.ReflTransGen.head_induction_on with
  | refl => exact .refl
  | @head m next step rest ih =>
    have further := A.asks_prefix B (A.leads_known here out) beyond fun x path apart =>
      below x (out.trans path) fun round => apart (round.trans out)
    have asked := further.subset step
    exact .head asked (ih (out.tail step) (B.closed _ beyond _ asked))

private theorem Below.agree {n : String} (below : Below known' value value' asks asks' n)
    (A : Account script known value asks) (B : Account script known' value' asks') (here : known n)
    (there : known' n) : Agree value value' asks asks' n := by
  have shorter := A.asks_prefix B here there below
  have direct (m : String) (member : m ∈ asks n) : Leads asks n m := .single member
  have beyond (m : String) (member : m ∈ asks n) : known' m :=
    B.closed n there m (shorter.subset member)
  cases A.settled n here with
  | straight all equal apart =>
    have same := Script.asked_congr value value' (script n) fun m member =>
      (below m (direct m (all ▸ member)) (apart m (all ▸ member)) (beyond m (all ▸ member))).1
    cases B.settled n there with
    | straight all' equal' _ => exact ⟨by rw [equal, equal', same.2], by rw [all, all', same.1]⟩
    | looped front last asked begins _ back _ =>
      have within : asks' n <+: asks n := by rw [asked, all, ← same.1]; exact begins
      have member : last ∈ asks n := within.subset (by simp [asked])
      exact absurd ((below.leads_iff B (beyond last member) (direct last member)
        (apart last member) n).mpr back) (apart last member)
  | looped front last asked _ _ back null =>
    have member : last ∈ asks n := by simp [asked]
    have back' := below.around A B here (direct last member) back (beyond last member)
    cases B.settled n there with
    | straight _ _ apart => exact absurd back' (apart last (shorter.subset member))
    | looped front' last' asked' _ apart' _ null' =>
      refine ⟨null.trans null'.symm, ?_⟩
      rw [asked'] at shorter ⊢
      rcases List.prefix_concat_iff.mp shorter with whole | inside
      · exact whole
      · exact absurd back' (apart' last (inside.subset member))

private noncomputable def weight (names : List String) (asks : String → List String)
    (n : String) : Nat := by
  classical
  exact (names.toFinset.filter fun m => Leads asks n m).card

private theorem weight_lt (names : List String) {n m : String} (listed : n ∈ names)
    (path : Leads asks n m) (apart : ¬ Leads asks m n) : weight names asks m < weight names asks n := by
  classical
  apply Finset.card_lt_card
  refine ⟨fun x inside => ?_, fun whole => ?_⟩
  · simp only [Finset.mem_filter] at inside ⊢
    exact ⟨inside.1, path.trans inside.2⟩
  · have self : n ∈ names.toFinset.filter fun x => Leads asks n x := by simpa using ⟨listed, .refl⟩
    exact apart (by simpa using (Finset.mem_filter.mp (whole self)).2)

/-- Two accounts of the same formulas agree wherever both say anything. Beside the formulas of a
list, nothing asks for anything. -/
theorem unique (A : Account script known value asks) (B : Account script known' value' asks')
    (names : List String) (others : ∀ n, n ∉ names → script n = .done (.ok .null)) (n : String)
    (here : known n) (there : known' n) : Agree value value' asks asks' n := by
  -- Away from a formula that leads nowhere back, fewer formulas of the list are led to.
  induction size : weight names asks n using Nat.strong_induction_on generalizing n with
  | _ size ih =>
    have below : Below known' value value' asks asks' n := by
      intro m path apart beyond
      by_cases listed : n ∈ names
      · exact ih _ (size ▸ weight_lt names listed path apart) m (A.leads_known here path) beyond rfl
      · have silent : asks n = [] := by
          have begins := (A.settled n here).begins
          rw [others n listed] at begins
          simpa [Script.asked] using begins
        rcases path.cases_head with same | ⟨x, step, _⟩
        · exact absurd (same ▸ .refl) apart
        · simp [silent] at step
    exact below.agree A B here there

/-- A walk through a finite set comes back to where it has been. -/
private theorem exists_return {α : Type} [Finite α] [Nonempty α] (next : α → α) :
    ∃ (a : α) (k : Nat), next^[k + 1] a = a := by
  obtain ⟨a⟩ := ‹Nonempty α›
  obtain ⟨i, j, apart, same⟩ := Finite.exists_ne_map_eq_of_infinite fun i => next^[i] a
  wlog before : i < j generalizing i j
  · exact this j i apart.symm same.symm (by omega)
  refine ⟨next^[i] a, j - i - 1, ?_⟩
  rw [← Function.iterate_add_apply, show j - i - 1 + 1 + i = j by omega]
  exact same.symm

private theorem walk_isChain {α : Type} {R : α → α → Prop} (next : α → α)
    (step : ∀ a, R a (next a)) (a : α) (k : Nat) :
    ∃ path, (a :: path ++ [next^[k + 1] a]).IsChain R := by
  induction k generalizing a with
  | zero => exact ⟨[], by simpa using step a⟩
  | succ k ih =>
    obtain ⟨path, chain⟩ := ih (next a)
    exact ⟨next a :: path, List.isChain_cons_cons.mpr ⟨step a, chain⟩⟩

/-- Where every unknown formula asks for another, some of them go round in a circle. -/
private theorem grow_cycle (A : Account script known value asks) {names : List String}
    (listed : ∀ n, ¬ known n → n ∈ names) (some : ∃ n, ¬ known n)
    (stuck : ∀ n, ¬ known n → ∃ front next, front ++ [next] <+: (script n).asked value ∧
      (∀ m ∈ front, known m) ∧ ¬ known next) :
    ∃ known' value' asks', Account script known' value' asks' ∧ (∀ n, known n → known' n) ∧
      ∃ n ∈ names, known' n ∧ ¬ known n := by
  classical
  choose! front next begins fine unknown using stuck
  have finite : Finite { n // ¬ known n } :=
    (names.finite_toSet.subset fun n inside => listed n inside).to_subtype
  have inhabited : Nonempty { n // ¬ known n } := some.elim fun n here => ⟨⟨n, here⟩⟩
  let follow (n : { n // ¬ known n }) : { n // ¬ known n } := ⟨next n.1, unknown n.1 n.2⟩
  obtain ⟨⟨first, here⟩, k, back⟩ := exists_return follow
  let value' := fun n => if known n then value n else .null
  let asks' := fun n => if known n then asks n else front n ++ [next n]
  have A' : Account script known value' asks' :=
    A.congr (fun n here => if_pos here) fun n here => if_pos here
  have link (n : { n // ¬ known n }) : Link script known value' asks' n.1 (next n.1) := by
    refine ⟨n.2, if_neg n.2, front n.1, if_neg n.2, fine n.1 n.2, ?_⟩
    exact Script.asked_front value value' _ _ _ (begins n.1 n.2) fun m inside =>
      (if_pos (fine n.1 n.2 m inside)).symm
  obtain ⟨path, chain⟩ := walk_isChain (R := fun n m : { n // ¬ known n } =>
    Link script known value' asks' n.1 m.1) follow link ⟨first, here⟩ k
  rw [back] at chain
  have linked : (first :: path.map Subtype.val ++ [first]).IsChain (Link script known value' asks') := by
    have mapped := (List.isChain_map Subtype.val).mpr chain
    simpa using mapped
  exact ⟨_, value', asks', A'.close first _ linked, fun n => .inl, first, listed first here,
    .inr (by simp), here⟩

theorem grow (A : Account script known value asks) {names : List String}
    (listed : ∀ n, ¬ known n → n ∈ names) (some : ∃ n, ¬ known n) :
    ∃ known' value' asks', Account script known' value' asks' ∧ (∀ n, known n → known' n) ∧
      ∃ n ∈ names, known' n ∧ ¬ known n := by
  classical
  by_cases answered : ∃ n, ¬ known n ∧ ∀ m ∈ (script n).asked value, known m
  · obtain ⟨n, here, all⟩ := answered
    have others (m : String) (inside : known m) :
        Function.update value n (worth ((script n).result value)) m = value m :=
      Function.update_of_ne (fun same : m = n => here (same ▸ inside)) _ _
    exact ⟨_, _, _, A.add n here all others (Function.update_self _ _ _), fun m => .inl, n,
      listed n here, .inr rfl, here⟩
  · refine A.grow_cycle listed some fun n here => ?_
    have unknown : ∃ m ∈ (script n).asked value, ¬ known m := by
      by_contra none
      exact answered ⟨n, here, fun m member => by_contra fun off => none ⟨m, member, off⟩⟩
    obtain ⟨next, found⟩ := Option.isSome_iff_exists.mp
      (List.find?_isSome (p := fun m => decide (¬ known m)).mpr (by simpa using unknown))
    obtain ⟨off, front, rest, split, before⟩ := List.find?_eq_some_iff_append.mp found
    exact ⟨front, next, ⟨rest, by simp [split]⟩, by simpa using before, by simpa using off⟩

/-- Every formula of a list has an account, beside which nothing asks for anything. -/
theorem exists_complete (script : String → Script Value) (names : List String)
    (others : ∀ n, n ∉ names → script n = .done (.ok .null)) :
    ∃ value asks, Account script (fun _ => True) value asks := by
  classical
  have enough (known : String → Prop) (value : String → Value) (asks : String → List String)
      (A : Account script known value asks) (listed : ∀ n, ¬ known n → n ∈ names) :
      ∃ value asks, Account script (fun _ => True) value asks := by
    -- Each step takes a formula from those of the list that are not known.
    induction size : (names.toFinset.filter fun n => ¬ known n).card using Nat.strong_induction_on
      generalizing known value asks with
    | _ size ih =>
      by_cases some : ∃ n, ¬ known n
      · obtain ⟨known', value', asks', A', grows, n, member, new, old⟩ := A.grow listed some
        refine ih _ ?_ known' value' asks' A' (fun m off => listed m fun here => off (grows m here)) rfl
        rw [← size]
        refine Finset.card_lt_card ⟨fun m inside => ?_, fun whole => ?_⟩
        · simp only [Finset.mem_filter] at inside ⊢
          exact ⟨inside.1, fun here => inside.2 (grows m here)⟩
        · have inside : n ∈ names.toFinset.filter fun n => ¬ known n := by simp [member, old]
          exact (Finset.mem_filter.mp (whole inside)).2 new
      · push Not at some
        exact ⟨value, asks, A.of_iff fun n => by simp [some n]⟩
  refine enough (fun n => n ∉ names) (fun _ => .null) (fun _ => []) ⟨by simp, fun n off => ?_⟩
    (by simp)
  exact .straight (by simp [others n off, Script.asked]) (by simp [others n off, Script.result, worth])
    (by simp)

end Account

end NoteQuery
