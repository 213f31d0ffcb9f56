import NoteQuery.Expr.Eval
import NoteQuery.Proofs.Value.Moment
import NoteQuery.Proofs.Value.Order
import NoteQuery.Proofs.Value.Parts

/-! Relations of values. Equality and order convert their operands each in its own way. With the
operands exchanged both give the opposite answer, and of two values that can be compared exactly one
is less, equal or greater, unless a not-a-number among them is taken for equal by the order alone. -/
namespace NoteQuery

/-- The relation that holds the other way round. -/
def Relation.swap : Relation → Relation
  | less => greater
  | greater => less
  | lessEqual => greaterEqual
  | greaterEqual => lessEqual
  | r => r

theorem Relation.holds_swap (r : Relation) (o : Ordering) : r.swap.holds o.swap = r.holds o := by
  cases r <;> cases o <;> rfl

/-- Relations that the order of the operands decides, and not their equality. -/
def Relation.orders : Relation → Bool
  | equal => false
  | notEqual => false
  | _ => true

namespace Relation

/-- Exactly one of less, equal and greater holds, and the other relations follow from these. -/
structure Trichotomy (holds : Relation → Bool) : Prop where
  one : [less, equal, greater].countP holds = 1
  notEqual : holds notEqual = !holds equal
  lessEqual : holds lessEqual = (holds less || holds equal)
  greaterEqual : holds greaterEqual = (holds greater || holds equal)

/-- The relations of two values of which the equality and the order are known. -/
def settled (alike : Bool) (o : Ordering) : Relation → Bool
  | equal => alike
  | notEqual => !alike
  | r => r.holds o

theorem trichotomy_settled (alike : Bool) (o : Ordering) :
    Trichotomy (settled alike o) ↔ (alike = true ↔ o = .eq) := by
  constructor
  · rintro ⟨one, -, -, -⟩
    cases alike <;> cases o <;> revert one <;> decide
  · intro agree
    cases alike <;> cases o <;> simp at agree <;> exact ⟨rfl, rfl, rfl, rfl⟩

end Relation

namespace Num

theorem equal_comm (a b : Num) : equal b a = equal a b := by
  rw [equal, equal, order?_swap a b]
  cases order? a b with
  | none => rfl
  | some o => cases o <;> rfl

theorem same_comm (a b : Num) : same b a = same a b := by
  rw [same, same, equal_comm, Bool.and_comm]

theorem orderNumbers_eq (a b : Num) :
    a.equal b = (Value.orderNumbers a b == .eq && !a.isNaN && !b.isNaN) := by
  rw [equal, Value.orderNumbers, order?_eq]
  cases left : point? a with
  | none => simp [point?_eq_none.mp left]
  | some x =>
    cases right : point? b with
    | none => simp [point?_eq_none.mp right]
    | some y =>
      have finite : a.isNaN = false := by
        by_contra not
        simp [point?_eq_none.mpr (Bool.eq_true_of_not_eq_false not)] at left
      have finite' : b.isNaN = false := by
        by_contra not
        simp [point?_eq_none.mpr (Bool.eq_true_of_not_eq_false not)] at right
      simp [finite, finite']

end Num

theorem Moment.same_comm (a b : Moment) : b.same a = a.same b := by
  rw [Moment.same, Moment.same, Bool.beq_comm (a := b.offset.isSome), BEq.comm (a := b.micros)]

namespace Value

/-- In every map of the value a name has one value. -/
def Keyed (v : Value) : Prop := ∀ entries : Entries, v.Reaches (map entries) → entries.names.Nodup

section Keyed

variable {v w : Value} {entries : Entries}

theorem Keyed.part (keyed : v.Keyed) (inside : v.Part w) : w.Keyed :=
  fun entries reached => keyed entries (.head inside reached)

theorem Keyed.once (keyed : (map entries).Keyed) : entries.names.Nodup := keyed entries .refl

theorem keyed_leaf (leaf : v.Leaf) : v.Keyed := by
  intro entries reached
  rw [leaf.reaches] at reached
  exact absurd (reached ▸ leaf : (map entries).Leaf) id

theorem keyed_list {items : List Value} : (list items).Keyed ↔ ∀ item ∈ items, item.Keyed := by
  constructor
  · intro keyed item inside
    exact keyed.part inside
  · intro each entries reached
    rcases reaches_iff.mp reached with same | ⟨item, inside, reached⟩
    · cases same
    · exact each item inside entries reached

theorem keyed_map : (map entries).Keyed ↔
    entries.names.Nodup ∧ ∀ entry ∈ entries, entry.2.Keyed := by
  constructor
  · intro keyed
    exact ⟨keyed.once, fun entry inside => keyed.part ⟨entry.1, inside⟩⟩
  · rintro ⟨once, each⟩ others reached
    rcases reaches_iff.mp reached with same | ⟨value, ⟨name, inside⟩, reached⟩
    · cases same
      exact once
    · exact each (name, value) inside others reached

end Keyed

section Same

theorem sameItems_comm {as bs : List Value}
    (each : ∀ a ∈ as, ∀ b ∈ bs, same b a = same a b) : sameItems bs as = sameItems as bs := by
  induction as generalizing bs with
  | nil => cases bs <;> rfl
  | cons a as ih =>
    cases bs with
    | nil => rfl
    | cons b bs =>
      rw [sameItems, sameItems, each a List.mem_cons_self b List.mem_cons_self,
        ih fun a first b second => each a (.tail _ first) b (.tail _ second)]

theorem sameEntries_iff {es fs : Entries} : sameEntries es fs = true ↔
    ∀ entry ∈ es, ∃ b, fs.lookup entry.1 = some b ∧ same entry.2 b = true := by
  induction es with
  | nil => simp [sameEntries]
  | cons entry es ih =>
    rw [sameEntries, Bool.and_eq_true, ih, List.forall_mem_cons]
    cases fs.lookup entry.1 <;> simp

/-- Maps with as many names as each other that agree one way agree the other way too: no name is left
over. -/
theorem sameEntries_back {es fs : Entries} (length : es.length = fs.length)
    (once : es.names.Nodup) (once' : fs.names.Nodup)
    (each : ∀ e ∈ es, ∀ f ∈ fs, same f.2 e.2 = same e.2 f.2) (all : sameEntries es fs = true) :
    sameEntries fs es = true := by
  rw [sameEntries_iff] at all ⊢
  have inside : es.names ⊆ fs.names := by
    intro name member
    obtain ⟨entry, inside, rfl⟩ := List.mem_map.mp member
    obtain ⟨b, found, _⟩ := all entry inside
    exact List.mem_map.mpr ⟨_, Entries.mem_of_lookup found, rfl⟩
  have names : es.names.Perm fs.names :=
    (once.subperm inside).perm_of_length_le (by simp [Entries.names, length])
  rintro ⟨name, b⟩ member
  have named : name ∈ es.names := names.mem_iff.mpr (List.mem_map.mpr ⟨_, member, rfl⟩)
  obtain ⟨⟨_, a⟩, member', rfl⟩ := List.mem_map.mp named
  obtain ⟨b', found, alike⟩ := all _ member'
  obtain rfl : b' = b :=
    Option.some.inj (found.symm.trans ((Entries.lookup_eq_some_iff once').mpr member))
  exact ⟨a, (Entries.lookup_eq_some_iff once).mpr member', by rw [each _ member' _ member, alike]⟩

theorem sameEntries_comm {es fs : Entries} (length : es.length = fs.length)
    (once : es.names.Nodup) (once' : fs.names.Nodup)
    (each : ∀ e ∈ es, ∀ f ∈ fs, same f.2 e.2 = same e.2 f.2) :
    sameEntries fs es = sameEntries es fs := by
  rw [Bool.eq_iff_iff]
  constructor
  · exact sameEntries_back length.symm once' once fun f second e first => (each e first f second).symm
  · exact sameEntries_back length once once' each

/-- Plain equality can be read backwards. The induction is on the parts of the first value. -/
theorem same_comm (a b : Value) (keyed : a.Keyed) (keyed' : b.Keyed) : same b a = same a b := by
  induction a using ofParts generalizing b with
  | step a ih =>
    have plain : same b a = same a b ∨ (∃ as bs, a = list as ∧ b = list bs) ∨
        ∃ es fs, a = map es ∧ b = map fs := by
      cases a <;> cases b <;> first
        | exact .inl rfl
        | exact .inl Bool.beq_comm
        | exact .inl BEq.comm
        | exact .inl (Moment.same_comm _ _)
        | exact .inl (Num.same_comm _ _)
        | exact .inr (.inl ⟨_, _, rfl, rfl⟩)
        | exact .inr (.inr ⟨_, _, rfl, rfl⟩)
    rcases plain with plain | ⟨as, bs, rfl, rfl⟩ | ⟨es, fs, rfl, rfl⟩
    · exact plain
    · rw [same, same]
      refine sameItems_comm fun a first b second => ih a first b ?_ ?_
      · exact keyed.part first
      · exact keyed'.part second
    · rw [same, same]
      by_cases length : es.length = fs.length
      · rw [length, sameEntries_comm length keyed.once keyed'.once fun e first f second =>
          ih e.2 ⟨e.1, first⟩ f.2 (keyed.part ⟨e.1, first⟩) (keyed'.part ⟨f.1, second⟩)]
      · rw [beq_false_of_ne length, beq_false_of_ne (Ne.symm length)]
        rfl

end Same

section Swapped

theorem equalMoments_comm (a b : Value) : equalMoments b a = equalMoments a b := by
  unfold equalMoments
  cases left : a.moment? with
  | error f =>
    cases right : b.moment? with
    | error f' => simp [bind, Except.bind, moment?_fault left, moment?_fault right]
    | ok y => rfl
  | ok x =>
    cases right : b.moment? with
    | error f => rfl
    | ok y =>
      cases x with
      | none => cases y <;> rfl
      | some x =>
        cases y with
        | none => rfl
        | some y => exact congrArg Except.ok (Moment.same_comm x y)

theorem equalNumbers_comm {a b : Value} (first : a.isMoment = false) (second : b.isMoment = false) :
    equalNumbers b a = equalNumbers a b := by
  unfold equalNumbers
  obtain ⟨x, left⟩ := number?_ok first
  obtain ⟨y, right⟩ := number?_ok second
  simp only [left, right, bind, Except.bind]
  cases x with
  | none => cases y <;> rfl
  | some x =>
    cases y with
    | none => rfl
    | some y => exact congrArg Except.ok (Num.equal_comm x y)

theorem equalSingle_comm {a b : Value} (keyed : a.Keyed) (keyed' : b.Keyed) :
    equalSingle b a = equalSingle a b := by
  have plain : Except.ok (same b a) = Except.ok (ε := Fault) (same a b) :=
    congrArg Except.ok (same_comm a b keyed keyed')
  cases a <;> cases b <;> first
    | exact equalMoments_comm _ _
    | exact equalNumbers_comm rfl rfl
    | exact congrArg Except.ok Bool.beq_comm
    | exact plain

theorem equals_single {a b : Value} (present : a ≠ null) (present' : b ≠ null)
    (single : ∀ as bs, a = list as → b = list bs → False) : equals a b = equalSingle a b := by
  rw [equals]
  · exact present
  · exact present'
  · exact single

/-- A null is equal to nothing but null, on either side. -/
theorem equals_null (v : Value) : equals v null = .ok v.isNull := by
  cases v <;> rfl

theorem equals_comm_single {a b : Value} (keyed : a.Keyed) (keyed' : b.Keyed)
    (single : ∀ as bs, a = list as → b = list bs → False) : equals b a = equals a b := by
  by_cases present : a = null
  · rw [present, equals_null, equals]
  · by_cases present' : b = null
    · rw [present', equals_null, equals]
    · rw [equals_single present present' single,
        equals_single present' present fun bs as second first => single as bs first second,
        equalSingle_comm keyed keyed']

mutual

theorem equals_comm : ∀ a b : Value, a.Keyed → b.Keyed → equals b a = equals a b
  | list as, list bs, keyed, keyed' => by
    rw [equals, equals, equalItems_comm as bs (keyed_list.mp keyed) (keyed_list.mp keyed'),
      BEq.comm (a := bs.length)]
  | null, b, keyed, keyed' | bool _, b, keyed, keyed' | int _, b, keyed, keyed'
  | float _, b, keyed, keyed' | text _, b, keyed, keyed' | moment _, b, keyed, keyed'
  | date _, b, keyed, keyed' | map _, b, keyed, keyed' => equals_comm_single keyed keyed' (by simp)
  | list as, null, keyed, keyed' | list as, bool _, keyed, keyed' | list as, int _, keyed, keyed'
  | list as, float _, keyed, keyed' | list as, text _, keyed, keyed'
  | list as, moment _, keyed, keyed' | list as, date _, keyed, keyed'
  | list as, map _, keyed, keyed' => equals_comm_single keyed keyed' (by simp)

theorem equalItems_comm : ∀ as bs : List Value, (∀ a ∈ as, a.Keyed) → (∀ b ∈ bs, b.Keyed) →
    equalItems bs as = equalItems as bs
  | [], [], _, _ => rfl
  | [], _ :: _, _, _ => rfl
  | _ :: _, [], _, _ => rfl
  | a :: as, b :: bs, each, each' => by
    rw [List.forall_mem_cons] at each each'
    rw [equalItems, equalItems, equals_comm a b each.1 each'.1,
      equalItems_comm as bs each.2 each'.2]

end

theorem related_orders {r : Relation} (orders : r.orders = true) (a b : Value) :
    related r a b = (order a b).map fun o => (o.map r.holds).getD false := by
  cases r with
  | equal => cases orders
  | notEqual => cases orders
  | _ =>
    unfold related
    rcases order a b with f | _ | o <;> rfl

/-- With the operands exchanged, equality has the same answer, order the opposite one and each relation
the answer of the relation that holds the other way round. Where one way fails so does the other. -/
theorem related_swap {a b : Value} (keyed : a.Keyed) (keyed' : b.Keyed) :
    equals b a = equals a b ∧ order b a = (order a b).map (Option.map Ordering.swap) ∧
      ∀ r : Relation, related r.swap b a = related r a b := by
  have equality := equals_comm a b keyed keyed'
  refine ⟨equality, order_swap a b, fun r => ?_⟩
  have ordered (orders : r.orders = true) : related r.swap b a = related r a b := by
    have orders' : r.swap.orders = true := by cases r <;> first | rfl | cases orders
    rw [related_orders orders, related_orders orders', order_swap a b]
    rcases order a b with f | _ | o
    · rfl
    · rfl
    · exact congrArg Except.ok (r.holds_swap o)
  cases r with
  | equal => exact equality
  | notEqual => exact congrArg (· >>= fun alike => .ok !alike) equality
  | _ => exact ordered rfl

/-- Maps with their names in another order, and a number beside a text. -/
theorem related_swap_mixed :
    (list [map [("x", int 1), ("y", text "b")], text "2"]).Keyed ∧
      (list [map [("y", text "b"), ("x", bool true)], int 3]).Keyed ∧
      ∀ r : Relation, related r.swap (list [map [("y", text "b"), ("x", bool true)], int 3])
        (list [map [("x", int 1), ("y", text "b")], text "2"]) =
          related r (list [map [("x", int 1), ("y", text "b")], text "2"])
            (list [map [("y", text "b"), ("x", bool true)], int 3]) := by
  have atoms : (int 1).Keyed ∧ (int 3).Keyed ∧ (bool true).Keyed ∧ ∀ s, (text s).Keyed :=
    ⟨keyed_leaf trivial, keyed_leaf trivial, keyed_leaf trivial, fun _ => keyed_leaf trivial⟩
  have keyed : (list [map [("x", int 1), ("y", text "b")], text "2"]).Keyed := by
    simp [keyed_list, keyed_map, Entries.names, atoms]
  have keyed' : (list [map [("y", text "b"), ("x", bool true)], int 3]).Keyed := by
    simp [keyed_list, keyed_map, Entries.names, atoms]
  exact ⟨keyed, keyed', (related_swap keyed keyed').2.2⟩

end Swapped

section Agreement

/-- The value is not-a-number or a list in which it stands. -/
def HasNaN (v : Value) : Prop := v.Reaches (float .nan)

/-- Equality confirms what the order says, unless there is a not-a-number. -/
def Confirmed (a b : Value) (o : Ordering) (equality : Except Fault Bool) : Prop :=
  ∃ alike, equality = .ok alike ∧ (alike = true ↔ o = .eq ∧ ¬ a.HasNaN ∧ ¬ b.HasNaN)

variable {a b : Value} {o : Ordering}

theorem hasNaN_list {items : List Value} : (list items).HasNaN ↔ ∃ item ∈ items, item.HasNaN := by
  rw [HasNaN, reaches_iff, or_iff_right (by simp)]
  rfl

theorem Leaf.hasNaN (leaf : a.Leaf) : a.HasNaN ↔ a = float .nan := by
  rw [HasNaN, leaf.reaches, eq_comm]

theorem numberOfText?_isNaN {s : String} {n : Num} (read : numberOfText? s = some n) :
    n.isNaN = false := by
  unfold numberOfText? at read
  dsimp only at read
  split at read
  · cases read
  · split at read
    · cases read
      rfl
    · split at read
      · split at read
        · rename_i x _ finite
          have number : x.isNaN = false := by
            cases x with
            | nan => cases finite
            | _ => rfl
          split at read
          · split at read <;> cases read
            · rfl
            · exact number
          · cases read
            exact number
        · cases read
      · cases read

theorem number?_isNaN {n : Num} (read : a.number? = .ok (some n)) :
    a.Leaf ∧ (n.isNaN = true ↔ a = float .nan) := by
  cases a with
  | bool b =>
    cases read
    exact ⟨trivial, by simp [Num.isNaN]⟩
  | int m =>
    cases read
    exact ⟨trivial, by simp [Num.isNaN]⟩
  | float x =>
    cases read
    refine ⟨trivial, ?_⟩
    cases x <;> simp [Num.isNaN, Binary64.isNaN]
  | text s =>
    have number := numberOfText?_isNaN (Except.ok.inj read)
    exact ⟨trivial, by simp [number]⟩
  | moment m =>
    simp only [number?] at read
    split at read
    · cases read
      exact ⟨trivial, by simp [Num.isNaN]⟩
    · cases read
  | _ => cases read

theorem moment?_number {m : Moment} (read : a.moment? = .ok (some m)) :
    a.Leaf ∧ a ≠ float .nan := by
  cases a with
  | float x =>
    refine ⟨trivial, ?_⟩
    rintro ⟨⟩
    cases read
  | null | list _ | map _ => cases read
  | _ => exact ⟨trivial, nofun⟩

theorem orderAsMoments_confirmed (compared : orderAsMoments a b = .ok (some o)) :
    Confirmed a b o (equalMoments a b) := by
  obtain ⟨x, left, compared⟩ := Except.bind_eq_ok.mp compared
  obtain ⟨y, right, compared⟩ := Except.bind_eq_ok.mp compared
  cases x with
  | none => cases compared
  | some x =>
    cases y with
    | none => cases compared
    | some y =>
      cases compared
      obtain ⟨leaf, number⟩ := moment?_number left
      obtain ⟨leaf', number'⟩ := moment?_number right
      refine ⟨x.same y, by simp only [equalMoments, left, right, bind, Except.bind], ?_⟩
      rw [leaf.hasNaN, leaf'.hasNaN, Moment.same, Moment.micros, Moment.micros,
        moment?_offset left, moment?_offset right]
      simp [number, number']

theorem orderAsNumbers_confirmed (compared : orderAsNumbers a b = .ok (some o)) :
    Confirmed a b o (equalNumbers a b) := by
  obtain ⟨x, left, compared⟩ := Except.bind_eq_ok.mp compared
  obtain ⟨y, right, compared⟩ := Except.bind_eq_ok.mp compared
  cases x with
  | none => cases compared
  | some x =>
    cases y with
    | none => cases compared
    | some y =>
      cases compared
      obtain ⟨leaf, number⟩ := number?_isNaN left
      obtain ⟨leaf', number'⟩ := number?_isNaN right
      refine ⟨x.equal y, by simp only [equalNumbers, left, right, bind, Except.bind], ?_⟩
      rw [leaf.hasNaN, leaf'.hasNaN, ← number, ← number', Num.orderNumbers_eq]
      simp [and_assoc]

theorem orderSingle_confirmed (compared : orderSingle a b = .ok (some o)) :
    Confirmed a b o (equalSingle a b) := by
  unfold orderSingle at compared
  split at compared
  · cases compared
  · cases compared
  · rename_i x y
    cases compared
    refine ⟨x == y, rfl, ?_⟩
    rw [Leaf.hasNaN (a := bool x) trivial, Leaf.hasNaN (a := bool y) trivial]
    cases x <;> cases y <;> simp
  · rename_i truths
    rw [equalSingle.eq_def]
    split
    · exact absurd rfl fun same => truths _ _ rfl same
    · split at compared
      · rename_i moments
        rw [if_pos moments]
        exact orderAsMoments_confirmed compared
      · rename_i moments
        rw [if_neg moments]
        split at compared
        · rename_i numbers
          rw [if_pos (by simp [numbers])]
          exact orderAsNumbers_confirmed compared
        · split at compared
          · rename_i s t _ _ _ _
            cases compared
            refine ⟨s == t, rfl, ?_⟩
            rw [Leaf.hasNaN (a := text s) trivial, Leaf.hasNaN (a := text t) trivial]
            simp
          · cases compared

theorem not_null_of_order (compared : orderSingle a b = .ok (some o)) : a ≠ null ∧ b ≠ null := by
  constructor
  · rintro rfl
    cases compared
  · rintro rfl
    cases a <;> cases compared

theorem orderItems_length {as bs : List Value} (compared : orderItems as bs = .ok (some .eq)) :
    as.length = bs.length := by
  induction as generalizing bs with
  | nil =>
    cases bs with
    | nil => rfl
    | cons b bs => cases compared
  | cons a as ih =>
    cases bs with
    | nil => cases compared
    | cons b bs =>
      rw [orderItems] at compared
      obtain ⟨first, _, compared⟩ := Except.bind_eq_ok.mp compared
      split at compared
      · exact congrArg (· + 1) (ih compared)
      · rename_i other
        exact absurd (Except.ok.inj compared) other

theorem hasNaN_cons {items : List Value} :
    (list (a :: items)).HasNaN ↔ a.HasNaN ∨ (list items).HasNaN := by
  simp only [hasNaN_list, List.mem_cons, exists_eq_or_imp]

/-- Lists are confirmed by their items: by the first ones, and by the others where these are alike. -/
theorem Confirmed.cons {as bs : List Value} (head : Confirmed a b .eq (equals a b))
    (tail : Confirmed (list as) (list bs) o (equalItems as bs)) :
    Confirmed (list (a :: as)) (list (b :: bs)) o (equalItems (a :: as) (b :: bs)) := by
  obtain ⟨alike, equality, means⟩ := head
  obtain ⟨alike', equality', means'⟩ := tail
  rw [Confirmed, equalItems, equality, hasNaN_cons, hasNaN_cons]
  cases alike with
  | false =>
    refine ⟨false, rfl, ?_⟩
    simp only [Bool.false_eq_true, false_iff, true_and] at means ⊢
    tauto
  | true =>
    refine ⟨alike', equality', means'.trans ?_⟩
    simp only [true_iff, true_and] at means
    tauto

/-- Where the first items are apart, so are the lists. -/
theorem Confirmed.apart {as bs : List Value} (differ : o ≠ .eq) (head : Confirmed a b o (equals a b)) :
    Confirmed (list (a :: as)) (list (b :: bs)) o (equalItems (a :: as) (b :: bs)) := by
  obtain ⟨alike, equality, means⟩ := head
  cases alike with
  | true => exact absurd (means.mp rfl).1 differ
  | false =>
    rw [Confirmed, equalItems, equality]
    exact ⟨false, rfl, by simp [differ]⟩

theorem order_confirmed_single (single : ∀ as bs, a = list as → b = list bs → False)
    (compared : order a b = .ok (some o)) : Confirmed a b o (equals a b) := by
  rw [order_single single] at compared
  obtain ⟨present, present'⟩ := not_null_of_order compared
  rw [equals_single present present' single]
  exact orderSingle_confirmed compared

mutual

/-- Values that can be compared can be asked whether they are equal. The induction follows the lists. -/
theorem order_confirmed : ∀ (a b : Value) {o : Ordering}, order a b = .ok (some o) →
    Confirmed a b o (equals a b)
  | list as, list bs, o, compared => by
    rw [order] at compared
    by_cases length : as.length = bs.length
    · rw [equals, if_pos (beq_iff_eq.mpr length)]
      exact orderItems_confirmed as bs compared length
    · rw [equals, if_neg (by simpa using length)]
      refine ⟨false, rfl, ?_⟩
      have differ : o ≠ .eq := by
        rintro rfl
        exact length (orderItems_length compared)
      simp [differ]
  | null, b, o, compared | bool _, b, o, compared | int _, b, o, compared | float _, b, o, compared
  | text _, b, o, compared | moment _, b, o, compared | date _, b, o, compared
  | map _, b, o, compared => order_confirmed_single (by simp) compared
  | list as, null, o, compared | list as, bool _, o, compared | list as, int _, o, compared
  | list as, float _, o, compared | list as, text _, o, compared | list as, moment _, o, compared
  | list as, date _, o, compared | list as, map _, o, compared =>
    order_confirmed_single (by simp) compared

theorem orderItems_confirmed : ∀ (as bs : List Value) {o : Ordering},
    orderItems as bs = .ok (some o) → as.length = bs.length →
      Confirmed (list as) (list bs) o (equalItems as bs)
  | [], [], o, compared, _ => by
    cases compared
    exact ⟨true, rfl, by simp [hasNaN_list]⟩
  | [], _ :: _, _, _, length => nomatch length
  | _ :: _, [], _, _, length => nomatch length
  | a :: as, b :: bs, o, compared, length => by
    rw [orderItems] at compared
    obtain ⟨first, head, compared⟩ := Except.bind_eq_ok.mp compared
    have head' := fun {o : Ordering} (some : first = some o) => order_confirmed a b (some ▸ head)
    split at compared
    · exact (head' rfl).cons (orderItems_confirmed as bs compared (Nat.succ.inj length))
    · rename_i differ
      cases compared
      exact (head' rfl).apart fun same => differ (congrArg some same)

end

theorem related_settled {alike : Bool} (equality : equals a b = .ok alike)
    (compared : order a b = .ok (some o)) (r : Relation) :
    related r a b = .ok (r.settled alike o) := by
  cases r with
  | equal => exact equality
  | notEqual => exact congrArg (· >>= fun alike => .ok !alike) equality
  | _ =>
    rw [related_orders rfl, compared]
    rfl

/-- Of two values that can be compared exactly one of less, equal and greater holds, and the other relations
follow from these, unless the order takes them for equal and a not-a-number is among them. -/
theorem related_trichotomy_iff (compared : order a b = .ok (some o)) :
    ∃ holds : Relation → Bool, (∀ r, related r a b = .ok (holds r)) ∧
      (Relation.Trichotomy holds ↔ ¬ (o = .eq ∧ (a.HasNaN ∨ b.HasNaN))) := by
  obtain ⟨alike, equality, means⟩ := order_confirmed a b compared
  refine ⟨Relation.settled alike o, related_settled equality compared, ?_⟩
  rw [Relation.trichotomy_settled, means]
  tauto

/-- A list of mixed items comes before another at the second item, the first ones being equal. -/
theorem related_trichotomy_iff_mixed : ∃ holds : Relation → Bool,
    order (list [int 1, text "2"]) (list [text " 1 ", int 3]) = .ok (some .lt) ∧
      (∀ r, related r (list [int 1, text "2"]) (list [text " 1 ", int 3]) = .ok (holds r)) ∧
        Relation.Trichotomy holds := by
  have compared : order (list [int 1, text "2"]) (list [text " 1 ", int 3]) = .ok (some .lt) := by
    decide +kernel
  obtain ⟨holds, related, trichotomy⟩ := related_trichotomy_iff compared
  exact ⟨holds, compared, related, trichotomy.mpr (by simp)⟩

/-- Not-a-number is neither less than five nor equal to it nor greater, although the order takes the two
for equal. -/
theorem related_untrichotomous : ¬ ∀ (a b : Value) (o : Ordering), order a b = .ok (some o) →
    ∃ holds : Relation → Bool, (∀ r, related r a b = .ok (holds r)) ∧
      Relation.Trichotomy holds := by
  intro all
  obtain ⟨holds, related, one, -, -, -⟩ := all (float .nan) (int 5) .eq (by decide +kernel)
  have none : ∀ r ∈ [Relation.less, .equal, .greater], holds r = false := by
    intro r member
    have apart : ∀ r ∈ [Relation.less, .equal, .greater],
        Value.related r (float .nan) (int 5) = .ok false := by decide +kernel
    exact Except.ok.inj ((related r).symm.trans (apart r member))
  rw [List.countP_eq_zero.mpr fun r member => by simp [none r member]] at one
  cases one

end Agreement

end Value
end NoteQuery
