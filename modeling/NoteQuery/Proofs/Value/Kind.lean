import Mathlib
import NoteQuery.Proofs.Calendar.Date
import NoteQuery.Proofs.Value.Order

/-! Kinds of values in a sorted column. A kind says how its values are compared with values of other
kinds; among compatible kinds the values stand on one line. -/
namespace NoteQuery

namespace Value

inductive Kind where
  | null
  | truth
  | notNumber
  /-- A number that is not read as a moment. -/
  | number
  /-- A number that is read as a moment, or is too large for that. -/
  | timestamp
  | moment
  /-- A moment whose offset moves it out of the calendar. -/
  | lostMoment
  /-- A text, which may be read as a number and as a date. -/
  | text (numeric dated : Bool)
  | date
  | list
  | map
  /-- A map that cannot be displayed. -/
  | longMap
  deriving DecidableEq

namespace Kind

def ofNumber (n : Num) : Kind :=
  if n.isNaN then .notNumber
  else
    match momentOfNumber? n with
    | .ok none => .number
    | _ => .timestamp

end Kind

def kind : Value → Kind
  | null => .null
  | bool _ => .truth
  | int n => .ofNumber (.int n)
  | float x => .ofNumber (.float x)
  | moment m => if m.universal?.isSome then .moment else .lostMoment
  | date _ => .date
  | text s => .text (numberOfText? s).isSome (readDate s != .none)
  | list _ => .list
  | map entries =>
    match display (map entries) with
    | .ok _ => .map
    | .error _ => .longMap

/-- Kinds whose values are in one order together. -/
structure Compatible (among : Kind → Prop) : Prop where
  list : ¬ among .list
  lost : ¬ among .lostMoment
  long : ¬ among .longMap
  notNumber : among .notNumber → ¬ among .truth ∧ ¬ among .number ∧ ¬ among .timestamp
  numeral : ∀ dated, among (.text true dated) →
    ¬ among .notNumber ∧ ¬ among .number ∧ ¬ among .timestamp
  moment : among .moment → ¬ among .timestamp ∧ ∀ numeric, ¬ among (.text numeric true)
  date : among .moment → among .date → ¬ among .map ∧ ∀ numeric dated, ¬ among (.text numeric dated)

/-- Where a value stands: its layer, and a number, a count of microseconds or a text. -/
abbrev Position := ℕ ×ₗ WithBot (WithTop ℚ) ×ₗ ℤ ×ₗ String

namespace Position

variable {α β : Type} [LinearOrder α] [LinearOrder β]

theorem compare_head {a b : α} (less : a < b) (r s : β) :
    compare (toLex (a, r)) (toLex (b, s)) = .lt :=
  compare_lt_iff_lt.mpr (Prod.Lex.toLex_lt_toLex.mpr (.inl less))

theorem compare_tail (a : α) (r s : β) : compare (toLex (a, r)) (toLex (a, s)) = compare r s := by
  rcases lt_trichotomy r s with less | rfl | greater
  · rw [compare_lt_iff_lt.mpr less, compare_lt_iff_lt]
    exact Prod.Lex.toLex_lt_toLex.mpr (.inr ⟨rfl, less⟩)
  · rw [compare_eq_iff_eq.mpr rfl, compare_eq_iff_eq.mpr rfl]
  · rw [compare_gt_iff_gt.mpr greater, compare_gt_iff_gt]
    exact Prod.Lex.toLex_lt_toLex.mpr (.inr ⟨rfl, greater⟩)

theorem compare_front (a b : α) (r : β) : compare (toLex (a, r)) (toLex (b, r)) = compare a b := by
  rcases lt_trichotomy a b with less | rfl | greater
  · rw [compare_lt_iff_lt.mpr less, compare_head less]
  · rw [compare_eq_iff_eq.mpr rfl, compare_eq_iff_eq.mpr rfl]
  · rw [compare_gt_iff_gt.mpr greater, compare_gt_iff_gt]
    exact Prod.Lex.toLex_lt_toLex.mpr (.inl greater)

def ofPoint (point : WithBot (WithTop ℚ)) : Position := toLex (0, toLex (point, toLex (0, "")))

def ofMicros (layer : ℕ) (micros : ℤ) : Position := toLex (layer, toLex (⊥, toLex (micros, "")))

def ofText (layer : ℕ) (text : String) : Position := toLex (layer, toLex (⊥, toLex (0, text)))

theorem compare_ofPoint (p q : WithBot (WithTop ℚ)) :
    compare (ofPoint p) (ofPoint q) = compare p q := by
  rw [ofPoint, ofPoint, compare_tail, compare_front]

theorem compare_ofMicros (layer : ℕ) (m n : ℤ) :
    compare (ofMicros layer m) (ofMicros layer n) = compare m n := by
  rw [ofMicros, ofMicros, compare_tail, compare_tail, compare_front]

theorem compare_ofText (layer : ℕ) (s t : String) :
    compare (ofText layer s) (ofText layer t) = compare s t := by
  rw [ofText, ofText, compare_tail, compare_tail, compare_tail]

end Position

/-- The position of a value. Days stand among the moments, where there are any, else last. -/
def position (moments : Bool) : Value → Position
  | bool b => .ofPoint ((Num.point? (.int (if b then 1 else 0))).getD ⊥)
  | int n => .ofPoint ((Num.point? (.int n)).getD ⊥)
  | float x => .ofPoint ((Num.point? (.float x)).getD ⊥)
  | moment m => .ofMicros 1 ((m.universal?.map Moment.localMicros).getD 0)
  | text s => .ofText 2 s
  | map entries => .ofText 3 ((display (map entries)).toOption.getD "")
  | date d => .ofMicros (if moments then 1 else 4) (Moment.startOf d).localMicros
  | null | list _ => .ofPoint ⊥

theorem position_plain {v : Value} {n : Num} (plain : v.plainNumber? = some n) (moments : Bool) :
    v.position moments = .ofPoint ((Num.point? n).getD ⊥) := by
  cases v <;> simp only [plainNumber?, Option.some.injEq, reduceCtorEq] at plain <;> rw [← plain] <;>
    rfl

/-- What expressions compare, a column compares alike. -/
theorem sortOrder_of_order {a b : Value} {o : Ordering} (compared : order a b = .ok (some o)) :
    sortOrder a b = .ok o := by
  simp only [sortOrder, compared, bind, Except.bind]

theorem sortOrder_of_rank {a b : Value} (apart : order a b = .ok none) (less : a.rank < b.rank) :
    sortOrder a b = .ok .lt := by
  simp only [sortOrder, apart, bind, Except.bind, ne_eq, less.ne, not_false_eq_true, if_true]
  rw [Nat.compare_eq_lt.mpr less]

theorem order_plain {a b : Value} {m n : Num} (first : a.plainNumber? = some m)
    (second : b.plainNumber? = some n) : order a b = .ok (some (orderNumbers m n)) := by
  have truths (x y : Bool) : order (bool x) (bool y) = .ok (some (orderNumbers
      (.int (if x then 1 else 0)) (.int (if y then 1 else 0)))) := by
    cases x <;> cases y <;> rfl
  cases a <;> simp only [plainNumber?, Option.some.injEq, reduceCtorEq] at first <;>
    cases b <;> simp only [plainNumber?, Option.some.injEq, reduceCtorEq] at second <;>
    rw [← first, ← second] <;> first
      | exact truths _ _
      | rfl

/-- Numbers stand where they lie; not-a-number stands only beside itself. -/
theorem sortOrder_plain {a b : Value} {m n : Num} (first : a.plainNumber? = some m)
    (second : b.plainNumber? = some n) (same : m.isNaN = n.isNaN) (moments : Bool) :
    sortOrder a b = .ok (compare (a.position moments) (b.position moments)) := by
  rw [sortOrder_of_order (order_plain first second), position_plain first, position_plain second,
    Position.compare_ofPoint, orderNumbers, Num.order?_eq]
  cases left : Num.point? m with
  | none =>
    cases right : Num.point? n with
    | none => simp
    | some q =>
      rw [Num.point?_eq_none.mp left, eq_comm, ← Num.point?_eq_none, right] at same
      cases same
  | some p =>
    cases right : Num.point? n with
    | none =>
      rw [Num.point?_eq_none.mp right, ← Num.point?_eq_none, left] at same
      cases same
    | some q => rfl

theorem kind_plain {v : Value} {n : Num} (plain : v.plainNumber? = some n) :
    v.kind = .truth ∧ n.isNaN = false ∨ v.kind = .ofNumber n := by
  cases v <;> simp only [plainNumber?, Option.some.injEq, reduceCtorEq] at plain <;> rw [← plain]
  · exact .inl ⟨rfl, rfl⟩
  · exact .inr rfl
  · exact .inr rfl

theorem Kind.ofNumber_cases (n : Num) :
    n.isNaN = true ∧ Kind.ofNumber n = .notNumber ∨ n.isNaN = false ∧
      (Kind.ofNumber n = .number ∧ momentOfNumber? n = .ok none ∨ Kind.ofNumber n = .timestamp) := by
  unfold Kind.ofNumber
  cases n.isNaN with
  | true => exact .inl ⟨rfl, rfl⟩
  | false =>
    refine .inr ⟨rfl, ?_⟩
    rcases momentOfNumber? n with _ | _ | _
    · exact .inr rfl
    · exact .inl ⟨rfl, rfl⟩
    · exact .inr rfl

theorem momentOfNumber?_notNumber {n : Num} (not : n.isNaN = true) :
    momentOfNumber? n = .ok none := by
  cases n with
  | int n => cases not
  | float x =>
    cases x with
    | nan => rfl
    | _ => cases not

theorem moment?_plain {v : Value} {n : Num} (plain : v.plainNumber? = some n)
    (other : v.kind ≠ .timestamp) : v.moment? = .ok none := by
  have number (read : v.kind = .ofNumber n) : momentOfNumber? n = .ok none := by
    rcases Kind.ofNumber_cases n with ⟨not, _⟩ | ⟨_, ⟨_, none⟩ | timestamp⟩
    · exact momentOfNumber?_notNumber not
    · exact none
    · exact absurd (read.trans timestamp) other
  cases v <;> simp only [plainNumber?, Option.some.injEq, reduceCtorEq] at plain <;>
    subst plain
  · rfl
  · exact number rfl
  · exact number rfl

/-- The two values are compared as they stand. -/
def Placed (moments : Bool) (a b : Value) : Prop :=
  sortOrder a b = .ok (compare (a.position moments) (b.position moments))

variable {moments : Bool} {a b : Value}

theorem Placed.swap (placed : Placed moments a b) : Placed moments b a := by
  rw [Placed, sortOrder_swap a b, placed, Except.map, Std.OrientedOrd.eq_swap, Ordering.swap_swap]

/-- Values that expressions do not compare are placed by their layers, which follow the ranks. -/
theorem placed_apart (apart : order a b = .ok none) (rank : a.rank < b.rank)
    (layer : (ofLex (a.position moments)).1 < (ofLex (b.position moments)).1) :
    Placed moments a b := by
  rw [Placed, sortOrder_of_rank apart rank]
  exact congrArg Except.ok (Position.compare_head layer _ _).symm

theorem plain_single (moments : Bool) {v : Value} {n : Num} (plain : v.plainNumber? = some n) :
    v.rank < 2 ∧ (ofLex (v.position moments)).1 = 0 ∧ v.isMoment = false := by
  rw [position_plain plain]
  cases v <;> simp only [plainNumber?, reduceCtorEq] at plain <;>
    exact ⟨by simp [rank], rfl, rfl⟩

theorem order_plain_moment {v : Value} {n : Num} {m u : Moment} (plain : v.plainNumber? = some n)
    (read : v.moment? = .ok none) (found : m.universal? = some u) :
    order v (.moment m) = .ok none := by
  have other : (Value.moment m).moment? = .ok (some u) := by simp only [moment?, found]
  have moments : orderAsMoments v (.moment m) = .ok none := by
    simp only [orderAsMoments, read, other, bind, Except.bind]
  cases v <;> simp only [plainNumber?, reduceCtorEq] at plain <;> exact moments

theorem order_plain_text {v : Value} {n : Num} {s : String} (plain : v.plainNumber? = some n)
    (numeral : v.kind ≠ .truth → numberOfText? s = none) : order v (.text s) = .ok none := by
  cases v with
  | bool b => rfl
  | int n =>
    have none := numeral (by
      rcases Kind.ofNumber_cases (.int n) with ⟨_, kind⟩ | ⟨_, ⟨kind, _⟩ | kind⟩ <;>
        simp [Value.kind, kind])
    change orderAsNumbers (.int n) (.text s) = _
    simp only [orderAsNumbers, number?, none, bind, Except.bind]
  | float x =>
    have none := numeral (by
      rcases Kind.ofNumber_cases (.float x) with ⟨_, kind⟩ | ⟨_, ⟨kind, _⟩ | kind⟩ <;>
        simp [Value.kind, kind])
    change orderAsNumbers (.float x) (.text s) = _
    simp only [orderAsNumbers, number?, none, bind, Except.bind]
  | _ => cases plain

theorem order_plain_other {v w : Value} {n : Num} (plain : v.plainNumber? = some n)
    (other : (∃ entries, w = .map entries) ∨ ∃ d, w = .date d) : order v w = .ok none := by
  obtain ⟨entries, rfl⟩ | ⟨d, rfl⟩ := other <;> cases v <;>
    first
      | rfl
      | cases plain

theorem order_moments {v w : Value} {x y : Moment} (first : v.moment? = .ok (some x))
    (second : w.moment? = .ok (some y)) (single : ∀ vs ws, v = list vs → w = list ws → False)
    (moment : orderSingle v w = orderAsMoments v w) :
    sortOrder v w = .ok (compare x.localMicros y.localMicros) := by
  refine sortOrder_of_order ((order_single single).trans (moment.trans ?_))
  simp only [orderAsMoments, first, second, bind, Except.bind]

theorem sortOrder_of_display {a b : Value} {s t : String} (apart : order a b = .ok none)
    (same : a.rank = b.rank) (first : display a = .ok s) (second : display b = .ok t) :
    sortOrder a b = .ok (compare s t) := by
  simp only [sortOrder, apart, bind, Except.bind, ne_eq, same, not_true_eq_false, if_false, first,
    second]

theorem startOf_localMicros (d : Date) :
    (Moment.startOf d).localMicros = ((d.number : ℤ) - Moment.epochDay) * Moment.microsPerDay := by
  simp [Moment.startOf, Moment.localMicros, Clock.midnight, Clock.micros]

theorem compare_startOf (d e : Date) :
    compare (Moment.startOf d).localMicros (Moment.startOf e).localMicros =
      compare d.number e.number := by
  rw [startOf_localMicros, startOf_localMicros]
  have pos : (0 : ℤ) < Moment.microsPerDay := by decide
  rcases lt_trichotomy d.number e.number with less | same | greater
  · rw [compare_lt_iff_lt.mpr less, compare_lt_iff_lt]
    exact mul_lt_mul_of_pos_right (by omega) pos
  · rw [same, compare_eq_iff_eq.mpr rfl, compare_eq_iff_eq.mpr rfl]
  · rw [compare_gt_iff_gt.mpr greater, compare_gt_iff_gt]
    exact mul_lt_mul_of_pos_right (by omega) pos

theorem kind_moment {m u : Moment} (found : m.universal? = some u) : (moment m).kind = .moment := by
  simp [kind, found]

theorem kind_map {entries : List (String × Value)} {shown : String}
    (made : display (map entries) = .ok shown) : (map entries).kind = .map := by
  simp [kind, made]

theorem placed_plain {n : Num} (plain : a.plainNumber? = some n)
    (other : (∃ entries, b = .map entries) ∨ ∃ d, b = .date d) : Placed moments a b := by
  obtain ⟨rank, layer, _⟩ := plain_single moments plain
  have apart := order_plain_other plain other
  obtain ⟨entries, rfl⟩ | ⟨d, rfl⟩ := other
  · exact placed_apart apart (rank.trans (by simp [Value.rank])) (layer ▸ Nat.zero_lt_succ 2)
  · refine placed_apart apart (rank.trans (by simp [Value.rank])) (layer ▸ ?_)
    cases moments <;> exact Nat.zero_lt_succ _

theorem placed_moments {m n u v : Moment} (first : m.universal? = some u)
    (second : n.universal? = some v) : Placed moments (.moment m) (.moment n) := by
  have read {m u : Moment} (found : m.universal? = some u) :
      (Value.moment m).moment? = .ok (some u) := by simp only [moment?, found]
  rw [Placed, order_moments (read first) (read second) (by simp) rfl]
  simp only [position, first, second, Option.map_some, Option.getD_some, Position.compare_ofMicros]

theorem placed_moment_date {m u : Moment} (found : m.universal? = some u) (d : Date)
    (beside : moments = true) : Placed moments (.moment m) (.date d) := by
  have read : (Value.moment m).moment? = .ok (some u) := by simp only [moment?, found]
  rw [Placed, order_moments read rfl (by simp) rfl, beside]
  simp only [position, found, Option.map_some, Option.getD_some, if_true, Position.compare_ofMicros]

theorem placed_moment_map {m u : Moment} (found : m.universal? = some u)
    (entries : List (String × Value)) : Placed moments (.moment m) (.map entries) := by
  have apart : order (.moment m) (.map entries) = .ok none := by
    change orderAsMoments (.moment m) (.map entries) = _
    simp only [orderAsMoments, moment?, found, bind, Except.bind]
  exact placed_apart apart (by simp [rank]) (show 1 < 3 by decide)

theorem placed_texts (s t : String) : Placed moments (.text s) (.text t) := by
  rw [Placed, sortOrder_of_order rfl]
  exact congrArg Except.ok (Position.compare_ofText 2 s t).symm

theorem placed_text_map (s : String) (entries : List (String × Value)) :
    Placed moments (.text s) (.map entries) :=
  placed_apart rfl (by simp [rank]) (show 2 < 3 by decide)

theorem placed_maps {es fs : List (String × Value)} {s t : String}
    (first : display (.map es) = .ok s) (second : display (.map fs) = .ok t) :
    Placed moments (.map es) (.map fs) := by
  rw [Placed, sortOrder_of_display (a := .map es) (b := .map fs) rfl rfl first second]
  simp only [position, first, second, Except.toOption, Option.getD_some, Position.compare_ofText]

theorem placed_dates (d e : Date) : Placed moments (.date d) (.date e) := by
  rw [Placed, sortOrder_of_display (a := .date d) (b := .date e) rfl rfl rfl rfl, Date.compare_text, ← compare_startOf]
  simp only [position, Position.compare_ofMicros]

namespace Compatible

variable {among : Kind → Prop}

theorem forms (compatible : Compatible among) {v : Value} (present : v.isNull = false)
    (member : among v.kind) : (∃ n, v.plainNumber? = some n) ∨
      (∃ m u, v = .moment m ∧ m.universal? = some u) ∨ (∃ s, v = .text s) ∨
      (∃ entries shown, v = .map entries ∧ display (.map entries) = .ok shown) ∨
      ∃ d, v = .date d := by
  cases v with
  | null => cases present
  | bool b => exact .inl ⟨_, rfl⟩
  | int n => exact .inl ⟨_, rfl⟩
  | float x => exact .inl ⟨_, rfl⟩
  | text s => exact .inr (.inr (.inl ⟨s, rfl⟩))
  | date d => exact .inr (.inr (.inr (.inr ⟨d, rfl⟩)))
  | list items => exact absurd member compatible.list
  | moment m =>
    cases found : m.universal? with
    | some u => exact .inr (.inl ⟨m, u, rfl, found⟩)
    | none =>
      refine absurd ?_ compatible.lost
      simpa [kind, found] using member
  | map entries =>
    cases made : display (.map entries) with
    | ok shown => exact .inr (.inr (.inr (.inl ⟨entries, shown, rfl, made⟩)))
    | error f =>
      refine absurd ?_ compatible.long
      simpa [kind, made] using member

section Pairs

variable (compatible : Compatible among)
include compatible

theorem plain_plain {m n : Num} (first : a.plainNumber? = some m) (second : b.plainNumber? = some n)
    (member : among a.kind) (member' : among b.kind) : Placed moments a b := by
  refine sortOrder_plain first second ?_ moments
  have alone {v w : Value} {m n : Num} (first : v.plainNumber? = some m)
      (second : w.plainNumber? = some n) (member : among v.kind) (member' : among w.kind)
      (not : m.isNaN = true) : n.isNaN = true := by
    have kind : v.kind = .notNumber := by
      rcases kind_plain first with ⟨_, number⟩ | kind
      · rw [not] at number
        cases number
      · rw [kind, Kind.ofNumber, if_pos not]
    obtain ⟨noTruth, noNumber, noTimestamp⟩ := compatible.notNumber (kind ▸ member)
    rcases kind_plain second with ⟨truth, _⟩ | kind'
    · exact absurd (truth ▸ member') noTruth
    · rcases Kind.ofNumber_cases n with ⟨not', _⟩ | ⟨_, ⟨number, _⟩ | timestamp⟩
      · exact not'
      · exact absurd (kind'.trans number ▸ member') noNumber
      · exact absurd (kind'.trans timestamp ▸ member') noTimestamp
  cases left : m.isNaN with
  | true => rw [alone first second member member' left]
  | false =>
    cases right : n.isNaN with
    | false => rfl
    | true => rw [alone second first member' member right] at left; cases left

theorem plain_moment {n : Num} {m u : Moment} (plain : a.plainNumber? = some n)
    (found : m.universal? = some u) (member : among a.kind) (member' : among (Value.moment m).kind) :
    Placed moments a (.moment m) := by
  have other : a.kind ≠ .timestamp := fun timestamp =>
    (compatible.moment (kind_moment found ▸ member')).1 (timestamp ▸ member)
  obtain ⟨rank, layer, _⟩ := plain_single moments plain
  refine placed_apart (order_plain_moment plain (moment?_plain plain other) found) rank ?_
  rw [layer]
  exact Nat.one_pos

theorem plain_text {n : Num} {s : String} (plain : a.plainNumber? = some n) (member : among a.kind)
    (member' : among (text s).kind) : Placed moments a (text s) := by
  have numeral (number : a.kind ≠ .truth) : numberOfText? s = none := by
    cases read : numberOfText? s with
    | none => rfl
    | some m =>
      have text : (text s).kind = .text true (readDate s != .none) := by simp [kind, read]
      obtain ⟨noNaN, noNumber, noTimestamp⟩ := compatible.numeral _ (text ▸ member')
      rcases kind_plain plain with ⟨truth, _⟩ | kind
      · exact absurd truth number
      · rcases Kind.ofNumber_cases n with ⟨_, not⟩ | ⟨_, ⟨number, _⟩ | timestamp⟩
        · exact absurd (kind.trans not ▸ member) noNaN
        · exact absurd (kind.trans number ▸ member) noNumber
        · exact absurd (kind.trans timestamp ▸ member) noTimestamp
  obtain ⟨rank, layer, _⟩ := plain_single moments plain
  refine placed_apart (order_plain_text plain numeral) (rank.trans (by simp [Value.rank])) ?_
  rw [layer]
  exact Nat.two_pos

theorem moment_text {m u : Moment} {s : String} (found : m.universal? = some u)
    (member : among (Value.moment m).kind) (member' : among (text s).kind) :
    Placed moments (.moment m) (.text s) := by
  have undated : readDate s = .none := by
    by_contra dated
    have text : (text s).kind = .text (numberOfText? s).isSome true := by simp [kind, dated]
    exact (compatible.moment (kind_moment found ▸ member)).2 _ (text ▸ member')
  have apart : order (.moment m) (.text s) = .ok none := by
    change orderAsMoments (.moment m) (.text s) = _
    simp only [orderAsMoments, moment?, found, undated, bind, Except.bind]
  exact placed_apart apart (by simp [rank]) Nat.one_lt_two

/-- Days stand behind texts and maps, as no moments are about. -/
theorem before_date {v : Value} {d : Date} (beside : moments = true ↔ among .moment)
    (member : among v.kind) (member' : among (Value.date d).kind)
    (kind : v.kind = .map ∨ ∃ numeric dated, v.kind = .text numeric dated)
    (apart : order v (.date d) = .ok none) (rank : v.rank < 6)
    (layer : (ofLex (v.position moments)).1 < 4) : Placed moments v (.date d) := by
  cases moments with
  | true =>
    obtain ⟨noMap, noText⟩ := compatible.date (beside.mp rfl) member'
    rcases kind with map | ⟨numeric, dated, text⟩
    · exact absurd (map ▸ member) noMap
    · exact absurd (text ▸ member) (noText numeric dated)
  | false => exact placed_apart apart rank layer

/-- Values of compatible kinds are compared as they stand. -/
theorem placed (beside : moments = true ↔ among .moment) (present : a.isNull = false)
    (present' : b.isNull = false) (member : among a.kind) (member' : among b.kind) :
    Placed moments a b := by
  obtain ⟨n, first⟩ | ⟨m, u, rfl, found⟩ | ⟨s, rfl⟩ | ⟨es, shown, rfl, made⟩ | ⟨d, rfl⟩ :=
      compatible.forms present member <;>
    obtain ⟨n', first'⟩ | ⟨m', u', rfl, found'⟩ | ⟨s', rfl⟩ | ⟨es', shown', rfl, made'⟩ | ⟨d', rfl⟩ :=
      compatible.forms present' member'
  · exact compatible.plain_plain first first' member member'
  · exact compatible.plain_moment first found' member member'
  · exact compatible.plain_text first member member'
  · exact placed_plain first (.inl ⟨es', rfl⟩)
  · exact placed_plain first (.inr ⟨d', rfl⟩)
  · exact (compatible.plain_moment first' found member' member).swap
  · exact placed_moments found found'
  · exact compatible.moment_text found member member'
  · exact placed_moment_map found es'
  · exact placed_moment_date found d' (beside.mpr (kind_moment found ▸ member))
  · exact (compatible.plain_text first' member' member).swap
  · exact (compatible.moment_text found' member' member).swap
  · exact placed_texts s s'
  · exact placed_text_map s es'
  · exact compatible.before_date beside member member' (.inr ⟨_, _, rfl⟩) rfl (by simp [rank])
      (show 2 < 4 by decide)
  · exact (placed_plain first' (.inl ⟨es, rfl⟩)).swap
  · exact (placed_moment_map found' es).swap
  · exact (placed_text_map s' es).swap
  · exact placed_maps made made'
  · exact compatible.before_date beside member member' (.inl (kind_map made)) rfl
      (by simp [rank]) (show 3 < 4 by decide)
  · exact (placed_plain first' (.inr ⟨d, rfl⟩)).swap
  · exact (placed_moment_date found' d (beside.mpr (kind_moment found' ▸ member'))).swap
  · exact (compatible.before_date beside member' member (.inr ⟨_, _, rfl⟩) rfl (by simp [rank])
      (show 2 < 4 by decide)).swap
  · exact (compatible.before_date beside member' member (.inl (kind_map made')) rfl
      (by simp [rank]) (show 3 < 4 by decide)).swap
  · exact placed_dates d d'

end Pairs

end Compatible

end Value

end NoteQuery
