import NoteQuery.Value.Order
import NoteQuery.Proofs.Outcome
import NoteQuery.Proofs.Value.Number

/-! The order of a sorted column. Read backwards it gives the opposite answer, and where one way
fails so does the other. -/
namespace NoteQuery

namespace Num

theorem order?_swap (a b : Num) : order? b a = (order? a b).map Ordering.swap := by
  rw [order?_eq, order?_eq]
  cases point? a with
  | none => cases point? b <;> rfl
  | some x =>
    cases point? b with
    | none => rfl
    | some y =>
      simp only [Option.map₂_some_some, Option.map_some, Option.some.injEq]
      exact Std.OrientedOrd.eq_swap

end Num

open Except (failsOnly_ok)

namespace Value

theorem momentOfNumber?_fault {n : Num} {f : Fault} (failed : momentOfNumber? n = .error f) :
    f = .outOfRange := by
  unfold momentOfNumber? at failed
  rcases Except.bind_eq_error.mp failed with converted | ⟨x, -, failed⟩
  · cases n with
    | float x => cases converted
    | int n =>
      simp only [Num.toFloat] at converted
      split at converted <;> cases converted
      rfl
  · repeat' split at failed
    all_goals cases failed

theorem moment?_fault {v : Value} {f : Fault} (failed : v.moment? = .error f) :
    f = .outOfRange := by
  cases v with
  | int n => exact momentOfNumber?_fault failed
  | float x => exact momentOfNumber?_fault failed
  | text s =>
    simp only [moment?] at failed
    split at failed <;> cases failed
    rfl
  | moment m =>
    simp only [moment?] at failed
    split at failed <;> cases failed
    rfl
  | _ => cases failed

theorem number?_ok {v : Value} (other : v.isMoment = false) : ∃ n, v.number? = .ok n := by
  cases v with
  | moment m => cases other
  | _ => exact ⟨_, rfl⟩

theorem orderAsMoments_swap (a b : Value) :
    orderAsMoments b a = (orderAsMoments a b).map (Option.map Ordering.swap) := by
  unfold orderAsMoments
  cases left : a.moment? with
  | error f =>
    cases right : b.moment? with
    | error f' => simp [bind, Except.bind, Except.map, moment?_fault left, moment?_fault right]
    | ok y => rfl
  | ok x =>
    cases right : b.moment? with
    | error f => rfl
    | ok y =>
      cases x with
      | none => cases y <;> rfl
      | some x =>
        cases y with
        | none => rfl
        | some y => simp [bind, Except.bind, Except.map, Int.compare_swap]

theorem orderAsNumbers_swap {a b : Value} (first : a.isMoment = false) (second : b.isMoment = false) :
    orderAsNumbers b a = (orderAsNumbers a b).map (Option.map Ordering.swap) := by
  unfold orderAsNumbers
  obtain ⟨x, left⟩ := number?_ok first
  obtain ⟨y, right⟩ := number?_ok second
  simp only [left, right, bind, Except.bind]
  cases x with
  | none => cases y <;> rfl
  | some x =>
    cases y with
    | none => rfl
    | some y =>
      simp only [orderNumbers, Num.order?_swap x y, Except.map, Option.map_some]
      cases Num.order? x y <;> rfl

theorem orderSingle_swap (a b : Value) :
    orderSingle b a = (orderSingle a b).map (Option.map Ordering.swap) := by
  have texts (s t : String) : orderSingle (text t) (text s) =
      (orderSingle (text s) (text t)).map (Option.map Ordering.swap) := by
    change Except.ok (some (compare t s)) = Except.ok (some (compare s t).swap)
    rw [Std.OrientedOrd.eq_swap]
  have truths (x y : Bool) : orderSingle (bool y) (bool x) =
      (orderSingle (bool x) (bool y)).map (Option.map Ordering.swap) := by
    cases x <;> cases y <;> rfl
  cases a <;> cases b <;> first
    | rfl
    | exact orderAsMoments_swap _ _
    | exact orderAsNumbers_swap rfl rfl
    | exact texts _ _
    | exact truths _ _

theorem order_single {a b : Value} (single : ∀ as bs, a = list as → b = list bs → False) :
    order a b = orderSingle a b := by
  cases a with
  | list as =>
    cases b with
    | list bs => exact absurd rfl fun same => single as bs rfl same
    | _ => rw [order]; simp
  | _ => rw [order]; simp

mutual

theorem order_swap : ∀ a b : Value, order b a = (order a b).map (Option.map Ordering.swap)
  | list as, list bs => by
    rw [order, order]
    exact orderItems_swap as bs
  | null, b | bool _, b | int _, b | float _, b | text _, b | moment _, b | date _, b | map _, b => by
    rw [order_single (by simp), order_single (by simp)]
    exact orderSingle_swap _ _
  | list as, null | list as, bool _ | list as, int _ | list as, float _ | list as, text _
  | list as, moment _ | list as, date _ | list as, map _ => by
    rw [order_single (by simp), order_single (by simp)]
    exact orderSingle_swap _ _

theorem orderItems_swap : ∀ as bs : List Value,
    orderItems bs as = (orderItems as bs).map (Option.map Ordering.swap)
  | [], [] => rfl
  | [], _ :: _ => rfl
  | _ :: _, [] => rfl
  | a :: as, b :: bs => by
    rw [orderItems, orderItems, order_swap a b]
    cases order a b with
    | error f => rfl
    | ok o =>
      match o with
      | none => rfl
      | some .lt => rfl
      | some .gt => rfl
      | some .eq => exact orderItems_swap as bs

end

mutual

theorem json_fails (texts : JsonTexts) : ∀ v : Value, (json texts v).FailsOnly (· = .badValue)
  | null | bool _ | float _ | text _ | moment _ | date _ => by
    rw [json]
    exact failsOnly_ok _
  | int n => by
    rw [json]
    split
    · exact failsOnly_ok _
    · exact .error rfl
  | list items => by
    rw [json]
    exact (jsonItems_fails texts items).bind fun _ => failsOnly_ok _
  | map entries => by
    rw [json]
    exact (jsonEntries_fails texts entries).bind fun _ => failsOnly_ok _

theorem jsonItems_fails (texts : JsonTexts) : ∀ items : List Value,
    (jsonItems texts items).FailsOnly (· = .badValue)
  | [] => failsOnly_ok _
  | item :: items => by
    rw [jsonItems]
    exact (json_fails texts item).bind fun _ => (jsonItems_fails texts items).bind fun _ =>
      failsOnly_ok _

theorem jsonEntries_fails (texts : JsonTexts) : ∀ entries : List (String × Value),
    (jsonEntries texts entries).FailsOnly (· = .badValue)
  | [] => failsOnly_ok _
  | (_, value) :: entries => by
    rw [jsonEntries]
    exact (json_fails texts value).bind fun _ => (jsonEntries_fails texts entries).bind fun _ =>
      failsOnly_ok _

end

mutual

/-- A value that cannot be displayed has a number too long to be written. -/
theorem display_fails : ∀ v : Value, (display v).FailsOnly (· = .badValue)
  | null | bool _ | int _ | text _ | moment _ | date _ => by
    rw [display]
    exact failsOnly_ok _
  | float x => by
    rw [display]
    split <;> exact failsOnly_ok _
  | list items => by
    rw [display]
    exact (displayItems_fails items).bind fun _ => failsOnly_ok _
  | map entries => by
    rw [display]
    exact json_fails .short (map entries)

theorem displayItems_fails : ∀ items : List Value,
    (displayItems items).FailsOnly (· = .badValue)
  | [] => failsOnly_ok _
  | item :: items => by
    rw [displayItems]
    exact (display_fails item).bind fun _ => (displayItems_fails items).bind fun _ => failsOnly_ok _

end

/-- The order of a sorted column, read backwards. -/
theorem sortOrder_swap (a b : Value) : sortOrder b a = (sortOrder a b).map Ordering.swap := by
  unfold sortOrder
  rw [order_swap a b]
  cases order a b with
  | error f => rfl
  | ok o =>
    cases o with
    | some o => rfl
    | none =>
      simp only [Except.map, bind, Except.bind, Option.map_none]
      by_cases same : a.rank = b.rank
      · simp only [same, ne_eq, not_true_eq_false, if_false]
        cases left : display a with
        | error f =>
          cases right : display b with
          | error f' => rw [display_fails a f left, display_fails b f' right]
          | ok t => rfl
        | ok s =>
          cases display b with
          | error f => rfl
          | ok t => exact congrArg Except.ok Std.OrientedOrd.eq_swap
      · simp only [ne_eq, same, Ne.symm same, not_false_eq_true, if_true, Nat.compare_swap]

end Value

end NoteQuery
