import NoteQuery.Proofs.Number.Rounding
import NoteQuery.Value.Number

/-! Numbers on a line. Whole and binary numbers lie where their exact values do, with the infinities
at the ends, and are compared by where they lie. Not-a-number lies nowhere. -/
namespace NoteQuery

namespace Num

def signed (negative : Bool) (size : Nat × Nat) : ℚ :=
  ((if negative then -(size.1 : Int) else size.1 : Int) : ℚ) / (size.2 : ℚ)

def point? : Num → Option (WithBot (WithTop ℚ))
  | int n => some ((n : ℚ) : WithTop ℚ)
  | float .nan => none
  | float (.infinite negative) => some (if negative then ⊥ else ⊤)
  | float (.finite negative m) => some ((signed negative m.ratio : ℚ) : WithTop ℚ)

theorem point?_eq_none {n : Num} : n.point? = none ↔ n.isNaN = true := by
  cases n with
  | int n => simp [point?, isNaN]
  | float x => cases x <;> simp [point?, isNaN, Binary64.isNaN]

private theorem compare_coe (x y : ℚ) :
    compare ((x : WithTop ℚ) : WithBot (WithTop ℚ)) ((y : WithTop ℚ) : WithBot (WithTop ℚ)) =
      compare x y := by
  rcases lt_trichotomy x y with less | equal | greater
  · rw [compare_lt_iff_lt.mpr less, compare_lt_iff_lt]
    exact_mod_cast less
  · rw [equal, compare_eq_iff_eq.mpr rfl, compare_eq_iff_eq.mpr rfl]
  · rw [compare_gt_iff_gt.mpr greater, compare_gt_iff_gt]
    exact_mod_cast greater

private theorem compare_ratio (a b : Int) (c d : Nat) (posc : 0 < c) (posd : 0 < d) :
    compare ((a : ℚ) / (c : ℚ)) ((b : ℚ) / (d : ℚ)) = compare (a * d) (b * c) := by
  have left : (0 : ℚ) < c := by exact_mod_cast posc
  have right : (0 : ℚ) < d := by exact_mod_cast posd
  rcases lt_trichotomy (a * d) (b * c) with less | equal | greater
  · rw [compare_lt_iff_lt.mpr less, compare_lt_iff_lt, div_lt_div_iff₀ left right]
    exact_mod_cast less
  · rw [compare_eq_iff_eq.mpr equal, compare_eq_iff_eq, div_eq_div_iff left.ne' right.ne']
    exact_mod_cast equal
  · rw [compare_gt_iff_gt.mpr greater, compare_gt_iff_gt, div_lt_div_iff₀ right left]
    exact_mod_cast greater

private theorem compare_signed (s t : Bool) (a b : Nat × Nat) (posa : 0 < a.2) (posb : 0 < b.2) :
    compare (signed s a) (signed t b) =
      compare (if s then -((a.1 * b.2 : Nat) : Int) else (a.1 * b.2 : Nat) : Int)
        (if t then -((b.1 * a.2 : Nat) : Int) else (b.1 * a.2 : Nat) : Int) := by
  rw [signed, signed, compare_ratio _ _ _ _ posa posb]
  cases s <;> cases t <;> simp

private theorem compare_whole (n : Int) (s : Bool) (a : Nat × Nat) (pos : 0 < a.2) :
    compare (n : ℚ) (signed s a) = compare (n * a.2) (if s then -(a.1 : Int) else a.1) := by
  have whole := compare_ratio n (if s then -(a.1 : Int) else a.1) 1 a.2 Nat.one_pos pos
  simpa [signed] using whole

/-- Numbers are compared by where they lie. -/
theorem order?_eq (a b : Num) : order? a b = Option.map₂ compare (point? a) (point? b) := by
  have ends : compare (⊥ : WithBot (WithTop ℚ)) ⊤ = .lt := compare_lt_iff_lt.mpr bot_lt_top
  have ends' : compare (⊤ : WithBot (WithTop ℚ)) ⊥ = .gt := compare_gt_iff_gt.mpr bot_lt_top
  have low (q : ℚ) : compare ⊥ ((q : WithTop ℚ) : WithBot (WithTop ℚ)) = .lt :=
    compare_lt_iff_lt.mpr (WithBot.bot_lt_coe _)
  have low' (q : ℚ) : compare ((q : WithTop ℚ) : WithBot (WithTop ℚ)) ⊥ = .gt :=
    compare_gt_iff_gt.mpr (WithBot.bot_lt_coe _)
  have top (q : ℚ) : ((q : WithTop ℚ) : WithBot (WithTop ℚ)) < ⊤ :=
    WithBot.coe_lt_coe.mpr (WithTop.coe_lt_top q)
  have high (q : ℚ) : compare ⊤ ((q : WithTop ℚ) : WithBot (WithTop ℚ)) = .gt :=
    compare_gt_iff_gt.mpr (top q)
  have high' (q : ℚ) : compare ((q : WithTop ℚ) : WithBot (WithTop ℚ)) ⊤ = .lt :=
    compare_lt_iff_lt.mpr (top q)
  cases a with
  | int a =>
    cases b with
    | int b =>
      simp only [order?, point?, Option.map₂_some_some, compare_coe]
      simpa using (compare_ratio a b 1 1 Nat.one_pos Nat.one_pos).symm
    | float y =>
      cases y with
      | nan => rfl
      | infinite t => cases t <;> simp [order?, point?, Binary64.orderInt?, low', high']
      | finite t m =>
        simp only [order?, point?, Binary64.orderInt?, Option.map₂_some_some, compare_coe,
          compare_whole a t m.ratio m.ratio_pos]
  | float x =>
    cases b with
    | int b =>
      cases x with
      | nan => rfl
      | infinite s => cases s <;> simp [order?, point?, Binary64.orderInt?, low, high]
      | finite s m =>
        simp only [order?, point?, Binary64.orderInt?, Option.map₂_some_some, compare_coe,
          Option.map_some, Int.compare_swap]
        rw [Std.OrientedOrd.eq_swap (a := signed s m.ratio), compare_whole b s m.ratio m.ratio_pos,
          Int.compare_swap]
    | float y =>
      cases x with
      | nan => cases y <;> rfl
      | infinite s =>
        cases y with
        | nan => rfl
        | infinite t => cases s <;> cases t <;> simp [order?, point?, Binary64.order?, ends, ends']
        | finite t m => cases s <;> simp [order?, point?, Binary64.order?, low, high]
      | finite s m =>
        cases y with
        | nan => rfl
        | infinite t => cases t <;> simp [order?, point?, Binary64.order?, low', high']
        | finite t k =>
          simp only [order?, point?, Binary64.order?, Option.map₂_some_some, compare_coe,
            compare_signed s t m.ratio k.ratio m.ratio_pos k.ratio_pos]

end Num

end NoteQuery
