import NoteQuery.Sort
import NoteQuery.Proofs.Outcome

/-! What a sort returns. A strict weak order puts the items in order, and items of which neither
comes before the other keep whatever relation the input had them in. The sort knows nothing of its
items but how they compare, so items may be renamed before it or after it. -/
namespace NoteQuery.Sort

variable {α β ε : Type}

/-- A strict weak order: what does not come before is transitive. -/
structure StrictWeak (lt : α → α → Bool) : Prop where
  asymm : ∀ a b, lt a b = true → lt b a = false
  trans : ∀ a b c, lt b a = false → lt c b = false → lt c a = false

namespace StrictWeak

variable {lt : α → α → Bool}

theorem lt_trans (order : StrictWeak lt) {a b c : α} (first : lt a b = true)
    (second : lt b c = true) : lt a c = true := by
  by_contra later
  have back := order.trans c a b (by simpa using later) (order.asymm a b first)
  rw [second] at back
  cases back

theorem comap (order : StrictWeak lt) (f : β → α) : StrictWeak fun a b => lt (f a) (f b) :=
  ⟨fun a b => order.asymm (f a) (f b), fun a b c => order.trans (f a) (f b) (f c)⟩

end StrictWeak

/-- One item comes before another, or neither does and the relation holds. -/
def Before (lt : α → α → Bool) (tie : α → α → Prop) (a b : α) : Prop :=
  lt a b = true ∨ lt b a = false ∧ tie a b

def total (ε : Type) (lt : α → α → Bool) (a b : α) : Except ε Bool := .ok (lt a b)

section Order

variable (ε) {lt : α → α → Bool} {tie : α → α → Prop}

theorem Before.ascends (order : StrictWeak lt) {a b : α} (before : Before lt tie a b) :
    lt b a = false := by
  rcases before with less | ⟨le, _⟩
  · exact order.asymm a b less
  · exact le

/-- Halving finds a place behind everything that the item does not come before. -/
theorem place_splits (order : StrictWeak lt) (x : α) (sorted : Array α)
    (ascends : sorted.toList.Pairwise fun a b => lt b a = false) (low high : Nat)
    (apart : low ≤ high) (bound : high ≤ sorted.size)
    (below : ∀ j (h : j < sorted.size), j < low → lt x sorted[j] = false)
    (above : ∀ j (h : j < sorted.size), high ≤ j → lt x sorted[j] = true) :
    ∃ i, place (total ε lt) x sorted low high = .ok i ∧ i ≤ sorted.size ∧
      (∀ j (h : j < sorted.size), j < i → lt x sorted[j] = false) ∧
      ∀ j (h : j < sorted.size), i ≤ j → lt x sorted[j] = true := by
  induction size : high - low using Nat.strong_induction_on generalizing low high with
  | _ size ih =>
    rw [place]
    by_cases open' : low < high
    · have inside : low + (high - low) / 2 < sorted.size := by omega
      have between (i j : Nat) (h : i < sorted.size) (h' : j < sorted.size) (less : i < j) :
          lt sorted[j] sorted[i] = false :=
        List.pairwise_iff_getElem.mp ascends i j (by simpa using h) (by simpa using h') less
      simp only [open', if_true, Array.getElem?_eq_getElem inside]
      cases here : lt x sorted[low + (high - low) / 2] with
      | true =>
        have rest := ih _ (by omega) low (low + (high - low) / 2) (by omega) (by omega) below
          (fun j h later => ?_) rfl
        · simpa [total, here, bind, Except.bind] using rest
        · rcases later.lt_or_eq with after | rfl
          · by_contra not
            have back := order.trans _ _ _ (between _ j inside h after) (by simpa using not)
            rw [here] at back
            cases back
          · exact here
      | false =>
        have rest := ih _ (by omega) (low + (high - low) / 2 + 1) high (by omega) bound
          (fun j h earlier => ?_) above rfl
        · simpa [total, here, bind, Except.bind] using rest
        · rcases (Nat.lt_succ_iff.mp earlier).lt_or_eq with before | rfl
          · exact order.trans _ _ _ (between j _ h inside before) here
          · exact here
    · rw [if_neg open']
      have same : low = high := by omega
      exact ⟨low, rfl, by omega, below, same ▸ above⟩

private theorem pairwise_insertIdx {R : α → α → Prop} (x : α) (items : List α)
    (ordered : items.Pairwise R) (i : Nat)
    (before : ∀ j (h : j < items.length), j < i → R items[j] x)
    (after : ∀ j (h : j < items.length), i ≤ j → R x items[j]) :
    (items.insertIdx i x).Pairwise R := by
  induction items generalizing i with
  | nil => cases i <;> simp
  | cons a items ih =>
    rw [List.pairwise_cons] at ordered
    cases i with
    | zero =>
      rw [List.insertIdx_zero, List.pairwise_cons, List.pairwise_cons]
      refine ⟨fun b member => ?_, ordered⟩
      obtain ⟨j, h, rfl⟩ := List.mem_iff_getElem.mp member
      exact after j h (Nat.zero_le j)
    | succ i =>
      rw [List.insertIdx_succ_cons, List.pairwise_cons]
      refine ⟨fun b member => ?_, ih ordered.2 i (fun j h less => ?_) fun j h le => ?_⟩
      · rcases List.eq_or_mem_of_mem_insertIdx member with rfl | inside
        · exact before 0 (by simp) (by omega)
        · exact ordered.1 b inside
      · exact before (j + 1) (by simpa using h) (by omega)
      · exact after (j + 1) (by simpa using h) (by omega)

private theorem toList_insert (sorted : Array α) (i : Nat) (x : α) :
    (sorted.insertIdxIfInBounds i x).toList = sorted.toList.insertIdx i x := by
  obtain ⟨items⟩ := sorted
  simp only [List.insertIdxIfInBounds_toArray]

theorem insert_before (order : StrictWeak lt) (x : α) (sorted : Array α)
    (ordered : sorted.toList.Pairwise (Before lt tie)) (later : ∀ a ∈ sorted, tie a x) :
    ∃ result, insert (total ε lt) sorted x = .ok result ∧
      result.toList.Perm (x :: sorted.toList) ∧ result.toList.Pairwise (Before lt tie) := by
  obtain ⟨i, found, bound, below, above⟩ := place_splits ε order x sorted
    (ordered.imp fun before => before.ascends order) 0 sorted.size (Nat.zero_le _) (le_refl _)
    (fun j _ less => absurd less (Nat.not_lt_zero j)) (fun j h le => absurd h (by omega))
  refine ⟨sorted.insertIdxIfInBounds i x, ?_, ?_, ?_⟩
  · simp only [insert, found]
    rfl
  · rw [toList_insert]
    exact List.perm_insertIdx x _ (by simpa using bound)
  · rw [toList_insert]
    refine pairwise_insertIdx x _ ordered i (fun j h less => ?_) fun j h le => ?_
    · exact .inr ⟨below j (by simpa using h) less, later _ (by simp)⟩
    · exact .inl (above j (by simpa using h) le)

theorem insertAll_before (order : StrictWeak lt) (items : List α) (sorted : Array α)
    (ordered : sorted.toList.Pairwise (Before lt tie)) (tied : items.Pairwise tie)
    (later : ∀ a ∈ sorted, ∀ x ∈ items, tie a x) :
    ∃ result, items.foldlM (insert (total ε lt)) sorted = .ok result ∧
      result.toList.Perm (sorted.toList ++ items) ∧ result.toList.Pairwise (Before lt tie) := by
  induction items generalizing sorted with
  | nil => exact ⟨sorted, rfl, by simp, ordered⟩
  | cons x items ih =>
    rw [List.pairwise_cons] at tied
    obtain ⟨middle, first, permuted, ordered'⟩ := insert_before ε order x sorted ordered
      fun a member => later a member x (by simp)
    have later' : ∀ a ∈ middle, ∀ y ∈ items, tie a y := by
      intro a member y inside
      rcases List.mem_cons.mp (permuted.mem_iff.mp (Array.mem_toList_iff.mpr member)) with rfl | old
      · exact tied.1 y inside
      · exact later a (by simpa using old) y (by simp [inside])
    obtain ⟨result, rest, permuted', ordered''⟩ := ih middle ordered' tied.2 later'
    refine ⟨result, ?_, ?_, ordered''⟩
    · rw [List.foldlM_cons, first]
      exact rest
    · exact permuted'.trans ((permuted.append_right items).trans List.perm_middle.symm)

theorem run_chain (strict : Bool) (front : List α) (last : α) (items : List α)
    (chain : (last :: front).IsChain fun a b => lt a b = strict) :
    ∃ front' rest, run (total ε lt) strict front last items = .ok (front', rest) ∧
      front'.reverse ++ rest = front.reverse ++ last :: items ∧
      front'.IsChain fun a b => lt a b = strict := by
  induction items generalizing front last with
  | nil => exact ⟨last :: front, [], rfl, by simp, chain⟩
  | cons x items ih =>
    by_cases goes : lt x last = strict
    · obtain ⟨front', rest, result, same, chain'⟩ := ih (last :: front) x
        (List.isChain_cons_cons.mpr ⟨goes, chain⟩)
      refine ⟨front', rest, ?_, by simpa using same, chain'⟩
      simpa [run, total, goes, bind, Except.bind] using result
    · refine ⟨last :: front, x :: items, ?_, by simp, chain⟩
      simp [run, total, goes, bind, Except.bind]

theorem leadingRun_before (order : StrictWeak lt) (items : List α) (tied : items.Pairwise tie) :
    ∃ front rest, leadingRun (total ε lt) items = .ok (front, rest) ∧
      (∃ taken, items = taken ++ rest ∧ front.Perm taken) ∧ front.Pairwise (Before lt tie) := by
  match items with
  | [] => exact ⟨[], [], rfl, ⟨[], rfl, .refl _⟩, .nil⟩
  | [x] => exact ⟨[x], [], rfl, ⟨[x], rfl, .refl _⟩, List.pairwise_singleton _ _⟩
  | x :: y :: items =>
    obtain ⟨front, rest, result, same, chain⟩ := run_chain ε (lt y x) [x] y items
      (List.isChain_pair.mpr rfl)
    have whole : x :: y :: items = front.reverse ++ rest := by simpa using same.symm
    have outcome : leadingRun (total ε lt) (x :: y :: items) =
        .ok (if lt y x then front else front.reverse, rest) := by
      simp only [leadingRun, total, bind, Except.bind]
      rw [result]
    refine ⟨_, rest, outcome, ⟨front.reverse, whole, ?_⟩, ?_⟩
    · split
      · exact front.reverse_perm.symm
      · exact .refl _
    · cases falls : lt y x with
      | true =>
        rw [falls] at chain
        have less : front.Pairwise fun a b => lt a b = true := by
          have : Trans (fun a b : α => lt a b = true) (fun a b => lt a b = true)
              (fun a b => lt a b = true) := ⟨order.lt_trans⟩
          exact List.isChain_iff_pairwise.mp chain
        exact less.imp fun less => .inl less
      | false =>
        rw [falls] at chain
        have ascends : front.Pairwise fun a b => lt a b = false := by
          have : Trans (fun a b : α => lt a b = false) (fun a b => lt a b = false)
              (fun a b => lt a b = false) :=
            ⟨fun {a b c} first second => order.trans c b a second first⟩
          exact List.isChain_iff_pairwise.mp chain
        have kept : front.reverse.Pairwise tie := (List.pairwise_append.mp (whole ▸ tied)).1
        exact (List.pairwise_reverse.mpr ascends).imp₂ (fun _ _ le tied => .inr ⟨le, tied⟩) kept

theorem ascending_before (order : StrictWeak lt) (items : List α) (tied : items.Pairwise tie) :
    ∃ result, ascending (total ε lt) items = .ok result ∧ result.Perm items ∧
      result.Pairwise (Before lt tie) := by
  obtain ⟨front, rest, split, ⟨taken, whole, permuted⟩, ordered⟩ :=
    leadingRun_before ε order items tied
  have parts := List.pairwise_append.mp (whole ▸ tied)
  obtain ⟨result, inserted, permuted', ordered'⟩ := insertAll_before ε order rest front.toArray
    (by simpa using ordered) parts.2.1 fun a member x inside =>
      parts.2.2 a (permuted.mem_iff.mp (by simpa using member)) x inside
  refine ⟨result.toList, ?_, ?_, ordered'⟩
  · simp only [ascending, split, bind, Except.bind] at inserted ⊢
    rw [inserted]
  · rw [whole]
    exact permuted'.trans (by simpa using permuted.append_right rest)

/-- In both directions items that are tied keep the relation they had. -/
theorem sorted_before (order : StrictWeak lt) (descending : Bool) (items : List α)
    (tied : items.Pairwise tie) :
    ∃ result, sorted (total ε lt) descending items = .ok result ∧ result.Perm items ∧
      result.Pairwise (Before (fun a b => if descending then lt b a else lt a b) tie) := by
  cases descending with
  | false => exact ascending_before ε order items tied
  | true =>
    have turned : items.reverse.Pairwise fun a b => tie b a := List.pairwise_reverse.mpr tied
    obtain ⟨result, up, permuted, ordered⟩ := ascending_before ε order items.reverse turned
    refine ⟨result.reverse, ?_, ?_, List.pairwise_reverse.mpr ordered⟩
    · simp only [sorted, if_true, up, Except.map]
    · exact (List.reverse_perm _).trans (permuted.trans (List.reverse_perm _))

end Order

section Every

variable {precedes : α → α → Except ε Bool}

theorem place_le {x : α} {sorted : Array α} {low high i : Nat} (apart : low ≤ high)
    (found : place precedes x sorted low high = .ok i) : i ≤ high := by
  induction size : high - low using Nat.strong_induction_on generalizing low high with
  | _ size ih =>
    rw [place] at found
    by_cases open' : low < high
    · rw [if_pos open'] at found
      cases here : sorted[low + (high - low) / 2]? with
      | none =>
        simp only [here, Except.ok.injEq] at found
        omega
      | some y =>
        simp only [here] at found
        obtain ⟨before, -, found⟩ := Except.bind_eq_ok.mp found
        split at found
        · have bound := ih _ (by omega) (by omega) found rfl
          omega
        · exact ih _ (by omega) (by omega) found rfl
    · rw [if_neg open', Except.ok.injEq] at found
      omega

theorem insert_perm {sorted result : Array α} {x : α}
    (inserted : insert precedes sorted x = .ok result) : result.toList.Perm (x :: sorted.toList) := by
  obtain ⟨i, found, inserted⟩ := Except.bind_eq_ok.mp inserted
  rw [Except.ok.injEq] at inserted
  rw [← inserted, toList_insert]
  exact List.perm_insertIdx x _ (by simpa using place_le (Nat.zero_le _) found)

theorem insertAll_perm {items : List α} {sorted result : Array α}
    (inserted : items.foldlM (insert precedes) sorted = .ok result) :
    result.toList.Perm (sorted.toList ++ items) := by
  induction items generalizing sorted with
  | nil =>
    cases inserted
    simp
  | cons x items ih =>
    rw [List.foldlM_cons] at inserted
    obtain ⟨middle, first, inserted⟩ := Except.bind_eq_ok.mp inserted
    exact (ih inserted).trans (((insert_perm first).append_right items).trans
      List.perm_middle.symm)

theorem run_split {strict : Bool} {front items front' rest : List α} {last : α}
    (split : run precedes strict front last items = .ok (front', rest)) :
    front'.reverse ++ rest = front.reverse ++ last :: items := by
  induction items generalizing front last with
  | nil =>
    simp only [run, Except.ok.injEq, Prod.mk.injEq] at split
    obtain ⟨rfl, rfl⟩ := split
    simp
  | cons x items ih =>
    obtain ⟨before, -, split⟩ := Except.bind_eq_ok.mp split
    split at split
    · simpa using ih split
    · simp only [Except.ok.injEq, Prod.mk.injEq] at split
      obtain ⟨rfl, rfl⟩ := split
      simp

theorem leadingRun_perm {items front rest : List α}
    (split : leadingRun precedes items = .ok (front, rest)) : (front ++ rest).Perm items := by
  match items with
  | [] | [x] =>
    simp only [leadingRun, Except.ok.injEq, Prod.mk.injEq] at split
    obtain ⟨rfl, rfl⟩ := split
    simp
  | x :: y :: items =>
    obtain ⟨falling, -, split⟩ := Except.bind_eq_ok.mp split
    obtain ⟨⟨front', rest'⟩, inner, split⟩ := Except.bind_eq_ok.mp split
    have whole : front'.reverse ++ rest' = x :: y :: items := by simpa using run_split inner
    simp only [Except.ok.injEq, Prod.mk.injEq] at split
    obtain ⟨rfl, rfl⟩ := split
    rw [← whole]
    cases falling
    · exact .refl _
    · exact (List.reverse_perm front').symm.append_right rest'

theorem ascending_perm {items result : List α} (sorted : ascending precedes items = .ok result) :
    result.Perm items := by
  obtain ⟨⟨front, rest⟩, split, sorted⟩ := Except.bind_eq_ok.mp sorted
  obtain ⟨whole, inserted, sorted⟩ := Except.bind_eq_ok.mp sorted
  rw [Except.ok.injEq] at sorted
  rw [← sorted]
  exact (insertAll_perm inserted).trans (by simpa using leadingRun_perm split)

/-- Whatever the comparison says, a sort that returns has the items it was given. -/
theorem sorted_perm {descending : Bool} {items result : List α}
    (made : sorted precedes descending items = .ok result) : result.Perm items := by
  cases descending with
  | false => exact ascending_perm made
  | true =>
    obtain ⟨whole, up, rfl⟩ := Except.map_eq_ok.mp made
    exact (List.reverse_perm whole).trans ((ascending_perm up).trans (List.reverse_perm items))

theorem place_error {x : α} {sorted : Array α} {low high : Nat} {e : ε}
    (failed : place precedes x sorted low high = .error e) : ∃ a b, precedes a b = .error e := by
  induction size : high - low using Nat.strong_induction_on generalizing low high with
  | _ size ih =>
    rw [place] at failed
    by_cases open' : low < high
    · rw [if_pos open'] at failed
      cases here : sorted[low + (high - low) / 2]? with
      | none => simp [here] at failed
      | some y =>
        simp only [here] at failed
        rcases Except.bind_eq_error.mp failed with compared | ⟨before, -, failed⟩
        · exact ⟨x, y, compared⟩
        · split at failed
          · exact ih _ (by omega) failed rfl
          · exact ih _ (by omega) failed rfl
    · rw [if_neg open'] at failed
      cases failed

theorem insertAll_error {items : List α} {sorted : Array α} {e : ε}
    (failed : items.foldlM (insert precedes) sorted = .error e) :
    ∃ a b, precedes a b = .error e := by
  induction items generalizing sorted with
  | nil => cases failed
  | cons x items ih =>
    rw [List.foldlM_cons] at failed
    rcases Except.bind_eq_error.mp failed with failed | ⟨middle, -, failed⟩
    · rcases Except.bind_eq_error.mp failed with failed | ⟨i, -, failed⟩
      · exact place_error failed
      · cases failed
    · exact ih failed

theorem run_error {strict : Bool} {front items : List α} {last : α} {e : ε}
    (failed : run precedes strict front last items = .error e) : ∃ a b, precedes a b = .error e := by
  induction items generalizing front last with
  | nil => cases failed
  | cons x items ih =>
    rcases Except.bind_eq_error.mp failed with compared | ⟨before, -, failed⟩
    · exact ⟨x, last, compared⟩
    · split at failed
      · exact ih failed
      · cases failed

theorem leadingRun_error {items : List α} {e : ε} (failed : leadingRun precedes items = .error e) :
    ∃ a b, precedes a b = .error e := by
  match items with
  | [] | [x] => cases failed
  | x :: y :: items =>
    rcases Except.bind_eq_error.mp failed with compared | ⟨falling, -, failed⟩
    · exact ⟨y, x, compared⟩
    · rcases Except.bind_eq_error.mp failed with inner | ⟨parts, -, failed⟩
      · exact run_error inner
      · cases failed

theorem ascending_error {items : List α} {e : ε} (failed : ascending precedes items = .error e) :
    ∃ a b, precedes a b = .error e := by
  rcases Except.bind_eq_error.mp failed with split | ⟨parts, -, failed⟩
  · exact leadingRun_error split
  · rcases Except.bind_eq_error.mp failed with inserted | ⟨whole, -, failed⟩
    · exact insertAll_error inserted
    · cases failed

end Every

section Rename

variable (precedes : β → β → Except ε Bool) (f : α → β)

theorem place_map (x : α) (sorted : Array α) (low high : Nat) :
    place precedes (f x) (sorted.map f) low high =
      place (fun a b => precedes (f a) (f b)) x sorted low high := by
  induction size : high - low using Nat.strong_induction_on generalizing low high with
  | _ size ih =>
    rw [place, place]
    by_cases open' : low < high
    · simp only [open', if_true, Array.getElem?_map]
      cases sorted[low + (high - low) / 2]? with
      | none => rfl
      | some y =>
        have lower := ih _ (by omega) low (low + (high - low) / 2) rfl
        have upper := ih _ (by omega) (low + (high - low) / 2 + 1) high rfl
        simp only [Option.map_some, lower, upper]
    · rw [if_neg open', if_neg open']

theorem insert_map (sorted : Array α) (x : α) :
    insert precedes (sorted.map f) (f x) =
      (insert (fun a b => precedes (f a) (f b)) sorted x).map (Array.map f) := by
  simp only [insert, Array.size_map, place_map]
  cases place (fun a b => precedes (f a) (f b)) x sorted 0 sorted.size with
  | error e => rfl
  | ok i =>
    have same : (sorted.map f).insertIdxIfInBounds i (f x) =
        (sorted.insertIdxIfInBounds i x).map f := by
      rw [← Array.toList_inj]
      simp only [toList_insert, Array.toList_map, List.map_insertIdx]
    simp only [bind, Except.bind, Except.map, same]

theorem insertAll_map (items : List α) (sorted : Array α) :
    (items.map f).foldlM (insert precedes) (sorted.map f) =
      (items.foldlM (insert fun a b => precedes (f a) (f b)) sorted).map (Array.map f) := by
  induction items generalizing sorted with
  | nil => rfl
  | cons x items ih =>
    rw [List.map_cons, List.foldlM_cons, List.foldlM_cons, insert_map]
    cases insert (fun a b => precedes (f a) (f b)) sorted x with
    | error e => rfl
    | ok middle => exact ih middle

theorem run_map (strict : Bool) (front : List α) (last : α) (items : List α) :
    run precedes strict (front.map f) (f last) (items.map f) =
      (run (fun a b => precedes (f a) (f b)) strict front last items).map
        (Prod.map (List.map f) (List.map f)) := by
  induction items generalizing front last with
  | nil => rfl
  | cons x items ih =>
    simp only [run, List.map_cons]
    cases precedes (f x) (f last) with
    | error e => rfl
    | ok less =>
      simp only [bind, Except.bind]
      split
      · exact ih (last :: front) x
      · rfl

theorem leadingRun_map (items : List α) :
    leadingRun precedes (items.map f) =
      (leadingRun (fun a b => precedes (f a) (f b)) items).map
        (Prod.map (List.map f) (List.map f)) := by
  match items with
  | [] => rfl
  | [x] => rfl
  | x :: y :: items =>
    simp only [leadingRun, List.map_cons]
    cases precedes (f y) (f x) with
    | error e => rfl
    | ok falling =>
      have inner := run_map precedes f falling [x] y items
      simp only [List.map_cons, List.map_nil] at inner
      simp only [bind, Except.bind, inner]
      cases run (fun a b => precedes (f a) (f b)) falling [x] y items with
      | error e => rfl
      | ok split =>
        obtain ⟨found, rest⟩ := split
        cases falling <;> simp [Except.map]

theorem ascending_map (items : List α) :
    ascending precedes (items.map f) =
      (ascending (fun a b => precedes (f a) (f b)) items).map (List.map f) := by
  simp only [ascending, leadingRun_map]
  cases leadingRun (fun a b => precedes (f a) (f b)) items with
  | error e => rfl
  | ok split =>
    have inner := insertAll_map precedes f split.2 split.1.toArray
    simp only [List.map_toArray] at inner
    simp only [bind, Except.bind, Except.map, Prod.map_fst, Prod.map_snd, inner]
    cases split.2.foldlM (insert fun a b => precedes (f a) (f b)) split.1.toArray with
    | error e => rfl
    | ok result => simp

theorem sorted_map (descending : Bool) (items : List α) :
    sorted precedes descending (items.map f) =
      (sorted (fun a b => precedes (f a) (f b)) descending items).map (List.map f) := by
  cases descending with
  | false => exact ascending_map precedes f items
  | true =>
    simp only [sorted, if_true, ← List.map_reverse, ascending_map]
    cases ascending (fun a b => precedes (f a) (f b)) items.reverse with
    | error e => rfl
    | ok result => simp [Except.map]

end Rename

/-- A sort fails only where a comparison of two of its items does. -/
theorem sorted_error {precedes : α → α → Except ε Bool} {descending : Bool} {items : List α} {e : ε}
    (failed : sorted precedes descending items = .error e) :
    ∃ a ∈ items, ∃ b ∈ items, precedes a b = .error e := by
  -- Among the items alone every comparison is one of two items.
  rw [← List.attach_map_subtype_val items, sorted_map] at failed
  have inside : ∃ a b : { x // x ∈ items }, precedes a.1 b.1 = .error e := by
    replace failed := Except.map_eq_error.mp failed
    cases descending with
    | false => exact ascending_error failed
    | true => exact ascending_error (Except.map_eq_error.mp failed)
  obtain ⟨a, b, compared⟩ := inside
  exact ⟨a.1, a.2, b.1, b.2, compared⟩

end NoteQuery.Sort
