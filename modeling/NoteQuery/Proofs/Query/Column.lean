import NoteQuery.Proofs.Query.Order
import NoteQuery.Proofs.Value.Kind

/-! Columns of mixed values. The order of a column is total on the values of some kinds exactly when the
kinds are compatible. Otherwise three values go round in a circle, or two cannot be compared. -/
namespace NoteQuery

namespace Value

variable {among : Kind → Prop} {moments : Bool} {a b : Value}

theorem Placed.notAfter_iff (placed : Placed moments a b) :
    NotAfter a b ↔ a.position moments ≤ b.position moments := by
  rw [← compare_le_iff_le]
  constructor
  · rintro ⟨o, compared, le⟩
    rw [placed, Except.ok.injEq] at compared
    rwa [compared]
  · exact fun le => ⟨_, placed, le⟩

theorem Placed.less_iff (placed : Placed moments a b) :
    less a b = true ↔ a.position moments < b.position moments := by
  rw [less_of_ok placed, beq_iff_eq, compare_lt_iff_lt]

/-- Values of compatible kinds can be compared, and their order is transitive. -/
theorem Compatible.orderly (compatible : Compatible among) :
    Orderly fun v => v.isNull = false ∧ among v.kind := by
  classical
  have placed (a b : Value) (first : a.isNull = false ∧ among a.kind)
      (second : b.isNull = false ∧ among b.kind) : Placed (decide (among .moment)) a b :=
    compatible.placed decide_eq_true_iff first.1 second.1 first.2 second.2
  refine ⟨fun a b first second => ⟨_, placed a b first second⟩, ?_⟩
  intro a b c first second third before after
  rw [(placed a b first second).notAfter_iff] at before
  rw [(placed b c second third).notAfter_iff] at after
  exact (placed a c first third).notAfter_iff.mpr (before.trans after)

/-- Three values that go round in a circle. -/
def Circle (a b c : Value) : Prop :=
  (a.isNull = false ∧ b.isNull = false ∧ c.isNull = false) ∧
    (sortOrder a b = .ok .lt ∨ sortOrder a b = .ok .eq) ∧
    (sortOrder b c = .ok .lt ∨ sortOrder b c = .ok .eq) ∧ sortOrder a c = .ok .gt

instance (a b c : Value) : Decidable (Circle a b c) := by
  unfold Circle
  infer_instance

theorem Orderly.no_circle (orderly : Orderly fun v => v.isNull = false ∧ among v.kind)
    {a b c : Value} (circle : Circle a b c) (first : among a.kind) (second : among b.kind)
    (third : among c.kind) : False := by
  obtain ⟨⟨ha, hb, hc⟩, before, after, back⟩ := circle
  have le {v w : Value} (compared : sortOrder v w = .ok .lt ∨ sortOrder v w = .ok .eq) :
      NotAfter v w := by
    rcases compared with compared | compared
    · exact ⟨.lt, compared, by decide⟩
    · exact ⟨.eq, compared, by decide⟩
  obtain ⟨o, compared, forth⟩ := orderly.trans a b c ⟨ha, first⟩ ⟨hb, second⟩ ⟨hc, third⟩
    (le before) (le after)
  rw [back, Except.ok.injEq] at compared
  exact forth compared.symm

section Circles

/-- A positive binary number of far less than a microsecond. -/
def tiny : Binary64 := .ofRatio false 1 1000000000

variable (orderly : Orderly fun v => v.isNull = false ∧ among v.kind)
include orderly

theorem Orderly.no_list : ¬ among .list := fun member =>
  have circle : Circle (list [text "9"]) (list [int 9]) (list [text "10"]) := by decide +kernel
  orderly.no_circle circle member member member

theorem Orderly.no_lostMoment : ¬ among .lostMoment := by
  intro member
  obtain ⟨m, kind, failed⟩ : ∃ m : Moment, (moment m).kind = .lostMoment ∧
      sortOrder (moment m) (moment m) = .error .outOfRange :=
    ⟨⟨⟨1, 1, 1, by decide, by decide, by decide⟩, .midnight, some ⟨3600, by decide⟩⟩,
      by decide +kernel, by decide +kernel⟩
  obtain ⟨o, compared⟩ := orderly.returns _ _ ⟨rfl, kind ▸ member⟩ ⟨rfl, kind ▸ member⟩
  rw [failed] at compared
  cases compared

theorem Orderly.no_longMap : ¬ among .longMap := by
  intro member
  have kind : (map [("n", int (10 ^ 5000))]).kind = .longMap := by decide +kernel
  obtain ⟨o, compared⟩ := orderly.returns (map [("n", int (10 ^ 5000))])
    (map [("n", int (10 ^ 5000))]) ⟨rfl, kind ▸ member⟩ ⟨rfl, kind ▸ member⟩
  have failed : sortOrder (map [("n", int (10 ^ 5000))]) (map [("n", int (10 ^ 5000))]) =
      .error .badValue := by decide +kernel
  rw [failed] at compared
  cases compared

theorem Orderly.notNumber (member : among .notNumber) :
    ¬ among .truth ∧ ¬ among .number ∧ ¬ among .timestamp := by
  have small : (int 2).kind = .timestamp ∧ (int 1).kind = .timestamp := by decide +kernel
  have large : (int (2 * 10 ^ 18)).kind = .number ∧ (int (10 ^ 18)).kind = .number := by
    decide +kernel
  refine ⟨fun truth => ?_, fun number => ?_, fun timestamp => ?_⟩
  · have circle : Circle (bool true) (float .nan) (bool false) := by decide +kernel
    exact orderly.no_circle circle truth member truth
  · have circle : Circle (int (2 * 10 ^ 18)) (float .nan) (int (10 ^ 18)) := by decide +kernel
    exact orderly.no_circle circle (large.1 ▸ number) member (large.2 ▸ number)
  · have circle : Circle (int 2) (float .nan) (int 1) := by decide +kernel
    exact orderly.no_circle circle (small.1 ▸ timestamp) member (small.2 ▸ timestamp)

theorem Orderly.no_twins {s t : String} {v : Value} {dated : Bool}
    (circle : Circle (text s) v (text t)) (first : (text s).kind = .text true dated)
    (second : (text t).kind = .text true dated) (member : among (.text true dated)) :
    ¬ among v.kind := fun between =>
  orderly.no_circle circle (first ▸ member) between (second ▸ member)

/-- Two texts of one number are equal to the number but not to each other. -/
theorem Orderly.numeral (dated : Bool) (member : among (.text true dated)) :
    ¬ among .notNumber ∧ ¬ among .number ∧ ¬ among .timestamp := by
  have kinds : (float .nan).kind = .notNumber ∧ (int 9).kind = .timestamp ∧
      (int 20240101).kind = .timestamp ∧ (int (10 ^ 18)).kind = .number ∧
      (int 202401010000000000).kind = .number := by decide +kernel
  obtain ⟨not, timestamp, timestamp', number, number'⟩ := kinds
  cases dated with
  | false =>
    refine ⟨?_, ?_, ?_⟩
    · rw [← not]
      exact orderly.no_twins (s := "9") (t := " 9") (by decide +kernel) (by decide +kernel)
        (by decide +kernel) member
    · rw [← number]
      exact orderly.no_twins (s := "1000000000000000000") (t := " 1000000000000000000")
        (by decide +kernel) (by decide +kernel) (by decide +kernel) member
    · rw [← timestamp]
      exact orderly.no_twins (s := "9") (t := " 9") (by decide +kernel) (by decide +kernel)
        (by decide +kernel) member
  | true =>
    refine ⟨?_, ?_, ?_⟩
    · rw [← not]
      exact orderly.no_twins (s := "20240101") (t := " 20240101") (by decide +kernel)
        (by decide +kernel) (by decide +kernel) member
    · rw [← number']
      exact orderly.no_twins (s := "20240101e10") (t := " 20240101e10") (by decide +kernel)
        (by decide +kernel) (by decide +kernel) member
    · rw [← timestamp']
      exact orderly.no_twins (s := "20240101") (t := " 20240101") (by decide +kernel)
        (by decide +kernel) (by decide +kernel) member

/-- Different numbers, or different texts, can be read as one moment. -/
theorem Orderly.moment (member : among .moment) :
    ¬ among .timestamp ∧ ∀ numeric, ¬ among (.text numeric true) := by
  obtain ⟨m, kind, circle⟩ : ∃ m : Moment, (Value.moment m).kind = .moment ∧
      Circle (float tiny) (.moment m) (int 0) :=
    ⟨.startOf ⟨1970, 1, 1, by decide, by decide, by decide⟩, by decide +kernel, by decide +kernel⟩
  have numbers : (float tiny).kind = .timestamp ∧ (int 0).kind = .timestamp := by decide +kernel
  obtain ⟨n, kind', dates, digits⟩ : ∃ n : Moment, (Value.moment n).kind = .moment ∧
      Circle (.text "2024-01-01") (.moment n) (.text " 2024-01-01") ∧
      Circle (.text "20240101") (.moment n) (.text " 20240101") :=
    ⟨.startOf ⟨2024, 1, 1, by decide, by decide, by decide⟩, by decide +kernel, by decide +kernel,
      by decide +kernel⟩
  have texts : (Value.text "2024-01-01").kind = .text false true ∧
      (Value.text " 2024-01-01").kind = .text false true ∧
      (Value.text "20240101").kind = .text true true ∧
      (Value.text " 20240101").kind = .text true true := by decide +kernel
  obtain ⟨date, date', number, number'⟩ := texts
  refine ⟨fun timestamp => ?_, fun numeric text => ?_⟩
  · exact orderly.no_circle circle (numbers.1 ▸ timestamp) (kind ▸ member)
      (numbers.2 ▸ timestamp)
  · cases numeric with
    | false => exact orderly.no_circle dates (date ▸ text) (kind' ▸ member) (date' ▸ text)
    | true => exact orderly.no_circle digits (number ▸ text) (kind' ▸ member) (number' ▸ text)

/-- A day is compared with a moment, but comes after texts and maps, and these after moments. -/
theorem Orderly.date (member : among .moment) (day : among .date) :
    ¬ among .map ∧ ∀ numeric dated, ¬ among (.text numeric dated) := by
  obtain ⟨m, d, kind, maps, words, numerals⟩ : ∃ (m : Moment) (d : Date),
      (Value.moment m).kind = .moment ∧ Circle (.moment m) (map []) (.date d) ∧
      Circle (.moment m) (.text "x") (.date d) ∧ Circle (.moment m) (.text "9") (.date d) :=
    ⟨.startOf ⟨2024, 1, 1, by decide, by decide, by decide⟩,
      ⟨2000, 1, 1, by decide, by decide, by decide⟩, by decide +kernel, by decide +kernel,
      by decide +kernel, by decide +kernel⟩
  have texts : (Value.text "x").kind = .text false false ∧
      (Value.text "9").kind = .text true false := by decide +kernel
  refine ⟨fun map => ?_, fun numeric dated text => ?_⟩
  · exact orderly.no_circle maps (kind ▸ member) map day
  · cases dated with
    | true => exact (orderly.moment member).2 numeric text
    | false =>
      cases numeric with
      | false => exact orderly.no_circle words (kind ▸ member) (texts.1 ▸ text) day
      | true => exact orderly.no_circle numerals (kind ▸ member) (texts.2 ▸ text) day

/-- Kinds whose values are orderly are compatible. -/
theorem Orderly.compatible : Compatible among :=
  ⟨orderly.no_list, orderly.no_lostMoment, orderly.no_longMap, orderly.notNumber, orderly.numeral,
    orderly.moment, orderly.date⟩

end Circles

end Value

section Columns

variable {among : Value.Kind → Prop}

private theorem sorted_positions {moments : Bool} (descending : Bool) {items : List Value}
    (orderly : Value.Orderly fun v => v.isNull = false ∧ among v.kind)
    (placed : ∀ a b, (a.isNull = false ∧ among a.kind) → (b.isNull = false ∧ among b.kind) →
      Value.Placed moments a b)
    (inside : ∀ v ∈ items, v.isNull = false ∧ among v.kind) :
    ∃ result, Sort.sorted (comparison id) descending items = .ok result ∧ result.Perm items ∧
      (result.map (Value.position moments)).Pairwise fun p q =>
        if descending then q ≤ p else p ≤ q := by
  have among_items : ∀ v, (∃ a ∈ items, id a = v) → v.isNull = false ∧ among v.kind := by
    rintro v ⟨a, member, rfl⟩
    exact inside a member
  have untied : items.Pairwise fun _ _ => True := List.pairwise_of_forall fun _ _ => trivial
  obtain ⟨result, sorted, permuted, ordered⟩ :=
    sorted_orderly descending (orderly.mono among_items) untied
  refine ⟨result, sorted, permuted, List.pairwise_map.mpr (ordered.imp_of_mem ?_)⟩
  intro a b first second before
  have first := inside a (permuted.mem_iff.mp first)
  have second := inside b (permuted.mem_iff.mp second)
  have forth := (placed a b first second).less_iff
  have back := (placed b a second first).less_iff
  cases descending with
  | false =>
    rcases before with before | ⟨not, _⟩
    · exact (forth.mp before).le
    · exact not_lt.mp fun less => absurd (back.mpr less) (by simpa using not)
  | true =>
    rcases before with before | ⟨not, _⟩
    · exact (back.mp before).le
    · exact not_lt.mp fun less => absurd (forth.mpr less) (by simpa using not)

/-- Sorted values of compatible kinds do not depend on the order in which the values come, but for
those that are equal. -/
theorem sorted_ties (compatible : Value.Compatible among) (descending : Bool)
    {items items' : List Value} (permuted : items.Perm items')
    (inside : ∀ v ∈ items, v.isNull = false ∧ among v.kind) :
    ∃ result result', Sort.sorted (comparison id) descending items = .ok result ∧
      Sort.sorted (comparison id) descending items' = .ok result' ∧
      List.Forall₂ (fun v w => Value.sortOrder v w = .ok .eq) result result' := by
  classical
  have placed (a b : Value) (first : a.isNull = false ∧ among a.kind)
      (second : b.isNull = false ∧ among b.kind) :
      Value.Placed (decide (among .moment)) a b :=
    compatible.placed decide_eq_true_iff first.1 second.1 first.2 second.2
  have inside' : ∀ v ∈ items', v.isNull = false ∧ among v.kind := fun v member =>
    inside v (permuted.mem_iff.mpr member)
  obtain ⟨r, sorted, perm, ordered⟩ :=
    sorted_positions descending compatible.orderly placed inside
  obtain ⟨r', sorted', perm', ordered'⟩ :=
    sorted_positions descending compatible.orderly placed inside'
  have perms : r.Perm r' := perm.trans (permuted.trans perm'.symm)
  have same : r.map (Value.position (decide (among .moment))) =
      r'.map (Value.position (decide (among .moment))) := by
    refine (perms.map _).eq_of_pairwise (fun p q _ _ forth back => ?_) ordered ordered'
    cases descending with
    | false => exact le_antisymm forth back
    | true => exact le_antisymm back forth
  rw [← List.forall₂_eq_eq_eq, List.forall₂_map_left_iff, List.forall₂_map_right_iff,
    List.forall₂_iff_zip] at same
  refine ⟨r, r', sorted, sorted', List.forall₂_iff_zip.mpr ⟨same.1, fun {v w} member => ?_⟩⟩
  have first := inside v (perm.mem_iff.mp (List.of_mem_zip member).1)
  have second := inside' w (perm'.mem_iff.mp (List.of_mem_zip member).2)
  rw [placed v w first second, same.2 member, compare_eq_iff_eq.mpr rfl]

theorem pass_ties (compatible : Value.Compatible among) (descending : Bool)
    {items items' : List Value} (permuted : items.Perm items')
    (inside : ∀ v ∈ items, v.isNull = false → among v.kind) :
    ∃ result result', pass id descending items = .ok result ∧
      pass id descending items' = .ok result' ∧
      List.Forall₂ (fun v w => Value.sortOrder v w = .ok .eq) result result' := by
  have front : ∀ v ∈ items.filter fun v => !(id v).isNull, v.isNull = false ∧ among v.kind := by
    intro v member
    obtain ⟨member, present⟩ := List.mem_filter.mp member
    have present : v.isNull = false := by simpa using present
    exact ⟨present, inside v member present⟩
  have null {v : Value} {items : List Value} (member : v ∈ items.filter fun v => (id v).isNull) :
      v = .null := by
    have present := (List.mem_filter.mp member).2
    cases v with
    | null => rfl
    | _ => cases present
  obtain ⟨r, r', sorted, sorted', ties⟩ :=
    sorted_ties compatible descending (permuted.filter _) front
  refine ⟨r ++ items.filter fun v => (id v).isNull, r' ++ items'.filter fun v => (id v).isNull,
    by rw [pass, sorted]; rfl, by rw [pass, sorted']; rfl, List.rel_append ties ?_⟩
  rw [List.forall₂_iff_zip]
  refine ⟨(permuted.filter _).length_eq, fun {v w} member => ?_⟩
  rw [null (List.of_mem_zip member).1, null (List.of_mem_zip member).2]
  rfl

/-- Read backwards the order of a column gives the opposite answer. It is total and transitive on
the values of some kinds exactly when the kinds are compatible, and then a sorted column does not
depend on the order in which its values come, but for values that are equal. -/
theorem sortOrder_orderly_iff (among : Value.Kind → Prop) :
    (∀ a b, Value.sortOrder b a = (Value.sortOrder a b).map Ordering.swap) ∧
    ((Value.Orderly fun v => v.isNull = false ∧ among v.kind) ↔ Value.Compatible among) ∧
    ∀ descending (items items' : List Value), Value.Compatible among → items.Perm items' →
      (∀ v ∈ items, v.isNull = false → among v.kind) →
      ∃ result result', pass id descending items = .ok result ∧
        pass id descending items' = .ok result' ∧
        List.Forall₂ (fun v w => Value.sortOrder v w = .ok .eq) result result' :=
  ⟨Value.sortOrder_swap, ⟨fun orderly => orderly.compatible, fun compatible => compatible.orderly⟩,
    fun descending _ _ compatible permuted inside =>
      pass_ties compatible descending permuted inside⟩

end Columns

end NoteQuery
