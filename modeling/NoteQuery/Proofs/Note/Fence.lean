import Mathlib
import NoteQuery.Note.Metadata
import NoteQuery.Proofs.Text.Search

/-! A text without the code between its fences, as a relation: code begins at the first fence of all, where
any fence follows it, and ends at the next. What stands around it is put together, and no fence is looked for
where the two meet. -/
namespace NoteQuery

open NoteQuery.Text

/-- No fence begins in the text, not even where a further one comes next. -/
def Unmarked (text : List Char) : Prop := ¬fence <:+: text ++ ['`', '`']

instance (text : List Char) : Decidable (Unmarked text) := inferInstanceAs (Decidable (¬_))

/-- No fence is followed by another. -/
def Unpaired (text : List Char) : Prop :=
  ∀ before code after, text ≠ before ++ (fence ++ (code ++ (fence ++ after)))

/-- The second text is the first without fenced code. -/
inductive Unfenced : List Char → List Char → Prop
  | plain {text : List Char} (unpaired : Unpaired text) : Unfenced text text
  | code {before code after rest : List Char} (first : Unmarked before) (next : Unmarked code)
      (later : Unfenced after rest) :
      Unfenced (before ++ (fence ++ (code ++ (fence ++ after)))) (before ++ rest)

section Search

variable {text rest code after : List Char} {c : Char}

theorem unmarked_nil : Unmarked [] := fun marked => absurd marked.length_le (by decide)

/-- Where no fence is in a text and another sign stands at its end, none begins in it. -/
theorem unmarked_of_last (unfenced : ¬fence <:+: text) (last : text.getLast? ≠ some '`') : Unmarked text := by
  rintro ⟨before, after, split⟩
  rcases List.eq_nil_or_concat' after with rfl | ⟨after, c, rfl⟩
  · have whole : text = before ++ ['`'] :=
      List.append_cancel_right (show text ++ ['`', '`'] = before ++ ['`'] ++ ['`', '`'] by
        simpa [fence] using split.symm)
    exact last (by rw [whole, List.getLast?_concat])
  · have shorter : before ++ fence ++ after = text ++ ['`'] := by
      have last_two : text ++ ['`', '`'] = text ++ ['`'] ++ ['`'] := by simp
      rw [← List.append_assoc, last_two] at split
      exact (List.append_inj' split rfl).1
    rcases List.eq_nil_or_concat' after with rfl | ⟨after, d, rfl⟩
    · have whole : text = before ++ ['`'] ++ ['`'] :=
        List.append_cancel_right (show text ++ ['`'] = before ++ ['`'] ++ ['`'] ++ ['`'] by
          simpa [fence] using shorter.symm)
      exact last (by rw [whole, List.getLast?_concat])
    · rw [← List.append_assoc] at shorter
      exact unfenced ⟨before, after, (List.append_inj' shorter rfl).1⟩

theorem unmarked_of_signless (signless : '`' ∉ text) : Unmarked text := by
  refine unmarked_of_last (fun inside => signless ?_) fun last => signless (List.mem_of_getLast? last)
  exact inside.subset List.mem_cons_self

theorem unmarked_cons :
    Unmarked (c :: text) ↔ ¬fence <+: c :: (text ++ ['`', '`']) ∧ Unmarked text := by
  rw [Unmarked, Unmarked, List.cons_append, List.infix_cons_iff, not_or]

/-- Whether a fence begins in front of another is settled by the first two signs of that one. -/
theorem fence_prefix_iff :
    fence <+: c :: (text ++ (fence ++ rest)) ↔ fence <+: c :: (text ++ ['`', '`']) := by
  have longer : c :: (text ++ (fence ++ rest)) = c :: (text ++ ['`', '`']) ++ '`' :: rest := by
    simp [fence]
  rw [longer]
  constructor
  · intro begins
    exact List.prefix_of_prefix_length_le begins (List.prefix_append _ _) (by simp [fence])
  · exact fun begins => begins.trans (List.prefix_append _ _)

theorem dropPrefix?_fence_none : dropPrefix? fence text = none ↔ ¬fence <+: text := by
  rw [← startsWith_iff, startsWith, Bool.not_eq_true, Option.isSome_eq_false_iff, Option.isNone_iff_eq_none]

/-- The search ends behind the first fence. -/
theorem afterFence_eq_some :
    afterFence text = some rest ↔ ∃ code, text = code ++ (fence ++ rest) ∧ Unmarked code := by
  induction text with
  | nil => simp [afterFence, fence]
  | cons c text ih =>
    rw [afterFence]
    cases opened : dropPrefix? fence (c :: text) with
    | some found =>
      have whole := dropPrefix?_eq_some.mp opened
      constructor
      · rintro ⟨⟩
        exact ⟨[], whole, unmarked_nil⟩
      · rintro ⟨_ | ⟨d, code⟩, split, unmarked⟩
        · rw [List.nil_append, whole] at split
          exact congrArg some (List.append_cancel_left split)
        · have begins : fence <+: d :: (code ++ (fence ++ rest)) := ⟨found, whole ▸ split⟩
          exact absurd (fence_prefix_iff.mp begins) (unmarked_cons.mp unmarked).1
    | none =>
      have unopened := dropPrefix?_fence_none.mp opened
      refine ih.trans ⟨?_, ?_⟩
      · rintro ⟨code, rfl, unmarked⟩
        exact ⟨c :: code, rfl, unmarked_cons.mpr ⟨mt fence_prefix_iff.mpr unopened, unmarked⟩⟩
      · rintro ⟨_ | ⟨d, code⟩, split, unmarked⟩
        · exact absurd ⟨rest, split.symm⟩ unopened
        · exact ⟨code, (List.cons.inj split).2, (unmarked_cons.mp unmarked).2⟩

theorem afterFence_eq_none : afterFence text = none ↔ ¬fence <:+: text := by
  induction text with
  | nil => exact iff_of_true rfl fun marked => absurd marked.length_le (by decide)
  | cons c text ih =>
    rw [afterFence, List.infix_cons_iff, not_or, ← dropPrefix?_fence_none, ← ih]
    cases dropPrefix? fence (c :: text) <;> simp

theorem Unpaired.tail (unpaired : Unpaired (c :: text)) : Unpaired text :=
  fun before code after paired => unpaired (c :: before) code after (congrArg (c :: ·) paired)

/-- Where no fence follows the one in front, there is no pair of them. -/
theorem unpaired_of_open {inside : List Char} (unclosed : ¬fence <:+: inside) :
    Unpaired (fence ++ inside) := by
  intro before code after paired
  have ends : code ++ (fence ++ after) <:+ fence ++ inside :=
    ⟨before ++ fence, by rw [paired, List.append_assoc]⟩
  have behind : code ++ (fence ++ after) <:+ inside := by
    refine List.suffix_of_suffix_length_le ends (List.suffix_append _ _) ?_
    have sizes := congrArg List.length paired
    simp only [List.length_append] at sizes ⊢
    omega
  exact unclosed (List.IsInfix.trans ⟨code, after, by rw [List.append_assoc]⟩ behind.isInfix)

end Search

section Removal

variable {text rest before code after : List Char} {c : Char}

theorem withoutCode_cons (unopened : ¬fence <+: c :: text) :
    withoutCode (c :: text) = c :: withoutCode text := by
  rw [withoutCode]
  split
  · rfl
  · rename_i opened
    exact absurd ⟨_, (dropPrefix?_eq_some.mp opened).symm⟩ unopened

theorem withoutCode_fence {inside : List Char} (closed : afterFence inside = some after) :
    withoutCode (fence ++ inside) = withoutCode after := by
  have opened : dropPrefix? fence (fence ++ inside) = some inside := dropPrefix?_eq_some.mpr rfl
  change withoutCode ('`' :: (['`', '`'] ++ inside)) = withoutCode after
  rw [withoutCode]
  split
  · rename_i unopened
    cases unopened.symm.trans opened
  · rename_i opened'
    cases opened'.symm.trans opened
    split
    · rename_i unclosed
      cases unclosed.symm.trans closed
    · rename_i closed'
      cases closed'.symm.trans closed
      rfl

theorem withoutCode_unpaired (unpaired : Unpaired text) : withoutCode text = text := by
  fun_induction withoutCode text with
  | case1 => rfl
  | case2 c rest _ ih => exact congrArg (c :: ·) (ih unpaired.tail)
  | case3 c rest _ _ _ ih => exact congrArg (c :: ·) (ih unpaired.tail)
  | case4 c rest inside opened after closed =>
    obtain ⟨code, split, -⟩ := afterFence_eq_some.mp closed
    exact absurd ((dropPrefix?_eq_some.mp opened).trans (split ▸ rfl)) (unpaired [] code after)

/-- In front of a text no fence begins that would not begin in front of two signs of one. -/
theorem fence_prefix_append (begins : fence <+: c :: (text ++ rest)) : fence <+: c :: (text ++ ['`', '`']) := by
  simp only [fence, List.cons_prefix_cons] at begins ⊢
  rcases text with _ | ⟨d, _ | ⟨e, text⟩⟩
  · exact ⟨begins.1, List.prefix_rfl⟩
  · obtain ⟨rfl, within⟩ := begins
    rw [List.cons_append, List.cons_prefix_cons] at within
    simp [← within.1]
  · obtain ⟨rfl, within⟩ := begins
    simp only [List.cons_append, List.cons_prefix_cons, List.nil_prefix, and_true] at within ⊢
    exact ⟨trivial, within⟩

/-- What stands in front of all fences stays as it is. -/
theorem withoutCode_append (unmarked : Unmarked before) (after : List Char) :
    withoutCode (before ++ after) = before ++ withoutCode after := by
  induction before with
  | nil => rfl
  | cons c before ih =>
    rw [unmarked_cons] at unmarked
    rw [List.cons_append, withoutCode_cons (mt fence_prefix_append unmarked.1), ih unmarked.2, List.cons_append]

theorem withoutCode_code (first : Unmarked before) (next : Unmarked code) :
    withoutCode (before ++ (fence ++ (code ++ (fence ++ after)))) = before ++ withoutCode after := by
  rw [withoutCode_append first, withoutCode_fence (afterFence_eq_some.mpr ⟨code, rfl, next⟩)]

theorem Unfenced.cons (unopened : ¬fence <+: c :: text) (unfenced : Unfenced text rest) :
    Unfenced (c :: text) (c :: rest) := by
  cases unfenced with
  | plain unpaired =>
    refine .plain fun before code after paired => ?_
    cases before with
    | nil => exact unopened ⟨_, paired.symm⟩
    | cons d before => exact unpaired before code after (List.cons.inj paired).2
  | code first next later =>
    exact .code (unmarked_cons.mpr ⟨mt fence_prefix_iff.mpr unopened, first⟩) next later

end Removal

/-- What is left of a text is the text without fenced code, and nothing else is. -/
theorem withoutCode_iff {text rest : List Char} : withoutCode text = rest ↔ Unfenced text rest := by
  constructor
  · rintro rfl
    fun_induction withoutCode text with
    | case1 => exact .plain fun before code after paired => by simp [fence] at paired
    | case2 c rest opened ih => exact ih.cons (dropPrefix?_fence_none.mp opened)
    | case3 c rest inside opened closed ih =>
      have unpaired := unpaired_of_open (afterFence_eq_none.mp closed)
      rw [← dropPrefix?_eq_some.mp opened] at unpaired
      rw [withoutCode_unpaired unpaired.tail]
      exact .plain unpaired
    | case4 c rest inside opened after closed ih =>
      obtain ⟨code, split, next⟩ := afterFence_eq_some.mp closed
      rw [dropPrefix?_eq_some.mp opened, split]
      exact .code unmarked_nil next ih
  · intro unfenced
    induction unfenced with
    | plain unpaired => exact withoutCode_unpaired unpaired
    | code first next _ ih => rw [withoutCode_code first next, ih]

end NoteQuery
