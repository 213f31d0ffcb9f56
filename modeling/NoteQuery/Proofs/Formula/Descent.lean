import NoteQuery.Proofs.Formula.Reading
import NoteQuery.Proofs.Value.Parts

/-! The descent into formulas. A full account says what every formula is worth. A memory that agrees
with it, and that knows a cycle as a whole or not at all, answers every read by it: either the
formula that is read gets its value, or the read has met a formula that is being evaluated and the
cycle through it waits to be closed further up. The table is kept by text, so formulas with one text
have one place in it; a formula on a cycle must have its text for itself. -/
namespace NoteQuery

namespace Formulas

/-- The dialogue of a formula. One that is not defined is null. -/
noncomputable def script (formulas : Formulas) (present : Moment) (context : Context)
    (name : String) : Script Value :=
  match formulas.lookup name with
  | none => .done (.ok .null)
  | some text =>
    Classical.choose (Expr.ofTextIn_scripted present context formulas.names text)

def Known (formulas : Formulas) (path : String) (table : FormulaTable) (name : String) : Prop :=
  ∀ text, formulas.lookup name = some text → ∃ v, table.find? path text = some v

section Table

variable {formulas : Formulas} {path : String} {table : FormulaTable} {name text : String}

theorem script_runs (present : Moment) (context : Context)
    (found : formulas.lookup name = some text) (read : String → Eval Value) :
    Expr.ofTextIn (.reading present context formulas.names read) text =
      (script formulas present context name).run read := by
  simp only [script, found]
  exact Classical.choose_spec (Expr.ofTextIn_scripted present context formulas.names text) read

theorem script_of_undefined (present : Moment) (context : Context)
    (undefined : formulas.lookup name = none) :
    script formulas present context name = .done (.ok .null) := by
  simp only [script, undefined]

/-- A dialogue depends on the text alone. -/
theorem script_of_same (present : Moment) (context : Context) {other : String}
    (same : formulas.lookup name = formulas.lookup other) :
    script formulas present context name = script formulas present context other := by
  simp only [script, same]

private theorem choose_congr {α : Type} {f g : (String → Eval Value) → Eval α} (same : f = g)
    (scripted : Scripted f) (scripted' : Scripted g) :
    Classical.choose scripted = Classical.choose scripted' := by
  subst same
  rfl

theorem script_congr {formulas' : Formulas} {present present' : Moment} {context context' : Context}
    (lookups : ∀ n, formulas.lookup n = formulas'.lookup n)
    (texts : ∀ n text, formulas.lookup n = some text → ∀ read,
      Expr.ofTextIn (.reading present context formulas.names read) text =
        Expr.ofTextIn (.reading present' context' formulas'.names read) text) :
    script formulas present context = script formulas' present' context' := by
  funext n
  simp only [script, ← lookups n]
  cases found : formulas.lookup n with
  | none => rfl
  | some text => exact choose_congr (funext (texts n text found)) _ _

theorem lookup_mem (found : formulas.lookup name = some text) : (name, text) ∈ formulas :=
  Entries.mem_of_lookup found

theorem undefined_of_not_mem (absent : name ∉ formulas.names) : formulas.lookup name = none := by
  rw [List.lookup_eq_none_iff]
  intro entry member
  have apart : name ≠ entry.1 := fun same => absent (List.mem_map.mpr ⟨entry, member, same.symm⟩)
  simpa using apart

theorem lookup_injective (distinct : (formulas.map Prod.snd).Nodup) {other : String}
    (found : formulas.lookup name = some text) (found' : formulas.lookup other = some text) :
    name = other :=
  congrArg Prod.fst (List.inj_on_of_nodup_map distinct (lookup_mem found) (lookup_mem found') rfl)

theorem known_of_undefined (undefined : formulas.lookup name = none) :
    Known formulas path table name := by
  intro text found
  rw [undefined] at found
  cases found

theorem known_iff_of_defined (found : formulas.lookup name = some text) :
    Known formulas path table name ↔ ∃ v, table.find? path text = some v := by
  constructor
  · exact fun known => known text found
  · intro kept text' found'
    rw [found, Option.some.injEq] at found'
    exact found' ▸ kept

theorem unkept_of_unknown (found : formulas.lookup name = some text)
    (unknown : ¬ Known formulas path table name) : table.find? path text = none := by
  cases kept : table.find? path text with
  | none => rfl
  | some v => exact absurd ((known_iff_of_defined found).mpr ⟨v, kept⟩) unknown

theorem known_put (text : String) (v : Value) (other : String) :
    Known formulas path (table.put path text v) other ↔
      Known formulas path table other ∨ formulas.lookup other = some text := by
  cases found : formulas.lookup other with
  | none => exact iff_of_true (known_of_undefined found) (.inl (known_of_undefined found))
  | some text' =>
    rw [known_iff_of_defined found, known_iff_of_defined found, FormulaTable.find?_put]
    by_cases same : text' = text
    · simp [same]
    · simp [same]

end Table

/-- What one memory keeps of another: every value, the marks of cycles, other notes and other texts
as they are. -/
structure Keeps (formulas : Formulas) (path : String) (before after : Memo) : Prop where
  values : ∀ text v, before.table.find? path text = some v → after.table.find? path text = some v
  others : ∀ path' text, path' ≠ path → after.table.find? path' text = before.table.find? path' text
  foreign : ∀ text, (∀ name, formulas.lookup name ≠ some text) →
    after.table.find? path text = before.table.find? path text
  cyclic : before.cyclic ⊆ after.cyclic

namespace Keeps

variable {formulas : Formulas} {path : String} {before middle after : Memo}

theorem refl (formulas : Formulas) (path : String) (memo : Memo) : Keeps formulas path memo memo :=
  ⟨fun _ _ kept => kept, fun _ _ _ => rfl, fun _ _ => rfl, fun _ member => member⟩

theorem trans (first : Keeps formulas path before middle) (second : Keeps formulas path middle after) :
    Keeps formulas path before after :=
  ⟨fun text v kept => second.values text v (first.values text v kept),
    fun path' text apart => (second.others path' text apart).trans (first.others path' text apart),
    fun text foreign => (second.foreign text foreign).trans (first.foreign text foreign),
    fun _ member => second.cyclic (first.cyclic member)⟩

theorem mark (formulas : Formulas) (path : String) (memo : Memo) (names : List String) :
    Keeps formulas path memo (memo.mark names) :=
  ⟨fun _ _ kept => kept, fun _ _ _ => rfl, fun _ _ => rfl, by simp [Memo.mark]⟩

theorem put (memo : Memo) {name text : String} (v : Value)
    (found : formulas.lookup name = some text) (unknown : ¬ Known formulas path memo.table name) :
    Keeps formulas path memo (memo.keep path text v) := by
  have unkept := unkept_of_unknown found unknown
  refine ⟨fun text' v' kept => ?_, fun path' text' apart => ?_, fun text' foreign => ?_,
    fun _ member => member⟩
  · simp only [Memo.keep, FormulaTable.find?_put]
    rw [if_neg]
    · exact kept
    · intro same
      rw [(Prod.mk.inj same).2, unkept] at kept
      cases kept
  · simp only [Memo.keep, FormulaTable.find?_put]
    rw [if_neg (by simp [apart])]
  · simp only [Memo.keep, FormulaTable.find?_put]
    rw [if_neg]
    intro same
    exact foreign name (found.trans (congrArg some (Prod.mk.inj same).2.symm))

theorem known (keeps : Keeps formulas path before after) {name : String}
    (here : Known formulas path before.table name) : Known formulas path after.table name := by
  intro text found
  obtain ⟨v, kept⟩ := here text found
  exact ⟨v, keeps.values text v kept⟩

end Keeps

/-- The first formula is read by the second. -/
def AskedBy (asks : String → List String) (inner outer : String) : Prop := inner ∈ asks outer

section Chain

variable {asks : String → List String} {name : String} {stack : List String}

/-- Each formula that is being evaluated has asked for something that leads to what is read now. -/
theorem leads_of_chain (chain : (name :: stack).IsChain (AskedBy asks)) :
    ∀ n ∈ stack, ∃ m ∈ asks n, Leads asks m name := by
  induction stack generalizing name with
  | nil => simp
  | cons top stack ih =>
    obtain ⟨asked, rest⟩ := List.isChain_cons_cons.mp chain
    refine List.forall_mem_cons.mpr ⟨⟨name, asked, .refl⟩, fun n member => ?_⟩
    obtain ⟨m, first, path⟩ := ih rest n member
    exact ⟨m, first, path.tail asked⟩

/-- A formula that is read again closes a circle, and all that are evaluated further in are on it. -/
theorem onCycle_of_chain {inner outer : List String}
    (chain : (name :: (inner ++ name :: outer)).IsChain (AskedBy asks)) :
    ∀ n ∈ inner ++ [name], OnCycle asks n := by
  intro n member
  rcases List.mem_append.mp member with inside | last
  · obtain ⟨before, after, rfl⟩ := List.append_of_mem inside
    obtain ⟨m, asked, out⟩ := leads_of_chain chain n (by simp)
    have further : (n :: (after ++ name :: outer)).IsChain (AskedBy asks) := by
      have split : name :: (before ++ n :: after ++ name :: outer) =
          (name :: before) ++ n :: (after ++ name :: outer) := by simp
      exact (split ▸ chain).right_of_append
    obtain ⟨m', asked', back⟩ := leads_of_chain further name (by simp)
    exact ⟨m, asked, out.trans (.head asked' back)⟩
  · rw [List.mem_singleton.mp last]
    exact leads_of_chain chain name (by simp)

end Chain

section Descent

variable (formulas : Formulas) (present : Moment) (context : Context) (value : String → Value)
  (asks : String → List String)

/-- A full account of the formulas, in which none on a cycle shares its text with another. -/
structure Sound : Prop where
  account : Account (script formulas present context) (fun _ => True) value asks
  unshared : ∀ n m text, formulas.lookup n = some text → formulas.lookup m = some text →
    OnCycle asks n → m = n

/-- The memory agrees with the account and knows none of the formulas being evaluated. Of a cycle it
knows all if it knows any, up to those that are awaited. -/
structure Consistent (stack : List String) (memo : Memo) (awaited : List String) : Prop where
  correct : ∀ n text v, formulas.lookup n = some text →
    memo.table.find? context.path text = some v → v = value n
  closed : ∀ n m, Known formulas context.path memo.table n → m ∈ asks n → Leads asks m n →
    Known formulas context.path memo.table m ∨ m ∈ awaited
  entered : ∀ n ∈ stack, ¬ Known formulas context.path memo.table n

structure Ready (stack : List String) (memo : Memo) : Prop where
  consistent : Consistent formulas context value asks stack memo []
  cyclic : ∀ n ∈ memo.cyclic, Known formulas context.path memo.table n ∧ OnCycle asks n

/-- The read of a formula has met a cycle that leads back to one being evaluated. From there inwards
all are marked. -/
structure Caught (stack : List String) (memo : Memo) (back next : String) : Prop where
  consistent : Consistent formulas context value asks stack memo [back]
  met : Known formulas context.path memo.table next ∨ next = back
  leads : Leads asks next back
  marked : ∃ inner outer, stack = inner ++ back :: outer ∧
    (∀ n ∈ inner ++ [back], n ∈ memo.cyclic) ∧
    ∀ n ∈ memo.cyclic, OnCycle asks n ∧
      (Known formulas context.path memo.table n ∨ n ∈ inner ++ [back])

/-- What a formula being evaluated leads to does not lead back to it. -/
def Apart (stack : List String) (m : String) : Prop := ∀ n ∈ stack, Leads asks n m → ¬ Leads asks m n

/-- What a dialogue comes to while formulas are being evaluated: either every question is answered,
or one of them meets a cycle after others that do not. -/
inductive Converses {α : Type} (stack : List String) (before : Memo) (t : Script α) :
    Except Failure α × Memo → Prop
  | answered (after : Memo) (ready : Ready formulas context value asks stack after)
      (keeps : Keeps formulas context.path before after)
      (known : ∀ m ∈ t.asked value, Known formulas context.path after.table m) :
      Converses stack before t (t.result value, after)
  | caught (e : Failure) (after : Memo) (back next : String) (front : List String)
      (keeps : Keeps formulas context.path before after)
      (cycle : Caught formulas context value asks stack after back next)
      (begins : front ++ [next] <+: t.asked value)
      (fine : ∀ m ∈ front, Apart asks stack m) :
      Converses stack before t (.error e, after)

/-- A reader that may be asked whatever the innermost formula being evaluated asks. -/
def Answers (stack : List String) (read : String → Eval Value) : Prop :=
  ∀ memo, Ready formulas context value asks stack memo → ∀ name,
    (name :: stack).IsChain (AskedBy asks) →
    Converses formulas context value asks stack memo (Script.question name) ((read name).on memo)

variable {formulas present context value asks}
variable {stack : List String} {memo : Memo}

namespace Sound

variable {n m text : String}

theorem settled (sound : Sound formulas present context value asks) (n : String) :
    Settled (script formulas present context) value asks n := sound.account.settled n trivial

theorem of_distinct (distinct : (formulas.map Prod.snd).Nodup)
    (account : Account (script formulas present context) (fun _ => True) value asks) :
    Sound formulas present context value asks :=
  ⟨account, fun _ _ _ found found' _ => lookup_injective distinct found' found⟩

theorem congr (sound : Sound formulas present context value asks) {formulas' : Formulas}
    {present' : Moment} {context' : Context}
    (scripts : script formulas present context = script formulas' present' context')
    (lookups : ∀ n, formulas.lookup n = formulas'.lookup n) :
    Sound formulas' present' context' value asks :=
  ⟨scripts ▸ sound.account, fun n m text found found' =>
    sound.unshared n m text ((lookups n).trans found) ((lookups m).trans found')⟩

/-- Two formulas with one text are straight, ask the same and are worth the same. -/
theorem twins (sound : Sound formulas present context value asks)
    (found : formulas.lookup n = some text) (found' : formulas.lookup m = some text)
    (apart : n ≠ m) : ¬ OnCycle asks n ∧ asks n = asks m ∧ value n = value m := by
  have straight : ¬ OnCycle asks n := fun cycle => apart (sound.unshared n m text found found' cycle).symm
  have straight' : ¬ OnCycle asks m := fun cycle => apart (sound.unshared m n text found' found cycle)
  have same := script_of_same present context (found.trans found'.symm)
  obtain ⟨all, equal⟩ := (sound.settled n).of_straight straight
  obtain ⟨all', equal'⟩ := (sound.settled m).of_straight straight'
  exact ⟨straight, by rw [all, all', same], by rw [equal, equal', same]⟩

theorem value_of_undefined (sound : Sound formulas present context value asks)
    (undefined : formulas.lookup n = none) : value n = .null := by
  have silent := script_of_undefined present context undefined
  cases sound.settled n with
  | straight _ equal _ => rw [equal, silent, Script.result, worth]
  | looped _ _ _ _ _ _ null => exact null

end Sound

namespace Consistent

variable {awaited : List String}

/-- A formula gets the value that it is worth. The next on its cycle is known or awaited. -/
theorem keep (sound : Sound formulas present context value asks) {name text : String}
    (awaited' : List String)
    (consistent : Consistent formulas context value asks (name :: stack) memo awaited)
    (once : name ∉ stack) (chain : (name :: stack).IsChain (AskedBy asks))
    (found : formulas.lookup name = some text)
    (following : ∀ m ∈ asks name, Leads asks m name →
      Known formulas context.path memo.table m ∨ m = name ∨ m ∈ awaited')
    (waits : ∀ m ∈ awaited, m = name ∨ m ∈ awaited') :
    Consistent formulas context value asks stack (memo.keep context.path text (value name)) awaited' := by
  have grows {m : String} (here : Known formulas context.path memo.table m) :
      Known formulas context.path (memo.table.put context.path text (value name)) m :=
    (known_put text _ m).mpr (.inl here)
  have self : Known formulas context.path (memo.table.put context.path text (value name)) name :=
    (known_put text _ name).mpr (.inr found)
  refine ⟨fun n text' v found' kept => ?_, fun n m here asked back => ?_, fun n member here => ?_⟩
  · rw [Memo.keep, FormulaTable.find?_put] at kept
    split at kept
    · rename_i same
      rw [(Prod.mk.inj same).2] at found'
      rw [← Option.some.inj kept]
      by_cases equal : name = n
      · rw [equal]
      · exact (sound.twins found found' equal).2.2
    · exact consistent.correct n text' v found' kept
  · rcases (known_put text _ n).mp here with before | found'
    · rcases consistent.closed n m before asked back with known | awaits
      · exact .inl (grows known)
      · rcases waits m awaits with rfl | later
        · exact .inl self
        · exact .inr later
    · obtain rfl := sound.unshared n name text found' found ⟨m, asked, back⟩
      rcases following m asked back with known | same | later
      · exact .inl (grows known)
      · exact .inl (same ▸ self)
      · exact .inr later
  · rcases (known_put text _ n).mp here with before | found'
    · exact consistent.entered n (by simp [member]) before
    · -- The formula would ask for what leads to its twin, so the twin would be on a cycle.
      have apart : name ≠ n := fun same => once (same ▸ member)
      obtain ⟨straight, same, _⟩ := sound.twins found found' apart
      obtain ⟨m, asked, path⟩ := leads_of_chain chain n member
      exact straight ⟨m, same ▸ asked, path⟩

end Consistent

namespace Ready

theorem known_along (ready : Ready formulas context value asks stack memo) {n m : String}
    (known : Known formulas context.path memo.table m) (out : Leads asks n m)
    (back : Leads asks m n) : Known formulas context.path memo.table n := by
  induction back using Relation.ReflTransGen.head_induction_on with
  | refl => exact known
  | @head m next step rest ih =>
    have here := ready.consistent.closed m next known step (rest.trans out)
    exact ih (by simpa using here) (out.tail step)

theorem apart (ready : Ready formulas context value asks stack memo) {m : String}
    (known : Known formulas context.path memo.table m) : Apart asks stack m := fun n member out back =>
  ready.consistent.entered n member (ready.known_along known out back)

theorem answers (ready : Ready formulas context value asks stack memo) {before : Memo}
    (keeps : Keeps formulas context.path before memo) {name : String}
    (known : Known formulas context.path memo.table name) :
    Converses formulas context value asks stack before (Script.question name)
      (.ok (value name), memo) :=
  .answered memo ready keeps (by simpa [Script.question, Script.asked] using known)

end Ready

theorem Sound.asks_next (sound : Sound formulas present context value asks) {name next : String}
    {front : List String}
    (begins : front ++ [next] <+: (script formulas present context name).asked value)
    (fine : ∀ m ∈ front, Apart asks (name :: stack) m) : next ∈ asks name := by
  have own := (sound.settled name).begins
  by_cases cycle : OnCycle asks name
  · -- The account breaks off at the question that leads back, and none of those in front does.
    obtain ⟨_, front', last, split, _, back⟩ := (sound.settled name).of_cycle cycle
    have member : last ∈ asks name := by simp [split]
    rcases List.prefix_or_prefix_of_prefix begins own with shorter | longer
    · exact shorter.subset (by simp)
    · rcases List.prefix_concat_iff.mp longer with whole | inside
      · simp [whole]
      · exact absurd back (fine last (inside.subset member) name (by simp) (.single member))
  · rw [((sound.settled name).of_straight cycle).1]
    exact begins.subset (by simp)

theorem Answers.converses {α : Type} {read : String → Eval Value}
    (answers : Answers formulas context value asks stack read)
    (ready : Ready formulas context value asks stack memo) (t : Script α)
    (allowed : ∀ front next, front ++ [next] <+: t.asked value →
      (∀ m ∈ front, Apart asks stack m) → (next :: stack).IsChain (AskedBy asks)) :
    Converses formulas context value asks stack memo t ((t.run read).on memo) := by
  induction t generalizing memo with
  | done result =>
    simp only [Script.run, Eval.on_ofExcept]
    exact .answered memo ready (.refl _ _ memo) (by simp [Script.asked])
  | ask name next ih =>
    have one := answers memo ready name
      (allowed [] name (by simp [Script.asked, List.cons_prefix_cons]) (by simp))
    simp only [Script.run, ExceptT.on_bind]
    generalize (read name).on memo = outcome at one ⊢
    cases one with
    | answered middle ready' keeps known =>
      have here := known name (by simp [Script.question, Script.asked])
      simp only [Script.question, Script.result]
      have rest := ih (value name) ready' fun front next' begins fine =>
        allowed (name :: front) next' (by simpa [Script.asked, List.cons_prefix_cons] using begins)
          (List.forall_mem_cons.mpr ⟨ready'.apart here, fine⟩)
      generalize (Script.run read _).on middle = outcome at rest ⊢
      cases rest with
      | answered after ready'' keeps' known' =>
        exact .answered after ready'' (keeps.trans keeps')
          (List.forall_mem_cons.mpr ⟨keeps'.known here, known'⟩)
      | caught e after back next' front keeps' cycle begins fine =>
        refine .caught e after back next' (name :: front) (keeps.trans keeps') cycle ?_
          (List.forall_mem_cons.mpr ⟨ready'.apart here, fine⟩)
        simpa [Script.asked, List.cons_prefix_cons] using begins
    | caught e after back next' front keeps cycle begins fine =>
      refine .caught e after back next' front keeps cycle (begins.trans ?_) fine
      simp [Script.question, Script.asked, List.cons_prefix_cons]

private theorem split_at {stack : List String} {name : String} (member : name ∈ stack) :
    ∃ outer, stack = stack.takeWhile (· != name) ++ name :: outer := by
  induction stack with
  | nil => simp at member
  | cons first stack ih =>
    by_cases here : first = name
    · exact ⟨stack, by simp [here]⟩
    · obtain ⟨outer, split⟩ := ih (by simpa [Ne.symm here] using member)
      exact ⟨outer, by rw [List.takeWhile_cons_of_pos (by simpa using here), List.cons_append, ← split]⟩

theorem Ready.meets (ready : Ready formulas context value asks stack memo) {name : String}
    (member : name ∈ stack) (chain : (name :: stack).IsChain (AskedBy asks)) (e : Failure) :
    Converses formulas context value asks stack memo (Script.question name)
      (.error e, memo.mark (loop stack name)) := by
  obtain ⟨outer, split⟩ := split_at member
  have round : ∀ n ∈ loop stack name, OnCycle asks n := onCycle_of_chain (split ▸ chain)
  refine .caught e _ name name [] (.mark _ _ _ _) ⟨⟨ready.consistent.correct, fun n m here asked back =>
      ?_, ready.consistent.entered⟩, .inr rfl, .refl, _, outer, split, fun n inside => ?_,
      fun n marked => ?_⟩
    (by simp [Script.question, Script.asked]) (by simp)
  · exact .inl ((ready.consistent.closed n m here asked back).resolve_right (by simp))
  · by_cases already : n ∈ memo.cyclic
    · simp [Memo.mark, already]
    · exact List.mem_append.mpr (.inr (List.mem_filter.mpr ⟨inside, by simpa using already⟩))
  · rcases List.mem_append.mp marked with already | new
    · exact ⟨(ready.cyclic n already).2, .inl (ready.cyclic n already).1⟩
    · exact ⟨round n (List.mem_filter.mp new).1, .inr (List.mem_filter.mp new).1⟩

theorem Ready.finds (sound : Sound formulas present context value asks)
    (ready : Ready formulas context value asks stack memo) {name text : String}
    (found : formulas.lookup name = some text) {v : Value}
    (kept : memo.table.find? context.path text = some v) :
    Converses formulas context value asks stack memo (Script.question name)
      (conclude stack name context.path text (v, memo)) := by
  have known : Known formulas context.path memo.table name :=
    (known_iff_of_defined found).mpr ⟨v, kept⟩
  have correct := ready.consistent.correct name text v found kept
  have whole : conclude stack name context.path text (v, memo) = (.ok v, memo) := by
    unfold conclude
    by_cases cyclic : name ∈ memo.cyclic
    · have null : v = .null :=
        correct.trans ((sound.settled name).of_cycle (ready.cyclic name cyclic).2).1
      have open' : stack.head?.any memo.cyclic.contains = false := by
        cases stack with
        | nil => rfl
        | cons first stack =>
          have apart : first ∉ memo.cyclic := fun marked =>
            ready.consistent.entered first (by simp) (ready.cyclic first marked).1
          simpa using apart
      subst null
      simp only [List.contains_iff_mem.mpr cyclic, open', if_true, Memo.keep,
        FormulaTable.put_known kept, Bool.false_eq_true, if_false]
    · simp [cyclic]
  rw [whole, correct]
  exact ready.answers (.refl _ _ memo) known

private theorem conclude_marked {name : String} (path text : String) {memo : Memo}
    (marked : name ∈ memo.cyclic) :
    conclude stack name path text (.null, memo.keep path text .null) =
      (if stack.head?.any memo.cyclic.contains then .error (.error (.circular name)) else .ok .null,
        memo.keep path text .null) := by
  unfold conclude
  have inside : (memo.keep path text .null).cyclic.contains name = true :=
    List.contains_iff_mem.mpr marked
  have twice : (memo.keep path text .null).keep path text .null = memo.keep path text .null := by
    simp only [Memo.keep]
    rw [FormulaTable.put_known (by rw [FormulaTable.find?_put, if_pos rfl])]
  rw [if_pos inside, twice]
  rfl

/-- The question that met a cycle is the only one of the formula that leads back to it. -/
theorem Sound.turns (sound : Sound formulas present context value asks) {name next : String}
    (asked : next ∈ asks name) (back : Leads asks next name) :
    value name = .null ∧ ∀ m ∈ asks name, Leads asks m name → m = next := by
  obtain ⟨null, front, last, ends, apart, _⟩ := (sound.settled name).of_cycle ⟨next, asked, back⟩
  have one (m : String) (member : m ∈ asks name) (path : Leads asks m name) : m = last := by
    rcases List.mem_append.mp (ends ▸ member) with inside | same
    · exact absurd path (apart m inside)
    · simpa using same
  exact ⟨null, fun m member path => (one m member path).trans (one next asked back).symm⟩

namespace Caught

theorem returns {name back next : String}
    (cycle : Caught formulas context value asks (name :: stack) memo back next)
    (chain : (name :: stack).IsChain (AskedBy asks)) : Leads asks next name := by
  obtain ⟨inner, outer, split, _⟩ := cycle.marked
  have member : back ∈ name :: stack := by simp [split]
  refine cycle.leads.trans ?_
  rcases List.mem_cons.mp member with same | further
  · exact same ▸ .refl
  · obtain ⟨m, first, path⟩ := leads_of_chain chain back further
    exact .head first path

theorem keep (sound : Sound formulas present context value asks) {name text back next : String}
    (cycle : Caught formulas context value asks (name :: stack) memo back next)
    (once : name ∉ stack) (chain : (name :: stack).IsChain (AskedBy asks))
    (found : formulas.lookup name = some text) (asked : next ∈ asks name) (awaited : List String)
    (waits : back = name ∨ back ∈ awaited) :
    Consistent formulas context value asks stack (memo.keep context.path text .null) awaited := by
  obtain ⟨null, only⟩ := sound.turns asked (cycle.returns chain)
  have kept := cycle.consistent.keep sound awaited once chain found
    (fun m member path => ?_) (by simpa using waits)
  · rwa [null] at kept
  · rw [only m member path]
    rcases cycle.met with known | same
    · exact .inl known
    · exact .inr (same ▸ waits)

/-- The cycle closes at the formula to which it leads back. -/
theorem closes (sound : Sound formulas present context value asks) {name text next : String}
    {before : Memo} (cycle : Caught formulas context value asks (name :: stack) memo name next)
    (once : name ∉ stack) (chain : (name :: stack).IsChain (AskedBy asks))
    (found : formulas.lookup name = some text) (asked : next ∈ asks name)
    (keeps : Keeps formulas context.path before (memo.keep context.path text .null)) :
    Converses formulas context value asks stack before (Script.question name)
      (conclude stack name context.path text (.null, memo.keep context.path text .null)) := by
  obtain ⟨inner, outer, split, marked, members⟩ := cycle.marked
  have innermost : inner = [] := by
    cases inner with
    | nil => rfl
    | cons top inner =>
      simp only [List.cons_append, List.cons.injEq] at split
      exact absurd (by simp [split.2]) once
  subst innermost
  have self : Known formulas context.path (memo.keep context.path text .null).table name :=
    (known_put text .null name).mpr (.inr found)
  -- What is marked is known by now, or is the formula itself, so the one that reads it goes on.
  have closed : stack.head?.any memo.cyclic.contains = false := by
    cases stack with
    | nil => rfl
    | cons top stack =>
      have unmarked : top ∉ memo.cyclic := fun mark => by
        rcases (members top mark).2 with known | here
        · exact cycle.consistent.entered top (by simp) known
        · simp only [List.nil_append, List.mem_singleton] at here
          exact once (by simp [here])
      simpa using unmarked
  rw [conclude_marked _ _ (marked name (by simp)), if_neg (by simp [closed])]
  have ready : Ready formulas context value asks stack (memo.keep context.path text .null) := by
    refine ⟨cycle.keep sound once chain found asked [] (.inl rfl), fun n mark =>
      ⟨?_, (members n mark).1⟩⟩
    rcases (members n mark).2 with known | here
    · exact (known_put text .null n).mpr (.inl known)
    · simp only [List.nil_append, List.mem_singleton] at here
      exact here ▸ self
  have answer := ready.answers keeps self
  rwa [(sound.turns asked (cycle.returns chain)).1] at answer

/-- The cycle leads back to a formula further out, which all that read on the way are told. -/
theorem passes (sound : Sound formulas present context value asks) {name text back next : String}
    {before : Memo} (cycle : Caught formulas context value asks (name :: stack) memo back next)
    (further : back ≠ name) (once : name ∉ stack)
    (chain : (name :: stack).IsChain (AskedBy asks)) (found : formulas.lookup name = some text)
    (asked : next ∈ asks name)
    (keeps : Keeps formulas context.path before (memo.keep context.path text .null)) :
    Converses formulas context value asks stack before (Script.question name)
      (conclude stack name context.path text (.null, memo.keep context.path text .null)) := by
  obtain ⟨inner, outer, split, marked, members⟩ := cycle.marked
  cases inner with
  | nil => exact absurd (List.cons.inj split).1.symm further
  | cons top inner =>
    simp only [List.cons_append, List.cons.injEq] at split
    obtain ⟨rfl, rfl⟩ := split
    have self : Known formulas context.path (memo.keep context.path text .null).table name :=
      (known_put text .null name).mpr (.inr found)
    have open' : (inner ++ back :: outer).head?.any memo.cyclic.contains = true := by
      cases inner with
      | nil => simpa using marked back (by simp)
      | cons top inner => simpa using marked top (by simp)
    rw [conclude_marked _ _ (marked name (by simp)), if_pos open']
    have kept := cycle.keep sound once chain found asked [back] (.inr (by simp))
    refine .caught _ _ back name [] keeps ⟨kept, .inl self, .head asked cycle.leads, inner, outer,
      rfl, fun n inside => marked n (.tail _ inside), fun n mark => ⟨(members n mark).1, ?_⟩⟩
      (by simp [Script.question, Script.asked]) (by simp)
    rcases (members n mark).2 with known | here
    · exact .inl ((known_put text .null n).mpr (.inl known))
    · rcases List.mem_cons.mp here with rfl | inside
      · exact .inl self
      · exact .inr inside

theorem concludes (sound : Sound formulas present context value asks) {name text : String}
    {front : List String} {back next : String} {before : Memo}
    (cycle : Caught formulas context value asks (name :: stack) memo back next)
    (once : name ∉ stack) (chain : (name :: stack).IsChain (AskedBy asks))
    (found : formulas.lookup name = some text)
    (begins : front ++ [next] <+: (script formulas present context name).asked value)
    (fine : ∀ m ∈ front, Apart asks (name :: stack) m)
    (keeps : Keeps formulas context.path before memo) :
    Converses formulas context value asks stack before (Script.question name)
      (conclude stack name context.path text (.null, memo.keep context.path text .null)) := by
  have asked := sound.asks_next begins fine
  have unknown := cycle.consistent.entered name (by simp)
  have keeps' := keeps.trans (.put memo .null found unknown)
  by_cases home : back = name
  · subst home
    exact cycle.closes sound once chain found asked keeps'
  · exact cycle.passes sound home once chain found asked keeps'

end Caught

theorem Ready.descends (sound : Sound formulas present context value asks) {name text : String}
    (ready : Ready formulas context value asks stack memo) (once : name ∉ stack)
    (chain : (name :: stack).IsChain (AskedBy asks)) (found : formulas.lookup name = some text)
    (unkept : memo.table.find? context.path text = none) {read : String → Eval Value}
    (below : Answers formulas context value asks (name :: stack) read) :
    Converses formulas context value asks stack memo (Script.question name)
      (conclude stack name context.path text
        (worth (((script formulas present context name).run read).on memo).1,
          (((script formulas present context name).run read).on memo).2.keep context.path text
            (worth (((script formulas present context name).run read).on memo).1))) := by
  have unknown : ¬ Known formulas context.path memo.table name := by
    rw [known_iff_of_defined found, unkept]
    simp
  have ready' : Ready formulas context value asks (name :: stack) memo :=
    ⟨⟨ready.consistent.correct, ready.consistent.closed,
      List.forall_mem_cons.mpr ⟨unknown, ready.consistent.entered⟩⟩, ready.cyclic⟩
  have inner := below.converses ready' (script formulas present context name)
    fun front next begins fine => List.isChain_cons_cons.mpr ⟨sound.asks_next begins fine, chain⟩
  generalize ((script formulas present context name).run read).on memo = outcome at inner ⊢
  cases inner with
  | answered after settled keeps known =>
    have unknown' := settled.consistent.entered name (by simp)
    -- By its cycle the formula would have been led back to while it was being evaluated.
    have straight : ¬ OnCycle asks name := by
      rintro ⟨m, asked, back⟩
      exact settled.apart (known m ((sound.settled name).begins.subset asked)) name (by simp)
        (.single asked) back
    have unmarked : name ∉ after.cyclic := fun mark => straight (settled.cyclic name mark).2
    rw [← ((sound.settled name).of_straight straight).2]
    have finished : Ready formulas context value asks stack
        (after.keep context.path text (value name)) := by
      refine ⟨settled.consistent.keep sound [] once chain found
        (fun m asked back => absurd ⟨m, asked, back⟩ straight) (by simp), fun n mark => ?_⟩
      exact ⟨(known_put text _ n).mpr (.inl (settled.cyclic n mark).1), (settled.cyclic n mark).2⟩
    have answer := finished.answers (keeps.trans (.put after _ found unknown'))
      ((known_put text _ name).mpr (.inr found))
    simpa [conclude, Memo.keep, unmarked] using answer
  | caught e after back next front keeps cycle begins fine =>
    exact cycle.concludes sound once chain found begins fine keeps

theorem read_answers (sound : Sound formulas present context value asks) (depth : Nat)
    (stack : List String) (deep : formulas.length < depth + stack.length) (once : stack.Nodup)
    (defined : stack ⊆ formulas.names) :
    Answers formulas context value asks stack (read formulas present context depth stack) := by
  induction depth generalizing stack with
  | zero =>
    -- Those being evaluated are distinct and defined, so they cannot be that many.
    have short := (once.subperm defined).length_le
    simp only [names, List.length_map] at short
    omega
  | succ depth ih =>
    intro memo ready name chain
    rw [read_on]
    cases found : formulas.lookup name with
    | none =>
      have answer := ready.answers (.refl _ _ memo) (known_of_undefined found)
      rwa [sound.value_of_undefined found] at answer
    | some text =>
      by_cases entered : name ∈ stack
      · simp only [List.contains_iff_mem.mpr entered, if_true]
        exact ready.meets entered chain _
      · simp only [List.contains_iff_mem, entered, if_false, Surroundings.formulaValue_run,
          Surroundings.reading_context]
        cases kept : memo.table.find? context.path text with
        | some v => exact ready.finds sound found kept
        | none =>
          have below := ih (name :: stack) (by simp; omega) (List.nodup_cons.mpr ⟨entered, once⟩)
            (List.cons_subset.mpr
              ⟨List.mem_map.mpr ⟨_, lookup_mem found, rfl⟩, defined⟩)
          simp only [script_runs present context found]
          exact ready.descends sound entered chain found kept below

end Descent

end Formulas

end NoteQuery
