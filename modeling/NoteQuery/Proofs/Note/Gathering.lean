import NoteQuery.Proofs.Note.Tag
import NoteQuery.Proofs.Value.Written

/-! What the metadata of a note is gathered from. A pattern finds parts of a text from left to right, each at
the first place at which it fits behind the one before. The tags that the properties declare and those that are
found in the body are kept where they first occur, and so are the targets of its links; fenced code takes no
part in it. -/
namespace NoteQuery

open NoteQuery.Text

section Firsts

variable {all kept : List String}

/-- The texts that occur, each once, in the order of their first occurrences. -/
structure Firsts (all kept : List String) : Prop where
  occur : ∀ s, s ∈ kept ↔ s ∈ all
  ordered : kept.Pairwise fun s t => all.idxOf s < all.idxOf t

theorem Firsts.nodup (firsts : Firsts all kept) : kept.Nodup := by
  refine firsts.ordered.imp fun {s t} earlier same => ?_
  rw [same] at earlier
  exact lt_irrefl _ earlier

theorem eraseDups_concat (front : List String) (last : String) :
    (front ++ [last]).eraseDups = if last ∈ front then front.eraseDups else front.eraseDups ++ [last] := by
  rw [List.eraseDups_append]
  split_ifs with again
  · simp [List.removeAll, again]
  · simp [List.removeAll, again, List.eraseDups_cons]

theorem firsts_distinct (all : List String) : Firsts all (distinct all) := by
  rw [distinct_eq]
  refine ⟨fun s => List.mem_eraseDups, ?_⟩
  induction all using List.reverseRecOn with
  | nil => exact .nil
  | append_singleton front last ih =>
    have place : ∀ s ∈ front.eraseDups, (front ++ [last]).idxOf s = front.idxOf s := by
      intro s member
      rw [List.idxOf_append, if_pos (List.mem_eraseDups.mp member)]
    have before : front.eraseDups.Pairwise fun s t =>
        (front ++ [last]).idxOf s < (front ++ [last]).idxOf t := by
      refine ih.imp_of_mem fun {s t} member member' earlier => ?_
      rwa [place s member, place t member']
    rw [eraseDups_concat]
    split_ifs with again
    · exact before
    · refine List.pairwise_append.mpr ⟨before, List.pairwise_singleton _ _, fun s member t new => ?_⟩
      have inside : front.idxOf s < front.length := List.idxOf_lt_length_iff.mpr (List.mem_eraseDups.mp member)
      rw [List.mem_singleton.mp new, place s member, List.idxOf_append, if_neg again]
      omega

end Firsts

/-- Behind the first text a pattern takes the second, of which the third is what it finds, in front of the
fourth. -/
abbrev Pattern := List Char → List Char → List Char → List Char → Prop

/-- What a pattern finds in the second text, which stands behind the first. -/
inductive Pattern.Finds (fits : Pattern) : List Char → List Char → List (List Char) → Prop
  | nowhere {before text : List Char} (none : ∀ front taken found after,
      text = front ++ (taken ++ after) → ¬fits (before ++ front) taken found after) :
      Finds fits before text []
  | next {before front taken found after : List Char} {others : List (List Char)}
      (here : fits (before ++ front) taken found after)
      (first : ∀ front' taken' found' after', front ++ (taken ++ after) = front' ++ (taken' ++ after') →
        front'.length < front.length → ¬fits (before ++ front') taken' found' after')
      (later : Finds fits (before ++ (front ++ taken)) after others) :
      Finds fits before (front ++ (taken ++ after)) (found :: others)

namespace Pattern

variable {fits : Pattern} {before taken found after text : List Char} {c : Char} {all : List (List Char)}

theorem Finds.here (here : fits before taken found after) (later : fits.Finds (before ++ taken) after all) :
    fits.Finds before (taken ++ after) (found :: all) := by
  have first : fits (before ++ []) taken found after := by rwa [List.append_nil]
  exact .next first (fun _ _ _ _ _ shorter => absurd shorter (Nat.not_lt_zero _)) later

/-- Where a pattern does not fit, it finds what it finds behind the sign that stands there. -/
theorem Finds.cons (unfit : ∀ taken found after, c :: text = taken ++ after → ¬fits before taken found after)
    (finds : fits.Finds (before ++ [c]) text all) : fits.Finds before (c :: text) all := by
  cases finds with
  | nowhere none =>
    refine .nowhere fun front taken found after split fit => ?_
    rcases front with _ | ⟨d, front⟩
    · exact unfit taken found after split (List.append_nil before ▸ fit)
    · obtain ⟨rfl, rfl⟩ := List.cons.inj split
      exact none front taken found after rfl (by rwa [List.append_assoc])
  | @next _ front taken found after others here first later =>
    rw [← List.cons_append]
    refine .next (by rwa [List.append_assoc] at here) ?_ (by rwa [List.append_assoc] at later)
    intro front' taken' found' after' split shorter fit
    rcases front' with _ | ⟨d, front'⟩
    · exact unfit taken' found' after' split (List.append_nil before ▸ fit)
    · obtain ⟨rfl, behind⟩ := List.cons.inj split
      exact first front' taken' found' after' behind (Nat.lt_of_succ_lt_succ shorter)
        (by rwa [List.append_assoc])

theorem finds_nil (unfit : ∀ found, ¬fits before [] found []) : fits.Finds before [] [] := by
  refine .nowhere fun front taken found after split fit => ?_
  obtain ⟨rfl, rest⟩ := List.append_eq_nil_iff.mp split.symm
  obtain ⟨rfl, rfl⟩ := List.append_eq_nil_iff.mp rest
  exact unfit found (List.append_nil before ▸ fit)

end Pattern

section Tags

variable {previous : Option Char} {before tag back text : List Char}

/-- A number sign and the tag that it begins. -/
def tagged : Pattern := fun before taken tag after => taken = '#' :: tag ∧ Inline none before tag after

/-- Inside of a tag none begins. -/
theorem tagsIn_within (within : ∀ c ∈ tag, isTagSign c = true) :
    tagsIn previous (tag ++ back) = tagsIn (tag.getLast?.or previous) back := by
  induction tag generalizing previous with
  | nil => rfl
  | cons c tag ih =>
    rw [List.forall_mem_cons] at within
    have other : (c == '#') = false := by
      rw [beq_eq_false_iff_ne]
      rintro rfl
      have mark : isTagSign '#' = false := by cbv
      exact Bool.false_ne_true (mark.symm.trans within.1)
    rw [List.cons_append, tagsIn, other, ih within.2, List.getLast?_cons]
    cases tag.getLast? <;> rfl

theorem tagsIn_inline (inline : Inline none before tag back) :
    tagsIn before.getLast? ('#' :: (tag ++ back)) =
      String.ofList tag :: tagsIn (before ++ '#' :: tag).getLast? back := by
  obtain ⟨taken, -⟩ := span_front inline.within inline.ends
  have free : before.getLast?.any blocksTag = false := by
    have free := inline.free
    rw [Option.or_none] at free
    cases last : before.getLast? with
    | none => rfl
    | some c => exact free c last
  have last : (before ++ '#' :: tag).getLast? = tag.getLast?.or (some '#') := by
    rw [List.getLast?_append, List.getLast?_cons]
    cases tag.getLast? <;> rfl
  rw [tagsIn, taken, tagsIn_within inline.within, last, free]
  simp [inline.some_sign]

theorem tagsIn_other {c : Char}
    (unfit : ∀ taken found after, c :: text = taken ++ after → ¬tagged before taken found after) :
    tagsIn before.getLast? (c :: text) = tagsIn (before ++ [c]).getLast? text := by
  rw [List.getLast?_concat, tagsIn, if_neg]
  intro begins
  rw [Bool.and_eq_true, Bool.and_eq_true, beq_iff_eq] at begins
  obtain ⟨⟨rfl, free⟩, some_sign⟩ := begins
  refine unfit ('#' :: text.takeWhile isTagSign) _ (text.dropWhile isTagSign) ?_ ⟨rfl, ?_, ?_, ?_, ?_⟩
  · rw [List.cons_append, List.takeWhile_append_dropWhile]
  · rw [Option.or_none]
    intro c last
    simpa [Option.mem_def.mp last] using free
  · simpa using some_sign
  · exact fun c member => List.mem_takeWhile_imp member
  · exact dropWhile_ends isTagSign text

theorem tagsIn_finds (before text : List Char) : ∃ tags,
    tagged.Finds before text tags ∧ tagsIn before.getLast? text = tags.map String.ofList := by
  induction size : text.length using Nat.strong_induction_on generalizing before text with
  | h n ih =>
    rcases text with _ | ⟨c, text⟩
    · exact ⟨[], Pattern.finds_nil (fun _ fit => nomatch fit.1), rfl⟩
    by_cases fit : ∃ taken tag back, c :: text = taken ++ back ∧ tagged before taken tag back
    · obtain ⟨_, tag, back, split, rfl, inline⟩ := fit
      have shorter : back.length < n := by
        rw [← size, split]
        simp
      obtain ⟨tags, finds, later⟩ := ih back.length shorter (before ++ '#' :: tag) back rfl
      rw [split]
      exact ⟨tag :: tags, finds.here ⟨rfl, inline⟩, by rw [List.cons_append, tagsIn_inline inline, later]; rfl⟩
    · push Not at fit
      have shorter : text.length < n := by
        rw [← size]
        exact Nat.lt_succ_self _
      obtain ⟨tags, finds, later⟩ := ih text.length shorter (before ++ [c]) text rfl
      exact ⟨tags, finds.cons fit, by rw [tagsIn_other fit, later]⟩

end Tags

section Links

variable {before taken target after part rest text : List Char} {sign : Char} {isEnd : Char → Bool}

/-- A part of a link that a sign begins and in which no end of it stands, or nothing. -/
inductive LinkPart (sign : Char) (isEnd : Char → Bool) : List Char → Prop
  | none : LinkPart sign isEnd []
  | given {inside : List Char} (within : ∀ c ∈ inside, isEnd c = false) : LinkPart sign isEnd (sign :: inside)

def endsTarget (c : Char) : Bool := c == ']' || c == '|' || c == '#'

/-- A link in double square brackets: a target, and behind it a heading and a caption, which may be missing. -/
structure LinkText (taken target : List Char) : Prop where
  some_sign : target ≠ []
  within : ∀ c ∈ target, endsTarget c = false
  whole : ∃ heading caption, LinkPart '#' (fun c => c == ']' || c == '|') heading ∧
    LinkPart '|' (· == ']') caption ∧ taken = '[' :: '[' :: (target ++ (heading ++ (caption ++ [']', ']'])))

/-- A link, wherever it stands. -/
def linked : Pattern := fun _ taken target _ => LinkText taken target

theorem skipPart_split (begins : isEnd sign = false) (text : List Char) : ∃ part,
    LinkPart sign isEnd part ∧ text = part ++ skipPart sign isEnd text := by
  rw [skipPart]
  split_ifs with starts
  · obtain ⟨text, rfl⟩ := List.head?_eq_some_iff.mp starts
    refine ⟨sign :: text.takeWhile fun c => !isEnd c, .given fun c member => ?_, ?_⟩
    · simpa using List.mem_takeWhile_imp member
    · simp [begins, List.takeWhile_append_dropWhile]
  · exact ⟨[], .none, rfl⟩

/-- A part is passed over as far as it goes where an end of it follows. -/
theorem skipPart_part (begins : isEnd sign = false) (given : LinkPart sign isEnd part)
    (ended : ∀ c ∈ rest.head?, isEnd c = true) : skipPart sign isEnd (part ++ rest) = rest := by
  rw [skipPart]
  cases given with
  | none =>
    refine if_neg fun starts => ?_
    exact Bool.false_ne_true (begins.symm.trans (ended sign starts))
  | @given inside within =>
    have goes : ∀ c ∈ sign :: inside, (!isEnd c) = true := by
      rw [List.forall_mem_cons]
      simpa using ⟨begins, within⟩
    have stops : ∀ c ∈ rest.head?, (!isEnd c) = false := by simpa using ended
    exact (if_pos rfl).trans (span_front goes stops).2

/-- In front of what ends every part stands a part or an end. -/
theorem LinkPart.ended (given : LinkPart sign isEnd part) {P : Char → Prop} (begins : P sign)
    (ended : ∀ c ∈ rest.head?, P c) : ∀ c ∈ (part ++ rest).head?, P c := by
  cases given with
  | none => exact ended
  | given within =>
    rintro c ⟨⟩
    exact begins

theorem linkTarget?_eq (text : List Char) : linkTarget? text =
    let target := text.takeWhile fun c => !endsTarget c
    let behind := skipPart '|' (· == ']') (skipPart '#' (fun c => c == ']' || c == '|')
      (text.dropWhile fun c => !endsTarget c))
    if target.isEmpty then none else (dropPrefix? [']', ']'] behind).map fun after => (target, after) := by
  have same : (fun c => !endsTarget c) = fun c : Char => c != ']' && c != '|' && c != '#' := by
    funext c
    simp [endsTarget, bne]
  rw [same]
  rfl

theorem linkTarget?_eq_some : linkTarget? text = some (target, after) ↔
    ∃ taken, LinkText taken target ∧ '[' :: '[' :: text = taken ++ after := by
  rw [linkTarget?_eq]
  constructor
  · intro found
    dsimp only at found
    split_ifs at found with empty
    obtain ⟨after', closed, same⟩ := Option.map_eq_some_iff.mp found
    obtain ⟨rfl, rfl⟩ := Prod.mk.inj same
    obtain ⟨heading, heading_part, heading_split⟩ : ∃ part, LinkPart '#' (fun c => c == ']' || c == '|') part ∧ _ :=
      skipPart_split rfl (text.dropWhile fun c => !endsTarget c)
    obtain ⟨caption, caption_part, caption_split⟩ : ∃ part, LinkPart '|' (· == ']') part ∧ _ :=
      skipPart_split rfl (skipPart '#' (fun c => c == ']' || c == '|') (text.dropWhile fun c => !endsTarget c))
    refine ⟨_, ⟨by simpa using empty, fun c member => ?_, heading, caption, heading_part, caption_part, rfl⟩, ?_⟩
    · simpa using List.mem_takeWhile_imp member
    · rw [dropPrefix?_eq_some.mp closed] at caption_split
      rw [caption_split] at heading_split
      have whole := List.takeWhile_append_dropWhile (p := fun c => !endsTarget c) (l := text)
      rw [heading_split] at whole
      conv_lhs => rw [← whole]
      simp only [List.cons_append, List.append_assoc, List.nil_append]
  · rintro ⟨_, ⟨some_sign, within, heading, caption, heading_part, caption_part, rfl⟩, split⟩
    have inside : text = target ++ (heading ++ (caption ++ (']' :: ']' :: after))) := by
      simpa using split
    have closed : ∀ c ∈ (']' :: ']' :: after).head?, (c == ']') = true := by simp
    have captioned : ∀ c ∈ (caption ++ ']' :: ']' :: after).head?, (c == ']' || c == '|') = true :=
      caption_part.ended rfl (by simp)
    have headed : ∀ c ∈ (heading ++ (caption ++ ']' :: ']' :: after)).head?, (!endsTarget c) = false :=
      heading_part.ended rfl (caption_part.ended rfl (by simp [endsTarget]))
    obtain ⟨taken, dropped⟩ := span_front (P := fun c => !endsTarget c) (by simpa using within) headed
    rw [← inside] at taken dropped
    rw [taken, dropped, skipPart_part rfl heading_part captioned, skipPart_part rfl caption_part closed]
    simp [some_sign, dropPrefix?]

/-- Targets without the blanks around them; those that are blank drop out. -/
def trimmedTargets (targets : List (List Char)) : List String :=
  ((targets.map trim).filter (· ≠ [])).map String.ofList

theorem trimmedTargets_cons (target : List Char) (targets : List (List Char)) :
    trimmedTargets (target :: targets) = if (trim target).isEmpty then trimmedTargets targets
      else String.ofList (trim target) :: trimmedTargets targets := by
  by_cases blank : trim target = [] <;> simp [trimmedTargets, blank]

theorem linked_opens {c : Char} (link : linked before taken target after)
    (split : c :: rest = taken ++ after) : ∃ inside, c = '[' ∧ rest = '[' :: inside := by
  obtain ⟨_, _, heading, caption, _, _, rfl⟩ := link
  obtain ⟨rfl, rfl⟩ := List.cons.inj split
  exact ⟨_, rfl, rfl⟩

theorem linksIn_finds (before text : List Char) : ∃ targets,
    linked.Finds before text targets ∧ linksIn text = trimmedTargets targets := by
  fun_induction linksIn text generalizing before with
  | case1 rest target after found shown blank ih =>
    obtain ⟨taken, link, split⟩ := linkTarget?_eq_some.mp found
    obtain ⟨targets, finds, later⟩ := ih (before ++ taken)
    exact ⟨target :: targets, split ▸ finds.here link, by rw [later, trimmedTargets_cons, if_pos blank]⟩
  | case2 rest target after found shown some_sign ih =>
    obtain ⟨taken, link, split⟩ := linkTarget?_eq_some.mp found
    obtain ⟨targets, finds, later⟩ := ih (before ++ taken)
    exact ⟨target :: targets, split ▸ finds.here link, by rw [later, trimmedTargets_cons, if_neg some_sign]⟩
  | case3 rest unfound ih =>
    obtain ⟨targets, finds, later⟩ := ih (before ++ ['['])
    refine ⟨targets, finds.cons fun taken target after split link => ?_, later⟩
    cases unfound.symm.trans (linkTarget?_eq_some.mpr ⟨taken, link, split⟩)
  | case4 c rest unopened ih =>
    obtain ⟨targets, finds, later⟩ := ih (before ++ [c])
    refine ⟨targets, finds.cons fun taken target after split link => ?_, later⟩
    obtain ⟨inside, rfl, rfl⟩ := linked_opens link split
    exact unopened inside rfl rfl
  | case5 =>
    refine ⟨[], Pattern.finds_nil (fun target link => ?_), rfl⟩
    obtain ⟨_, _, _, _, _, _, same⟩ := link
    cases same

/-- A target as it is kept says something, has no blank at its ends and none of the signs that end one. -/
theorem trimmedTargets_plain {targets : List (List Char)} {s : String}
    (finds : linked.Finds before text targets) (member : s ∈ trimmedTargets targets) :
    s ≠ "" ∧ trimText s = s ∧ ∀ c ∈ s.toList, endsTarget c = false := by
  have within : ∀ target ∈ targets, ∀ c ∈ target, endsTarget c = false := by
    clear member
    induction finds with
    | nowhere => simp
    | next here _ _ ih => exact List.forall_mem_cons.mpr ⟨here.within, ih⟩
  obtain ⟨shown, kept, rfl⟩ := List.mem_map.mp member
  obtain ⟨given, some_sign⟩ := List.mem_filter.mp kept
  obtain ⟨target, found, rfl⟩ := List.mem_map.mp given
  refine ⟨by simpa using some_sign, by rw [trimText, String.toList_ofList, trim_trim], ?_⟩
  rw [String.toList_ofList]
  exact fun c inside => within target found c (trim_subset target inside)

end Links

section Declared

variable {properties : Entries}

theorem listedTags_cons {item : Value} (given : item ≠ .null) (items : List Value) :
    listedTags (item :: items) = item.plainText >>= fun shown => listedTags items >>= fun others =>
      .ok (if isBlankText shown then others else markedTag shown :: others) := by
  rw [listedTags]
  exact given

theorem listedTags_succeeds (items : List Value) :
    (∃ tags, listedTags items = .ok tags) ↔ ∀ item ∈ items, ¬item.Unquotable := by
  induction items with
  | nil => simp [listedTags]
  | cons item items ih =>
    rw [List.forall_mem_cons, ← ih, ← Value.plainText_succeeds]
    by_cases nothing : item = .null
    · rw [nothing, listedTags]
      simp [Value.plainText, Value.quoted]
    · rw [listedTags_cons nothing]
      cases item.plainText <;> cases listedTags items <;> simp [bind, Except.bind]

theorem listedTags_fails (items : List Value) : (listedTags items).FailsOnly (· = .badValue) := by
  induction items with
  | nil => exact Except.failsOnly_ok _
  | cons item items ih =>
    by_cases nothing : item = .null
    · rw [nothing, listedTags]
      exact ih
    · rw [listedTags_cons nothing]
      exact (Value.plainText_fails item).bind fun _ => ih.bind fun _ => Except.failsOnly_ok _

/-- Tags can be taken from the properties unless a whole number that is too long stands where tags do. -/
theorem declaredTags_succeeds :
    (∃ declared, declaredTags properties = .ok declared) ↔ ¬properties.tagField.Unquotable := by
  rw [declaredTags, ← Entries.tagField]
  have single (v : Value) : (∃ declared, (v.plainText >>= fun shown =>
      .ok [markedTag shown] : Except Fault (List String)) = .ok declared) ↔ ¬v.Unquotable :=
    Except.exists_bind_ok.trans v.plainText_succeeds
  cases properties.tagField with
  | null => exact iff_of_true ⟨_, rfl⟩ ((Value.plainText_succeeds .null).mp ⟨_, rfl⟩)
  | text s => exact iff_of_true ⟨_, rfl⟩ ((Value.plainText_succeeds (.text s)).mp ⟨_, rfl⟩)
  | list items =>
    rw [Value.Unquotable, Value.exists_reaches_list not_false, not_exists]
    simp only [not_and]
    exact listedTags_succeeds items
  | _ => exact single _

theorem declaredTags_fails : (declaredTags properties).FailsOnly (· = .badValue) := by
  rw [declaredTags, ← Entries.tagField]
  cases properties.tagField with
  | null => exact Except.failsOnly_ok _
  | text _ => exact Except.failsOnly_ok _
  | list items => exact listedTags_fails items
  | _ => exact (Value.plainText_fails _).bind fun _ => Except.failsOnly_ok _

theorem listedTags_marked {items : List Value} {declared : List String} (read : listedTags items = .ok declared) :
    ∃ written : List String, declared = written.map markedTag := by
  induction items generalizing declared with
  | nil =>
    cases read
    exact ⟨[], rfl⟩
  | cons item items ih =>
    by_cases nothing : item = .null
    · rw [nothing, listedTags] at read
      exact ih read
    · rw [listedTags_cons nothing] at read
      obtain ⟨shown, -, read⟩ := Except.bind_eq_ok.mp read
      obtain ⟨others, later, read⟩ := Except.bind_eq_ok.mp read
      obtain ⟨written, rfl⟩ := ih later
      cases read
      split_ifs
      · exact ⟨written, rfl⟩
      · exact ⟨shown :: written, rfl⟩

theorem declaredTags_marked {declared : List String} (read : declaredTags properties = .ok declared) :
    ∃ written : List String, declared = written.map markedTag := by
  rw [declaredTags, ← Entries.tagField] at read
  have single {v : Value} (read : (v.plainText >>= fun shown =>
      .ok [markedTag shown] : Except Fault (List String)) = .ok declared) :
      ∃ written : List String, declared = written.map markedTag := by
    obtain ⟨shown, -, read⟩ := Except.bind_eq_ok.mp read
    cases read
    exact ⟨[shown], rfl⟩
  cases field : properties.tagField with
  | null =>
    rw [field] at read
    cases read
    exact ⟨[], rfl⟩
  | text s =>
    rw [field] at read
    cases Except.ok.inj read
    exact ⟨_, by rw [← Function.comp_def markedTag, ← List.map_map]⟩
  | list items =>
    rw [field] at read
    exact listedTags_marked read
  | _ =>
    rw [field] at read
    exact single read

theorem markedTag_head (s : String) : (markedTag s).toList.head? = some '#' := by
  rw [markedTag]
  generalize trimText s = shown
  split_ifs with marked
  · obtain ⟨rest, whole⟩ := startsWith_iff.mp marked
    rw [← whole, List.singleton_append, List.head?_cons]
  · rw [String.toList_append]
    simp

end Declared

namespace Metadata

variable {properties : Entries} {body : String}

/-- The tags are those that the properties declare and, behind them, those that are found in the body without
fenced code; the links are those that are found there. Of each only the first occurrence counts. -/
structure Gathered (properties : Entries) (body : String) (m : Metadata) : Prop where
  tags : ∃ text declared found, Unfenced body.toList text ∧ declaredTags properties = .ok declared ∧
    tagged.Finds [] text found ∧ Firsts (declared ++ found.map fun tag => "#" ++ String.ofList tag) m.tags
  links : ∃ text found, Unfenced body.toList text ∧ linked.Finds [] text found ∧
    Firsts (trimmedTargets found) m.links

variable {m : Metadata}

theorem Gathered.tags_marked (gathered : m.Gathered properties body) :
    ∀ tag ∈ m.tags, tag.toList.head? = some '#' := by
  obtain ⟨text, declared, found, -, read, -, firsts⟩ := gathered.tags
  obtain ⟨written, rfl⟩ := declaredTags_marked read
  intro tag member
  rcases List.mem_append.mp ((firsts.occur tag).mp member) with given | inline
  · obtain ⟨s, -, rfl⟩ := List.mem_map.mp given
    exact markedTag_head s
  · obtain ⟨s, -, rfl⟩ := List.mem_map.mp inline
    rw [String.toList_append]
    rfl

theorem Gathered.links_plain (gathered : m.Gathered properties body) : ∀ link ∈ m.links,
    link ≠ "" ∧ trimText link = link ∧ ∀ c ∈ link.toList, endsTarget c = false := by
  obtain ⟨text, found, -, finds, firsts⟩ := gathered.links
  exact fun link member => trimmedTargets_plain finds ((firsts.occur link).mp member)

theorem ofNote_gathered {declared : List String} (read : declaredTags properties = .ok declared) (body : String) :
    ∃ m, ofNote properties body = .ok m ∧ m.Gathered properties body := by
  obtain ⟨tags, tags_found, tags_read⟩ := tagsIn_finds [] (withoutCode body.toList)
  obtain ⟨targets, targets_found, targets_read⟩ := linksIn_finds [] (withoutCode body.toList)
  have unfenced : Unfenced body.toList (withoutCode body.toList) := withoutCode_iff.mp rfl
  refine ⟨⟨distinct (declared ++ tags.map fun tag => "#" ++ String.ofList tag),
    distinct (trimmedTargets targets)⟩, ?_, ?_⟩
  · rw [ofNote, read, ← targets_read]
    change Except.ok _ = _
    rw [List.getLast?_nil] at tags_read
    rw [tags_read, List.map_map]
    rfl
  · exact ⟨⟨_, _, _, unfenced, read, tags_found, firsts_distinct _⟩,
      ⟨_, _, unfenced, targets_found, firsts_distinct _⟩⟩

theorem ofNote_code {pre code : List Char} (unfenced : ¬fence <:+: pre) (last : pre.getLast? ≠ some '`')
    (signless : '`' ∉ code) (post : List Char) :
    ofNote properties (String.ofList (pre ++ (fence ++ (code ++ (fence ++ post))))) =
      ofNote properties (String.ofList (pre ++ post)) := by
  have unmarked := unmarked_of_last unfenced last
  rw [ofNote, ofNote, String.toList_ofList, String.toList_ofList,
    withoutCode_code unmarked (unmarked_of_signless signless), withoutCode_append unmarked]

/-- Fenced code takes no part in the metadata of a note. All metadata are gathered in order and without
repetitions, unless a whole number that is too long stands where tags do; tags begin with a number sign, and the
targets of links say something and have no blank at their ends and none of the signs that end a target. -/
theorem ofNote_gathers (properties : Entries) :
    (∀ pre code post : String, ¬"```".toList <:+: pre.toList → pre.toList.getLast? ≠ some '`' →
      '`' ∉ code.toList → ofNote properties (pre ++ "```" ++ code ++ "```" ++ post) =
        ofNote properties (pre ++ post)) ∧
    ∀ body, properties.tagField.Unquotable ∧ ofNote properties body = .error .badValue ∨
      ¬properties.tagField.Unquotable ∧ ∃ m, ofNote properties body = .ok m ∧ m.Gathered properties body ∧
        m.tags.Nodup ∧ m.links.Nodup ∧ (∀ tag ∈ m.tags, tag.toList.head? = some '#') ∧
        ∀ link ∈ m.links, link ≠ "" ∧ trimText link = link ∧
          ']' ∉ link.toList ∧ '|' ∉ link.toList ∧ '#' ∉ link.toList := by
  refine ⟨fun pre code post unfenced last signless => ?_, fun body => ?_⟩
  · rw [← String.ofList_toList (s := pre ++ post), String.toList_append,
      ← ofNote_code unfenced last signless post.toList]
    congr 1
    rw [← String.toList_inj]
    simp [fence]
  · by_cases long : properties.tagField.Unquotable
    · refine .inl ⟨long, ?_⟩
      cases read : declaredTags properties with
      | ok declared => exact absurd long (declaredTags_succeeds.mp ⟨declared, read⟩)
      | error f =>
        rw [ofNote, read, declaredTags_fails f read]
        rfl
    · obtain ⟨declared, read⟩ := declaredTags_succeeds.mpr long
      obtain ⟨m, made, gathered⟩ := ofNote_gathered read body
      refine .inr ⟨long, m, made, gathered, ?_, ?_, gathered.tags_marked, fun link member => ?_⟩
      · obtain ⟨_, _, _, -, -, -, firsts⟩ := gathered.tags
        exact firsts.nodup
      · obtain ⟨_, _, -, -, firsts⟩ := gathered.links
        exact firsts.nodup
      · obtain ⟨given, trimmed, plain⟩ := gathered.links_plain link member
        have apart {c : Char} (ends : endsTarget c = true) : c ∉ link.toList := fun inside =>
          Bool.false_ne_true ((plain c inside).symm.trans ends)
        exact ⟨given, trimmed, apart rfl, apart rfl, apart rfl⟩

theorem ofNote_gathers_fenced :
    ofNote [("tags", .text "b, a")] "x ```#no [[no]]``` #a [[ l |m]] [[l]]" =
        ofNote [("tags", .text "b, a")] "x  #a [[ l |m]] [[l]]" ∧
      ∃ m, ofNote [("tags", .text "b, a")] "x  #a [[ l |m]] [[l]]" = .ok m ∧ m.tags.Nodup ∧ m.links.Nodup := by
  obtain ⟨fenced, gathers⟩ := ofNote_gathers [("tags", .text "b, a")]
  refine ⟨fenced "x " "#no [[no]]" " #a [[ l |m]] [[l]]" (by decide) (by decide) (by decide), ?_⟩
  rcases gathers "x  #a [[ l |m]] [[l]]" with ⟨long, -⟩ | ⟨-, m, read, -, tags, links, -⟩
  · exact absurd long ((Value.plainText_succeeds (.text "b, a")).mp ⟨_, rfl⟩)
  · exact ⟨m, read, tags, links⟩

end Metadata

end NoteQuery
