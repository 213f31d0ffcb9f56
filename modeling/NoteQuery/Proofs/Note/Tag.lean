import NoteQuery.Note.Tag
import NoteQuery.Proofs.Note.Fence
import NoteQuery.Proofs.Text.Letter

/-! The tags that a note declares and those by which it is found. A tag is kept with one form and asked for in
another; both have the same normal form, so that a note has exactly the tags that its properties and its body
declare, however they are spelled. -/
namespace NoteQuery

open NoteQuery.Text

section Spelling

variable {s t : String}

theorem normalTag_eq (s : String) :
    normalTag s = String.ofList (lowerChars ((trim s.toList).dropWhile (· == '#'))) := by
  rw [normalTag, lower, String.toList_ofList]

/-- The case of plain letters makes no other tag. -/
theorem normalTag_cased (same : t.toList.map Char.toLower = s.toList.map Char.toLower) :
    normalTag t = normalTag s := by
  have small (s : String) : normalTag s =
      String.ofList (lowerChars ((trim (s.toList.map Char.toLower)).dropWhile (· == '#'))) := by
    have signs : (· == '#') ∘ Char.toLower = (· == '#') :=
      funext (toLower_invariant (f := (· == '#')) (by decide +kernel))
    rw [normalTag_eq, trim_map isBlank_toLower, List.dropWhile_map, signs, lowerChars, lowerChars,
      ← lowerFrom_toLower [], List.map_nil]
  rw [small t, same, ← small s]

/-- Number signs in front make no other tag, unless a blank stands behind them. -/
theorem normalTag_marked {signs rest : List Char} (marks : ∀ c ∈ signs, c = '#')
    (solid : ∀ c ∈ rest.head?, isBlank c = false) :
    normalTag (String.ofList (signs ++ rest)) = normalTag (String.ofList rest) := by
  have starts : trimStart (signs ++ rest) = signs ++ rest := by
    refine dropWhile_eq_self fun c first => ?_
    cases signs with
    | nil => exact solid c first
    | cons d signs =>
      cases first
      rw [marks c List.mem_cons_self]
      decide
  have ends : ∀ c ∈ signs.getLast?, isBlank c = false := by
    intro c last
    rw [marks c (List.mem_of_getLast? last)]
    decide
  have dropped : ∀ c ∈ signs, (c == '#') = true := fun c member => beq_iff_eq.mpr (marks c member)
  rw [normalTag_eq, normalTag_eq, String.toList_ofList, String.toList_ofList, trim, trim, starts,
    trimEnd_append ends, trimStart, dropWhile_eq_self solid, List.dropWhile_append_of_pos dropped]

theorem normalTag_trim (s : String) : normalTag (trimText s) = normalTag s := by
  rw [normalTag_eq, normalTag_eq, trimText, String.toList_ofList, trim_trim]

theorem normalTag_markedTag (s : String) : normalTag (markedTag s) = normalTag s := by
  rw [markedTag]
  split_ifs
  · exact normalTag_trim s
  · have solid : ∀ c ∈ (trimText s).toList.head?, isBlank c = false := by
      rw [trimText, String.toList_ofList]
      exact (trim_eq_self_iff.mp (trim_trim s.toList)).1
    have marked : normalTag (String.ofList (['#'] ++ (trimText s).toList)) = _ :=
      normalTag_marked (by simp) solid
    rw [String.ofList_append, String.ofList_toList, normalTag_trim] at marked
    exact marked

/-- A tag as it may be asked for: its plain letters in any case, and without the number signs in front of it,
unless a blank would stand there. -/
inductive Respells (t s : String) : Prop
  | cased (same : t.toList.map Char.toLower = s.toList.map Char.toLower)
  | bare (solid : ∀ c ∈ (s.toList.dropWhile (· == '#')).head?, isBlank c = false)
      (same : t.toList.map Char.toLower = (s.toList.dropWhile (· == '#')).map Char.toLower)

theorem Respells.normalTag_eq (respells : Respells t s) : normalTag t = normalTag s := by
  cases respells with
  | cased same => exact normalTag_cased same
  | bare solid same =>
    rw [← String.toList_ofList (l := s.toList.dropWhile _)] at same
    have marks : ∀ c ∈ s.toList.takeWhile (· == '#'), c = '#' := fun c member => by
      simpa using List.mem_takeWhile_imp member
    have marked := normalTag_marked marks solid
    rw [List.takeWhile_append_dropWhile, String.ofList_toList] at marked
    rw [normalTag_cased same, marked]

end Spelling

/-- A number sign begins the tag here: it stands behind no sign that forbids it, and the tag goes on as far
as it may. -/
structure Inline (previous : Option Char) (front tag back : List Char) : Prop where
  free : ∀ c ∈ front.getLast?.or previous, blocksTag c = false
  some_sign : tag ≠ []
  within : ∀ c ∈ tag, isTagSign c = true
  ends : ∀ c ∈ back.head?, isTagSign c = false

/-- Behind a further sign nothing of what was there before it matters. -/
theorem inline_later {previous : Option Char} {c : Char} {front tag back : List Char} :
    Inline (some c) front tag back ↔ Inline previous (c :: front) tag back := by
  have last : front.getLast?.or (some c) = (c :: front).getLast?.or previous := by
    rw [List.getLast?_cons]
    cases front.getLast? <;> rfl
  constructor
  · exact fun inline => ⟨last ▸ inline.free, inline.some_sign, inline.within, inline.ends⟩
  · exact fun inline => ⟨last ▸ inline.free, inline.some_sign, inline.within, inline.ends⟩

theorem mem_tagsIn_cons {previous : Option Char} {c : Char} {text : List Char} {s : String} :
    s ∈ tagsIn previous (c :: text) ↔
      (c = '#' ∧ (∀ d ∈ previous, blocksTag d = false) ∧ text.takeWhile isTagSign ≠ [] ∧
        s = String.ofList (text.takeWhile isTagSign)) ∨ s ∈ tagsIn (some c) text := by
  have begins : (c == '#' && !previous.any blocksTag && !(text.takeWhile isTagSign).isEmpty) = true ↔
      c = '#' ∧ (∀ d ∈ previous, blocksTag d = false) ∧ text.takeWhile isTagSign ≠ [] := by
    cases previous <;> simp [and_assoc]
  rw [tagsIn, apply_ite (s ∈ ·), if_congr begins rfl rfl]
  split_ifs with here
  · rw [List.mem_cons]
    exact or_congr_left ⟨fun same => ⟨here.1, here.2.1, here.2.2, same⟩, fun found => found.2.2.2⟩
  · exact ⟨.inr, fun found => found.resolve_left fun begun => here ⟨begun.1, begun.2.1, begun.2.2.1⟩⟩

/-- What is found in a text are the tags that a number sign begins in it. -/
theorem mem_tagsIn {previous : Option Char} {text : List Char} {s : String} :
    s ∈ tagsIn previous text ↔ ∃ front tag back, text = front ++ '#' :: (tag ++ back) ∧
      Inline previous front tag back ∧ s = String.ofList tag := by
  induction text generalizing previous with
  | nil => simp [tagsIn]
  | cons c text ih =>
    rw [mem_tagsIn_cons, ih]
    constructor
    · rintro (⟨rfl, free, some_sign, rfl⟩ | ⟨front, tag, back, rfl, inline, rfl⟩)
      · have within : ∀ d ∈ text.takeWhile isTagSign, isTagSign d = true :=
          fun d member => List.mem_takeWhile_imp member
        refine ⟨[], _, text.dropWhile isTagSign, ?_,
          ⟨free, some_sign, within, dropWhile_ends isTagSign text⟩, rfl⟩
        rw [List.takeWhile_append_dropWhile, List.nil_append]
      · exact ⟨c :: front, tag, back, rfl, inline_later.mp inline, rfl⟩
    · rintro ⟨_ | ⟨d, front⟩, tag, back, whole, inline, rfl⟩
      · obtain ⟨rfl, rfl⟩ := List.cons.inj whole
        obtain ⟨taken, -⟩ := span_front inline.within inline.ends
        rw [taken]
        exact .inl ⟨rfl, inline.free, inline.some_sign, rfl⟩
      · obtain ⟨rfl, rfl⟩ := List.cons.inj whole
        exact .inr ⟨front, tag, back, rfl, inline_later.mpr inline, rfl⟩

/-- Repetitions are left out as the library leaves them out. -/
theorem distinct_eq (texts : List String) : distinct texts = texts.eraseDups := by
  have gathered (acc : List String) :
      (texts.foldl (fun acc t => if acc.contains t then acc else t :: acc) acc).reverse =
        List.eraseDupsBy.loop (· == ·) texts acc := by
    induction texts generalizing acc with
    | nil => rfl
    | cons t texts ih =>
      rw [List.foldl_cons, ih, List.eraseDupsBy.loop, List.contains_eq_any_beq]
      cases acc.any (t == ·) <;> rfl
  exact gathered []

namespace Value

/-- A list of texts. -/
theorem texts_injective : Value.texts.Injective := fun _ _ same =>
  List.map_injective_iff.mpr (fun _ _ => Value.text.inj) (Value.list.inj same)

/-- What tags are taken from: nothing, a text or a list of texts. -/
inductive IsTagField : Value → Prop
  | null : IsTagField .null
  | text (s : String) : IsTagField (.text s)
  | texts (items : List String) : IsTagField (.texts items)

/-- The tags that it names, as they are written: the items of a list that are not blank, and the parts of a
text between commas and blanks. -/
inductive Lists (v : Value) : String → Prop
  | item {items : List String} {s : String} (given : v = .texts items) (member : s ∈ items)
      (meant : isBlankText s = false) : v.Lists s
  | part {text : String} {part : List Char} (given : v = .text text)
      (cut : part ∈ text.toList.splitOnP fun c => c == ',' || isBlank c) (some_sign : part ≠ []) :
      v.Lists (String.ofList part)

end Value

/-- What the properties say of tags: under the one name, or under the other where they do not have it. -/
def Entries.tagField (properties : Entries) : Value :=
  (properties.find? "tags").getD (properties.get "tag")

/-- The tags of a note as they are written: those that its properties name, and those that a number sign begins
in the body without fenced code. -/
inductive Declares (properties : Entries) (body : String) : String → Prop
  | listed {s : String} (lists : properties.tagField.Lists s) : Declares properties body s
  | inline {text front tag back : List Char} (unfenced : Unfenced body.toList text)
      (occurs : text = front ++ '#' :: (tag ++ back)) (inline : Inline none front tag back) :
      Declares properties body ("#" ++ String.ofList tag)

section Declaration

variable {properties : Entries}

theorem listedTags_texts (items : List String) : listedTags (items.map .text) =
    .ok ((items.filter fun s => !isBlankText s).map markedTag) := by
  induction items with
  | nil => rfl
  | cons s items ih =>
    rw [List.map_cons, listedTags, ih, List.filter_cons]
    · cases blank : isBlankText s <;> simp [Value.plainText, blank, bind, Except.bind]
    · exact nofun

/-- What stands between commas and blanks is what the text is cut into. -/
theorem lists_text {text s : String} : (Value.text text).Lists s ↔
    s ∈ (words (fun c => c == ',' || isBlank c) text.toList).map String.ofList := by
  rw [List.mem_map, words_eq]
  constructor
  · rintro (⟨given, _, _⟩ | ⟨given, cut, some_sign⟩) <;> cases given
    exact ⟨_, List.mem_filter.mpr ⟨cut, decide_eq_true some_sign⟩, rfl⟩
  · rintro ⟨part, member, rfl⟩
    obtain ⟨cut, some_sign⟩ := List.mem_filter.mp member
    exact .part rfl cut (of_decide_eq_true some_sign)

theorem lists_texts {items : List String} {s : String} :
    (Value.texts items).Lists s ↔ s ∈ items.filter fun s => !isBlankText s := by
  rw [List.mem_filter, Bool.not_eq_true']
  constructor
  · rintro (⟨given, member, meant⟩ | ⟨given, _, _⟩)
    · cases Value.texts_injective given
      exact ⟨member, meant⟩
    · cases given
  · exact fun ⟨member, meant⟩ => .item rfl member meant

theorem declaredTags_lists (field : properties.tagField.IsTagField) : ∃ written : List String,
    declaredTags properties = .ok (written.map markedTag) ∧
      ∀ s, properties.tagField.Lists s ↔ s ∈ written := by
  rw [declaredTags, ← Entries.tagField]
  generalize properties.tagField = v at field
  cases field with
  | null =>
    refine ⟨[], rfl, fun s => iff_of_false ?_ List.not_mem_nil⟩
    rintro (⟨given, _, _⟩ | ⟨given, _, _⟩) <;> cases given
  | text text =>
    refine ⟨_, ?_, fun s => lists_text⟩
    rw [List.map_map, Function.comp_def]
  | texts items => exact ⟨_, listedTags_texts items, fun s => lists_texts⟩

theorem ofNote_declares (field : properties.tagField.IsTagField) (body : String) : ∃ m,
    Metadata.ofNote properties body = .ok m ∧
      ∀ n, n ∈ m.tags.map normalTag ↔ ∃ s, Declares properties body s ∧ normalTag s = n := by
  obtain ⟨written, declared, lists⟩ := declaredTags_lists field
  refine ⟨⟨distinct (written.map markedTag ++ (tagsIn none (withoutCode body.toList)).map ("#" ++ ·)),
    distinct (linksIn (withoutCode body.toList))⟩, ?_, fun n => ?_⟩
  · rw [Metadata.ofNote, declared]
    rfl
  · simp only [distinct_eq, List.mem_map, List.mem_eraseDups, List.mem_append]
    constructor
    · rintro ⟨_, ⟨s, member, rfl⟩ | ⟨_, found, rfl⟩, rfl⟩
      · exact ⟨s, .listed ((lists s).mpr member), (normalTag_markedTag s).symm⟩
      · obtain ⟨front, tag, back, occurs, inline, rfl⟩ := mem_tagsIn.mp found
        exact ⟨_, .inline (withoutCode_iff.mp rfl) occurs inline, rfl⟩
    · rintro ⟨s, declares, rfl⟩
      cases declares with
      | listed listed => exact ⟨_, .inl ⟨s, (lists s).mp listed, rfl⟩, normalTag_markedTag s⟩
      | inline unfenced occurs inline =>
        have found := mem_tagsIn.mpr ⟨_, _, _, occurs, inline, rfl⟩
        rw [← withoutCode_iff.mpr unfenced] at found
        exact ⟨_, .inr ⟨_, found, rfl⟩, rfl⟩

theorem hasTag_text (tags : List String) (t : String) :
    hasTag tags [.text t] = .ok (decide (normalTag t ∈ tags.map normalTag)) := by
  simp only [hasTag, Value.display, bind, Except.bind, List.contains_iff_mem]
  split_ifs with found
  · rw [decide_eq_true found]
  · rw [decide_eq_false found]

/-- A note has exactly the tags that it declares: each is found however it is spelled, and what has the normal
form of none of them is not found. -/
theorem hasTag_declared (field : properties.tagField.IsTagField) (body : String) : ∃ m,
    Metadata.ofNote properties body = .ok m ∧
      (∀ s t, Declares properties body s → Respells t s → hasTag m.tags [.text t] = .ok true) ∧
      ∀ t, (∀ s, Declares properties body s → normalTag t ≠ normalTag s) →
        hasTag m.tags [.text t] = .ok false := by
  obtain ⟨m, read, declares⟩ := ofNote_declares field body
  refine ⟨m, read, fun s t declared respells => ?_, fun t other => ?_⟩
  · rw [hasTag_text, decide_eq_true ((declares _).mpr ⟨s, declared, respells.normalTag_eq.symm⟩)]
  · rw [hasTag_text, decide_eq_false fun found => ?_]
    obtain ⟨s, declared, same⟩ := (declares _).mp found
    exact other s declared same.symm

theorem hasTag_declared_mixed : ∃ m,
    Metadata.ofNote [("tag", .text "no"), ("tags", .texts ["##Work Log", " "])]
        "```#no``` #Idea, x#no" = .ok m ∧
      hasTag m.tags [.text "work LOG"] = .ok true ∧ hasTag m.tags [.text "#idea"] = .ok true ∧
      hasTag m.tags [.text "no"] = .ok false := by
  have unpaired : Unpaired " #Idea, x#no".toList := fun before code after paired =>
    absurd (paired ▸ by simp [fence] : '`' ∈ " #Idea, x#no".toList) (by decide)
  have code : Unmarked "#no".toList := by decide
  have unfenced : Unfenced "```#no``` #Idea, x#no".toList " #Idea, x#no".toList :=
    Unfenced.code unmarked_nil code (.plain unpaired)
  have tags : tagsIn none " #Idea, x#no".toList = ["Idea"] := by cbv
  have field : (Entries.tagField [("tag", .text "no"), ("tags", .texts ["##Work Log", " "])]).IsTagField :=
    .texts ["##Work Log", " "]
  obtain ⟨m, read, found, other⟩ := hasTag_declared field "```#no``` #Idea, x#no"
  refine ⟨m, read, ?_, ?_, ?_⟩
  · have lists : (Value.texts ["##Work Log", " "]).Lists "##Work Log" :=
      .item rfl List.mem_cons_self (by decide)
    exact found _ _ (.listed lists) (.bare (by rintro _ ⟨⟩; decide) (by decide +kernel))
  · obtain ⟨front, tag, back, occurs, inline, named⟩ :=
      mem_tagsIn.mp (tags ▸ List.mem_singleton_self "Idea" : "Idea" ∈ tagsIn none " #Idea, x#no".toList)
    refine found _ _ (.inline unfenced occurs inline) ?_
    rw [← named]
    exact .cased (by decide +kernel)
  · refine other _ fun s declares => ?_
    cases declares with
    | listed lists =>
      have named : s ∈ ["##Work Log", " "].filter fun s => !isBlankText s := lists_texts.mp lists
      rw [show ["##Work Log", " "].filter (fun s => !isBlankText s) = ["##Work Log"] by decide] at named
      rw [List.mem_singleton.mp named]
      decide +kernel
    | inline unfenced' occurs inline =>
      have found := mem_tagsIn.mpr ⟨_, _, _, occurs, inline, rfl⟩
      rw [← withoutCode_iff.mpr unfenced', withoutCode_iff.mpr unfenced, tags] at found
      rw [List.mem_singleton.mp found]
      decide +kernel

end Declaration

end NoteQuery
