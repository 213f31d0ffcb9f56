import NoteQuery.Note.Document
import NoteQuery.Text.Letter
import NoteQuery.Value.Text

/-!
The tags and links of a note. Tags come from the front matter, then from the body, where a number
sign begins a tag unless it stands inside a word or an address; links stand in double square
brackets. Code between fences holds neither. Both lists are free of repetitions and in order of
first appearance.
-/

namespace NoteQuery

open NoteQuery.Text

def fence : List Char := ['`', '`', '`']

def afterFence : List Char → Option (List Char)
  | [] => none
  | c :: text =>
    match dropPrefix? fence (c :: text) with
    | some rest => some rest
    | none => afterFence text

theorem dropPrefix?_length_le {start text rest : List Char}
    (h : dropPrefix? start text = some rest) : rest.length ≤ text.length := by
  induction start generalizing text with
  | nil => simp only [dropPrefix?, Option.some.injEq] at h; simp [h]
  | cons p start ih =>
    cases text with
    | nil => simp [dropPrefix?] at h
    | cons c text =>
      simp only [dropPrefix?] at h
      split at h
      · exact Nat.le_succ_of_le (ih h)
      · simp at h

theorem afterFence_length_le {text rest : List Char} (h : afterFence text = some rest) :
    rest.length ≤ text.length := by
  induction text with
  | nil => simp [afterFence] at h
  | cons c text ih =>
    simp only [afterFence] at h
    split at h
    · next heq =>
      simp only [Option.some.injEq] at h
      exact h ▸ dropPrefix?_length_le heq
    · exact Nat.le_succ_of_le (ih h)

/-- The text without what stands between fences. A fence that is not closed stays. -/
def withoutCode (text : List Char) : List Char :=
  match text with
  | [] => []
  | c :: rest =>
    match _opened : dropPrefix? fence (c :: rest) with
    | none => c :: withoutCode rest
    | some inside =>
      match _closed : afterFence inside with
      | none => c :: withoutCode rest
      | some after => withoutCode after
termination_by text.length
decreasing_by
  · exact Nat.lt_succ_self _
  · exact Nat.lt_succ_self _
  · have inner := afterFence_length_le _closed
    have outer : inside.length < (c :: rest).length := by
      have : dropPrefix? ['`', '`'] rest = some inside := by
        simp only [fence, dropPrefix?] at _opened ⊢
        split at _opened
        · exact _opened
        · simp at _opened
      exact Nat.lt_succ_of_le (dropPrefix?_length_le this)
    exact Nat.lt_of_le_of_lt inner outer

def isTagSign (c : Char) : Bool := !isBlank c && !"#[]()\x7b\x7d,.;:!?\"'`".contains c

/-- A number sign after this character begins no tag. -/
def blocksTag (c : Char) : Bool := isWordSign c || c == '#' || c == '/' || c == '&'

/-- The tags in a text whose last character so far is `previous`, without their number signs. -/
def tagsIn (previous : Option Char) : List Char → List String
  | [] => []
  | c :: text =>
    let later := tagsIn (some c) text
    let tag := text.takeWhile isTagSign
    if c == '#' && !previous.any blocksTag && !tag.isEmpty then String.ofList tag :: later
    else later

/-- Passes over a part of a link that begins with a sign, up to a character that ends it. -/
def skipPart (sign : Char) (isEnd : Char → Bool) (text : List Char) : List Char :=
  if text.head? = some sign then text.dropWhile fun c => !isEnd c else text

theorem skipPart_length_le (sign : Char) (isEnd : Char → Bool) (text : List Char) :
    (skipPart sign isEnd text).length ≤ text.length := by
  unfold skipPart
  split
  · exact (List.dropWhile_sublist _).length_le
  · exact Nat.le_refl _

/-- The target of the link whose inside begins here, and what follows the link. A heading behind a
number sign and a caption behind a bar are passed over. -/
def linkTarget? (text : List Char) : Option (List Char × List Char) :=
  let inTarget (c : Char) : Bool := c != ']' && c != '|' && c != '#'
  let target := text.takeWhile inTarget
  let behindHeading := skipPart '#' (fun c => c == ']' || c == '|') (text.dropWhile inTarget)
  let behindCaption := skipPart '|' (· == ']') behindHeading
  if target.isEmpty then none
  else (dropPrefix? [']', ']'] behindCaption).map fun after => (target, after)

theorem linkTarget?_length_le {text target after : List Char}
    (h : linkTarget? text = some (target, after)) : after.length ≤ text.length := by
  simp only [linkTarget?] at h
  split at h
  · simp at h
  · obtain ⟨found, hf, heq⟩ := Option.map_eq_some_iff.1 h
    simp only [Prod.mk.injEq] at heq
    obtain ⟨_, rfl⟩ := heq
    exact Nat.le_trans (dropPrefix?_length_le hf) (Nat.le_trans (skipPart_length_le ..)
      (Nat.le_trans (skipPart_length_le ..) (List.dropWhile_sublist _).length_le))

def linksIn (text : List Char) : List String :=
  match text with
  | '[' :: '[' :: rest =>
    match _found : linkTarget? rest with
    | some (target, after) =>
      let shown := trim target
      if shown.isEmpty then linksIn after else String.ofList shown :: linksIn after
    | none => linksIn ('[' :: rest)
  | _ :: rest => linksIn rest
  | [] => []
termination_by text.length
decreasing_by
  · have := linkTarget?_length_le _found
    simp only [List.length_cons]
    omega
  · have := linkTarget?_length_le _found
    simp only [List.length_cons]
    omega
  · simp
  · simp

def markedTag (text : String) : String :=
  let shown := trimText text
  if startsWith shown.toList ['#'] then shown else "#" ++ shown

/-- The items of a list of tags that say something, marked. -/
def listedTags : List Value → Except Fault (List String)
  | [] => .ok []
  | .null :: items => listedTags items
  | item :: items => do
    let shown ← item.plainText
    let others ← listedTags items
    .ok (if isBlankText shown then others else markedTag shown :: others)

/-- The tags that the properties declare: a list, or a text with commas or blanks between them. -/
def declaredTags (properties : Entries) : Except Fault (List String) :=
  match (properties.find? "tags").getD (properties.get "tag") with
  | .null => .ok []
  | .text s =>
    .ok ((words (fun c => c == ',' || isBlank c) s.toList).map fun w => markedTag (String.ofList w))
  | .list items => listedTags items
  | v => do .ok [markedTag (← v.plainText)]

def distinct (texts : List String) : List String :=
  (texts.foldl (fun acc t => if acc.contains t then acc else t :: acc) []).reverse

def Metadata.ofNote (properties : Entries) (body : String) : Except Fault Metadata := do
  let text := withoutCode body.toList
  let declared ← declaredTags properties
  .ok {
    tags := distinct (declared ++ (tagsIn none text).map ("#" ++ ·))
    links := distinct (linksIn text) }

end NoteQuery
