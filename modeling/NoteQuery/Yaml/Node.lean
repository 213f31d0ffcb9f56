import NoteQuery.Yaml.Token

/-!
Trees of YAML nodes, read from tokens. Readers take a node from the front and return the tokens
after it; what may stay empty is null. An alias stands for the node that the anchor of its name is
on; that node has to end before the alias, so trees are finite.
-/

namespace NoteQuery.Yaml

/-- How the kind of a scalar is found: by its tag, from its text, or not at all. -/
inductive ScalarTag where
  | explicit (tag : String)
  /-- A plain scalar without a tag says its kind itself. -/
  | implied
  /-- A quoted scalar without a tag is a text. -/
  | text
  deriving DecidableEq, Repr

inductive Node where
  | scalar (tag : ScalarTag) (text : String)
  | sequence (tag : Option String) (items : List Node)
  | mapping (tag : Option String) (pairs : List (Node × Node))
  deriving Repr, Inhabited

namespace Node

def blank : Node := scalar .implied ""

structure Names where
  handles : List (String × String)
  anchors : List (String × Node)

abbrev Rest (ts : List Token) := { rest : List Token // rest.length < ts.length }

abbrev RestAny (ts : List Token) := { rest : List Token // rest.length ≤ ts.length }

structure Properties where
  anchor : Option String
  tag : Option TagText

def Properties.isEmpty (p : Properties) : Bool := p.anchor.isNone && p.tag.isNone

/-- An anchor and a tag in either order, each at most once. -/
def takeProperties : (ts : List Token) → Properties × RestAny ts
  | .anchor a :: .tag t :: rest => (⟨some a, some t⟩, ⟨rest, by simp only [List.length_cons]; omega⟩)
  | .tag t :: .anchor a :: rest => (⟨some a, some t⟩, ⟨rest, by simp only [List.length_cons]; omega⟩)
  | .anchor a :: rest => (⟨some a, none⟩, ⟨rest, Nat.le_succ _⟩)
  | .tag t :: rest => (⟨none, some t⟩, ⟨rest, Nat.le_succ _⟩)
  | ts => (⟨none, none⟩, ⟨ts, Nat.le_refl _⟩)

def resolveTag? (names : Names) : Option TagText → Option (Option String)
  | none => some none
  | some ⟨none, suffix⟩ => some (some suffix)
  | some ⟨some handle, suffix⟩ =>
    (names.handles.lookup handle).map fun start => some (start ++ suffix)

/-- The tag of a collection; the lone sign says no more than no tag. -/
def collectionTag (tag : Option String) : Option String := if tag = some "!" then none else tag

def scalarTag (plain : Bool) : Option String → ScalarTag
  | none => if plain then .implied else .text
  | some "!" => .implied
  | some tag => .explicit tag

def blankTag : Option String → ScalarTag
  | none => .implied
  | some "!" => .implied
  | some tag => .explicit tag

/-- Remembers a node under its anchor, which has to be new. -/
def remember? (names : Names) (anchor : Option String) (node : Node) : Option (Node × Names) :=
  match anchor with
  | none => some (node, names)
  | some name =>
    if (names.anchors.lookup name).isSome then none
    else some (node, { names with anchors := (name, node) :: names.anchors })

/-- Nothing stands here, as the next token is one of those that end an entry. -/
def endsEntry (ends : List Token) (ts : List Token) : Bool := ts.head?.any ends.contains

def sequenceEnds : List Token := [.entry, .blockEnd]
def plainSequenceEnds : List Token := [.entry, .key, .value, .blockEnd]
def mappingEnds : List Token := [.key, .value, .blockEnd]
def flowKeyEnds : List Token := [.value, .comma, .closeMapping]
def flowValueEnds : List Token := [.comma, .closeMapping]
def pairKeyEnds : List Token := [.value, .comma, .closeSequence]
def pairValueEnds : List Token := [.comma, .closeSequence]

/-- Where a node stands, which decides what it may be. -/
inductive Place where
  | flow
  | block
  /-- As part of a mapping, where the entries of a sequence need no margin of their own. -/
  | part
  deriving DecidableEq

/-- Passes the comma in front of what is not the first of a collection in brackets. Its end needs
no comma, and one may stand before the end. -/
def separator? (first : Bool) (closing : Token) (ts : List Token) : Option (RestAny ts) :=
  if first || ts.head? = some closing then some ⟨ts, Nat.le_refl _⟩
  else
    match ts with
    | .comma :: rest => some ⟨rest, Nat.le_succ _⟩
    | _ => none

mutual

def read (place : Place) (names : Names) (ts : List Token) : Option ((Node × Names) × Rest ts) :=
  match ts with
  | .alias name :: rest =>
    (names.anchors.lookup name).map fun node => ((node, names), ⟨rest, Nat.lt_succ_self _⟩)
  | ts => do
    let (properties, ⟨rest, h⟩) := takeProperties ts
    let tag ← resolveTag? names properties.tag
    match rest, h with
    | .scalar plain text :: rest, h => do
      let found ← remember? names properties.anchor (.scalar (scalarTag plain tag) text)
      some (found, ⟨rest, h⟩)
    | .openSequence :: rest, h => do
      have h : rest.length < ts.length := h
      let ((items, names), ⟨rest, h'⟩) ← readFlowItems true names rest
      let found ← remember? names properties.anchor (.sequence (collectionTag tag) items)
      some (found, ⟨rest, Nat.lt_trans h' h⟩)
    | .openMapping :: rest, h => do
      have h : rest.length < ts.length := h
      let ((pairs, names), ⟨rest, h'⟩) ← readFlowPairs true names rest
      let found ← remember? names properties.anchor (.mapping (collectionTag tag) pairs)
      some (found, ⟨rest, Nat.lt_trans h' h⟩)
    | .blockSequence :: rest, h =>
      if place = .flow then none
      else do
        have h : rest.length < ts.length := h
        let ((items, names), ⟨rest, h'⟩) ← readEntries names rest
        let found ← remember? names properties.anchor (.sequence (collectionTag tag) items)
        some (found, ⟨rest, Nat.lt_trans h' h⟩)
    | .blockMapping :: rest, h =>
      if place = .flow then none
      else do
        have h : rest.length < ts.length := h
        let ((pairs, names), ⟨rest, h'⟩) ← readPairs names rest
        let found ← remember? names properties.anchor (.mapping (collectionTag tag) pairs)
        some (found, ⟨rest, Nat.lt_trans h' h⟩)
    | .entry :: rest, h =>
      if place = .part then do
        have : rest.length < ts.length := h
        let ((items, names), ⟨rest, h'⟩) ← readPlainEntries names (.entry :: rest)
        let found ← remember? names properties.anchor (.sequence (collectionTag tag) items)
        some (found, ⟨rest, Nat.lt_of_lt_of_le h' h⟩)
      else if shorter : (Token.entry :: rest).length < ts.length then do
        let found ← remember? names properties.anchor (.scalar (blankTag tag) "")
        some (found, ⟨.entry :: rest, shorter⟩)
      else none
    | rest, _ =>
      if shorter : rest.length < ts.length then do
        let found ← remember? names properties.anchor (.scalar (blankTag tag) "")
        some (found, ⟨rest, shorter⟩)
      else none
termination_by 4 * ts.length + 1
decreasing_by all_goals omega

def readEntries (names : Names) (ts : List Token) : Option ((List Node × Names) × Rest ts) :=
  match ts with
  | .blockEnd :: rest => some (([], names), ⟨rest, Nat.lt_succ_self _⟩)
  | .entry :: rest => do
    let ((item, names), ⟨left, h⟩) ← readOr sequenceEnds .block names rest
    let ((items, names), ⟨left', h'⟩) ← readEntries names left
    some ((item :: items, names), ⟨left', by simp only [List.length_cons]; omega⟩)
  | _ => none
termination_by 4 * ts.length
decreasing_by all_goals simp only [List.length_cons]; omega

/-- The entries of a sequence without a margin; there is at least one. -/
def readPlainEntries (names : Names) (ts : List Token) :
    Option ((List Node × Names) × Rest ts) :=
  match ts with
  | .entry :: rest => do
    let ((item, names), ⟨left, h⟩) ← readOr plainSequenceEnds .block names rest
    if left.head? = some .entry then do
      let ((items, names), ⟨left', h'⟩) ← readPlainEntries names left
      some ((item :: items, names), ⟨left', by simp only [List.length_cons]; omega⟩)
    else some (([item], names), ⟨left, Nat.lt_succ_of_le h⟩)
  | _ => none
termination_by 4 * ts.length
decreasing_by all_goals simp only [List.length_cons]; omega

def readPairs (names : Names) (ts : List Token) :
    Option ((List (Node × Node) × Names) × Rest ts) :=
  match ts with
  | .blockEnd :: rest => some (([], names), ⟨rest, Nat.lt_succ_self _⟩)
  | .key :: rest => do
    let ((key, names), ⟨left, h⟩) ← readOr mappingEnds .part names rest
    let ((value, names), ⟨left', h'⟩) ← readValue mappingEnds .part names left
    let ((pairs, names), ⟨left'', h''⟩) ← readPairs names left'
    some (((key, value) :: pairs, names), ⟨left'', by simp only [List.length_cons]; omega⟩)
  | _ => none
termination_by 4 * ts.length
decreasing_by all_goals simp only [List.length_cons]; omega

def readFlowItems (first : Bool) (names : Names) (ts : List Token) :
    Option ((List Node × Names) × Rest ts) := do
  let ⟨start, h⟩ ← separator? first .closeSequence ts
  match start, h with
  | .closeSequence :: rest, h => some (([], names), ⟨rest, h⟩)
  | .key :: rest, h => do
    have h : rest.length < ts.length := h
    let ((key, names), ⟨left, h₁⟩) ← readOr pairKeyEnds .flow names rest
    let ((value, names), ⟨left', h₂⟩) ← readValue pairValueEnds .flow names left
    let ((items, names), ⟨left'', h₃⟩) ← readFlowItems false names left'
    some ((.mapping none [(key, value)] :: items, names),
      ⟨left'', by omega⟩)
  | start, h => do
    let ((item, names), ⟨left, h₁⟩) ← read .flow names start
    let ((items, names), ⟨left', h₂⟩) ← readFlowItems false names left
    some ((item :: items, names), ⟨left', by omega⟩)
termination_by 4 * ts.length + 2
decreasing_by all_goals omega

def readFlowPairs (first : Bool) (names : Names) (ts : List Token) :
    Option ((List (Node × Node) × Names) × Rest ts) := do
  let ⟨start, h⟩ ← separator? first .closeMapping ts
  match start, h with
  | .closeMapping :: rest, h => some (([], names), ⟨rest, h⟩)
  | .key :: rest, h => do
    have h : rest.length < ts.length := h
    let ((key, names), ⟨left, h₁⟩) ← readOr flowKeyEnds .flow names rest
    let ((value, names), ⟨left', h₂⟩) ← readValue flowValueEnds .flow names left
    let ((pairs, names), ⟨left'', h₃⟩) ← readFlowPairs false names left'
    some (((key, value) :: pairs, names),
      ⟨left'', by omega⟩)
  | start, h => do
    let ((key, names), ⟨left, h₁⟩) ← read .flow names start
    let ((pairs, names), ⟨left', h₂⟩) ← readFlowPairs false names left
    some (((key, blank) :: pairs, names), ⟨left', by omega⟩)
termination_by 4 * ts.length + 2
decreasing_by all_goals omega

/-- A node, or a blank one where the entry ends. -/
def readOr (ends : List Token) (place : Place) (names : Names) (ts : List Token) :
    Option ((Node × Names) × RestAny ts) :=
  if endsEntry ends ts then some ((blank, names), ⟨ts, Nat.le_refl _⟩)
  else do
    let (found, ⟨rest, h⟩) ← read place names ts
    some (found, ⟨rest, Nat.le_of_lt h⟩)
termination_by 4 * ts.length + 2
decreasing_by all_goals omega

/-- The value behind a key, blank where none is written. -/
def readValue (ends : List Token) (place : Place) (names : Names) (ts : List Token) :
    Option ((Node × Names) × RestAny ts) :=
  match ts with
  | .value :: rest => do
    let (found, ⟨left, h⟩) ← readOr ends place names rest
    some (found, ⟨left, Nat.le_succ_of_le h⟩)
  | ts => some ((blank, names), ⟨ts, Nat.le_refl _⟩)
termination_by 4 * ts.length
decreasing_by all_goals simp only [List.length_cons]; omega

end

end Node

end NoteQuery.Yaml
