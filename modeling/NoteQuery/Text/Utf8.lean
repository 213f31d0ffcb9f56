import NoteQuery.Text.Quoted

/-!
Texts from bytes in UTF-8, with the place and the reason where bytes are no text.
-/

namespace NoteQuery.Text

inductive BrokenBytes where
  | badStart
  | badContinuation
  | cutShort
  deriving DecidableEq, Repr

structure DecodeError where
  position : Nat
  bytes : List UInt8
  reason : BrokenBytes
  deriving DecidableEq, Repr

namespace DecodeError

def reasonText : BrokenBytes → String
  | .badStart => "invalid start byte"
  | .badContinuation => "invalid continuation byte"
  | .cutShort => "unexpected end of data"

def message (e : DecodeError) : String :=
  let place :=
    match e.bytes with
    | [b] => "byte 0x" ++ String.ofList (hexDigits 2 b.toNat) ++ " in position " ++ toString e.position
    | bytes =>
      "bytes in position " ++ toString e.position ++ "-" ++ toString (e.position + bytes.length - 1)
  "'utf-8' codec can't decode " ++ place ++ ": " ++ reasonText e.reason

end DecodeError

/-- How many bytes follow a first byte, and between which bounds the next one lies. Bounds other
than the usual ones keep out long forms, halves of pairs and numbers that are no character. -/
def following? (b : UInt8) : Option (Nat × UInt8 × UInt8) :=
  if b < 0x80 then some (0, 0x80, 0xBF)
  else if b < 0xC2 then none
  else if b < 0xE0 then some (1, 0x80, 0xBF)
  else if b < 0xF0 then
    some (2, if b = 0xE0 then 0xA0 else 0x80, if b = 0xED then 0x9F else 0xBF)
  else if b < 0xF5 then
    some (3, if b = 0xF0 then 0x90 else 0x80, if b = 0xF4 then 0x8F else 0xBF)
  else none

/-- How many of the next bytes, at most `count`, go on as they must. -/
def goodBytes (low high : UInt8) : Nat → List UInt8 → Nat
  | count + 1, b :: rest =>
    if low ≤ b && b ≤ high then goodBytes 0x80 0xBF count rest + 1 else 0
  | _, _ => 0

/-- The first place that is no text, in bytes after `position` others. -/
def firstBroken? (position : Nat) (bytes : List UInt8) : Option DecodeError :=
  match bytes with
  | [] => none
  | b :: rest =>
    match following? b with
    | none => some ⟨position, [b], .badStart⟩
    | some (count, low, high) =>
      let good := goodBytes low high count rest
      if good = count then firstBroken? (position + 1 + count) (rest.drop count)
      else if good = rest.length then some ⟨position, b :: rest, .cutShort⟩
      else some ⟨position, b :: rest.take good, .badContinuation⟩
termination_by bytes.length
decreasing_by simp only [List.length_drop, List.length_cons]; omega

def decodeUtf8 (bytes : ByteArray) : Except DecodeError String :=
  match String.fromUTF8? bytes with
  | some text => .ok text
  | none => .error ((firstBroken? 0 bytes.toList).getD ⟨0, [], .badStart⟩)

end NoteQuery.Text
