import NoteQuery.Proofs.Yaml.Scalar

/-! How reading the characters of a text fails. But for text that is no YAML there are two ways only: a
number that stands for no character, and a version with too many digits. -/
namespace NoteQuery.Yaml

open Except

theorem wellFormed_failsOnly {α : Type} {x : Option α} : (wellFormed x).FailsOnly Failure.Untagged := by
  cases x with
  | some a => exact failsOnly_ok a
  | none => exact .error (.inl rfl)

theorem charOf_failsOnly {d : Dialect} {n : Nat} : (charOf d n).FailsOnly Failure.Untagged := by
  unfold charOf
  split
  · exact failsOnly_ok _
  · cases d
    · simp only
      split
      · exact .error (.inl rfl)
      · split
        · exact .error (.inr (.inl rfl))
        · exact .error (.inr (.inr rfl))
    · exact .error (.inl rfl)

theorem readDouble_failsOnly {d : Dialect} {state : QuoteState} {ts : List Spot} :
    (readDouble d state ts).FailsOnly Failure.Untagged := by
  induction ts generalizing state with
  | nil =>
    cases state <;> exact .error (.inl rfl)
  | cons s rest ih =>
    cases state with
    | text gap =>
      rw [readDouble]
      split_ifs
      · exact failsOnly_ok _
      · exact ih.map
      · exact ih
      · exact .error (.inl rfl)
      · exact ih
      · exact ih.map
    | escape =>
      rw [readDouble]
      split_ifs
      · exact .error (.inl rfl)
      · exact ih
      · split
        · exact ih.map
        · exact ih
        · exact .error (.inl rfl)
    | digits left value =>
      rw [readDouble]
      split
      · exact .error (.inl rfl)
      · split_ifs
        · exact charOf_failsOnly.bind fun _ => ih.map
        · exact ih

theorem takeNumber_failsOnly {d : Dialect} {ts : List Spot} :
    (takeNumber d ts).FailsOnly Failure.Untagged := by
  unfold takeNumber
  simp only
  split_ifs
  · exact .error (.inl rfl)
  · cases d
    · exact .error (.inr (.inl rfl))
    · exact .error (.inl rfl)
  · exact failsOnly_ok _

theorem readVersion_failsOnly {d : Dialect} {ts : List Spot} :
    (readVersion d ts).FailsOnly Failure.Untagged := by
  refine takeNumber_failsOnly.bind ?_
  rintro ⟨major, rest⟩
  cases rest with
  | nil => exact .error (.inl rfl)
  | cons s left =>
    simp only
    split
    · exact takeNumber_failsOnly.bind fun _ => failsOnly_ok _
    · exact .error (.inl rfl)

theorem readNamed_failsOnly {d : Dialect} {name : String} {ts : List Spot} :
    (readNamed d name ts).FailsOnly Failure.Untagged := by
  unfold readNamed
  split_ifs
  · exact readVersion_failsOnly
  · exact wellFormed_failsOnly
  · exact failsOnly_ok _

theorem readDirective_failsOnly {d : Dialect} {ts : List Spot} :
    (readDirective d ts).FailsOnly Failure.Untagged := by
  refine wellFormed_failsOnly.bind ?_
  intro rest
  refine readNamed_failsOnly.bind ?_
  rintro ⟨directive, rest⟩
  exact wellFormed_failsOnly.bind fun _ => failsOnly_ok _

theorem scanToken_failsOnly {d : Dialect} {s : ScanState} {here : Spot} {rest : List Spot} :
    (scanToken d s here rest).FailsOnly Failure.Untagged := by
  unfold scanToken
  split
  · refine wellFormed_failsOnly.bind fun s => readDirective_failsOnly.bind fun _ => failsOnly_ok _
  · split
    · exact readDouble_failsOnly.bind fun _ => wellFormed_failsOnly.bind fun _ => failsOnly_ok _
    · exact wellFormed_failsOnly

section

variable {d : Dialect} {s : ScanState} {ts rest : List Spot} {allowed : Bool} {here : Spot}

theorem scanAll_end (gap : skipGap d s.depth s.keyAllowed false ts = (allowed, [])) :
    scanAll d s ts = if (s.allowKey allowed).places.any fun entry => entry.2.required then
      .error .malformed else .ok ((s.allowKey allowed).unwind (-1)).tokens := by
  rw [scanAll, gap]

theorem scanAll_step (gap : skipGap d s.depth s.keyAllowed false ts = (allowed, here :: rest)) :
    scanAll d s ts = (wellFormed ((s.allowKey allowed).dropStale here.line here.index) >>= fun s =>
      scanToken d (s.unwind here.column) here rest >>= fun found =>
        if found.2.length < ts.length then scanAll d found.1 found.2 else .error .malformed) := by
  rw [scanAll, gap]

theorem scanAll_next {kept after : ScanState} {next : List Spot}
    (gap : skipGap d s.depth s.keyAllowed false ts = (allowed, here :: rest))
    (fresh : (s.allowKey allowed).dropStale here.line here.index = some kept)
    (token : scanToken d (kept.unwind here.column) here rest = .ok (after, next))
    (shorter : next.length < ts.length) : scanAll d s ts = scanAll d after next := by
  rw [scanAll_step gap, fresh]
  simp only [wellFormed, bind, Except.bind, token, shorter, if_true]

theorem scanAll_failsOnly : (scanAll d s ts).FailsOnly Failure.Untagged := by
  induction s, ts using scanAll.induct d with
  | case1 s ts allowed _ required gap =>
    rw [scanAll_end gap, if_pos required]
    exact .error (.inl rfl)
  | case2 s ts allowed _ free gap =>
    rw [scanAll_end gap, if_neg free]
    exact failsOnly_ok _
  | case3 s ts allowed here rest gap ih =>
    rw [scanAll_step gap]
    refine wellFormed_failsOnly.bind fun _ => scanToken_failsOnly.bind fun found => ?_
    split_ifs with shorter
    · exact ih _ _ shorter
    · exact .error (.inl rfl)

end

theorem Node.ofText_failsOnly {d : Dialect} {text : String} :
    (Node.ofText d text).FailsOnly Failure.Untagged := by
  refine FailsOnly.bind ?_ ?_
  · exact wellFormed_failsOnly.bind fun _ => scanAll_failsOnly.bind fun _ => failsOnly_ok _
  · intro ts
    refine wellFormed_failsOnly.bind ?_
    rintro ⟨node, rest⟩
    simp only
    split
    · exact failsOnly_ok _
    · exact .error (.inl rfl)

end NoteQuery.Yaml
