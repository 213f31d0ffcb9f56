import NoteQuery.Number.Binary64

/-!
The decimal text of a binary number. The digits are the fewest that read back as the same
number, and of those the nearest. `NumberLayout` says how the digits are set out: where the
point stands, and from where on an exponent is written.
-/

namespace NoteQuery

/-- The number `coefficient * 10 ^ exponent`, with no zero at the end of the coefficient. -/
structure Decimal where
  coefficient : Nat
  exponent : Int
  deriving DecidableEq, Repr

namespace Decimal

/-- Drops the zeros at the end of the coefficient; `fuel` bounds their number. -/
def strip : Nat → Nat → Int → Decimal
  | 0, coefficient, exponent => ⟨coefficient, exponent⟩
  | fuel + 1, coefficient, exponent =>
    if coefficient ≠ 0 ∧ coefficient % 10 = 0 then strip fuel (coefficient / 10) (exponent + 1)
    else ⟨coefficient, exponent⟩

def digits (d : Decimal) : List Char := Nat.toDigits 10 d.coefficient

def scale (d : Decimal) : Int := d.exponent + d.digits.length - 1

end Decimal

namespace Magnitude

def ratioLe (a b c d : Nat) : Bool := a * d ≤ c * b

def ratioLt (a b c d : Nat) : Bool := a * d < c * b

def decimalRatio (n : Nat) (k : Int) : Nat × Nat :=
  if 0 ≤ k then (n * Nat.pow 10 k.toNat, 1) else (n, Nat.pow 10 (-k).toNat)

/-- The decimal lies among the reals that round to the magnitude: between the middles to its two
neighbours, and on a middle only when the mantissa is even. -/
def roundsTo (m : Magnitude) (n : Nat) (k : Int) : Bool :=
  let (dn, dd) := decimalRatio n k
  let (un, ud) := scaled 1 (m.exponent - 2)
  let below := if m.mantissa = Nat.pow 2 52 ∧ m.exponent ≠ -1074 then 1 else 2
  let low := (4 * m.mantissa - below) * un
  let high := (4 * m.mantissa + 2) * un
  if m.mantissa % 2 = 0 then ratioLe low ud dn dd && ratioLe dn dd high ud
  else ratioLt low ud dn dd && ratioLt dn dd high ud

/-- The greatest whole `k` with `10 ^ k ≤ num / den`, from a first guess that is near. -/
def floorLog10 (num den : Nat) : Int :=
  let guess : Int := Int.fdiv ((floorLog2 num den) * 1233) 4096
  let fits (k : Int) : Bool :=
    let (n, d) := decimalRatio 1 k
    ratioLe n d num den
  if fits (guess + 1) then guess + 1 else if fits guess then guess else guess - 1

def decimalOfLength? (m : Magnitude) (scale : Int) (length : Nat) : Option Decimal :=
  let step := scale - length + 1
  let (num, den) := m.ratio
  let (sn, sd) := decimalRatio 1 step
  let low := num * sd / (den * sn)
  let twice := 2 * (num * sd % (den * sn))
  let lowFits := m.roundsTo low step
  let highFits := m.roundsTo (low + 1) step
  let found (n : Nat) : Option Decimal := some (Decimal.strip (length + 1) n step)
  match lowFits, highFits with
  | true, true =>
    if twice < den * sn then found low
    else if twice = den * sn then found (low + low % 2)
    else found (low + 1)
  | true, false => found low
  | false, true => found (low + 1)
  | false, false => none

def shortestFrom (m : Magnitude) (scale : Int) : Nat → Nat → Decimal
  | 0, length => ⟨(m.ratio.1 / m.ratio.2), length⟩
  | fuel + 1, length =>
    match m.decimalOfLength? scale length with
    | some d => d
    | none => shortestFrom m scale fuel (length + 1)

/-- The fewest decimal digits that read back as the magnitude. Seventeen always do. -/
def shortest (m : Magnitude) : Decimal :=
  if m.isZero then ⟨0, 0⟩
  else shortestFrom m (floorLog10 m.ratio.1 m.ratio.2) 17 1

end Magnitude

structure NumberLayout where
  /-- Numbers are written without an exponent when the exponent of the first digit lies from
  `leastPlain` to `greatestPlain`. -/
  leastPlain : Int
  greatestPlain : Int
  wholeEnding : String
  nanText : String
  infinityText : String
  deriving Repr

namespace NumberLayout

def zeros (n : Nat) : List Char := List.replicate n '0'

def exponentText (scale : Int) : List Char :=
  let digits := Nat.toDigits 10 scale.natAbs
  (if scale < 0 then '-' else '+') :: (zeros (2 - digits.length) ++ digits)

def plainText (layout : NumberLayout) (digits : List Char) (scale : Int) : List Char :=
  if scale < 0 then '0' :: '.' :: (zeros (-scale - 1).toNat ++ digits)
  else
    let whole := scale.toNat + 1
    if digits.length ≤ whole then
      digits ++ zeros (whole - digits.length) ++ layout.wholeEnding.toList
    else digits.take whole ++ '.' :: digits.drop whole

def textOf (layout : NumberLayout) (d : Decimal) : List Char :=
  let digits := d.digits
  let scale := d.scale
  if layout.leastPlain ≤ scale ∧ scale ≤ layout.greatestPlain then layout.plainText digits scale
  else
    match digits with
    | [] => []
    | first :: rest =>
      first :: (if rest.isEmpty then [] else '.' :: rest) ++ 'e' :: exponentText scale

def text (layout : NumberLayout) : Binary64 → String
  | .nan => layout.nanText
  | .infinite negative => (if negative then "-" else "") ++ layout.infinityText
  | .finite negative m =>
    (if negative then "-" else "") ++ String.ofList (layout.textOf m.shortest)

/-- Whole numbers keep a point and a zero, and an exponent is written from `1e16` up and below
`0.0001`. -/
def plain : NumberLayout := ⟨-4, 15, ".0", "nan", "inf"⟩

def json : NumberLayout := ⟨-4, 15, ".0", "NaN", "Infinity"⟩

end NumberLayout

/-- A number from one up to ten with at most that many significant digits, without zeros at the
end. -/
def significantText (places : Nat) (num den : Nat) : String :=
  let n := roundDiv (num * Nat.pow 10 (places - 1)) den
  let d := Decimal.strip places n (-(places - 1 : Nat))
  String.ofList (({ NumberLayout.plain with wholeEnding := "" } : NumberLayout).textOf d)

end NoteQuery
