/-!
Binary floating-point numbers of 64 bits, as exact values: a number is a sign, a whole
mantissa below `2 ^ 53` and a power of two. Every operation computes the exact result as a ratio
of whole numbers and rounds once, to the nearest number and in a tie to the even mantissa.
-/

namespace NoteQuery

/-- The size `mantissa * 2 ^ exponent` of a finite number, in the one form that has the largest
mantissa, or the smallest exponent there is. -/
structure Magnitude where
  mantissa : Nat
  exponent : Int
  mantissa_lt : mantissa < Nat.pow 2 53
  exponent_ge : -1074 ≤ exponent
  exponent_le : exponent ≤ 971
  full_or_least : Nat.pow 2 52 ≤ mantissa ∨ exponent = -1074
  deriving DecidableEq, Repr

inductive Binary64 where
  | nan
  | infinite (negative : Bool)
  | finite (negative : Bool) (magnitude : Magnitude)
  deriving DecidableEq, Repr

/-- The whole number nearest to `num / den`, the even one of two. -/
def roundDiv (num den : Nat) : Nat :=
  let quotient := num / den
  let twice := 2 * (num % den)
  if twice < den then quotient
  else if twice = den then quotient + quotient % 2
  else quotient + 1

namespace Magnitude

def zero : Magnitude := ⟨0, -1074, by decide, by decide, by decide, by decide⟩

/-- The magnitude with these parts; nothing when they are not in canonical form. -/
def ofParts? (mantissa : Nat) (exponent : Int) : Option Magnitude :=
  if h : mantissa < Nat.pow 2 53 ∧ -1074 ≤ exponent ∧ exponent ≤ 971 ∧
      (Nat.pow 2 52 ≤ mantissa ∨ exponent = -1074) then
    some ⟨mantissa, exponent, h.1, h.2.1, h.2.2.1, h.2.2.2⟩
  else none

def isZero (m : Magnitude) : Bool := m.mantissa == 0

def scaled (n : Nat) (shift : Int) : Nat × Nat :=
  if 0 ≤ shift then (n * Nat.pow 2 shift.toNat, 1) else (n, Nat.pow 2 (-shift).toNat)

def ratio (m : Magnitude) : Nat × Nat := scaled m.mantissa m.exponent

/-- The greatest whole `k` with `2 ^ k ≤ num / den`, for positive parts. -/
def floorLog2 (num den : Nat) : Int :=
  let estimate := (Nat.log2 num : Int) - (Nat.log2 den : Int)
  let (n, d) := scaled den estimate
  if num * d < n then estimate - 1 else estimate

/-- The magnitude nearest to `num / den`, the even one of two; nothing when that is too large. -/
def ofRatio? (num den : Nat) : Option Magnitude :=
  if num = 0 ∨ den = 0 then some zero
  else
    let exponent := max (floorLog2 num den - 52) (-1074)
    let (n, d) := scaled 1 exponent
    let mantissa := roundDiv (num * d) (den * n)
    if mantissa = Nat.pow 2 53 then ofParts? (Nat.pow 2 52) (exponent + 1) else ofParts? mantissa exponent

end Magnitude

namespace Binary64

def zero : Binary64 := .finite false .zero

/-- The number nearest to `± num / den`; an infinity when that is too large. -/
def ofRatio (negative : Bool) (num den : Nat) : Binary64 :=
  match Magnitude.ofRatio? num den with
  | some m => .finite negative m
  | none => .infinite negative

def ofInt? (n : Int) : Option Binary64 :=
  (Magnitude.ofRatio? n.natAbs 1).map (.finite (decide (n < 0)))

def isNegative : Binary64 → Bool
  | .nan => false
  | .infinite negative => negative
  | .finite negative _ => negative

def isFinite : Binary64 → Bool
  | .finite _ _ => true
  | _ => false

def isNaN : Binary64 → Bool
  | .nan => true
  | _ => false

def isZero : Binary64 → Bool
  | .finite _ m => m.isZero
  | _ => false

def neg : Binary64 → Binary64
  | .nan => .nan
  | .infinite negative => .infinite !negative
  | .finite negative m => .finite (!negative) m

def abs : Binary64 → Binary64
  | .nan => .nan
  | .infinite _ => .infinite false
  | .finite _ m => .finite false m

/-- The exact value as a signed numerator and a denominator; infinities and not-a-number have none. -/
def ratio? : Binary64 → Option (Int × Nat)
  | .finite negative m =>
    let (num, den) := m.ratio
    some (if negative then -(num : Int) else num, den)
  | _ => none

/-- The sum rounds the exact sum. Opposite numbers cancel to a positive zero. -/
def add : Binary64 → Binary64 → Binary64
  | .nan, _ => .nan
  | _, .nan => .nan
  | .infinite s, .infinite t => if s == t then .infinite s else .nan
  | .infinite s, .finite _ _ => .infinite s
  | .finite _ _, .infinite t => .infinite t
  | .finite s a, .finite t b =>
    let (an, ad) := a.ratio
    let (bn, bd) := b.ratio
    let left : Int := if s then -(an * bd : Nat) else (an * bd : Nat)
    let right : Int := if t then -(bn * ad : Nat) else (bn * ad : Nat)
    let sum := left + right
    if sum = 0 then .finite (s && t) .zero
    else ofRatio (decide (sum < 0)) sum.natAbs (ad * bd)

def sub (x y : Binary64) : Binary64 := add x (neg y)

def mul : Binary64 → Binary64 → Binary64
  | .nan, _ => .nan
  | _, .nan => .nan
  | .infinite s, .infinite t => .infinite (s != t)
  | .infinite s, .finite t b => if b.isZero then .nan else .infinite (s != t)
  | .finite s a, .infinite t => if a.isZero then .nan else .infinite (s != t)
  | .finite s a, .finite t b =>
    let (an, ad) := a.ratio
    let (bn, bd) := b.ratio
    ofRatio (s != t) (an * bn) (ad * bd)

def div : Binary64 → Binary64 → Binary64
  | .nan, _ => .nan
  | _, .nan => .nan
  | .infinite _, .infinite _ => .nan
  | .infinite s, .finite t _ => .infinite (s != t)
  | .finite s _, .infinite t => .finite (s != t) .zero
  | .finite s a, .finite t b =>
    let (an, ad) := a.ratio
    let (bn, bd) := b.ratio
    if b.isZero then if a.isZero then .nan else .infinite (s != t)
    else ofRatio (s != t) (an * bd) (ad * bn)

/-- The remainder of the division that rounds toward zero, exact and with the sign of the dividend.
An infinite dividend and a zero divisor have none. -/
def rem? : Binary64 → Binary64 → Option Binary64
  | .nan, _ => some .nan
  | _, .nan => some .nan
  | .infinite _, _ => none
  | .finite s a, .infinite _ => some (.finite s a)
  | .finite s a, .finite _ b =>
    if b.isZero then none
    else
      let (an, ad) := a.ratio
      let (bn, bd) := b.ratio
      some (ofRatio s (an * bd % (bn * ad)) (ad * bd))

def order? : Binary64 → Binary64 → Option Ordering
  | .nan, _ => none
  | _, .nan => none
  | .infinite s, .infinite t =>
    some (if s == t then .eq else if s then .lt else .gt)
  | .infinite s, .finite _ _ => some (if s then .lt else .gt)
  | .finite _ _, .infinite t => some (if t then .gt else .lt)
  | .finite s a, .finite t b =>
    let (an, ad) := a.ratio
    let (bn, bd) := b.ratio
    let left : Int := if s then -(an * bd : Nat) else (an * bd : Nat)
    let right : Int := if t then -(bn * ad : Nat) else (bn * ad : Nat)
    some (compare left right)

/-- Three-way order of a whole number and a number, without rounding the whole number. -/
def orderInt? (n : Int) : Binary64 → Option Ordering
  | .nan => none
  | .infinite negative => some (if negative then .gt else .lt)
  | .finite negative m =>
    let (num, den) := m.ratio
    some (compare (n * den) (if negative then -(num : Int) else num))

def toInt? : Binary64 → Option Int
  | .finite negative m =>
    let (num, den) := m.ratio
    if num % den = 0 then
      some (if negative then -((num / den : Nat) : Int) else (num / den : Nat))
    else none
  | _ => none

def floor? (x : Binary64) : Option Int := x.ratio?.map fun (num, den) => Int.fdiv num den

def truncate? (x : Binary64) : Option Int := x.ratio?.map fun (num, den) => Int.tdiv num den

/-- The nearest whole number, the even one of two. -/
def nearest? : Binary64 → Option Int
  | .finite negative m =>
    let (num, den) := m.ratio
    let n := roundDiv num den
    some (if negative then -(n : Int) else n)
  | _ => none

/-- The part after the point, with the sign of the number. -/
def fraction : Binary64 → Binary64
  | .finite negative m =>
    let (num, den) := m.ratio
    ofRatio negative (num % den) den
  | _ => .nan

/-- The nearest number to a quotient of whole numbers; nothing when it is too large or the
divisor is zero. -/
def ofQuotient? (num den : Int) : Option Binary64 :=
  if den = 0 then none
  else
    (Magnitude.ofRatio? num.natAbs den.natAbs).map
      (.finite (decide (num < 0) != decide (den < 0)))

def powerOfTen (k : Int) : Binary64 :=
  if 0 ≤ k then ofRatio false (Nat.pow 10 k.toNat) 1
  else ofRatio false 1 (Nat.pow 10 (-k).toNat)

end Binary64

end NoteQuery
