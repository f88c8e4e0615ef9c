/-
The exact view of a double. A finite double is a sign and a whole number
times a power of two, so questions about its digits, its whole part or
the nearest double to a rational are questions about natural numbers.
`Exact.ofFloat?` reads that view off the bits and `Exact.round` goes
back, to the nearest double with ties to the even one.
-/

namespace Metrology.Numeral

/-- A sign and a magnitude `significand * 2 ^ exponent`. -/
structure Exact where
  negative : Bool
  significand : Nat
  exponent : Int
deriving DecidableEq, Repr

/-- The quotient rounded to the nearest whole number, a half to the even
neighbour. -/
def roundDiv (num den : Nat) : Nat :=
  let q := num / den
  let r := num % den
  if 2 * r < den then q
  else if den < 2 * r then q + 1
  else if q % 2 = 0 then q
  else q + 1

namespace Exact

/-- The exponent of the smallest positive double. -/
def leastExponent : Int := -1074

/-- The width of a double's significand in bits. -/
def precision : Nat := 53

/-- The exact view of a finite double; none for the infinities and NaN. -/
def ofFloat? (x : Float) : Option Exact :=
  let bits : Nat := x.toBits.toNat
  let field : Nat := bits / Nat.pow 2 52 % Nat.pow 2 11
  let fraction : Nat := bits % Nat.pow 2 52
  let negative := bits / Nat.pow 2 63 = 1
  if field = 2047 then none
  else if field = 0 then some ⟨negative, fraction, leastExponent⟩
  else
    some ⟨negative, Nat.pow 2 52 + fraction, leastExponent + (field : Int) - 1⟩

/-- The magnitude as a quotient of natural numbers. -/
def num (x : Exact) : Nat := x.significand * Nat.pow 2 x.exponent.toNat

def den (x : Exact) : Nat := Nat.pow 2 (-x.exponent).toNat

/-- The whole part of the magnitude. -/
def floor (x : Exact) : Nat := x.num / x.den

/-- The value without its fraction. -/
def truncate (x : Exact) : Int :=
  if x.negative then -(x.floor : Int) else x.floor

/-- The value is a whole number. -/
def isWhole (x : Exact) : Bool := x.num % x.den == 0

/-- The double nearest to the value, a tie to the even significand; a
magnitude beyond the largest double gives an infinity.

The significand is first brought to `precision` bits, or to fewer where
the exponent may not sink lower. The bit pattern of a positive double is
then the exponent's distance from the least one, shifted past the
fraction, plus the significand: a carry out of the significand moves the
exponent up by itself. -/
def round (x : Exact) : Float :=
  let length := if x.significand = 0 then 0 else x.significand.log2 + 1
  let exponent :=
    max leastExponent (x.exponent + (length : Int) - (precision : Int))
  let significand :=
    if exponent ≤ x.exponent then
      x.significand * Nat.pow 2 (x.exponent - exponent).toNat
    else
      roundDiv x.significand (Nat.pow 2 (exponent - x.exponent).toNat)
  let bits := (exponent - leastExponent).toNat * Nat.pow 2 52 + significand
  let bits := min bits (2047 * Nat.pow 2 52)
  Float.ofBits (UInt64.ofNat (if x.negative then Nat.pow 2 63 + bits else bits))

end Exact

-- ================================================ whole-number views

/-- The double is finite. -/
def isFinite (x : Float) : Bool := (Exact.ofFloat? x).isSome

/-- The double is a whole number; the infinities and NaN are not. -/
def isWhole (x : Float) : Bool :=
  match Exact.ofFloat? x with
  | some e => e.isWhole
  | none => false

/-- The double without its fraction, if it is finite. -/
def truncate? (x : Float) : Option Int := (Exact.ofFloat? x).map Exact.truncate

end Metrology.Numeral
