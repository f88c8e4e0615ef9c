/-
The length of a vector, rounded once. The sum of two squares is a whole
number times a power of four, so its root can be taken to many more bits
than a double has; one further bit records whether anything was left
over, and the result is rounded from there.
-/
import Metrology.Double.Checked

namespace Metrology.Double

open Numeral

/-- Newton's steps towards the root of `n` from above, until they stop
going down. -/
def sqrtFrom (n x : Nat) : Nat :=
  if (x + n / x) / 2 < x then sqrtFrom n ((x + n / x) / 2) else x
termination_by x

/-- The whole part of a square root. -/
def sqrtWhole (n : Nat) : Nat := sqrtFrom n (Nat.pow 2 (n.log2 / 2 + 1))

/-- The bits taken below the units of a root. -/
def guardBits : Nat := 64

/-- The root of `n * 4 ^ e` rounded to the nearest double. -/
def sqrtExact (n : Nat) (e : Int) : Float :=
  let shifted := n * Nat.pow 4 guardBits
  let r := sqrtWhole shifted
  let sticky := if r * r = shifted then 0 else 1
  Exact.round ⟨false, 2 * r + sticky, e - guardBits - 1⟩

/-- The length of the vector `(x, y)`: infinite when a part is, otherwise
NaN when a part is. -/
def hypot (x y : Float) : Float :=
  if x.isInf || y.isInf then infinity
  else
    match Exact.ofFloat? x, Exact.ofFloat? y with
    | some a, some b =>
        let e := min a.exponent b.exponent
        let p := a.significand * Nat.pow 2 (a.exponent - e).toNat
        let q := b.significand * Nat.pow 2 (b.exponent - e).toNat
        let n := p * p + q * q
        if n = 0 then 0.0 else sqrtExact n e
    | _, _ => nan

end Metrology.Double
