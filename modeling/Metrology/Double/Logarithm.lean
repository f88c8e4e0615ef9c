/-
The logarithm of a number near one, given by its distance from one and
rounded once. With `t = x / (2 + x)` it is twice the inverse hyperbolic
tangent of `t`, whose series `t + t³/3 + t⁵/5 + …` is summed in fixed
point with far more bits than the result keeps.
-/
import Metrology.Double.Checked

namespace Metrology.Double

open Numeral

/-- The bits behind the point in the fixed-point sum. -/
def seriesBits : Nat := 256

/-- The sum of `power / k` over odd `k`, where each power is the one
before times `square`; both are in fixed point, and the sum ends when the
powers have vanished or the terms allowed are used up. -/
def oddSeries (square : Nat) : (terms : Nat) → (power k : Nat) → Nat
  | 0, _, _ => 0
  | terms + 1, power, k =>
      if power = 0 then 0
      else
        power / k
          + oddSeries square terms (power * square / Nat.pow 2 seriesBits)
              (k + 2)

/-- The magnitude below which the logarithm of `1 + x` is `x` itself to
every bit. -/
def negligible : Float := 5.5e-17

/-- The logarithm of `1 + x`, for `x` between -1/2 and 2. -/
def logOnePlus (x : Float) : Float :=
  if x.abs < negligible then x
  else
    match Exact.ofFloat? x with
    | none => x
    | some e =>
        let unit := Nat.pow 2 seriesBits
        let size := e.num * unit / e.den
        let base := if e.negative then 2 * unit - size else 2 * unit + size
        let t := size * unit / base
        let sum := oddSeries (t * t / unit) seriesBits t 1
        Exact.round ⟨e.negative, 2 * sum, -(seriesBits : Int)⟩

end Metrology.Double
