/-
The shortest decimal of a double: the fewest significant digits that
still read back as the same double, and of those the decimal nearest to
it.

A decimal reads back as the double exactly when it lies in the double's
rounding interval, whose ends are half-way to the neighbours; the ends
belong to it when the significand is even. For one digit, two digits and
so on the value's two neighbours on that decimal grid are tried. If any
point of the grid lies in the interval, one of these two does.
-/
import Metrology.Numeral.Exact

namespace Metrology.Numeral

/-- A decimal `coefficient * 10 ^ exponent`. -/
structure Decimal where
  coefficient : Nat
  exponent : Int
deriving DecidableEq, Repr

/-- The decimal digits of a number, most significant first. -/
def digits (n : Nat) : List Char := Nat.toDigits 10 n

/-- The rounding interval in units of a quarter of the last place: lower
end, value and upper end, as whole numbers over `scale`. -/
structure Interval where
  lower : Nat
  value : Nat
  upper : Nat
  scale : Nat
  closed : Bool

namespace Interval

/-- The interval of reals that round to a positive double. Below a power
of two the neighbour is only half as far. -/
def of (x : Exact) : Interval :=
  let near :=
    x.significand = Nat.pow 2 52 && x.exponent ≠ Exact.leastExponent
  let up := Nat.pow 2 (x.exponent - 2).toNat
  { lower := (4 * x.significand - if near then 1 else 2) * up
    value := 4 * x.significand * up
    upper := (4 * x.significand + 2) * up
    scale := Nat.pow 2 (2 - x.exponent).toNat
    closed := x.significand % 2 = 0 }

/-- The decimal lies in the interval. -/
def contains (i : Interval) (d : Decimal) : Bool :=
  let up := Nat.pow 10 d.exponent.toNat
  let down := Nat.pow 10 (-d.exponent).toNat
  let c := d.coefficient * up * i.scale
  if i.closed then i.lower * down ≤ c && c ≤ i.upper * down
  else i.lower * down < c && c < i.upper * down

/-- The number of places before the decimal point, negative when zeros
follow it: the value is below `10 ^ magnitude` and not below a tenth of
that. Shifting by 400 places makes every double at least one. -/
def magnitude (i : Interval) : Int :=
  (digits (i.value * Nat.pow 10 400 / i.scale)).length - 400

/-- The decimal of that many digits that reads back, if there is one: of
two, the nearer, and half-way the even one. -/
def ofLength? (i : Interval) (n : Nat) : Option Decimal :=
  let exponent := i.magnitude - n
  let num := i.value * Nat.pow 10 (-exponent).toNat
  let den := i.scale * Nat.pow 10 exponent.toNat
  let low : Decimal := ⟨num / den, exponent⟩
  let high : Decimal := ⟨num / den + 1, exponent⟩
  let nearest : Decimal := ⟨roundDiv num den, exponent⟩
  match i.contains low, i.contains high with
  | true, true => some nearest
  | true, false => some low
  | false, true => some high
  | false, false => none

end Interval

/-- Seventeen digits always read back. -/
def enoughDigits : Nat := 17

/-- The shortest decimal of a positive finite double. -/
def shortest (x : Exact) : Decimal :=
  let i := Interval.of x
  ((List.range enoughDigits).findSome? fun n => i.ofLength? (n + 1)).getD
    ⟨i.value / i.scale, 0⟩

end Metrology.Numeral
