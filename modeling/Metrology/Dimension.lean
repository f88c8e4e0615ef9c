/-
Dimensions: integer exponents over the seven SI base quantities. Units
of the same dimension measure the same kind of thing, whatever their
size. Multiplying two quantities adds the exponents, dividing subtracts
them, and a power multiplies them; none of these can fail.
-/
import Metrology.Numeral.Text

namespace Metrology

/-- Exponents of metre, kilogram, second, ampere, kelvin, mole and
candela. -/
structure Dimension where
  length : Int := 0
  mass : Int := 0
  time : Int := 0
  current : Int := 0
  temperature : Int := 0
  amount : Int := 0
  luminosity : Int := 0
deriving DecidableEq, Repr

namespace Dimension

/-- The dimension of plain numbers. -/
def unitless : Dimension := {}

def isUnitless (d : Dimension) : Bool := d == unitless

/-- The exponents in the order of the base units. -/
def toList (d : Dimension) : List Int :=
  [d.length, d.mass, d.time, d.current, d.temperature, d.amount, d.luminosity]

-- ============================================================ algebra

protected def mul (a b : Dimension) : Dimension where
  length := a.length + b.length
  mass := a.mass + b.mass
  time := a.time + b.time
  current := a.current + b.current
  temperature := a.temperature + b.temperature
  amount := a.amount + b.amount
  luminosity := a.luminosity + b.luminosity

protected def div (a b : Dimension) : Dimension where
  length := a.length - b.length
  mass := a.mass - b.mass
  time := a.time - b.time
  current := a.current - b.current
  temperature := a.temperature - b.temperature
  amount := a.amount - b.amount
  luminosity := a.luminosity - b.luminosity

protected def pow (a : Dimension) (n : Int) : Dimension where
  length := a.length * n
  mass := a.mass * n
  time := a.time * n
  current := a.current * n
  temperature := a.temperature * n
  amount := a.amount * n
  luminosity := a.luminosity * n

instance : Mul Dimension := ⟨Dimension.mul⟩
instance : Div Dimension := ⟨Dimension.div⟩
instance : HPow Dimension Int Dimension := ⟨Dimension.pow⟩

/-- The sum of the exponents' sizes; zero for plain numbers only. -/
def norm (d : Dimension) : Nat :=
  d.length.natAbs + d.mass.natAbs + d.time.natAbs + d.current.natAbs
    + d.temperature.natAbs + d.amount.natAbs + d.luminosity.natAbs

theorem norm_eq_zero_iff {d : Dimension} : d.norm = 0 ↔ d = unitless := by
  obtain ⟨l, m, t, i, θ, n, j⟩ := d
  simp only [norm, unitless, Dimension.mk.injEq]
  omega

-- =============================================================== text

/-- The symbols of the base units. -/
def baseSymbols : List String := ["m", "kg", "s", "A", "K", "mol", "cd"]

/-- The base units with their exponents, those with exponent zero left
out: "Unit(m s-1)". There is no limit to the digits of an exponent. -/
def describe (d : Dimension) : String :=
  let parts := (baseSymbols.zip d.toList).filterMap fun (symbol, n) =>
    if n = 0 then none
    else if n = 1 then some symbol
    else some (symbol ++ Numeral.writeWhole n)
  let inside := if parts.isEmpty then "-" else " ".intercalate parts
  s!"Unit({inside})"

end Dimension

end Metrology
