/-
Quantities as text. A real number is written without a needless point. An
uncertain number is written with its standard deviation on a common power
of a thousand, the deviation to two significant digits. The unit follows,
in familiar symbols or in one that was asked for.
-/
import Metrology.Quantity
import Metrology.Dimension.Compose

namespace Metrology

open Double

-- ============================================================ numbers

/-- A double in its shortest form: "5", "0.25", "1e+16", "inf", "NaN". -/
def realText (x : Float) : String :=
  if x.isNaN then "NaN"
  else if x.isInf then if 0.0 < x then "inf" else "-inf"
  else
    match Numeral.truncate? x with
    | some n =>
        if Numeral.isWhole x && x.abs < 1e16 then Numeral.writeWhole n
        else Numeral.write x
    | none => Numeral.write x

/-- The largest multiple of three not above `n`. -/
def thousands (n : Int) : Int := 3 * n.fdiv 3

/-- A number with its standard deviation: "(1.2345 ± 0.0023)×10³". A
deviation of zero is not shown, and infinite numbers are not scaled. -/
def uncertainText (value sigma : Float) : Except ArithmeticFault String := do
  if sigma == 0.0 then return realText value
  if !(Numeral.isFinite value && Numeral.isFinite sigma) then
    return s!"{realText value} ± {realText sigma}"
  let larger := if value.abs < sigma then sigma else value.abs
  let n := thousands (← orderOfMagnitude larger)
  let places := (n - (← orderOfMagnitude sigma) + 1).toNat
  let scale ← powWhole 10.0 n
  let v := Numeral.writeFixed (← divide value scale) places
  let s := Numeral.writeFixed (← divide sigma scale) places
  let power := if n = 0 then "" else s!"×10{Numeral.superscript n}"
  return s!"({v} ± {s}){power}"

namespace Quantity

-- ========================================================= quantities

/-- The numeric part and a unit's text behind it. A complex number is put
in brackets before a unit. -/
def textWith (q : Quantity) (unitText : String) :
    Except ArithmeticFault String := do
  if q.isReal then
    return (← uncertainText q.re (← sqrt q.vre)) ++ unitText
  let text ←
    if q.isCertain then
      let sign := if q.im < 0.0 then "-" else "+"
      pure s!"{realText q.re} {sign} {realText q.im.abs}i"
    else
      let re ← uncertainText q.re (← sqrt q.vre)
      let im ← uncertainText q.im (← sqrt q.vim)
      pure s!"{re} + i{im}"
  return if unitText = "" then text else s!"({text}){unitText}"

/-- The quantity in familiar units. -/
def text (q : Quantity) : Except Error String := do
  let unitText ← q.unit.text.mapError Error.unit
  (q.textWith unitText).mapError Error.arithmetic

/-- The quantity on a scale, as a plain number. -/
def readOff (q : Quantity) (scale : Scale) :
    Except ArithmeticFault Quantity := do
  let f := scale.factor
  let re ← divide q.re f
  let im ← divide q.im f
  let vre ← divide q.vre (squared f)
  let vim ← divide q.vim (squared f)
  return ⟨⟨re + scale.shift, im, vre, vim⟩, .unitless⟩

/-- The quantity in the unit asked for, which has to measure the same
kind of thing. -/
def textIn (q : Quantity) (unitText : String) : Except Error String := do
  let scale ← Scale.readBlock unitText
  if scale.dimension ≠ q.unit then
    throw (.unit (.otherDimension q.unit unitText))
  let shown ← (q.readOff scale).mapError Error.arithmetic
  (shown.textWith unitText).mapError Error.arithmetic

/-- The quantity field by field, for inspection. -/
def describe (q : Quantity) : String :=
  let w := Numeral.write
  s!"Quantity(re={w q.re}, im={w q.im}, vre={w q.vre}, vim={w q.vim}, " ++
    s!"unit={q.unit.describe})"

/-- The power with a real exponent. -/
protected def pow (a b : Quantity) : Except Error Quantity := do
  if !b.unit.isUnitless then throw (.unit .exponentWithUnit)
  if !b.isReal then throw (.eval .exponentNotReal)
  let unit ← (powUnit a.unit b.re realText).mapError Error.unit
  let value ← (a.powValue b.re).mapError (overflowIn "^")
  let (dz, dw) ← (a.powDerivatives b.re value).mapError Error.arithmetic
  let base := a.through value dz unit
  let exponent := b.through value dw unit
  return { base with
    vre := base.vre + exponent.vre, vim := base.vim + exponent.vim }

end Quantity

end Metrology
