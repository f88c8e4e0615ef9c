/-
Quantities: measured complex numbers with a dimension, in base units.
Operations that compare or add operands need the same dimension;
products and quotients combine dimensions; functions of a number take
plain numbers only.
-/
import Metrology.Measured
import Metrology.Operator
import Metrology.Phasor
import Metrology.Scale.Read

namespace Metrology

/-- A measured value in base units of a dimension. -/
structure Quantity extends Measured Float where
  unit : Dimension := .unitless

namespace Quantity

open Double

/-- A certain real number with a dimension. -/
def ofReal (x : Float) (unit : Dimension := .unitless) : Quantity :=
  ⟨⟨x, 0.0, 0.0, 0.0⟩, unit⟩

/-- A truth value: one or zero. -/
def ofBool (b : Bool) : Quantity := ofReal (if b then 1.0 else 0.0)

/-- The complex value. -/
def toPhasor (q : Quantity) : Phasor := ⟨q.re, q.im⟩

def isReal (q : Quantity) : Bool := q.im == 0.0 && q.vim == 0.0

def isCertain (q : Quantity) : Bool := q.vre == 0.0 && q.vim == 0.0

def isZero (q : Quantity) : Bool := q.re == 0.0 && q.im == 0.0

/-- Everything but zero counts as true. -/
def isTrue (q : Quantity) : Bool := !q.isZero

/-- The quantity is a certain plain number. -/
def isExactly (q : Quantity) (x : Float) : Bool :=
  q.re == x && q.im == 0.0 && q.isCertain && q.unit.isUnitless

/-- Equality part by part. -/
def same (a b : Quantity) : Bool :=
  a.re == b.re && a.im == b.im && a.vre == b.vre && a.vim == b.vim
    && a.unit == b.unit

-- =========================================================== literals

/-- The quantity a number literal stands for: a plain number, an
imaginary one, or a value on the scale of a unit. -/
def literal (value : Float) (decorator : String) : Except Error Quantity := do
  if decorator = "" then return ofReal value
  if decorator = "i" || decorator = "j" then
    return ⟨⟨0.0, value, 0.0, 0.0⟩, .unitless⟩
  let scale ← Scale.readTerm decorator
  return ofReal ((value - scale.shift) * scale.factor) scale.dimension

/-- A plain number read on a scale. -/
def onScale (q : Quantity) (scale : Scale) : Except UnitError Quantity :=
  if !q.unit.isUnitless then .error (.alreadyMeasured q.unit)
  else .ok
    { re := (q.re - scale.shift) * scale.factor
      im := q.im * scale.factor
      vre := q.vre * squared scale.factor
      vim := q.vim * squared scale.factor
      unit := scale.dimension }

-- ======================================================= requirements

/-- The operands have the same dimension. -/
def requireSameUnit (a b : Quantity) (operator : String) :
    Except UnitError Unit :=
  if a.unit = b.unit then .ok ()
  else .error (.differentUnits operator a.unit b.unit)

/-- The operands are real. -/
def requireReal (a b : Quantity) (operator : String) :
    Except EvalError Unit :=
  if a.isReal && b.isReal then .ok () else .error (.notReal operator)

/-- The argument is a plain number. -/
def requireUnitless (q : Quantity) (function : String) :
    Except EvalError Unit :=
  if q.unit.isUnitless then .ok () else .error (.notUnitless function q.unit)

-- ========================================================= arithmetic

protected def neg (q : Quantity) : Quantity :=
  { q with re := -q.re, im := -q.im }

protected def add (a b : Quantity) : Except UnitError Quantity := do
  a.requireSameUnit b "+"
  return ⟨a.toMeasured.add b.toMeasured, a.unit⟩

protected def sub (a b : Quantity) : Except UnitError Quantity := do
  a.requireSameUnit b "-"
  return ⟨a.toMeasured.sub b.toMeasured, a.unit⟩

protected def mul (a b : Quantity) : Quantity :=
  ⟨a.toMeasured.mul b.toMeasured, a.unit * b.unit⟩

/-- The quotient by a value of zero: each part over a signed zero, a zero
imaginary part left alone so that real stays real. The variance is
infinite once an operand is uncertain. -/
def overZero (a b : Quantity) : Quantity :=
  let (re, im) :=
    if a.isZero then (nan, 0.0)
    else
      (if a.re != 0.0 then divideSigned a.re b.re else 0.0,
        if a.im != 0.0 then divideSigned a.im b.re else 0.0)
  let uncertain := !(a.isCertain && b.isCertain)
  { re := re
    im := im
    vre := if uncertain then infinity else 0.0
    vim := if uncertain && im != 0.0 then infinity else 0.0
    unit := a.unit / b.unit }

/-- The quotient by the rule for variances, where its denominators have
not sunk to zero. -/
def overNonzero (a b : Quantity) : Except ArithmeticFault Quantity :=
  let n := b.squaredLength
  let n2 := n * n
  if n == 0.0 || n2 == 0.0 || n2 * n2 == 0.0 then .error .zeroDivision
  else .ok ⟨a.toMeasured.div b.toMeasured, a.unit / b.unit⟩

/-- The factor that lifts a divisor whose square vanishes. -/
def lift : Quantity := ofReal (Float.ofNat (Nat.pow 2 600))

/-- The quotient. A divisor so small that its square is zero is lifted,
together with the dividend, before the rule is applied. -/
protected def div (a b : Quantity) : Except ArithmeticFault Quantity :=
  if b.squaredLength == 0.0 then
    if b.isZero then .ok (a.overZero b)
    else (a.mul lift).overNonzero (b.mul lift)
  else a.overNonzero b

/-- The image under an analytic function, given its value and derivative
at this quantity. -/
def through (q : Quantity) (f f' : Phasor) (unit : Dimension) : Quantity :=
  ⟨q.toMeasured.analytic f.re f.im f'.re f'.im, unit⟩

-- ============================================================= powers

/-- The value of a power. Zero to a negative power is infinite, and
negative only for negative zero and an odd exponent; real powers of real
bases stay real. -/
def powValue (a : Quantity) (c : Float) : Except ArithmeticFault Phasor :=
  if a.isZero && c < 0.0 then
    let odd := Numeral.isWhole c
      && (Numeral.truncate? c).any fun n => n % 2 = 1
    .ok (.ofReal (if odd then copySign infinity a.re else infinity))
  else if a.im == 0.0 && (0.0 < a.re || Numeral.isWhole c) then
    (pow a.re c).map Phasor.ofReal
  else a.toPhasor.pow c

/-- The derivatives of `z ^ c` by the base and by the exponent. At zero,
where they are singular, nothing is propagated but through the first
power. -/
def powDerivatives (a : Quantity) (c : Float) (value : Phasor) :
    Except ArithmeticFault (Phasor × Phasor) := do
  if a.isZero then
    return (if c == 1.0 then .ofReal c else .zero, .zero)
  let lower ← a.toPhasor.pow (c - 1.0)
  return (Phasor.ofReal c * lower, value * a.toPhasor.log)

/-- The dimension of a power: a base with a unit takes whole exponents
only. `text` writes an exponent that is not. -/
def powUnit (unit : Dimension) (c : Float) (text : Float → String) :
    Except UnitError Dimension :=
  if unit.isUnitless then .ok unit
  else if Numeral.isWhole c then
    .ok (unit ^ (Numeral.truncate? c).getD 0)
  else .error (.fractionalPower unit (text c))

-- ========================================== comparison and uncertainty

/-- Comparison by an operator: equality of values always, order of real
values only. -/
def compare (a b : Quantity) (op : Operator) : Except Error Quantity := do
  (a.requireSameUnit b op.symbol).mapError Error.unit
  match op with
  | .equal => return ofBool (a.re == b.re && a.im == b.im)
  | .notEqual => return ofBool (a.re != b.re || a.im != b.im)
  | _ =>
      (a.requireReal b op.symbol).mapError Error.eval
      match op with
      | .greater => return ofBool (b.re < a.re)
      | .greaterEqual => return ofBool (b.re ≤ a.re)
      | .less => return ofBool (a.re < b.re)
      | .lessEqual => return ofBool (a.re ≤ b.re)
      | _ => throw (.eval (.unknownComparison op.symbol))

/-- The value of the first with the second as its standard deviation. -/
def plusMinus (a b : Quantity) : Except UnitError Quantity := do
  a.requireSameUnit b "pm"
  return { a with vre := squared b.re, vim := squared b.im }

/-- The standard deviation of each part. -/
def sigma (q : Quantity) : Except ArithmeticFault Quantity := do
  let re ← sqrt q.vre
  let im ← sqrt q.vim
  return ⟨⟨re, im, 0.0, 0.0⟩, q.unit⟩

/-- The variance of each part. -/
def sigma2 (q : Quantity) : Quantity :=
  ⟨⟨q.vre, q.vim, 0.0, 0.0⟩, q.unit * q.unit⟩

/-- The value without its uncertainty. -/
def value (q : Quantity) : Quantity := { q with vre := 0.0, vim := 0.0 }

-- ========================================================== functions

def sin (q : Quantity) : Except Error Quantity := do
  (q.requireUnitless "sin").mapError Error.eval
  let f ← q.toPhasor.sin.mapError Error.arithmetic
  let f' ← q.toPhasor.cos.mapError Error.arithmetic
  return q.through f f' .unitless

def cos (q : Quantity) : Except Error Quantity := do
  (q.requireUnitless "cos").mapError Error.eval
  let f ← q.toPhasor.cos.mapError Error.arithmetic
  let f' ← q.toPhasor.sin.mapError Error.arithmetic
  return q.through f (-f') .unitless

/-- An overflow that a program is told about. -/
def overflowIn (operation : String) : ArithmeticFault → Error
  | .overflow => .eval (.numericOverflow operation)
  | f => .arithmetic f

def exp (q : Quantity) : Except Error Quantity := do
  (q.requireUnitless "exp").mapError Error.eval
  let f ← q.toPhasor.exp.mapError (overflowIn "exp")
  return q.through f f .unitless

/-- The quantity turned by a quarter. -/
def timesI (q : Quantity) : Quantity :=
  ⟨⟨-q.im, q.re, q.vim, q.vre⟩, q.unit⟩

def real (q : Quantity) : Quantity := ⟨⟨q.re, 0.0, q.vre, 0.0⟩, q.unit⟩

def imag (q : Quantity) : Quantity := ⟨⟨q.im, 0.0, q.vim, 0.0⟩, q.unit⟩

/-- The length of the value. -/
def abs (q : Quantity) : Except ArithmeticFault Quantity := do
  let r := hypot q.re q.im
  if r == 0.0 then return ofReal 0.0 q.unit
  let v ← divide (squared q.re * q.vre + squared q.im * q.vim) (squared r)
  return ⟨⟨r, 0.0, v, 0.0⟩, q.unit⟩

/-- The angle of the value, a plain number. -/
def arg (q : Quantity) : Except ArithmeticFault Quantity := do
  let r2 := q.squaredLength
  let v ←
    if r2 != 0.0 then
      divide (squared q.im * q.vre + squared q.re * q.vim) (squared r2)
    else pure 0.0
  return ⟨⟨Float.atan2 q.im q.re, 0.0, v, 0.0⟩, .unitless⟩

/-- The larger of two real quantities, the first of equals. -/
def max (a b : Quantity) : Except Error Quantity := do
  (a.requireSameUnit b "max").mapError Error.unit
  (a.requireReal b "max").mapError Error.eval
  return if b.re ≤ a.re then a else b

/-- The smaller of two real quantities, the first of equals. -/
def min (a b : Quantity) : Except Error Quantity := do
  (a.requireSameUnit b "min").mapError Error.unit
  (a.requireReal b "min").mapError Error.eval
  return if a.re ≤ b.re then a else b

end Quantity

end Metrology
