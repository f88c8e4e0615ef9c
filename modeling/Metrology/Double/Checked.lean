/-
Arithmetic on doubles that says when there is no result. Sums, products
and negations are total and need no checks; a quotient by zero, a root of
a negative number and a power too large for a double are faults.

Powers of one and powers with exponent zero are one by definition, for
every other operand, infinite or not.
-/
import Metrology.Error

namespace Metrology.Double

def infinity : Float := 1.0 / 0.0

def nan : Float := 0.0 / 0.0

/-- The sign bit is set, also for negative zero. -/
def isNegative (x : Float) : Bool := x.toBits.toNat / Nat.pow 2 63 = 1

/-- The magnitude of `x` with the sign of `y`. -/
def copySign (x y : Float) : Float :=
  if isNegative y then -x.abs else x.abs

def squared (x : Float) : Float := x * x

/-- The quotient; a zero divisor is a fault. -/
def divide (x y : Float) : Except ArithmeticFault Float :=
  if y == 0.0 then .error .zeroDivision else .ok (x / y)

/-- The square root; a negative number has none. -/
def sqrt (x : Float) : Except ArithmeticFault Float :=
  if x < 0.0 then .error .domain else .ok x.sqrt

/-- The quotient with signed infinities for a zero divisor, and NaN for
zero over zero. -/
def divideSigned (x y : Float) : Float :=
  if y != 0.0 then x / y
  else if x == 0.0 || x.isNaN then nan
  else copySign infinity x * copySign 1.0 y

-- ============================================================= powers

/-- The power without checks. -/
def powUnchecked (x y : Float) : Float :=
  if y == 0.0 || x == 1.0 then 1.0 else Float.pow x y

/-- The power of two doubles. A finite base and exponent with an infinite
result overflow. -/
def pow (x y : Float) : Except ArithmeticFault Float :=
  let r := powUnchecked x y
  if r.isInf && Numeral.isFinite x && Numeral.isFinite y then
    .error .overflow
  else
    .ok r

/-- The least whole number that no double comes near: half a unit above
the largest double. -/
def wholeLimit : Nat := Nat.pow 2 1024 - Nat.pow 2 970

/-- The power with a whole exponent. An exponent too large for a double
overflows, as does a finite base with an infinite result; zero has no
negative powers. -/
def powWhole (x : Float) (n : Int) : Except ArithmeticFault Float :=
  if wholeLimit ≤ n.natAbs then .error .overflow
  else if x == 0.0 && n < 0 then .error .zeroDivision
  else pow x (Float.ofInt n)

-- ===================================================== decimal magnitude

/-- The whole part of the decimal logarithm of a positive number; others
have none. -/
def orderOfMagnitude (x : Float) : Except ArithmeticFault Int :=
  if x ≤ 0.0 then .error .domain
  else
    match Numeral.truncate? x.log10.floor with
    | some n => .ok n
    | none => .error .overflow

end Metrology.Double
