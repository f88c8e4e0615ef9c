/-
Complex numbers as pairs of doubles, with the elementary functions a
quantity needs. Each function says what it does where a part is infinite
or undefined: the results follow the limits where those exist, and an
infinite phase has none.
-/
import Metrology.Double.Root
import Metrology.Double.Logarithm

namespace Metrology

open Double

/-- A complex number by its real and imaginary part. -/
structure Phasor where
  re : Float
  im : Float

namespace Phasor

def zero : Phasor := ⟨0.0, 0.0⟩

def one : Phasor := ⟨1.0, 0.0⟩

def ofReal (x : Float) : Phasor := ⟨x, 0.0⟩

def isZero (z : Phasor) : Bool := z.re == 0.0 && z.im == 0.0

protected def neg (z : Phasor) : Phasor := ⟨-z.re, -z.im⟩

protected def mul (z w : Phasor) : Phasor :=
  ⟨z.re * w.re - z.im * w.im, z.re * w.im + z.im * w.re⟩

instance : Neg Phasor := ⟨Phasor.neg⟩
instance : Mul Phasor := ⟨Phasor.mul⟩

/-- Both parts are finite. -/
def isFinite (z : Phasor) : Bool :=
  Numeral.isFinite z.re && Numeral.isFinite z.im

def hasInfinitePart (z : Phasor) : Bool := z.re.isInf || z.im.isInf

/-- A result with an infinite part is an overflow. -/
def unlessInfinite (z : Phasor) : Except ArithmeticFault Phasor :=
  if z.hasInfinitePart then .error .overflow else .ok z

-- ============================================ hyperbolic and circular

/-- The logarithm of a quarter of the largest double. Beyond it the
hyperbolic functions are computed one step lower and scaled up, so that
they overflow only where the result does. -/
def logLarge : Float := 708.3964185322641

/-- The base of the natural logarithm. -/
def euler : Float := 2.718281828459045

/-- The hyperbolic sine and cosine of `x`, `scaled` by a factor. -/
def sinhCosh (x : Float) : Float × Float × Float :=
  if logLarge < x.abs then
    let y := x - copySign 1.0 x
    (y.sinh, y.cosh, euler)
  else (x.sinh, x.cosh, 1.0)

/-- The imaginary part is infinite though the real part is a number. -/
def hasInfinitePhase (z : Phasor) : Bool := z.im.isInf && !z.re.isNaN

/-- The hyperbolic cosine where a part is not finite. -/
def coshLimit (z : Phasor) : Phasor :=
  if z.re.isInf then
    if !Numeral.isFinite z.im then ⟨infinity, nan⟩
    else if z.im == 0.0 then ⟨infinity, copySign 1.0 z.re * z.im⟩
    else
      ⟨copySign infinity z.im.cos,
        copySign 1.0 z.re * copySign infinity z.im.sin⟩
  else if z.re.isNaN then ⟨nan, if z.im == 0.0 then 0.0 else nan⟩
  else ⟨nan, if z.re == 0.0 then 0.0 else nan⟩

def cosh (z : Phasor) : Except ArithmeticFault Phasor :=
  if z.isFinite then
    let (s, c, scale) := sinhCosh z.re
    unlessInfinite ⟨z.im.cos * c * scale, z.im.sin * s * scale⟩
  else if z.hasInfinitePhase then .error .domain
  else .ok z.coshLimit

/-- The hyperbolic sine where a part is not finite. -/
def sinhLimit (z : Phasor) : Phasor :=
  if z.re.isInf then
    if !Numeral.isFinite z.im then ⟨infinity, nan⟩
    else if z.im == 0.0 then z
    else
      ⟨copySign 1.0 z.re * copySign infinity z.im.cos,
        copySign infinity z.im.sin⟩
  else if z.re.isNaN then ⟨nan, if z.im == 0.0 then z.im else nan⟩
  else ⟨if z.re == 0.0 then 0.0 else nan, nan⟩

def sinh (z : Phasor) : Except ArithmeticFault Phasor :=
  if z.isFinite then
    let (s, c, scale) := sinhCosh z.re
    unlessInfinite ⟨z.im.cos * s * scale, z.im.sin * c * scale⟩
  else if z.hasInfinitePhase then .error .domain
  else .ok z.sinhLimit

/-- The number turned by a quarter. -/
def turned (z : Phasor) : Phasor := ⟨-z.im, z.re⟩

/-- The sine, through the hyperbolic sine of the turned number. -/
def sin (z : Phasor) : Except ArithmeticFault Phasor := do
  let s ← z.turned.sinh
  return ⟨s.im, -s.re⟩

def cos (z : Phasor) : Except ArithmeticFault Phasor := z.turned.cosh

-- ====================================== exponential and logarithm

/-- The exponential where a part is not finite. -/
def expLimit (z : Phasor) : Phasor :=
  if z.re.isInf then
    let size := if z.re < 0.0 then 0.0 else infinity
    if !Numeral.isFinite z.im then
      ⟨size, if z.re < 0.0 then 0.0 else nan⟩
    else if z.im == 0.0 then ⟨size, z.im⟩
    else ⟨copySign size z.im.cos, copySign size z.im.sin⟩
  else ⟨nan, if z.re.isNaN && z.im == 0.0 then z.im else nan⟩

def exp (z : Phasor) : Except ArithmeticFault Phasor :=
  if z.isFinite then
    if logLarge < z.re then
      let l := (z.re - 1.0).exp
      unlessInfinite ⟨l * z.im.cos * euler, l * z.im.sin * euler⟩
    else
      let l := z.re.exp
      unlessInfinite ⟨l * z.im.cos, l * z.im.sin⟩
  else if z.im.isInf && !z.re.isNaN && !(z.re.isInf && z.re < 0.0) then
    .error .domain
  else .ok z.expLimit

/-- A quarter of the largest double. -/
def large : Float := 4.4942328371557893e307

/-- The smallest double with full precision. -/
def small : Float := 2.2250738585072014e-308

def logTwo : Float := 0.6931471805599453

/-- The logarithm of the length. The length itself is avoided where it
would overflow, lose precision or lie so near one that its logarithm
would. -/
def logLength (z : Phasor) : Float :=
  let x := z.re.abs
  let y := z.im.abs
  if large < x || large < y then
    (hypot (x / 2.0) (y / 2.0)).log + logTwo
  else if x < small && y < small then
    (hypot (x * 9007199254740992.0) (y * 9007199254740992.0)).log
      - 53.0 * logTwo
  else
    let h := hypot x y
    if 0.71 ≤ h && h ≤ 1.73 then
      let (m, n) := if y < x then (x, y) else (y, x)
      logOnePlus ((m - 1.0) * (m + 1.0) + n * n) / 2.0
    else h.log

/-- The principal logarithm. -/
def log (z : Phasor) : Phasor := ⟨z.logLength, Float.atan2 z.im z.re⟩

-- ============================================================= powers

/-- The product of the powers of `p` by the bits of `n`, least first. -/
def powBits (r p : Phasor) : (bits : Nat) → (n : Nat) → Phasor
  | 0, _ => r
  | bits + 1, n =>
      if n = 0 then r
      else powBits (if n % 2 = 1 then r * p else r) (p * p) bits (n / 2)

/-- A natural power, by squaring. -/
def powNat (z : Phasor) (n : Nat) : Phasor := powBits one z (n.log2 + 1) n

/-- The reciprocal, divided by the larger part first. -/
def recip (z : Phasor) : Except ArithmeticFault Phasor :=
  let x := z.re.abs
  let y := z.im.abs
  if y ≤ x then
    if x == 0.0 then .error .zeroDivision
    else
      let t := z.im / z.re
      let d := z.re + z.im * t
      .ok ⟨(1.0 + 0.0 * t) / d, (0.0 - 1.0 * t) / d⟩
  else if x ≤ y then
    let t := z.re / z.im
    let d := z.re * t + z.im
    .ok ⟨(1.0 * t + 0.0) / d, (0.0 * t - 1.0) / d⟩
  else .ok ⟨nan, nan⟩

/-- A power by length and phase. -/
def powPolar (z : Phasor) (c : Float) : Except ArithmeticFault Phasor :=
  let l := powUnchecked (hypot z.re z.im) c
  let phase := Float.atan2 z.im z.re * c
  if phase.isInf then .error .zeroDivision
  else .ok ⟨l * phase.cos, l * phase.sin⟩

/-- The largest whole exponent, either way, that is done by squaring. -/
def squaringLimit : Nat := 100

/-- The whole exponent that is done by squaring. -/
def smallWhole? (c : Float) : Option Int :=
  if Numeral.isWhole c then
    (Numeral.truncate? c).filter fun n => n.natAbs ≤ squaringLimit
  else none

/-- A real power. Small whole exponents go by squaring, others by length
and phase; zero has no negative powers. -/
def pow (z : Phasor) (c : Float) : Except ArithmeticFault Phasor := do
  let r ← match smallWhole? c with
    | some n =>
        if 0 < n then pure (z.powNat n.natAbs)
        else (z.powNat n.natAbs).recip
    | none =>
        if z.isZero then
          if c < 0.0 then throw .zeroDivision else pure zero
        else z.powPolar c
  unlessInfinite r

end Phasor

end Metrology
