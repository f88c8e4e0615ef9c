/-
First-order propagation of variance. A measured complex number has a
value and, for its real and its imaginary part, a variance; the parts of
all operands are taken as independent. The variance of a result is the
sum, over the operands' parts, of the squared partial derivative times
the part's variance.

The rules are stated over any type with the arithmetic they use, so they
can be read as formulas over a field and run on doubles.
-/

namespace Metrology

/-- A complex value with a variance for each part. -/
structure Measured (α : Type) where
  re : α
  im : α
  vre : α
  vim : α
deriving Repr

namespace Measured

variable {α : Type}

/-- A sum adds the variances. -/
protected def add [Add α] (x y : Measured α) : Measured α :=
  ⟨x.re + y.re, x.im + y.im, x.vre + y.vre, x.vim + y.vim⟩

/-- So does a difference. -/
protected def sub [Add α] [Sub α] (x y : Measured α) : Measured α :=
  ⟨x.re - y.re, x.im - y.im, x.vre + y.vre, x.vim + y.vim⟩

/-- A product. With `(a + bi)(c + di) = (ac - bd) + (ad + bc)i` the
partial derivatives are the parts of the other factor, up to sign. -/
protected def mul [Add α] [Sub α] [Mul α] (x y : Measured α) :
    Measured α where
  re := x.re * y.re - x.im * y.im
  im := x.re * y.im + x.im * y.re
  vre := y.re * y.re * x.vre + y.im * y.im * x.vim
    + x.re * x.re * y.vre + x.im * x.im * y.vim
  vim := y.im * y.im * x.vre + y.re * y.re * x.vim
    + x.im * x.im * y.vre + x.re * x.re * y.vim

/-- The squared length of the value. -/
def squaredLength [Add α] [Mul α] (x : Measured α) : α :=
  x.re * x.re + x.im * x.im

/-- A quotient. With `n = c² + d²`, `p = ac + bd` and `q = bc - ad` the
value is `p/n + (q/n)i`, and the partial derivatives have denominators
`n` and `n²`. -/
protected def div [Add α] [Sub α] [Mul α] [Div α] [OfNat α 2]
    (x y : Measured α) : Measured α :=
  let n := y.squaredLength
  let n2 := n * n
  let n4 := n2 * n2
  let p := x.re * y.re + x.im * y.im
  let q := x.im * y.re - x.re * y.im
  let sq (t : α) := t * t
  { re := p / n
    im := q / n
    vre := y.re * y.re * x.vre / n2 + y.im * y.im * x.vim / n2
      + sq (x.re * n - 2 * y.re * p) * y.vre / n4
      + sq (x.im * n - 2 * y.im * p) * y.vim / n4
    vim := y.im * y.im * x.vre / n2 + y.re * y.re * x.vim / n2
      + sq (x.im * n - 2 * y.re * q) * y.vre / n4
      + sq (x.re * n + 2 * y.im * q) * y.vim / n4 }

/-- The image under an analytic function, from its value `(re, im)` and
its derivative `(dr, di)` at this point. By the Cauchy-Riemann equations
the four partial derivatives are the derivative's parts, up to sign. -/
def analytic [Add α] [Mul α] (x : Measured α) (re im dr di : α) :
    Measured α where
  re := re
  im := im
  vre := dr * dr * x.vre + di * di * x.vim
  vim := di * di * x.vre + dr * dr * x.vim

end Measured

end Metrology
