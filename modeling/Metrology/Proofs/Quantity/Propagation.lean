/-
The variance rules of products and quotients are the first-order rule.
Over a field the rules of `Measured` are formulas, and they can be held
against the derivatives they stand for: `zw` has the derivatives `w` and
`z`, and `z/w` has `1/w` and `-z/w²`. Each operand passes on its variances
through its own derivative, the way an analytic function does, and the
shares add up.

A field need not hold a root of `-1`, and may hold one already; the values
are taken in the plane over it, where `i² = -1` by construction. There a
reciprocal is whatever multiplies to one, which is one number at most.
-/
import Mathlib.Algebra.QuadraticAlgebra.Defs
import Mathlib.Tactic.FieldSimp
import Metrology.Quantity

namespace Metrology.Measured

variable {K : Type} [Field K]

/-- The complex numbers over a field. -/
abbrev Plane (K : Type) [Field K] := QuadraticAlgebra K (-1) 0

/-- The value as one complex number. -/
def toPlane (x : Measured K) : Plane K := ⟨x.re, x.im⟩

/-- The variances of both parts. -/
def variances (x : Measured K) : K × K := (x.vre, x.vim)

/-- What an operand adds to the variances of a result that has the
derivative `d` by this operand. -/
def share (x : Measured K) (d : Plane K) : K × K :=
  (d.re ^ 2 * x.vre + d.im ^ 2 * x.vim, d.im ^ 2 * x.vre + d.re ^ 2 * x.vim)

/-- An analytic function has one operand and its share only. -/
theorem variances_analytic (x : Measured K) (f d : Plane K) :
    (x.analytic f.re f.im d.re d.im).variances = x.share d := by
  simp only [variances, analytic, share, pow_two]

-- ============================================================= products

/-- The value of a product is the product of the values. -/
theorem toPlane_mul (x y : Measured K) :
    (x.mul y).toPlane = x.toPlane * y.toPlane := by
  ext
  · simp only [toPlane, Measured.mul, QuadraticAlgebra.re_mul]
    ring
  · simp only [toPlane, Measured.mul, QuadraticAlgebra.im_mul]
    ring

/-- Each factor has the other for its derivative. -/
theorem variances_mul (x y : Measured K) :
    (x.mul y).variances = x.share y.toPlane + y.share x.toPlane := by
  ext
  · simp only [variances, Measured.mul, share, toPlane, Prod.fst_add]
    ring
  · simp only [variances, Measured.mul, share, toPlane, Prod.snd_add]
    ring

-- ============================================================ quotients

/-- The conjugate over the squared length. -/
def reciprocal (y : Measured K) : Plane K :=
  ⟨y.re / y.squaredLength, -y.im / y.squaredLength⟩

variable {x y : Measured K}

/-- A value times its reciprocal is one. -/
theorem toPlane_mul_reciprocal (h : y.squaredLength ≠ 0) :
    y.toPlane * y.reciprocal = 1 := by
  ext
  · simp only [toPlane, reciprocal, QuadraticAlgebra.re_mul,
      QuadraticAlgebra.re_one]
    field_simp
    simp only [squaredLength]
    ring
  · simp only [toPlane, reciprocal, QuadraticAlgebra.im_mul,
      QuadraticAlgebra.im_one]
    ring

/-- The value of a quotient is the dividend times the reciprocal. -/
theorem toPlane_div (h : y.squaredLength ≠ 0) :
    (x.div y).toPlane = x.toPlane * y.reciprocal := by
  ext
  · simp only [toPlane, Measured.div, reciprocal, QuadraticAlgebra.re_mul]
    field_simp
  · simp only [toPlane, Measured.div, reciprocal, QuadraticAlgebra.im_mul]
    field_simp
    ring

/-- The derivative by the divisor, on the denominator `n²` of the rule for
quotients. -/
theorem derivative_divisor (h : y.squaredLength ≠ 0) :
    -(x.toPlane * y.reciprocal ^ 2) =
      ⟨(x.re * y.squaredLength
          - 2 * y.re * (x.re * y.re + x.im * y.im)) / y.squaredLength ^ 2,
        (x.im * y.squaredLength
          - 2 * y.re * (x.im * y.re - x.re * y.im)) / y.squaredLength ^ 2⟩ := by
  rw [pow_two]
  ext
  · simp only [toPlane, reciprocal, QuadraticAlgebra.re_neg,
      QuadraticAlgebra.re_mul, QuadraticAlgebra.im_mul]
    field_simp
    simp only [squaredLength]
    ring
  · simp only [toPlane, reciprocal, QuadraticAlgebra.im_neg,
      QuadraticAlgebra.re_mul, QuadraticAlgebra.im_mul]
    field_simp
    simp only [squaredLength]
    ring

/-- The dividend has the reciprocal for its derivative, and the divisor
that of the reciprocal times the dividend. -/
theorem variances_div (h : y.squaredLength ≠ 0) :
    (x.div y).variances
      = x.share y.reciprocal + y.share (-(x.toPlane * y.reciprocal ^ 2)) := by
  -- both sides over the denominators that the rule has
  rw [derivative_divisor h]
  ext
  · simp only [variances, Measured.div, share, reciprocal, Prod.fst_add]
    field_simp
    simp only [squaredLength]
    ring
  · simp only [variances, Measured.div, share, reciprocal, Prod.snd_add]
    field_simp
    simp only [squaredLength]
    ring

-- =========================================== the rules of quantities

/-- Outside the path for divisors with a vanishing square, the quotient of
two quantities is by the rule for measured numbers. -/
theorem toMeasured_of_div {a b q : Quantity}
    (hvisible : (b.squaredLength == 0.0) = false) (h : a.div b = .ok q) :
    q.toMeasured = a.toMeasured.div b.toMeasured := by
  rw [Quantity.div, hvisible, if_neg Bool.false_ne_true,
    Quantity.overNonzero] at h
  split at h
  · exact nomatch h
  · exact (Except.ok.inj h) ▸ rfl

/-- Products and quotients propagate variances to first order. On any
field, the product of `z` and `w` has the value `zw` and the shares of `z`
through `w` and of `w` through `z`; the quotient, where the squared length
of `w` is not zero, has the value `zu` and the shares of `z` through `u` and
of `w` through `-zu²`, where `u` is the reciprocal of `w`. A share is what an
analytic function with that derivative leaves of the variances. Quantities
compute their products and quotients by these rules. -/
theorem variances_eq_shares (x y : Measured K) :
    (∀ f d : Plane K,
      (x.analytic f.re f.im d.re d.im).variances = x.share d)
    ∧ ((x.mul y).toPlane = x.toPlane * y.toPlane
      ∧ (x.mul y).variances = x.share y.toPlane + y.share x.toPlane)
    ∧ (y.squaredLength ≠ 0 → ∃ u : Plane K, y.toPlane * u = 1
      ∧ (x.div y).toPlane = x.toPlane * u
      ∧ (x.div y).variances
        = x.share u + y.share (-(x.toPlane * u ^ 2)))
    ∧ ∀ a b : Quantity,
      (a.mul b).toMeasured = a.toMeasured.mul b.toMeasured
      ∧ ∀ q, (b.squaredLength == 0.0) = false → a.div b = .ok q →
        q.toMeasured = a.toMeasured.div b.toMeasured :=
  ⟨variances_analytic x, ⟨toPlane_mul x y, variances_mul x y⟩,
    fun h => ⟨y.reciprocal, toPlane_mul_reciprocal h, toPlane_div h,
      variances_div h⟩,
    fun _ _ => ⟨rfl, fun _ => toMeasured_of_div⟩⟩

/-- The quotient of `1 + 2i` and `3 - 4i`, with four different variances,
over the rationals. -/
theorem variances_eq_shares_rational :
    let x : Measured ℚ := ⟨1, 2, 1 / 4, 1 / 9⟩
    let y : Measured ℚ := ⟨3, -4, 1, 4⟩
    y.squaredLength ≠ 0
      ∧ (x.div y).variances = (8557 / 562500, 613 / 15625)
      ∧ ∃ u : Plane ℚ, y.toPlane * u = 1
        ∧ (x.div y).toPlane = x.toPlane * u
        ∧ (x.div y).variances
          = x.share u + y.share (-(x.toPlane * u ^ 2)) :=
  ⟨by decide +kernel, by decide +kernel,
    (variances_eq_shares _ _).2.2.1 (by decide +kernel)⟩

end Metrology.Measured
