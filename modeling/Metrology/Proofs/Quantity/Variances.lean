/-
Variances do not become negative. By the rules of propagation a variance
is a sum of variances of the operands, each multiplied by a square and
perhaps divided by one. The squares are those of partial derivatives, but
which derivatives they are does not matter: whatever value and slope a
function is given, what comes out is not below zero if what went in was
not (`NonNegative.analytic`). So every operation on quantities keeps
`NonNegative`.

What this is good for are the roots. The standard deviation of a quantity
is asked for by name, and it is computed whenever a quantity is written as
text. Where no variance is below zero it always exists (`sigma_eq`), and
writing the quantity leaves the domain of no function
(`raisesIn_text`, `raisesIn_textIn`).
-/
import Metrology.Proofs.Double.Whole
import Metrology.Proofs.Quantity.Faults

namespace Metrology

open Double

-- ============================================================= doubles

namespace Double

/-- Infinity is not below zero. -/
theorem atLeastZero_infinity : AtLeastZero infinity := by
  decide +kernel

/-- A share of a variance: the variance times a square. -/
theorem atLeastZero_share {v : Float} (t : Float) (hv : AtLeastZero v) :
    AtLeastZero (t * t * v) :=
  atLeastZero_mul (atLeastZero_mul_self t) hv

/-- A quotient that exists, by a square. -/
theorem yieldsOnly_divide {x : Float} (t : Float) (hx : AtLeastZero x) :
    YieldsOnly AtLeastZero (divide x (squared t)) := by
  unfold divide
  split
  · exact .error
  · next hzero =>
    rw [Bool.not_eq_true] at hzero
    exact .ok (atLeastZero_div hx (atLeastZero_mul_self t) hzero)

/-- Whatever is not below zero has a root. -/
theorem sqrt_eq {x : Float} (hx : AtLeastZero x) : sqrt x = .ok x.sqrt :=
  if_neg ((atLeastZero_iff x).mp hx)

/-- A positive number has an order of magnitude, if it is not too large.
-/
theorem faultsIn_orderOfMagnitude {x : Float} (hx : ¬ x ≤ 0.0) :
    FaultsIn [.overflow] (orderOfMagnitude x) := by
  unfold orderOfMagnitude
  rw [if_neg hx]
  split
  · exact .ok
  · exact .error (by decide)

end Double

-- ===================================================== measured values

namespace Measured

/-- Neither variance is below zero. -/
def NonNegative (x : Measured Float) : Prop := ¬ x.vre < 0.0 ∧ ¬ x.vim < 0.0

instance (x : Measured Float) : Decidable x.NonNegative :=
  inferInstanceAs (Decidable (_ ∧ _))

/-- The variances, one by one. -/
theorem nonNegative_iff (x : Measured Float) :
    x.NonNegative ↔ AtLeastZero x.vre ∧ AtLeastZero x.vim := by
  rw [atLeastZero_iff, atLeastZero_iff, NonNegative]

namespace NonNegative

variable {x y : Measured Float}

/-- The variances of a sum are sums. -/
theorem add (hx : x.NonNegative) (hy : y.NonNegative) :
    (x.add y).NonNegative := by
  rw [nonNegative_iff] at *
  exact ⟨atLeastZero_add hx.1 hy.1, atLeastZero_add hx.2 hy.2⟩

theorem sub (hx : x.NonNegative) (hy : y.NonNegative) :
    (x.sub y).NonNegative := by
  rw [nonNegative_iff] at *
  exact ⟨atLeastZero_add hx.1 hy.1, atLeastZero_add hx.2 hy.2⟩

/-- The variances of a product are sums of shares. -/
theorem mul (hx : x.NonNegative) (hy : y.NonNegative) :
    (x.mul y).NonNegative := by
  rw [nonNegative_iff] at *
  -- both variances are sums of four shares, each with factors of its own
  have hshares : ∀ p q r s : Float, AtLeastZero
      (p * p * x.vre + q * q * x.vim + r * r * y.vre + s * s * y.vim) :=
    fun p q r s => atLeastZero_add (atLeastZero_add
      (atLeastZero_add (atLeastZero_share p hx.1) (atLeastZero_share q hx.2))
      (atLeastZero_share r hy.1)) (atLeastZero_share s hy.2)
  exact ⟨hshares _ _ _ _, hshares _ _ _ _⟩

/-- The quotient, where its denominators have not sunk to zero. -/
theorem div (hx : x.NonNegative) (hy : y.NonNegative)
    (hsquare : (y.squaredLength * y.squaredLength == 0.0) = false)
    (hfourth : (y.squaredLength * y.squaredLength
      * (y.squaredLength * y.squaredLength) == 0.0) = false) :
    (x.div y).NonNegative := by
  rw [nonNegative_iff] at *
  have hshare : ∀ {v : Float} (t u : Float), AtLeastZero v →
      (u * u == 0.0) = false → AtLeastZero (t * t * v / (u * u)) :=
    fun t u hv hu => atLeastZero_div (atLeastZero_share t hv)
      (atLeastZero_mul_self u) hu
  have hshares : ∀ p q r s : Float, AtLeastZero
      (p * p * x.vre / (y.squaredLength * y.squaredLength)
        + q * q * x.vim / (y.squaredLength * y.squaredLength)
        + r * r * y.vre / (y.squaredLength * y.squaredLength
          * (y.squaredLength * y.squaredLength))
        + s * s * y.vim / (y.squaredLength * y.squaredLength
          * (y.squaredLength * y.squaredLength))) :=
    fun p q r s => atLeastZero_add (atLeastZero_add (atLeastZero_add
      (hshare p _ hx.1 hsquare) (hshare q _ hx.2 hsquare))
      (hshare r _ hy.1 hfourth)) (hshare s _ hy.2 hfourth)
  exact ⟨hshares _ _ _ _, hshares _ _ _ _⟩

/-- The image under a function, whatever its value and its slope. -/
theorem analytic (hx : x.NonNegative) (re im dr di : Float) :
    (x.analytic re im dr di).NonNegative := by
  rw [nonNegative_iff] at *
  have hshares : ∀ p q : Float,
      AtLeastZero (p * p * x.vre + q * q * x.vim) :=
    fun p q => atLeastZero_add (atLeastZero_share p hx.1)
      (atLeastZero_share q hx.2)
  exact ⟨hshares _ _, hshares _ _⟩

end NonNegative

end Measured

-- ========================================================== quantities

namespace Quantity

/-- Neither variance is below zero. -/
abbrev NonNegative (q : Quantity) : Prop := q.toMeasured.NonNegative

variable {a b q : Quantity}

/-- Both variances are at least zero. -/
theorem NonNegative.of (hre : AtLeastZero q.vre) (him : AtLeastZero q.vim) :
    q.NonNegative :=
  (Measured.nonNegative_iff _).mpr ⟨hre, him⟩

/-- The variance of the real part. -/
theorem NonNegative.vre (h : q.NonNegative) : AtLeastZero q.vre :=
  ((Measured.nonNegative_iff _).mp h).1

/-- The variance of the imaginary part. -/
theorem NonNegative.vim (h : q.NonNegative) : AtLeastZero q.vim :=
  ((Measured.nonNegative_iff _).mp h).2

/-- What is certain has the variances zero. -/
theorem nonNegative_certain (re im : Float) (unit : Dimension) :
    NonNegative ⟨⟨re, im, 0.0, 0.0⟩, unit⟩ :=
  .of atLeastZero_zero atLeastZero_zero

/-- A number that is written down is certain. -/
theorem yieldsOnly_literal (value : Float) (decorator : String) :
    YieldsOnly NonNegative (literal value decorator) := by
  refine .ite (.ok (nonNegative_certain ..)) ?_
  refine .ite (.ok (nonNegative_certain ..)) ?_
  exact .bind fun _ _ => .ok (nonNegative_certain ..)

/-- On a scale a variance is multiplied by a square. -/
theorem yieldsOnly_onScale (hq : q.NonNegative) (scale : Scale) :
    YieldsOnly NonNegative (q.onScale scale) := by
  refine .ite .error (.ok (.of ?_ ?_))
  · exact atLeastZero_mul hq.vre (atLeastZero_mul_self _)
  · exact atLeastZero_mul hq.vim (atLeastZero_mul_self _)

/-- The negative has the same variances. -/
theorem nonNegative_neg (hq : q.NonNegative) : q.neg.NonNegative := hq

/-- A sum, if the units fit. -/
theorem yieldsOnly_add (ha : a.NonNegative) (hb : b.NonNegative) :
    YieldsOnly NonNegative (a.add b) :=
  .bind fun _ _ => .ok (Measured.NonNegative.add ha hb)

/-- A difference, if the units fit. -/
theorem yieldsOnly_sub (ha : a.NonNegative) (hb : b.NonNegative) :
    YieldsOnly NonNegative (a.sub b) :=
  .bind fun _ _ => .ok (Measured.NonNegative.sub ha hb)

/-- A product. -/
theorem nonNegative_mul (ha : a.NonNegative) (hb : b.NonNegative) :
    (a.mul b).NonNegative :=
  Measured.NonNegative.mul ha hb

/-- A quotient by zero is certain, or its variances have no bound. -/
theorem nonNegative_overZero (a b : Quantity) :
    (a.overZero b).NonNegative := by
  have hvariance : ∀ uncertain : Bool,
      AtLeastZero (if uncertain then infinity else 0.0) := by
    intro uncertain
    cases uncertain with
    | true => exact atLeastZero_infinity
    | false => exact atLeastZero_zero
  unfold overZero
  split
  exact .of (hvariance _) (hvariance _)

/-- A quotient, if its denominators have not sunk to zero. -/
theorem yieldsOnly_overNonzero (ha : a.NonNegative) (hb : b.NonNegative) :
    YieldsOnly NonNegative (a.overNonzero b) := by
  unfold overNonzero
  extract_lets n n2
  split
  · exact .error
  · -- the guard has looked at each denominator
    next hguard =>
    simp only [Bool.or_eq_true, not_or, Bool.not_eq_true] at hguard
    obtain ⟨⟨-, hsquare⟩, hfourth⟩ := hguard
    exact .ok (Measured.NonNegative.div ha hb hsquare hfourth)

/-- Any quotient, with small divisors lifted before. -/
theorem yieldsOnly_div (ha : a.NonNegative) (hb : b.NonNegative) :
    YieldsOnly NonNegative (a.div b) := by
  have hlift : lift.NonNegative := nonNegative_certain ..
  refine .ite (.ite (.ok (nonNegative_overZero a b)) ?_) ?_
  · exact yieldsOnly_overNonzero (nonNegative_mul ha hlift)
      (nonNegative_mul hb hlift)
  · exact yieldsOnly_overNonzero ha hb

/-- The image under a function and its slope. -/
theorem nonNegative_through (hq : q.NonNegative) (f f' : Phasor)
    (unit : Dimension) : (q.through f f' unit).NonNegative :=
  Measured.NonNegative.analytic hq ..

/-- A power takes variance from its base and from its exponent. -/
theorem yieldsOnly_pow (ha : a.NonNegative) (hb : b.NonNegative) :
    YieldsOnly NonNegative (a.pow b) := by
  refine .ite .error (.ite .error ?_)
  -- whatever the value and the slopes are
  refine .bind fun unit _ => .bind fun value _ => .bind fun slopes _ => ?_
  have hbase := nonNegative_through ha value slopes.1 unit
  have hexponent := nonNegative_through hb value slopes.2 unit
  exact .ok (.of (atLeastZero_add hbase.vre hexponent.vre)
    (atLeastZero_add hbase.vim hexponent.vim))

/-- Truth values are certain. -/
theorem yieldsOnly_compare (a b : Quantity) (op : Operator) :
    YieldsOnly NonNegative (a.compare b op) := by
  have htruth : ∀ b : Bool, (ofBool b).NonNegative :=
    fun _ => nonNegative_certain ..
  refine .bind fun _ _ => ?_
  split
  · exact .ok (htruth _)
  · exact .ok (htruth _)
  · refine .bind fun _ _ => ?_
    split
    · exact .ok (htruth _)
    · exact .ok (htruth _)
    · exact .ok (htruth _)
    · exact .ok (htruth _)
    · exact .error

/-- The variances that are given to a value are squares. -/
theorem yieldsOnly_plusMinus (a b : Quantity) :
    YieldsOnly NonNegative (a.plusMinus b) :=
  .bind fun _ _ =>
    .ok (.of (atLeastZero_mul_self _) (atLeastZero_mul_self _))

/-- The sine is an image under a function. -/
theorem yieldsOnly_sin (hq : q.NonNegative) :
    YieldsOnly NonNegative q.sin :=
  .bind fun _ _ => .bind fun _ _ => .bind fun _ _ =>
    .ok (nonNegative_through hq ..)

theorem yieldsOnly_cos (hq : q.NonNegative) :
    YieldsOnly NonNegative q.cos :=
  .bind fun _ _ => .bind fun _ _ => .bind fun _ _ =>
    .ok (nonNegative_through hq ..)

theorem yieldsOnly_exp (hq : q.NonNegative) :
    YieldsOnly NonNegative q.exp :=
  .bind fun _ _ => .bind fun _ _ => .ok (nonNegative_through hq ..)

/-- A quarter turn exchanges the variances. -/
theorem nonNegative_timesI (hq : q.NonNegative) : q.timesI.NonNegative :=
  .of hq.vim hq.vre

/-- The real part keeps its variance. -/
theorem nonNegative_real (hq : q.NonNegative) : q.real.NonNegative :=
  .of hq.vre atLeastZero_zero

/-- The imaginary part keeps its variance too, as that of a real number. -/
theorem nonNegative_imag (hq : q.NonNegative) : q.imag.NonNegative :=
  .of hq.vim atLeastZero_zero

/-- The variance of a length is a sum of shares over a square. -/
theorem yieldsOnly_abs (hq : q.NonNegative) :
    YieldsOnly NonNegative q.abs := by
  unfold abs
  extract_lets length
  refine .ite (.ok (nonNegative_certain ..)) (.bind fun v hv => ?_)
  have hshares := atLeastZero_add (atLeastZero_share q.re hq.vre)
    (atLeastZero_share q.im hq.vim)
  exact .ok (.of (yieldsOnly_divide length hshares v hv) atLeastZero_zero)

theorem yieldsOnly_arg (hq : q.NonNegative) :
    YieldsOnly NonNegative q.arg := by
  unfold arg
  extract_lets length finish
  have hshares := atLeastZero_add (atLeastZero_share q.im hq.vre)
    (atLeastZero_share q.re hq.vim)
  refine .ite (.bind fun v hv => ?_) (.ok (nonNegative_certain ..))
  exact .ok (.of (yieldsOnly_divide length hshares v hv) atLeastZero_zero)

/-- The larger is one of the two. -/
theorem yieldsOnly_max (ha : a.NonNegative) (hb : b.NonNegative) :
    YieldsOnly NonNegative (a.max b) := by
  refine .bind fun _ _ => .bind fun _ _ => .ok ?_
  split
  · exact ha
  · exact hb

theorem yieldsOnly_min (ha : a.NonNegative) (hb : b.NonNegative) :
    YieldsOnly NonNegative (a.min b) := by
  refine .bind fun _ _ => .bind fun _ _ => .ok ?_
  split
  · exact ha
  · exact hb

-- =============================================================== roots

/-- The standard deviation exists. -/
theorem sigma_eq (hq : q.NonNegative) :
    q.sigma = .ok ⟨⟨q.vre.sqrt, q.vim.sqrt, 0.0, 0.0⟩, q.unit⟩ := by
  rw [sigma, sqrt_eq hq.vre, sqrt_eq hq.vim]
  rfl

end Quantity

/-- The larger of a magnitude and a positive deviation is positive: if the
magnitude is not, the deviation is the larger one. -/
theorem larger_not_le_zero (value : Float) {sigma : Float}
    (hsigma : AtLeastZero sigma) (hzero : (sigma == 0.0) = false)
    (hfinite : Numeral.isFinite sigma = true) :
    ¬ (if value.abs < sigma then sigma else value.abs) ≤ 0.0 := by
  obtain ⟨habs, -⟩ := size_abs value
  have hlt := lt_iff_size_lt habs hsigma
    (size_lt_unbounded_of_isFinite hfinite)
  split
  · exact not_le_zero hsigma hzero
  · -- the magnitude is at least the deviation, which is positive
    next hle =>
    refine not_le_zero habs ?_
    rw [hlt] at hle
    rw [← Bool.not_eq_true, beq_zero_iff] at hzero ⊢
    omega

/-- A deviation that is shown is positive, so it has an order of
magnitude, and so has the larger of it and the value. -/
theorem faultsIn_uncertainText (value : Float) {sigma : Float}
    (hsigma : AtLeastZero sigma) :
    FaultsIn [.overflow, .zeroDivision] (uncertainText value sigma) := by
  have horder : ∀ {x : Float}, ¬ x ≤ 0.0 →
      FaultsIn [.overflow, .zeroDivision] (orderOfMagnitude x) :=
    fun hx => (faultsIn_orderOfMagnitude hx).widen (by decide)
  have hdivide : ∀ x y : Float,
      FaultsIn [.overflow, .zeroDivision] (divide x y) :=
    fun x y => (faultsIn_divide x y).widen (by decide)
  unfold uncertainText
  split
  · exact .ok
  next hzero =>
  rw [Bool.not_eq_true] at hzero
  split
  · exact .ok
  next hfinite =>
  rw [Bool.not_eq_true, Bool.not_eq_false', Bool.and_eq_true] at hfinite
  extract_lets larger
  -- the deviation is not zero and finite, or it would not have come to
  -- this
  have hlarger : ¬ larger ≤ 0.0 :=
    larger_not_le_zero value hsigma hzero hfinite.2
  refine .bind (horder hlarger) fun n _ => ?_
  refine .bind (horder (not_le_zero hsigma hzero)) fun m _ => ?_
  refine .bind (faultsIn_powWhole _ _) fun scale _ => ?_
  exact .bind (hdivide _ _) fun _ _ => .bind (hdivide _ _) fun _ _ => .ok

namespace Quantity

variable {q : Quantity}

/-- The parts have roots of their variances, and are written one by one. -/
theorem faultsIn_textWith (hq : q.NonNegative) (unitText : String) :
    FaultsIn [.overflow, .zeroDivision] (q.textWith unitText) := by
  have hre := faultsIn_uncertainText q.re (atLeastZero_sqrt q.vre)
  have him := faultsIn_uncertainText q.im (atLeastZero_sqrt q.vim)
  unfold textWith
  simp only [sqrt_eq hq.vre, sqrt_eq hq.vim, ok_bind]
  refine .ite (.bind hre fun _ _ => .ok) ?_
  refine .ite .ok ?_
  exact .bind hre fun _ _ => .bind him fun _ _ => .ok

/-- A quantity is written down without leaving the domain of a function. -/
theorem raisesIn_text (hq : q.NonNegative) :
    RaisesIn [.overflow, .zeroDivision] q.text :=
  .bind raisesIn_unit fun _ _ => raisesIn_arithmetic (faultsIn_textWith hq _)

/-- Read off a scale, a variance is divided by a square. -/
theorem yieldsOnly_readOff (hq : q.NonNegative) (scale : Scale) :
    YieldsOnly NonNegative (q.readOff scale) := by
  unfold readOff
  extract_lets f
  refine .bind fun _ _ => .bind fun _ _ => .bind fun vre hvre => ?_
  refine .bind fun vim hvim => .ok (.of ?_ ?_)
  · exact yieldsOnly_divide f hq.vre vre hvre
  · exact yieldsOnly_divide f hq.vim vim hvim

/-- A scale may have sunk to zero. -/
theorem faultsIn_readOff (q : Quantity) (scale : Scale) :
    FaultsIn [.zeroDivision] (q.readOff scale) :=
  .bind (faultsIn_divide _ _) fun _ _ =>
    .bind (faultsIn_divide _ _) fun _ _ =>
      .bind (faultsIn_divide _ _) fun _ _ =>
        .bind (faultsIn_divide _ _) fun _ _ => .ok

theorem raisesIn_textIn (hq : q.NonNegative) (unitText : String) :
    RaisesIn [.overflow, .zeroDivision] (q.textIn unitText) := by
  refine .bind (Scale.raisesIn_readBlock unitText) fun scale _ => ?_
  refine .ite (.error nofun) ?_
  have hfaults := (faultsIn_readOff q scale).widen
    (List.subset_cons_self .overflow _)
  refine .bind (raisesIn_arithmetic hfaults) fun shown hshown => ?_
  have hreadOff : YieldsOnly NonNegative
      ((q.readOff scale).mapError Error.arithmetic) :=
    (yieldsOnly_readOff hq scale).mapError
  exact raisesIn_arithmetic (faultsIn_textWith (hreadOff shown hshown) _)

end Quantity

end Metrology
