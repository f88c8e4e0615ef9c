/-
Dimensions of computed quantities. Numbers decide a good deal when
quantities are computed: whether a divisor is zero, which of two is the
larger, whether a power exists. None of that touches the dimension.

`Fits o x` says that the result `x`, if there is one, has the dimension
`o`, and that it can be a unit error only where `o` is none; other errors
may strike anywhere. For every operation there is such an `o` that
depends on the dimensions of the operands alone, and for powers on the
number in the exponent too.
-/
import Metrology.Proofs.Dimension.Composition
import Metrology.Proofs.Sequence
import Metrology.Quantity.Text

namespace Metrology

-- ================================================ results that fit

/-- The units of the operands do not fit. -/
def Error.IsUnit : Error → Prop
  | .unit _ => True
  | _ => False

/-- The result has the dimension `o`, and is a unit error only if `o` is
none. -/
def Fits (o : Option Dimension) : Except Error Quantity → Prop
  | .ok q => o = some q.unit
  | .error e => e.IsUnit → o = none

/-- The result is no unit error. -/
abbrev NoUnitError {α : Type} (x : Except Error α) : Prop :=
  FailsOnly (fun e => ¬ e.IsUnit) x

/-- An error of evaluation is none of units. -/
theorem noUnitError_eval {α : Type} {x : Except EvalError α} :
    NoUnitError (x.mapError Error.eval) :=
  .mapError fun _ _ => id

/-- A fault of arithmetic is none of units. -/
theorem noUnitError_arithmetic {α : Type} {x : Except ArithmeticFault α} :
    NoUnitError (x.mapError Error.arithmetic) :=
  .mapError fun _ _ => id

/-- Not even where an operation says that it overflowed. -/
theorem noUnitError_overflowIn {α : Type} {operation : String}
    {x : Except ArithmeticFault α} :
    NoUnitError (x.mapError (Quantity.overflowIn operation)) := by
  refine .mapError fun f _ => ?_
  cases f with
  | overflow | zeroDivision | domain => exact id

namespace Fits

variable {α : Type} {o : Option Dimension} {u : Dimension}

/-- A quantity fits its own dimension. -/
theorem ok {q : Quantity} (h : q.unit = u) : Fits (some u) (.ok q) :=
  congrArg some h.symm

/-- Steps that bring up no unit error do not touch the dimension. -/
theorem bind {x : Except Error α} {f : α → Except Error Quantity}
    (hx : NoUnitError x) (hf : ∀ a, Fits o (f a)) : Fits o (x >>= f) := by
  cases x with
  | ok a => exact hf a
  | error e => exact fun he => absurd he (hx e rfl)

/-- Every result fits something. -/
theorem exists_fits (x : Except Error Quantity) : ∃ o, Fits o x := by
  cases x with
  | ok q => exact ⟨some q.unit, rfl⟩
  | error e => exact ⟨none, fun _ => rfl⟩

/-- A computation that may fail in arithmetic fits the dimension of its
values. -/
theorem arithmetic {x : Except ArithmeticFault Quantity}
    (hx : ∀ q, x = .ok q → q.unit = u) :
    Fits (some u) (x.mapError Error.arithmetic) := by
  cases x with
  | error f => exact False.elim
  | ok q => exact .ok (hx q rfl)

end Fits

-- ================================================ operators by dimension

/-- The dimension of the result follows from that of the operand. -/
def Determined (f : Quantity → Except Error Quantity) : Prop :=
  ∀ u, ∃ o, ∀ q : Quantity, q.unit = u → Fits o (f q)

/-- The dimension of the result follows from those of the operands, as
far as the second is one of `C`. -/
def Determined₂ (C : Quantity → Prop)
    (f : Quantity → Quantity → Except Error Quantity) : Prop :=
  ∀ u v, ∃ o, ∀ a b : Quantity, a.unit = u → b.unit = v → C b →
    Fits o (f a b)

namespace Quantity

variable {C : Quantity → Prop}

/-- A function that never fails has a dimension for every dimension. -/
theorem determined_total {f : Quantity → Quantity}
    (w : Dimension → Dimension) (hf : ∀ q, (f q).unit = w q.unit) :
    Determined fun q => .ok (f q) := by
  intro u
  refine ⟨some (w u), fun q hq => .ok ?_⟩
  rw [hf, hq]

theorem determined_arithmetic {f : Quantity → Except ArithmeticFault Quantity}
    (w : Dimension → Dimension)
    (hf : ∀ q r, f q = .ok r → r.unit = w q.unit) :
    Determined fun q => (f q).mapError Error.arithmetic := by
  intro u
  refine ⟨some (w u), fun q hq => .arithmetic fun r hr => ?_⟩
  rw [hf q r hr, hq]

/-- An operation on operands of the same dimension, with a unit error for
all others. -/
theorem determined_same
    {f : Quantity → Quantity → Except Error Quantity}
    (w : Dimension → Dimension)
    (hsame : ∀ a b, a.unit = b.unit → Fits (some (w a.unit)) (f a b))
    (hother : ∀ a b, a.unit ≠ b.unit → ∃ e, f a b = .error (.unit e)) :
    Determined₂ C f := by
  intro u v
  by_cases huv : u = v
  · refine ⟨some (w u), fun a b ha hb _ => ?_⟩
    have h := hsame a b (by rw [ha, hb, huv])
    rw [ha] at h
    exact h
  · refine ⟨none, fun a b ha hb _ => ?_⟩
    obtain ⟨e, he⟩ := hother a b (by rw [ha, hb]; exact huv)
    rw [he]
    exact fun _ => rfl

/-- Operands of one dimension are let through. -/
@[simp] theorem requireSameUnit_of_eq {a b : Quantity} (h : a.unit = b.unit)
    (operator : String) : a.requireSameUnit b operator = .ok () :=
  if_pos h

/-- Others are not, and the error names both dimensions. -/
theorem requireSameUnit_of_ne {a b : Quantity} (h : a.unit ≠ b.unit)
    (operator : String) : a.requireSameUnit b operator
      = .error (.differentUnits operator a.unit b.unit) :=
  if_neg h

/-- Only a number without a dimension can be put on a scale, and then it has
the scale's. -/
theorem determined_onScale (scale : Scale) :
    Determined fun q => (q.onScale scale).mapError Error.unit := by
  intro u
  by_cases hu : u.isUnitless
  · refine ⟨some scale.dimension, fun q hq => ?_⟩
    simp only [onScale, hq, hu]
    exact .ok rfl
  · refine ⟨none, fun q hq => ?_⟩
    simp only [onScale, hq, hu]
    exact fun _ => rfl

-- ============================================================== sums

/-- An operation that needs operands of the same dimension and keeps
it. -/
theorem determined_alike (operator : String)
    {f : Quantity → Quantity → Quantity} (hf : ∀ a b, (f a b).unit = a.unit) :
    Determined₂ C fun a b =>
      (a.requireSameUnit b operator >>= fun _ =>
        .ok (f a b)).mapError Error.unit := by
  refine determined_same id (fun a b h => ?_) fun a b h => ?_
  · rw [requireSameUnit_of_eq h]
    exact .ok (hf a b)
  · rw [requireSameUnit_of_ne h]
    exact ⟨_, rfl⟩

/-- The sum has the dimension of both operands. -/
theorem determined_add :
    Determined₂ C fun a b => (a.add b).mapError Error.unit :=
  determined_alike "+" fun _ _ => rfl

theorem determined_sub :
    Determined₂ C fun a b => (a.sub b).mapError Error.unit :=
  determined_alike "-" fun _ _ => rfl

theorem determined_plusMinus :
    Determined₂ C fun a b => (a.plusMinus b).mapError Error.unit :=
  determined_alike "pm" fun _ _ => rfl

-- ================================================= products and powers

/-- The product has the product of the dimensions. -/
theorem determined_mul : Determined₂ C fun a b => .ok (a.mul b) := by
  intro u v
  refine ⟨some (u * v), fun a b ha hb _ => .ok ?_⟩
  rw [Quantity.mul, ha, hb]

/-- A quotient by what is not zero has the quotient of the dimensions. -/
theorem unit_overNonzero {a b q : Quantity}
    (h : a.overNonzero b = .ok q) : q.unit = a.unit / b.unit := by
  unfold overNonzero at h
  extract_lets n n2 at h
  split at h
  · cases h
  · cases h
    rfl

/-- A quotient has the quotient of the dimensions, be the divisor zero,
too small to square, or neither. -/
theorem unit_div {a b q : Quantity} (h : a.div b = .ok q) :
    q.unit = a.unit / b.unit := by
  unfold Quantity.div at h
  split at h
  · split at h
    · cases h
      rfl
    · -- both were lifted by a number, which has no dimension
      have hlift := unit_overNonzero h
      have hunit : ∀ c : Quantity, (c.mul lift).unit = c.unit :=
        fun c => Dimension.mul_unitless c.unit
      rw [hunit, hunit] at hlift
      exact hlift
  · exact unit_overNonzero h

/-- The quotient has the quotient of the dimensions. -/
theorem determined_div :
    Determined₂ C fun a b => (a.div b).mapError Error.arithmetic := by
  intro u v
  refine ⟨some (u / v), fun a b ha hb _ => .arithmetic fun q hq => ?_⟩
  rw [unit_div hq, ha, hb]

/-- Whether a base with a dimension has a certain power depends on that
dimension, and so does the power's. -/
theorem determined_pow (c : Quantity) : Determined fun a => a.pow c := by
  intro u
  by_cases hunit : c.unit.isUnitless
  · by_cases hreal : c.isReal
    · -- the exponent's number is the same for all bases of the dimension
      -- `u`, and so whether the power has a dimension
      cases hpow : powUnit u c.re realText with
      | error e =>
          refine ⟨none, fun a ha => ?_⟩
          simp only [Quantity.pow, hunit, hreal, ha, hpow]
          exact fun _ => rfl
      | ok w =>
          refine ⟨some w, fun a ha => ?_⟩
          simp only [Quantity.pow, hunit, hreal, ha, hpow, Except.mapError,
            ok_bind]
          refine .bind (x := (a.powValue c.re).mapError (overflowIn "^"))
            noUnitError_overflowIn fun value => ?_
          exact .bind noUnitError_arithmetic fun _ => .ok rfl
    · refine ⟨none, fun a _ => ?_⟩
      simp only [Quantity.pow, hunit, hreal]
      exact fun _ => rfl
  · refine ⟨none, fun a _ => ?_⟩
    simp only [Quantity.pow, hunit]
    exact fun _ => rfl

-- ========================================================== comparisons

/-- A comparison of operands of one dimension has none. -/
theorem determined_compare {op : Operator} :
    Determined₂ C fun a b => a.compare b op := by
  refine determined_same (fun _ => .unitless) (fun a b h => ?_) fun a b h => ?_
  · unfold compare
    rw [requireSameUnit_of_eq h, Except.mapError, ok_bind]
    split
    · exact .ok rfl
    · exact .ok rfl
    · refine .bind noUnitError_eval fun _ => ?_
      split
      · exact .ok rfl
      · exact .ok rfl
      · exact .ok rfl
      · exact .ok rfl
      · exact False.elim
  · unfold compare
    rw [requireSameUnit_of_ne h]
    exact ⟨_, rfl⟩

/-- Truth values have no dimension. -/
theorem determined_ofBool {p : Quantity → Quantity → Bool} :
    Determined₂ C fun a b => .ok (.ofBool (p a b)) :=
  fun _ _ => ⟨some .unitless, fun _ _ _ _ _ => .ok rfl⟩

/-- A choice between two real operands of the same dimension. -/
theorem determined_choice (operator : String)
    {p : Quantity → Quantity → Prop} [∀ a b, Decidable (p a b)] :
    Determined₂ C fun a b =>
      (a.requireSameUnit b operator).mapError Error.unit >>= fun _ =>
        (a.requireReal b operator).mapError Error.eval >>= fun _ =>
          .ok (if p a b then a else b) := by
  refine determined_same id (fun a b h => ?_) fun a b h => ?_
  · rw [requireSameUnit_of_eq h, Except.mapError, ok_bind]
    refine .bind noUnitError_eval fun _ => .ok ?_
    split
    · rfl
    · exact h.symm
  · rw [requireSameUnit_of_ne h]
    exact ⟨_, rfl⟩

/-- The larger has the dimension of both operands. -/
theorem determined_max : Determined₂ C max := determined_choice "max"

theorem determined_min : Determined₂ C min := determined_choice "min"

-- ============================================================ functions

/-- The sine has no dimension. -/
theorem determined_sin : Determined sin :=
  fun _ => ⟨some .unitless, fun _ _ =>
    .bind noUnitError_eval fun _ =>
      .bind noUnitError_arithmetic fun _ =>
        .bind noUnitError_arithmetic fun _ => .ok rfl⟩

theorem determined_cos : Determined cos :=
  fun _ => ⟨some .unitless, fun _ _ =>
    .bind noUnitError_eval fun _ =>
      .bind noUnitError_arithmetic fun _ =>
        .bind noUnitError_arithmetic fun _ => .ok rfl⟩

theorem determined_exp : Determined exp :=
  fun _ => ⟨some .unitless, fun _ _ =>
    .bind noUnitError_eval fun _ =>
      .bind noUnitError_overflowIn fun _ => .ok rfl⟩

/-- A deviation has the dimension of its quantity. -/
theorem unit_sigma {q r : Quantity} (h : q.sigma = .ok r) :
    r.unit = q.unit := by
  obtain ⟨re, -, h⟩ := bind_eq_ok.mp h
  obtain ⟨im, -, h⟩ := bind_eq_ok.mp h
  cases h
  rfl

theorem unit_abs {q r : Quantity} (h : q.abs = .ok r) :
    r.unit = q.unit := by
  unfold abs at h
  extract_lets length at h
  split at h
  · cases h
    rfl
  · obtain ⟨v, -, h⟩ := bind_eq_ok.mp h
    cases h
    rfl

/-- An angle has none. -/
theorem unit_arg {q r : Quantity} (h : q.arg = .ok r) :
    r.unit = .unitless := by
  unfold arg at h
  extract_lets length finish at h
  split at h
  · obtain ⟨v, -, h⟩ := bind_eq_ok.mp h
    cases h
    rfl
  · cases h
    rfl

end Quantity

end Metrology
