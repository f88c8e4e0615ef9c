/-
When quotients exist. The parts of a quotient are divided by the squared
length of the divisor, and the variances by its square and its fourth
power. A divisor is lifted if the squared length itself is zero; then it is
zero no longer, unless the divisor is (`size_divisor_pos`). The fourth power
vanishes much earlier, for all squared lengths below one double
(`size_fourth_eq_zero_iff`), and does not count for lifting. So there are
divisors, lifted and not, that are not zero and have no quotient
(`div_eq_ok_iff`).

Squared lengths grow with the sizes of both parts, so the bounds on the
parts come from squaring the bounds themselves.
-/
import Metrology.Proofs.Double.Size
import Metrology.Quantity

namespace Metrology.Quantity

open Metrology.Double

-- ======================================================== fourth powers

/-- The fourth power, as the square of the square. -/
def fourth (x : Float) : Float := x * x * (x * x)

/-- The least double whose fourth power is not zero. -/
def leastLength : Float := 1.2536856801856792e-81

/-- The double before it. -/
def vanishingLength : Float := 1.253685680185679e-81

theorem atLeastZero_leastLength : AtLeastZero leastLength := rfl

/-- Its mantissa and exponent. -/
theorem size_leastLength : size leastLength
    = 0x1306fe0a31b716 * 2 ^ ((-321 : ℤ) + 1074).toNat := by decide +kernel

/-- A last place less. -/
theorem size_vanishingLength : size vanishingLength
    = (0x1306fe0a31b716 - 1) * 2 ^ ((-321 : ℤ) + 1074).toNat := by
  decide +kernel

/-- The square of a double that has not vanished may vanish, but not the
other way round. -/
theorem size_mul_self_eq_zero {x : Float} (h : size x = 0) :
    size (x * x) = 0 := by
  have hle := size_mul_mono (z := 0.0) (w := 0.0) (Nat.le_of_eq h)
    (Nat.le_of_eq h)
  have hzero : size ((0.0 : Float) * 0.0) = 0 := by decide +kernel
  omega

/-- The fourth power vanishes for all doubles below it, and for no
others. -/
theorem size_fourth_eq_zero_iff {x : Float} (hx : AtLeastZero x) :
    size (fourth x) = 0 ↔ x < leastLength := by
  have hbounded : size leastLength < unbounded := by decide +kernel
  rw [lt_iff_size_lt hx atLeastZero_leastLength hbounded]
  constructor
  · intro hzero
    -- the fourth power grows with the double, and that of the bound is not
    -- zero
    by_contra hge
    have hsquare := size_mul_mono (Nat.le_of_not_lt hge)
      (Nat.le_of_not_lt hge)
    have hfourth := size_mul_mono hsquare hsquare
    have hleast : 0 < size (fourth leastLength) := by decide +kernel
    exact Nat.not_le_of_lt hleast (Nat.le_trans hfourth (Nat.le_of_eq hzero))
  · intro hlt
    -- a smaller one is at most the double before the bound, whose fourth
    -- power is zero
    rw [size_leastLength] at hlt
    have hle : size x ≤ size vanishingLength := by
      rw [size_vanishingLength]
      exact size_le_of_lt (by decide) (by decide) (by decide) (by decide) hlt
    have hsquare := size_mul_mono hle hle
    have hfourth := size_mul_mono hsquare hsquare
    have hvanishing : size (fourth vanishingLength) = 0 := by decide +kernel
    exact Nat.le_zero.mp (Nat.le_trans hfourth (Nat.le_of_eq hvanishing))

-- ====================================================== squared lengths

/-- A squared length is a sum of squares. -/
theorem atLeastZero_squaredLength (x : Measured Float) :
    AtLeastZero x.squaredLength :=
  atLeastZero_add (atLeastZero_mul_self _) (atLeastZero_mul_self _)

/-- It grows with the sizes of both parts. -/
theorem size_squaredLength_mono {x y : Measured Float}
    (hre : size x.re ≤ size y.re) (him : size x.im ≤ size y.im) :
    size x.squaredLength ≤ size y.squaredLength :=
  size_add_mono (atLeastZero_mul_self _) (atLeastZero_mul_self _)
    (atLeastZero_mul_self _) (atLeastZero_mul_self _)
    (size_mul_mono hre hre) (size_mul_mono him him)

/-- The squared length is at least the square of a part. -/
theorem size_mul_self_le {x : Measured Float} {u : Float}
    (h : size u ≤ size x.re ∨ size u ≤ size x.im) :
    size (u * u) ≤ size x.squaredLength := by
  have hu := atLeastZero_mul_self u
  have hre := atLeastZero_mul_self x.re
  have him := atLeastZero_mul_self x.im
  have hzero : ∀ y, size (0.0 : Float) ≤ size y := by
    intro y
    rw [size_zero]
    exact Nat.zero_le _
  rw [← size_zero_add (y := u * u) size_zero]
  rcases h with h | h
  · rw [size_add_comm atLeastZero_zero hu]
    exact size_add_mono hu atLeastZero_zero hre him (size_mul_mono h h)
      (hzero _)
  · exact size_add_mono atLeastZero_zero hu hre him (hzero _)
      (size_mul_mono h h)

/-- The rule for variances applies unless the squared length of the
divisor is too small. -/
theorem overNonzero_eq (a b : Quantity) :
    a.overNonzero b = if b.squaredLength < leastLength
      then .error .zeroDivision
      else .ok ⟨a.toMeasured.div b.toMeasured, a.unit / b.unit⟩ := by
  have hfourth := size_fourth_eq_zero_iff
    (atLeastZero_squaredLength b.toMeasured)
  have hguard : (b.squaredLength == 0.0
      || b.squaredLength * b.squaredLength == 0.0
      || b.squaredLength * b.squaredLength
        * (b.squaredLength * b.squaredLength) == 0.0) = true
      ↔ b.squaredLength < leastLength := by
    rw [Bool.or_eq_true, Bool.or_eq_true, beq_zero_iff, beq_zero_iff,
      beq_zero_iff, ← hfourth]
    constructor
    · rintro ((h | h) | h)
      · exact size_mul_self_eq_zero (size_mul_self_eq_zero h)
      · exact size_mul_self_eq_zero h
      · exact h
    · exact .inr
  unfold overNonzero
  dsimp only
  by_cases h : b.squaredLength < leastLength
  · rw [if_pos h, if_pos (hguard.mpr h)]
  · rw [if_neg h, if_neg (mt hguard.mp h)]

-- ============================================================== lifting

/-- The divisor that the rule is applied to. -/
def divisor (b : Quantity) : Quantity :=
  if b.squaredLength == 0.0 then b.mul lift else b

/-- The dividend that goes with it. -/
def dividend (a b : Quantity) : Quantity :=
  if b.squaredLength == 0.0 then a.mul lift else a

/-- A divisor is zero if both its parts are. -/
theorem isZero_iff (b : Quantity) :
    b.isZero = true ↔ size b.re = 0 ∧ size b.im = 0 := by
  rw [isZero, Bool.and_eq_true, beq_zero_iff, beq_zero_iff]

theorem size_squaredLength_eq_zero {b : Quantity} (h : b.isZero = true) :
    size b.squaredLength = 0 := by
  obtain ⟨hre, him⟩ := (isZero_iff b).mp h
  have hle := size_squaredLength_mono (x := b.toMeasured)
    (y := ⟨0.0, 0.0, 0.0, 0.0⟩) (Nat.le_of_eq hre) (Nat.le_of_eq him)
  have hzero : size (Measured.squaredLength
      (⟨0.0, 0.0, 0.0, 0.0⟩ : Measured Float)) = 0 := by decide +kernel
  omega

/-- A quotient is by zero, or by the rule. -/
theorem div_eq (a b : Quantity) :
    a.div b = if b.isZero then .ok (a.overZero b)
      else (a.dividend b).overNonzero b.divisor := by
  unfold Quantity.div dividend divisor
  by_cases hzero : b.isZero = true
  · have hvanishes :=
      (beq_zero_iff b.squaredLength).mpr (size_squaredLength_eq_zero hzero)
    rw [if_pos hvanishes, if_pos hzero, if_pos hzero]
  · rw [if_neg hzero, if_neg hzero]
    split
    · rfl
    · rfl

/-- The smallest positive double. -/
def smallest : Float := 5e-324

/-- Parts with squares that vanish are finite. -/
theorem size_lt_unbounded {x : Measured Float}
    (h : size x.squaredLength = 0) :
    size x.re < unbounded ∧ size x.im < unbounded := by
  have hinfinity : size infinity = unbounded := by decide +kernel
  have hsquare : 0 < size (infinity * infinity) := by decide +kernel
  constructor
  · by_contra hbeyond
    have hle := size_mul_self_le (x := x) (u := infinity) (.inl (by omega))
    omega
  · by_contra hbeyond
    have hle := size_mul_self_le (x := x) (u := infinity) (.inr (by omega))
    omega

/-- A divisor with a squared length is taken as it is. -/
theorem divisor_of_visible {b : Quantity} (h : 0 < size b.squaredLength) :
    b.divisor = b := by
  rw [divisor, if_neg]
  rw [beq_zero_iff]
  omega

/-- One without is lifted. -/
theorem divisor_of_vanishing {b : Quantity}
    (h : size b.squaredLength = 0) : b.divisor = b.mul lift := by
  rw [divisor, if_pos ((beq_zero_iff _).mpr h)]

/-- Lifting multiplies both parts. -/
theorem size_lifted {b : Quantity} (h : size b.squaredLength = 0) :
    size (b.mul lift).re = size (b.re * lift.re)
      ∧ size (b.mul lift).im = size (b.im * lift.re) := by
  obtain ⟨hre, him⟩ := size_lt_unbounded h
  exact ⟨size_sub_zero (size_mul_zero him size_zero),
    size_zero_add (size_mul_zero hre size_zero)⟩

/-- The lifted squared length is at least the square of a lifted part. -/
theorem size_mul_self_le_lifted {b : Quantity} {u : Float}
    (hvanishes : size b.squaredLength = 0)
    (h : size u ≤ size b.re ∨ size u ≤ size b.im) :
    size (u * lift.re * (u * lift.re))
      ≤ size (b.mul lift).squaredLength := by
  obtain ⟨hre, him⟩ := size_lifted hvanishes
  apply size_mul_self_le
  rw [hre, him]
  exact h.imp (size_mul_mono · (Nat.le_refl _))
    (size_mul_mono · (Nat.le_refl _))

/-- A divisor that is not zero has a squared length that is not zero, once
it is lifted if need be. -/
theorem size_divisor_pos {b : Quantity} (h : b.isZero = false) :
    0 < size b.divisor.squaredLength := by
  rcases Nat.eq_zero_or_pos (size b.squaredLength) with hvanishes | hvisible
  · have hnot : ¬ (size b.re = 0 ∧ size b.im = 0) := by
      rw [← isZero_iff, h]
      exact Bool.false_ne_true
    -- a part that is not zero is at least the smallest double, and that
    -- one is lifted far enough
    have hsmallest : size smallest = 1 := by decide +kernel
    have hge := size_mul_self_le_lifted (u := smallest) hvanishes (by omega)
    have hsquare : 0 < size (smallest * lift.re * (smallest * lift.re)) := by
      decide +kernel
    rw [divisor_of_vanishing hvanishes]
    exact Nat.lt_of_lt_of_le hsquare hge
  · rw [divisor_of_visible hvisible]
    exact hvisible

-- ============================================================== bounds

/-- One half to the power `n`. -/
def halfPower (n : ℕ) : Float := 1.0 / Float.ofNat (2 ^ n)

/-- Both parts lie strictly between `-u` and `u`. -/
def IsWithin (b : Quantity) (u : Float) : Prop :=
  b.re.abs < u ∧ b.im.abs < u

instance (b : Quantity) (u : Float) : Decidable (b.IsWithin u) :=
  inferInstanceAs (Decidable (_ ∧ _))

/-- The bound on both parts, by sizes. -/
theorem isWithin_iff {u : Float} (hu : AtLeastZero u)
    (hbounded : size u < unbounded) (b : Quantity) :
    b.IsWithin u ↔ size b.re < size u ∧ size b.im < size u := by
  obtain ⟨hre, hre'⟩ := size_abs b.re
  obtain ⟨him, him'⟩ := size_abs b.im
  rw [IsWithin, lt_iff_size_lt hre hu hbounded,
    lt_iff_size_lt him hu hbounded, hre', him']

theorem lt_leastLength_iff (b : Quantity) :
    b.squaredLength < leastLength
      ↔ size b.squaredLength < size leastLength :=
  lt_iff_size_lt (atLeastZero_squaredLength _) atLeastZero_leastLength
    (by decide +kernel)

/-- Parts up to a bound have a squared length up to twice its square. -/
theorem size_squaredLength_le {x : Measured Float} {u : Float}
    (hre : size x.re ≤ size u) (him : size x.im ≤ size u) :
    size x.squaredLength ≤ size (u * u + u * u) :=
  size_squaredLength_mono (y := ⟨u, u, 0.0, 0.0⟩) hre him

/-- A part of `2 ^ -134` is enough. -/
theorem not_lt_leastLength_of_secure {b : Quantity}
    (h : ¬ b.IsWithin (halfPower 134)) :
    ¬ b.divisor.squaredLength < leastLength := by
  rw [isWithin_iff (by decide +kernel) (by decide +kernel)] at h
  have hge := size_mul_self_le (x := b.toMeasured) (u := halfPower 134)
    (by omega)
  have hleast : size leastLength ≤ size (halfPower 134 * halfPower 134) := by
    decide +kernel
  have hpos : 0 < size leastLength := by decide +kernel
  rw [divisor_of_visible (by omega), lt_leastLength_iff]
  omega

/-- Parts below `2 ^ -135` are not, while one of them has a square. -/
theorem lt_leastLength_of_visible {b : Quantity}
    (hshort : b.IsWithin (halfPower 135))
    (hvisible : ¬ b.IsWithin (halfPower 537)) :
    b.isZero = false ∧ b.divisor.squaredLength < leastLength := by
  rw [isWithin_iff (by decide +kernel) (by decide +kernel)]
    at hshort hvisible
  have hge := size_mul_self_le (x := b.toMeasured) (u := halfPower 537)
    (by omega)
  have hpos : 0 < size (halfPower 537 * halfPower 537) := by decide +kernel
  have hle := size_squaredLength_le (Nat.le_of_lt hshort.1)
    (Nat.le_of_lt hshort.2)
  have hleast : size (halfPower 135 * halfPower 135
      + halfPower 135 * halfPower 135) < size leastLength := by decide +kernel
  constructor
  · by_contra hzero
    have := size_squaredLength_eq_zero (Bool.not_eq_false _ ▸ hzero)
    omega
  · rw [divisor_of_visible (by omega), lt_leastLength_iff]
    omega

/-- Parts below `2 ^ -538` have no squares. -/
theorem squaredLength_of_vanishing {x : Measured Float}
    (hre : size x.re ≤ size (halfPower 538))
    (him : size x.im ≤ size (halfPower 538)) : size x.squaredLength = 0 := by
  have hle := size_squaredLength_le hre him
  have hzero : size (halfPower 538 * halfPower 538
      + halfPower 538 * halfPower 538) = 0 := by decide +kernel
  omega

/-- Once lifted, a part of `2 ^ -734` is enough. -/
theorem not_lt_leastLength_of_lifted {b : Quantity}
    (hvanishing : b.IsWithin (halfPower 538))
    (hlong : ¬ b.IsWithin (halfPower 734)) :
    ¬ b.divisor.squaredLength < leastLength := by
  rw [isWithin_iff (by decide +kernel) (by decide +kernel)]
    at hvanishing hlong
  have hzero := squaredLength_of_vanishing (Nat.le_of_lt hvanishing.1)
    (Nat.le_of_lt hvanishing.2)
  have hge := size_mul_self_le_lifted (u := halfPower 734) hzero (by omega)
  have hleast : size leastLength
      ≤ size (halfPower 734 * lift.re * (halfPower 734 * lift.re)) := by
    decide +kernel
  rw [divisor_of_vanishing hzero, lt_leastLength_iff]
  omega

/-- Parts below `2 ^ -735` are not, although they are lifted. -/
theorem lt_leastLength_of_lifted {b : Quantity}
    (hshort : b.IsWithin (halfPower 735)) :
    b.divisor.squaredLength < leastLength := by
  rw [isWithin_iff (by decide +kernel) (by decide +kernel)] at hshort
  have hbelow : size (halfPower 735) ≤ size (halfPower 538) := by
    decide +kernel
  have hzero := squaredLength_of_vanishing (x := b.toMeasured) (by omega)
    (by omega)
  obtain ⟨hre, him⟩ := size_lifted hzero
  have hle : size (b.mul lift).squaredLength
      ≤ size (halfPower 735 * lift.re * (halfPower 735 * lift.re)
        + halfPower 735 * lift.re * (halfPower 735 * lift.re)) := by
    apply size_squaredLength_le
    · rw [hre]
      exact size_mul_mono (Nat.le_of_lt hshort.1) (Nat.le_refl _)
    · rw [him]
      exact size_mul_mono (Nat.le_of_lt hshort.2) (Nat.le_refl _)
  have hleast : size (halfPower 735 * lift.re * (halfPower 735 * lift.re)
      + halfPower 735 * lift.re * (halfPower 735 * lift.re))
      < size leastLength := by decide +kernel
  rw [divisor_of_vanishing hzero, lt_leastLength_iff]
  omega

-- ============================================================= quotients

/-- A quotient by zero, by the rule, or none. -/
theorem div_cases (a b : Quantity) :
    (b.isZero = true ∧ a.div b = .ok (a.overZero b))
    ∨ (b.isZero = false ∧ b.divisor.squaredLength < leastLength
      ∧ a.div b = .error .zeroDivision)
    ∨ (b.isZero = false ∧ ¬ b.divisor.squaredLength < leastLength
      ∧ ∃ q, a.div b = .ok q) := by
  rw [div_eq, overNonzero_eq]
  cases hzero : b.isZero with
  | true => exact .inl ⟨rfl, rfl⟩
  | false =>
    by_cases hshort : b.divisor.squaredLength < leastLength
    · exact .inr (.inl ⟨rfl, hshort, if_pos hshort⟩)
    · exact .inr (.inr ⟨rfl, hshort, _, if_neg hshort⟩)

/-- The fourth power vanishes exactly below the least length. -/
theorem fourth_divisor_iff (b : Quantity) :
    (fourth b.divisor.squaredLength == 0.0) = true
      ↔ b.divisor.squaredLength < leastLength := by
  rw [beq_zero_iff]
  exact size_fourth_eq_zero_iff (atLeastZero_squaredLength _)

/-- When a quotient exists, by the squared length of the divisor. -/
theorem exists_div_iff (a b : Quantity) :
    (∃ q, a.div b = .ok q)
      ↔ b.isZero = true ∨ ¬ b.divisor.squaredLength < leastLength := by
  rcases div_cases a b with ⟨hzero, heq⟩ | ⟨hzero, hshort, heq⟩
    | ⟨hzero, hlong, hexists⟩
  · exact iff_of_true ⟨_, heq⟩ (.inl hzero)
  · rw [heq, hzero]
    exact iff_of_false nofun (by simp [hshort])
  · exact iff_of_true hexists (.inr hlong)

theorem div_eq_error_iff (a b : Quantity) (fault : ArithmeticFault) :
    a.div b = .error fault ↔ fault = .zeroDivision ∧ b.isZero = false
      ∧ b.divisor.squaredLength < leastLength := by
  rcases div_cases a b with ⟨hzero, heq⟩ | ⟨hzero, hshort, heq⟩
    | ⟨hzero, hlong, q, heq⟩
  · rw [heq, hzero]
    exact iff_of_false nofun (nomatch ·.2.1)
  · rw [heq]
    constructor
    · intro h
      injection h with h
      exact ⟨h.symm, hzero, hshort⟩
    · rintro ⟨rfl, -⟩
      rfl
  · rw [heq]
    exact iff_of_false nofun (hlong ·.2.2)

/-- A quotient exists for every divisor that is zero, and for one that is
not exactly if the fourth power of its squared length is not zero. Lifting
keeps the squared length itself from being zero, but not its powers: by the
parts of the divisor, there is a quotient from `2 ^ -134` up, none from
`2 ^ -537` to `2 ^ -135`, again one from `2 ^ -734` to `2 ^ -538`, and none
below `2 ^ -735`. -/
theorem div_eq_ok_iff (a b : Quantity) :
    ((∃ q, a.div b = .ok q) ↔ b.isZero = true
      ∨ (fourth b.divisor.squaredLength == 0.0) = false)
    ∧ (∀ fault, a.div b = .error fault → fault = .zeroDivision)
    ∧ (b.isZero = false → (b.divisor.squaredLength == 0.0) = false)
    ∧ ((fourth b.divisor.squaredLength == 0.0) = true
      ↔ b.divisor.squaredLength < leastLength)
    ∧ (¬ b.IsWithin (halfPower 134) → ∃ q, a.div b = .ok q)
    ∧ (b.IsWithin (halfPower 135) → ¬ b.IsWithin (halfPower 537) →
      a.div b = .error .zeroDivision)
    ∧ (b.IsWithin (halfPower 538) → ¬ b.IsWithin (halfPower 734) →
      ∃ q, a.div b = .ok q)
    ∧ (b.IsWithin (halfPower 735) → b.isZero = false →
      a.div b = .error .zeroDivision) := by
  refine ⟨?_, ?_, ?_, fourth_divisor_iff b, ?_, ?_, ?_, ?_⟩
  · rw [exists_div_iff, ← fourth_divisor_iff, Bool.not_eq_true]
  · intro fault hfault
    exact ((div_eq_error_iff a b fault).mp hfault).1
  · intro hnonzero
    rw [← Bool.not_eq_true, beq_zero_iff]
    exact Nat.ne_of_gt (size_divisor_pos hnonzero)
  · -- long enough as it is
    intro hsecure
    exact (exists_div_iff a b).mpr
      (.inr (not_lt_leastLength_of_secure hsecure))
  · -- too short, but not so short that it is lifted
    intro hshort hvisible
    exact (div_eq_error_iff a b _).mpr
      ⟨rfl, lt_leastLength_of_visible hshort hvisible⟩
  · -- lifted, and then long enough
    intro hvanishing hlong
    exact (exists_div_iff a b).mpr
      (.inr (not_lt_leastLength_of_lifted hvanishing hlong))
  · -- lifted, and still too short
    intro hshort hnonzero
    exact (div_eq_error_iff a b _).mpr
      ⟨rfl, hnonzero, lt_leastLength_of_lifted hshort⟩

/-- One divisor in each of the four ranges. -/
theorem div_eq_ok_iff_decimals :
    (∃ q, (ofReal 1.0).div (ofReal 1e-40) = .ok q)
    ∧ (ofReal 1.0).div (ofReal 1e-100) = .error .zeroDivision
    ∧ (∃ q, (ofReal 1.0).div (ofReal 1e-200) = .ok q)
    ∧ (ofReal 1.0).div (ofReal 1e-300) = .error .zeroDivision := by
  obtain ⟨-, -, -, -, hsecure, -⟩ :=
    div_eq_ok_iff (ofReal 1.0) (ofReal 1e-40)
  obtain ⟨-, -, -, -, -, hvisible, -⟩ :=
    div_eq_ok_iff (ofReal 1.0) (ofReal 1e-100)
  obtain ⟨-, -, -, -, -, -, hlifted, -⟩ :=
    div_eq_ok_iff (ofReal 1.0) (ofReal 1e-200)
  obtain ⟨-, -, -, -, -, -, -, hsmall⟩ :=
    div_eq_ok_iff (ofReal 1.0) (ofReal 1e-300)
  exact ⟨hsecure (by decide +kernel),
    hvisible (by decide +kernel) (by decide +kernel),
    hlifted (by decide +kernel) (by decide +kernel),
    hsmall (by decide +kernel) (by decide +kernel)⟩

/-- Neither this divisor nor its squared length is zero. -/
theorem div_fails_without_lifting :
    (ofReal 1e-41).isZero = false
    ∧ ((ofReal 1e-41).squaredLength == 0.0) = false
    ∧ (ofReal 1.0).div (ofReal 1e-41) = .error .zeroDivision := by
  refine ⟨by decide +kernel, by decide +kernel, ?_⟩
  rw [div_eq_error_iff]
  decide +kernel

end Metrology.Quantity
