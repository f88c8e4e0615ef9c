/-
Signs of doubles. What is not below zero is a zero of either sign, a
positive number, infinity, or no number at all (`atLeastZero_iff`). Such
doubles are closed under sums, products, quotients by what is no zero, and
roots; and squares are among them whatever they are squares of.

Neither rounding nor packing looks at the sign, so nothing has to be known
about either but that they hand it on (`notNegative_roundWithAccuracy`,
`notNegative_pack`). What is left is a table of signs for each operation.
-/
import Metrology.Proofs.Double.Rounding

namespace Metrology.Double

open Float.Model (Format UnpackedFloat)
open Float.Model.UnpackedFloat

-- ==================================================== unpacked doubles

/-- What is not negative: infinity, the numbers from zero up, and what is
no number. -/
def NotNegative : UnpackedFloat → Prop
  | .infinity s => s = .positive
  | .finite s _ _ _ => s = .positive
  | _ => True

instance : DecidablePred NotNegative
  | .infinity .positive => .isTrue rfl
  | .infinity .negative => .isFalse nofun
  | .finite .positive _ _ _ => .isTrue rfl
  | .finite .negative _ _ _ => .isFalse nofun
  | .zero _ => .isTrue trivial
  | .notANumber => .isTrue trivial

/-- Rounding keeps the sign, however exact the mantissa was. -/
theorem notNegative_roundWithAccuracy (m : ℕ) (e : ℤ) (a : Accuracy) :
    NotNegative (roundWithAccuracy Format.binary64 .positive m e a) := by
  unfold roundWithAccuracy
  dsimp only
  split
  · trivial
  · rfl

/-- What is not below zero is rounded to what is not, be it zero or not. -/
theorem notNegative_normalize {m : ℤ} (hm : 0 ≤ m) (e : ℤ) (s : Sign) :
    NotNegative (UnpackedFloat.normalize Format.binary64 m e s) := by
  unfold UnpackedFloat.normalize
  split
  · next hlt =>
    have := compare_lt_iff_lt.mp hlt
    omega
  · trivial
  · exact notNegative_roundWithAccuracy ..

/-- Bits with a positive sign are those of what is not negative. -/
theorem notNegative_unpack_packComponents
    (exponent : BitVec Format.binary64.exponentBits)
    (mantissa : BitVec Format.binary64.mantissaBitsWithoutImplicit) :
    NotNegative (unpack Format.binary64
      (packComponents Format.binary64 .positive exponent mantissa)) := by
  unfold unpack
  simp only [unpackSign_packComponents, Sign.ofBitVec_toBitVec]
  split
  · split
    · rfl
    · trivial
  · split
    · split
      · trivial
      · rfl
    · rfl

/-- Packing keeps the sign, also of what does not fit. -/
theorem notNegative_pack {f : UnpackedFloat} (hf : NotNegative f) :
    NotNegative (unpack Format.binary64 (pack Format.binary64 f)) := by
  cases f with
  | notANumber => rw [unpack_pack_notANumber]; trivial
  | infinity s => rw [unpack_pack_infinity]; exact hf
  | zero s =>
      have hzero : unpack Format.binary64 (pack Format.binary64 (.zero s))
          = .zero s := unpack_packedZero
      rw [hzero]
      trivial
  | finite s m e hm =>
      cases hf
      unfold pack
      dsimp only
      split
      · exact notNegative_unpack_packComponents _ _
      · split
        · exact notNegative_unpack_packComponents _ _
        · exact notNegative_unpack_packComponents _ _

-- ========================================================== operations

/-- A sum. -/
theorem notNegative_add {f g : UnpackedFloat} (hf : NotNegative f)
    (hg : NotNegative g) : NotNegative (add Format.binary64 f g) := by
  cases f with
  | notANumber => trivial
  | infinity s =>
      cases hf
      cases g with
      | infinity t => cases hg; rfl
      | notANumber => trivial
      | zero => rfl
      | finite => rfl
  | zero s =>
      cases g with
      | zero t =>
          rw [add]
          split
          · trivial
          · trivial
      | infinity => exact hg
      | notANumber => trivial
      | finite => exact hg
  | finite s m₁ e₁ =>
      cases hf
      cases g with
      | finite t m₂ e₂ =>
          cases hg
          refine notNegative_normalize ?_ _ _
          exact Int.add_nonneg (Int.natCast_nonneg _) (Int.natCast_nonneg _)
      | infinity => exact hg
      | notANumber => trivial
      | zero => rfl

/-- A product. -/
theorem notNegative_mul {f g : UnpackedFloat} (hf : NotNegative f)
    (hg : NotNegative g) : NotNegative (mul Format.binary64 f g) := by
  cases f with
  | notANumber => trivial
  | infinity s =>
      cases hf
      cases g with
      | infinity => cases hg; rfl
      | finite => cases hg; rfl
      | notANumber => trivial
      | zero => trivial
  | zero s =>
      cases g with
      | notANumber | infinity | zero | finite => trivial
  | finite s =>
      cases hf
      cases g with
      | finite => cases hg; exact notNegative_roundWithAccuracy ..
      | infinity => cases hg; rfl
      | notANumber => trivial
      | zero => trivial

/-- Signs cancel in a square. -/
@[simp] theorem sign_mul_self (s : Sign) : s * s = .positive := by
  cases s with
  | positive => rfl
  | negative => rfl

/-- A square, of whatever it may be. -/
theorem notNegative_mul_self (f : UnpackedFloat) :
    NotNegative (mul Format.binary64 f f) := by
  cases f with
  | notANumber => trivial
  | infinity s => exact sign_mul_self s
  | zero s => trivial
  | finite s m e =>
      -- the mantissa and exponent of the square do not matter
      show NotNegative (roundWithAccuracy Format.binary64 (s * s) _ _ _)
      rw [sign_mul_self]
      exact notNegative_roundWithAccuracy ..

/-- A divisor of zero has a sign of its own, which may turn the sign of
the quotient. -/
theorem notNegative_div {f g : UnpackedFloat} (hf : NotNegative f)
    (hg : NotNegative g) (hzero : ∀ s, g ≠ .zero s) :
    NotNegative (div Format.binary64 f g) := by
  cases g with
  | zero s => exact absurd rfl (hzero s)
  | notANumber =>
      cases f with
      | notANumber | infinity | zero | finite => trivial
  | infinity s =>
      cases f with
      | notANumber | infinity | zero | finite => trivial
  | finite s =>
      cases hg
      cases f with
      | notANumber => trivial
      | infinity => cases hf; rfl
      | zero => trivial
      | finite => cases hf; exact notNegative_roundWithAccuracy ..

/-- What is below zero has no root, and no number is not negative. -/
theorem notNegative_sqrt (f : UnpackedFloat) :
    NotNegative (UnpackedFloat.sqrt Format.binary64 f) := by
  cases f with
  | notANumber => trivial
  | zero s => trivial
  | infinity s =>
      cases s with
      | positive => rfl
      | negative => trivial
  | finite s =>
      cases s with
      | positive => exact notNegative_roundWithAccuracy ..
      | negative => trivial

-- ============================================================= doubles

/-- The double is not below zero, or it is no number. -/
def AtLeastZero (x : Float) : Prop := NotNegative x.toModel.unpack

instance (x : Float) : Decidable (AtLeastZero x) :=
  inferInstanceAs (Decidable (NotNegative _))

/-- Doubles compare as they do unpacked. -/
theorem lt_iff_compare (x y : Float) :
    x < y ↔ x.toModel.unpack.compare y.toModel.unpack = some .lt := by
  show x.lt y = true ↔ _
  rw [Float.lt, decide_eq_true_iff]
  exact beq_iff_eq

/-- What is not below zero, as programs compare. -/
theorem atLeastZero_iff (x : Float) : AtLeastZero x ↔ ¬ x < 0.0 := by
  have hlt : x < 0.0
      ↔ x.toModel.unpack.compare (.zero .positive) = some .lt :=
    lt_iff_compare x 0.0
  rw [hlt, AtLeastZero]
  cases x.toModel.unpack with
  | notANumber => exact iff_of_true trivial nofun
  | zero s => exact iff_of_true trivial nofun
  | infinity s =>
      cases s with
      | positive => exact iff_of_true rfl nofun
      | negative => exact iff_of_false nofun fun h => h rfl
  | finite s =>
      cases s with
      | positive => exact iff_of_true rfl nofun
      | negative => exact iff_of_false nofun fun h => h rfl

/-- Zero is not below itself. -/
theorem atLeastZero_zero : AtLeastZero 0.0 := trivial

/-- Sums are not below zero if their terms are not. -/
theorem atLeastZero_add {x y : Float} (hx : AtLeastZero x)
    (hy : AtLeastZero y) : AtLeastZero (x + y) :=
  notNegative_pack (notNegative_add hx hy)

/-- Products are not if their factors are not. -/
theorem atLeastZero_mul {x y : Float} (hx : AtLeastZero x)
    (hy : AtLeastZero y) : AtLeastZero (x * y) :=
  notNegative_pack (notNegative_mul hx hy)

/-- Squares are not negative. -/
theorem atLeastZero_mul_self (x : Float) : AtLeastZero (x * x) :=
  notNegative_pack (notNegative_mul_self _)

/-- No root is below zero. -/
theorem atLeastZero_sqrt (x : Float) : AtLeastZero x.sqrt :=
  notNegative_pack (notNegative_sqrt _)

/-- Quotients are not, unless the divisor is a zero. -/
theorem atLeastZero_div {x y : Float} (hx : AtLeastZero x)
    (hy : AtLeastZero y) (hzero : (y == 0.0) = false) :
    AtLeastZero (x / y) := by
  refine notNegative_pack (notNegative_div hx hy fun s hs => ?_)
  have hbeq : (y == 0.0) = y.toModel.unpack.beq (.zero .positive) := rfl
  rw [hbeq, hs] at hzero
  cases hzero

/-- Unless it is zero, such a double is not down to zero either. -/
theorem not_le_zero {x : Float} (hx : AtLeastZero x)
    (hzero : (x == 0.0) = false) : ¬ x ≤ 0.0 := by
  have hbeq : (x == 0.0) = x.toModel.unpack.beq (.zero .positive) := rfl
  have hle : x ≤ 0.0 ↔ x.toModel.unpack.le (.zero .positive) = true := by
    show x.le 0.0 = true ↔ _
    rw [Float.le, decide_eq_true_iff]
    rfl
  rw [hbeq] at hzero
  rw [hle]
  unfold AtLeastZero at hx
  cases hf : x.toModel.unpack with
  | notANumber => nofun
  | zero s => rw [hf] at hzero; cases hzero
  | infinity s => rw [hf] at hx; cases hx; nofun
  | finite s => rw [hf] at hx; cases hx; nofun

end Metrology.Double
