/-
The sizes of doubles. Every finite double is a whole number of the
smallest positive one, up to its sign. Sizes of products, and of sums that
cannot cancel, are those of the operands multiplied or added and then
rounded (`size_mul`, `size_add`), so they grow with the operands
(`size_mul_mono`, `size_add_mono`). What is infinite or no number counts
as larger than all.

With that a question about all doubles on one side of a bound is answered
by computing with the bound.
-/
import Metrology.Proofs.Double.Sign

namespace Metrology.Double

open Float.Model (totalExponent Format UnpackedFloat)
open Float.Model.UnpackedFloat

-- ============================================================== products

/-- Nothing is left to round of a product with zero. -/
theorem magnitude_zero_mul (s : Sign) (f : UnpackedFloat) :
    nearest (magnitude (.zero s) * magnitude f) / 2 ^ 1074 = 0 := by
  have hzero : magnitude (.zero s) * magnitude f = 0 := Nat.zero_mul _
  rw [hzero, nearest_of_dvd (dvd_zero _), Nat.zero_div]

/-- A product of zeros and finite numbers is the rounded product of their
magnitudes. -/
theorem mul_of_hasSign {s t : Sign} {f g : UnpackedFloat}
    (hf : Canonical f) (hg : Canonical g) (hs : HasSign s f)
    (ht : HasSign t g) :
    Canonical (mul Format.binary64 f g)
      ∧ HasSign (s * t) (mul Format.binary64 f g)
      ∧ magnitude (mul Format.binary64 f g)
        = nearest (magnitude f * magnitude g) / 2 ^ 1074 := by
  cases f with
  | infinity => cases hs
  | notANumber => cases hs
  | zero =>
      cases hs
      cases g with
      | infinity => cases ht
      | notANumber => cases ht
      | zero =>
          cases ht
          exact ⟨trivial, rfl, (magnitude_zero_mul ..).symm⟩
      | finite =>
          cases ht
          exact ⟨trivial, rfl, (magnitude_zero_mul ..).symm⟩
  | finite _ m₁ e₁ h₁ =>
      cases hs
      cases g with
      | infinity => cases ht
      | notANumber => cases ht
      | zero =>
          cases ht
          rw [Nat.mul_comm (magnitude _)]
          exact ⟨trivial, rfl, (magnitude_zero_mul ..).symm⟩
      | finite _ m₂ e₂ h₂ =>
          cases ht
          obtain ⟨-, he₁, hlow₁⟩ := hf
          obtain ⟨-, he₂, hlow₂⟩ := hg
          have hm : 0 < m₁ * m₂ := Nat.mul_pos h₁ h₂
          have he : -2148 ≤ e₁ + e₂ := by omega
          -- one factor has 53 bits, or both end with the smallest double;
          -- either way the exact product has bits to spare
          have htarget : e₁ + e₂ ≤ Format.binary64.targetExponent
              (totalExponent (m₁ * m₂) (e₁ + e₂)) := by
            have hlog : 2 ^ 52 ≤ m₁ * m₂ → 52 ≤ (m₁ * m₂).log2 :=
              (Nat.le_log2 (Nat.ne_of_gt hm)).mpr
            rw [targetExponent_eq]
            rcases hlow₁ with hlow₁ | rfl
            · have hle := hlog (Nat.le_trans hlow₁
                (Nat.le_mul_of_pos_right _ h₂))
              omega
            rcases hlow₂ with hlow₂ | rfl
            · have hle := hlog (Nat.le_trans hlow₂
                (Nat.le_mul_of_pos_left _ h₁))
              omega
            omega
          have hproduct : magnitude (.finite s m₁ e₁ h₁)
              * magnitude (.finite t m₂ e₂ h₂)
                = m₁ * m₂ * 2 ^ (e₁ + e₂ + 2148).toNat := by
            have hsum : (e₁ + e₂ + 2148).toNat
                = (e₁ + 1074).toNat + (e₂ + 1074).toNat := by omega
            rw [hsum, pow_add]
            exact Nat.mul_mul_mul_comm ..
          rw [hproduct]
          exact roundWithAccuracy_spec (s * t) hm he htarget

/-- A product with a factor that is infinite or no number is such itself.
-/
theorem mul_of_not_hasSign {f g : UnpackedFloat}
    (h : (∀ s, ¬ HasSign s f) ∨ ∀ s, ¬ HasSign s g) :
    mul Format.binary64 f g = .notANumber
      ∨ ∃ s, mul Format.binary64 f g = .infinity s := by
  cases f with
  | notANumber => exact .inl rfl
  | infinity =>
      cases g with
      | notANumber => exact .inl rfl
      | infinity => exact .inr ⟨_, rfl⟩
      | zero => exact .inl rfl
      | finite => exact .inr ⟨_, rfl⟩
  | zero s =>
      have hg := h.resolve_left fun hf => hf s rfl
      cases g with
      | notANumber => exact .inl rfl
      | infinity => exact .inl rfl
      | zero t => exact absurd rfl (hg t)
      | finite t => exact absurd rfl (hg t)
  | finite s =>
      have hg := h.resolve_left fun hf => hf s rfl
      cases g with
      | notANumber => exact .inl rfl
      | infinity => exact .inr ⟨_, rfl⟩
      | zero t => exact absurd rfl (hg t)
      | finite t => exact absurd rfl (hg t)

-- ================================================================== sums

/-- A mantissa is lengthened where that is needed before it is rounded. -/
theorem round_spec (s : Sign) {m : ℕ} {e : ℤ} (hm : 0 < m)
    (he : -1074 ≤ e) :
    Canonical (round Format.binary64 s m e)
      ∧ HasSign s (round Format.binary64 s m e)
      ∧ magnitude (round Format.binary64 s m e)
        = nearest (m * 2 ^ (e + 2148).toNat) / 2 ^ 1074 := by
  obtain ⟨k, hk⟩ : ∃ k : ℕ, (e - Format.binary64.targetExponent
      (totalExponent m e)).toNat = k := ⟨_, rfl⟩
  have hround : round Format.binary64 s m e
      = roundWithAccuracy Format.binary64 s (m * 2 ^ k) (e - k) .exact := by
    rw [← hk, ← Nat.shiftLeft_eq]
    rfl
  have hlog := log2_mul_two_pow (Nat.ne_of_gt hm) k
  rw [targetExponent_eq] at hk
  have htarget : e - k ≤ Format.binary64.targetExponent
      (totalExponent (m * 2 ^ k) (e - k)) := by
    rw [targetExponent_eq, hlog]
    omega
  have hscale : m * 2 ^ k * 2 ^ (e - k + 2148).toNat
      = m * 2 ^ (e + 2148).toNat := by
    have hsum : (e + 2148).toNat = k + (e - k + 2148).toNat := by omega
    rw [hsum, pow_add, Nat.mul_assoc]
  rw [hround, ← hscale]
  exact roundWithAccuracy_spec s (by positivity) (by omega) htarget

/-- Doubles are their own nearest ones. -/
theorem nearest_magnitude {s : Sign} {f : UnpackedFloat} (hf : Canonical f)
    (hs : HasSign s f) :
    nearest (magnitude f * 2 ^ 1074) / 2 ^ 1074 = magnitude f := by
  suffices hdvd : 2 ^ grain (magnitude f * 2 ^ 1074)
      ∣ magnitude f * 2 ^ 1074 by
    rw [nearest_of_dvd hdvd, Nat.mul_div_cancel _ (by positivity)]
  cases f with
  | infinity => cases hs
  | notANumber => cases hs
  | zero => exact (Nat.zero_mul (2 ^ 1074)).symm ▸ dvd_zero _
  | finite _ m e hm =>
      obtain ⟨hhigh, he, -⟩ := hf
      have hscale : magnitude (.finite s m e hm) * 2 ^ 1074
          = m * 2 ^ (e + 2148).toNat := by
        have hsum : (e + 2148).toNat = (e + 1074).toNat + 1074 := by omega
        rw [hsum, pow_add, ← Nat.mul_assoc]
        rfl
      have hlog := log2_mul_two_pow (Nat.ne_of_gt hm) (e + 2148).toNat
      have hfit := (Nat.log2_lt (Nat.ne_of_gt hm)).mpr hhigh
      cases hs
      rw [hscale]
      refine Dvd.dvd.mul_left (pow_dvd_pow 2 ?_) m
      rw [grain, hlog]
      omega

/-- Two positive numbers add up before the sum is rounded. -/
theorem add_finite {m₁ m₂ : ℕ} {e₁ e₂ : ℤ} (h₁ : 0 < m₁) (h₂ : 0 < m₂)
    (he₁ : -1074 ≤ e₁) (he₂ : -1074 ≤ e₂) :
    ∃ m e, 0 < m ∧ -1074 ≤ e
      ∧ add Format.binary64 (.finite .positive m₁ e₁ h₁)
          (.finite .positive m₂ e₂ h₂) = round Format.binary64 .positive m e
      ∧ m * 2 ^ (e + 2148).toNat
        = (m₁ * 2 ^ (e₁ + 1074).toNat + m₂ * 2 ^ (e₂ + 1074).toNat)
          * 2 ^ 1074 := by
  obtain ⟨j, hj⟩ : ∃ j : ℕ, (e₁ - min e₁ e₂).toNat = j := ⟨_, rfl⟩
  obtain ⟨k, hk⟩ : ∃ k : ℕ, (e₂ - min e₁ e₂).toNat = k := ⟨_, rfl⟩
  refine ⟨m₁ * 2 ^ j + m₂ * 2 ^ k, min e₁ e₂, by positivity, by omega, ?_, ?_⟩
  · have hadd : add Format.binary64 (.finite .positive m₁ e₁ h₁)
          (.finite .positive m₂ e₂ h₂)
        = UnpackedFloat.normalize Format.binary64
          (((m₁ * 2 ^ j : ℕ) : ℤ) + ((m₂ * 2 ^ k : ℕ) : ℤ)) (min e₁ e₂)
          .positive := by
      rw [← hj, ← hk, ← Nat.shiftLeft_eq, ← Nat.shiftLeft_eq]
      rfl
    have hpos : compare (((m₁ * 2 ^ j + m₂ * 2 ^ k : ℕ) : ℤ)) 0 = .gt := by
      rw [compare_gt_iff_gt]
      positivity
    rw [hadd, ← Int.natCast_add, UnpackedFloat.normalize, hpos]
    rfl
  · have h₁ : (e₁ + 1074).toNat + 1074 = j + (min e₁ e₂ + 2148).toNat := by
      omega
    have h₂ : (e₂ + 1074).toNat + 1074 = k + (min e₁ e₂ + 2148).toNat := by
      omega
    rw [Nat.add_mul, Nat.add_mul, Nat.mul_assoc, Nat.mul_assoc, Nat.mul_assoc,
      Nat.mul_assoc, ← pow_add, ← pow_add, ← pow_add, ← pow_add, h₁, h₂]

/-- A sum of numbers that are not negative. -/
theorem add_of_hasSign {s t : Sign} {f g : UnpackedFloat}
    (hf : Canonical f) (hg : Canonical g) (hs : HasSign s f)
    (ht : HasSign t g) (hf' : NotNegative f) (hg' : NotNegative g) :
    Canonical (add Format.binary64 f g)
      ∧ (∃ r, HasSign r (add Format.binary64 f g))
      ∧ magnitude (add Format.binary64 f g)
        = nearest ((magnitude f + magnitude g) * 2 ^ 1074) / 2 ^ 1074 := by
  cases f with
  | infinity => cases hs
  | notANumber => cases hs
  | zero =>
      have hsum : magnitude (.zero s) + magnitude g = magnitude g :=
        Nat.zero_add _
      cases hs
      rw [hsum, nearest_magnitude hg ht]
      cases g with
      | infinity => cases ht
      | notANumber => cases ht
      | zero =>
          -- zeros of opposite signs have a sum of their own
          cases ht
          cases s with
          | positive =>
              cases t with
              | positive => exact ⟨trivial, ⟨.positive, rfl⟩, rfl⟩
              | negative => exact ⟨trivial, ⟨.positive, rfl⟩, rfl⟩
          | negative =>
              cases t with
              | positive => exact ⟨trivial, ⟨.positive, rfl⟩, rfl⟩
              | negative => exact ⟨trivial, ⟨.negative, rfl⟩, rfl⟩
      | finite =>
          cases ht
          exact ⟨hg, ⟨_, rfl⟩, rfl⟩
  | finite _ m₁ e₁ h₁ =>
      cases g with
      | infinity => cases ht
      | notANumber => cases ht
      | zero =>
          have hsum : magnitude (.finite s m₁ e₁ h₁) + magnitude (.zero t)
              = magnitude (.finite s m₁ e₁ h₁) := Nat.add_zero _
          cases hs
          cases ht
          rw [hsum, nearest_magnitude hf rfl]
          exact ⟨hf, ⟨_, rfl⟩, rfl⟩
      | finite _ m₂ e₂ h₂ =>
          cases hf'
          cases hg'
          obtain ⟨m, e, hm, he, hadd, hsum⟩ := add_finite h₁ h₂ hf.2.1 hg.2.1
          obtain ⟨hcanonical, hsign, hmagnitude⟩ := round_spec .positive hm he
          rw [hadd, hmagnitude, hsum]
          exact ⟨hcanonical, ⟨_, hsign⟩, rfl⟩

/-- A sum with a term that is infinite or no number is such itself. -/
theorem add_of_not_hasSign {f g : UnpackedFloat}
    (hf : NotNegative f) (hg : NotNegative g)
    (h : (∀ s, ¬ HasSign s f) ∨ ∀ s, ¬ HasSign s g) :
    add Format.binary64 f g = .notANumber
      ∨ add Format.binary64 f g = .infinity .positive := by
  cases f with
  | notANumber => exact .inl rfl
  | infinity =>
      cases hf
      cases g with
      | notANumber => exact .inl rfl
      | infinity => cases hg; exact .inr rfl
      | zero => exact .inr rfl
      | finite => exact .inr rfl
  | zero s =>
      have hbeyond := h.resolve_left fun hf => hf s rfl
      cases g with
      | notANumber => exact .inl rfl
      | infinity => cases hg; exact .inr rfl
      | zero t => exact absurd rfl (hbeyond t)
      | finite t => exact absurd rfl (hbeyond t)
  | finite s =>
      have hbeyond := h.resolve_left fun hf => hf s rfl
      cases g with
      | notANumber => exact .inl rfl
      | infinity => cases hg; exact .inr rfl
      | zero t => exact absurd rfl (hbeyond t)
      | finite t => exact absurd rfl (hbeyond t)

-- =============================================================== doubles

/-- The size of a double, counted in the smallest positive one. -/
def size (x : Float) : ℕ := magnitude x.toModel.unpack

/-- Zero has no size. -/
@[simp] theorem size_zero : size 0.0 = 0 := rfl

/-- A double that is unpacked has as many bits as there can be. -/
theorem canonical (x : Float) : Canonical x.toModel.unpack :=
  (unpack_spec _).1

/-- Zeros and finite doubles are those with a size. -/
theorem size_lt_unbounded_iff (x : Float) :
    size x < unbounded ↔ ∃ s, HasSign s x.toModel.unpack := by
  constructor
  · intro h
    unfold size at h
    cases hx : x.toModel.unpack with
    | infinity => rw [hx] at h; exact absurd h (Nat.lt_irrefl _)
    | notANumber => rw [hx] at h; exact absurd h (Nat.lt_irrefl _)
    | zero s => exact ⟨s, rfl⟩
    | finite s => exact ⟨s, rfl⟩
  · rintro ⟨s, hs⟩
    exact (unpack_spec _).2 s hs

/-- Packing cuts the size off at what has no bound. -/
theorem magnitude_pack {s : Sign} {f : UnpackedFloat} (hf : Canonical f)
    (hs : HasSign s f) :
    magnitude (unpack Format.binary64 (pack Format.binary64 f))
      = min unbounded (magnitude f) := by
  rcases unpack_pack hf hs with ⟨heq, hlt⟩ | ⟨heq, hle⟩
  · rw [heq, min_eq_right (Nat.le_of_lt hlt)]
  · rw [heq, min_eq_left hle]
    rfl

/-- One of two doubles is infinite or no number. -/
theorem not_hasSign_or {x y : Float}
    (h : ¬ (size x < unbounded ∧ size y < unbounded)) :
    (∀ s, ¬ HasSign s x.toModel.unpack)
      ∨ ∀ s, ¬ HasSign s y.toModel.unpack := by
  rw [size_lt_unbounded_iff, size_lt_unbounded_iff, not_and_or, not_exists,
    not_exists] at h
  exact h

/-- The size of a result whose exact value is a number of finest units,
from operands of two sizes. -/
def resultSize (a b n : ℕ) : ℕ :=
  if a < unbounded ∧ b < unbounded then min unbounded (nearest n / 2 ^ 1074)
  else unbounded

/-- Larger operands with a larger exact result have a larger one. -/
theorem resultSize_mono {a b n a' b' n' : ℕ} (ha : a ≤ a') (hb : b ≤ b')
    (hn : n ≤ n') : resultSize a b n ≤ resultSize a' b' n' := by
  unfold resultSize
  by_cases h : a' < unbounded ∧ b' < unbounded
  · rw [if_pos h, if_pos ⟨by omega, by omega⟩]
    exact min_le_min_left _ (Nat.div_le_div_right (nearest_mono hn))
  · rw [if_neg h]
    split
    · exact min_le_left _ _
    · exact Nat.le_refl _

/-- The size of a product is the product of the sizes, rounded. -/
theorem size_mul (x y : Float) :
    size (x * y) = resultSize (size x) (size y) (size x * size y) := by
  have hsize : size (x * y) = magnitude (unpack Format.binary64
      (pack Format.binary64 (mul Format.binary64 x.toModel.unpack
        y.toModel.unpack))) := rfl
  rw [hsize]
  by_cases h : size x < unbounded ∧ size y < unbounded
  · obtain ⟨s, hs⟩ := (size_lt_unbounded_iff x).mp h.1
    obtain ⟨t, ht⟩ := (size_lt_unbounded_iff y).mp h.2
    obtain ⟨hcanonical, hsign, hmagnitude⟩ := mul_of_hasSign
      (canonical x) (canonical y) hs ht
    rw [resultSize, if_pos h, magnitude_pack hcanonical hsign, hmagnitude]
    rfl
  · rw [resultSize, if_neg h]
    rcases mul_of_not_hasSign (not_hasSign_or h) with heq | ⟨s, heq⟩
    · rw [heq, unpack_pack_notANumber]
      rfl
    · rw [heq, unpack_pack_infinity]
      rfl

/-- A product with zero is zero, if the other factor has a size. -/
theorem size_mul_zero {x z : Float} (hx : size x < unbounded)
    (hz : size z = 0) : size (x * z) = 0 := by
  rw [size_mul, hz, Nat.mul_zero, resultSize, if_pos ⟨hx, unbounded_pos⟩,
    nearest_of_dvd (dvd_zero _), Nat.zero_div, Nat.min_zero]

/-- The size of a sum without cancellation is the sum of the sizes,
rounded. -/
theorem size_add {x y : Float} (hx : AtLeastZero x) (hy : AtLeastZero y) :
    size (x + y) = resultSize (size x) (size y)
      ((size x + size y) * 2 ^ 1074) := by
  have hsize : size (x + y) = magnitude (unpack Format.binary64
      (pack Format.binary64 (add Format.binary64 x.toModel.unpack
        y.toModel.unpack))) := rfl
  rw [hsize]
  by_cases h : size x < unbounded ∧ size y < unbounded
  · obtain ⟨s, hs⟩ := (size_lt_unbounded_iff x).mp h.1
    obtain ⟨t, ht⟩ := (size_lt_unbounded_iff y).mp h.2
    obtain ⟨hcanonical, ⟨r, hsign⟩, hmagnitude⟩ := add_of_hasSign
      (canonical x) (canonical y) hs ht hx hy
    rw [resultSize, if_pos h, magnitude_pack hcanonical hsign, hmagnitude]
    rfl
  · rw [resultSize, if_neg h]
    rcases add_of_not_hasSign hx hy (not_hasSign_or h) with heq | heq
    · rw [heq, unpack_pack_notANumber]
      rfl
    · rw [heq, unpack_pack_infinity]
      rfl

/-- The order of two terms does not matter. -/
theorem size_add_comm {x y : Float} (hx : AtLeastZero x)
    (hy : AtLeastZero y) : size (x + y) = size (y + x) := by
  rw [size_add hx hy, size_add hy hx, Nat.add_comm (size y)]
  exact if_congr and_comm rfl rfl

/-- Larger factors have a larger product. -/
theorem size_mul_mono {x y z w : Float} (hx : size x ≤ size z)
    (hy : size y ≤ size w) : size (x * y) ≤ size (z * w) := by
  rw [size_mul, size_mul]
  exact resultSize_mono hx hy (Nat.mul_le_mul hx hy)

/-- Larger terms have a larger sum. -/
theorem size_add_mono {x y z w : Float} (hx' : AtLeastZero x)
    (hy' : AtLeastZero y) (hz' : AtLeastZero z) (hw' : AtLeastZero w)
    (hx : size x ≤ size z) (hy : size y ≤ size w) :
    size (x + y) ≤ size (z + w) := by
  rw [size_add hx' hy', size_add hz' hw']
  exact resultSize_mono hx hy (Nat.mul_le_mul_right _ (Nat.add_le_add hx hy))

-- =========================================================== comparisons

/-- Unpacked, only zeros have the magnitude zero. -/
theorem magnitude_eq_zero_iff (f : UnpackedFloat) :
    magnitude f = 0 ↔ ∃ s, f = .zero s := by
  cases f with
  | zero s => exact ⟨fun _ => ⟨s, rfl⟩, fun _ => rfl⟩
  | finite s m e hm =>
      have hpos : 0 < m * 2 ^ (e + 1074).toNat := by positivity
      exact ⟨fun h => absurd h (Nat.ne_of_gt hpos), fun ⟨_, h⟩ => nomatch h⟩
  | infinity =>
      exact ⟨fun h => absurd h (Nat.ne_of_gt unbounded_pos),
        fun ⟨_, h⟩ => nomatch h⟩
  | notANumber =>
      exact ⟨fun h => absurd h (Nat.ne_of_gt unbounded_pos),
        fun ⟨_, h⟩ => nomatch h⟩

/-- Only the zeros have the size zero. -/
theorem beq_zero_iff (x : Float) : (x == 0.0) = true ↔ size x = 0 := by
  have hbeq : (x == 0.0) = x.toModel.unpack.beq (.zero .positive) := rfl
  rw [hbeq, size, magnitude_eq_zero_iff]
  cases x.toModel.unpack with
  | notANumber => exact iff_of_false (nomatch ·) fun ⟨_, h⟩ => nomatch h
  | infinity s =>
      cases s with
      | positive => exact iff_of_false (nomatch ·) fun ⟨_, h⟩ => nomatch h
      | negative => exact iff_of_false (nomatch ·) fun ⟨_, h⟩ => nomatch h
  | zero s => exact ⟨fun _ => ⟨s, rfl⟩, fun _ => rfl⟩
  | finite s =>
      cases s with
      | positive => exact iff_of_false (nomatch ·) fun ⟨_, h⟩ => nomatch h
      | negative => exact iff_of_false (nomatch ·) fun ⟨_, h⟩ => nomatch h

/-- A larger exponent makes a larger number. -/
theorem magnitude_lt_of_exponent_lt {m₁ m₂ : ℕ} {e₁ e₂ : ℤ}
    (hm₁ : m₁ < 2 ^ 53) (he₁ : -1074 ≤ e₁)
    (hlow₂ : 2 ^ 52 ≤ m₂ ∨ e₂ = -1074) (h : e₁ < e₂) :
    m₁ * 2 ^ (e₁ + 1074).toNat < m₂ * 2 ^ (e₂ + 1074).toNat :=
  calc m₁ * 2 ^ (e₁ + 1074).toNat
      < 2 ^ 53 * 2 ^ (e₁ + 1074).toNat :=
        Nat.mul_lt_mul_of_pos_right hm₁ (by positivity)
    _ = 2 ^ (53 + (e₁ + 1074).toNat) := (pow_add 2 _ _).symm
    _ ≤ 2 ^ (52 + (e₂ + 1074).toNat) :=
        pow_le_pow_right₀ (by decide) (by omega)
    _ = 2 ^ 52 * 2 ^ (e₂ + 1074).toNat := pow_add 2 _ _
    _ ≤ m₂ * 2 ^ (e₂ + 1074).toNat :=
        Nat.mul_le_mul_right _ (hlow₂.resolve_right (by omega))

/-- Unpacked doubles that are not negative compare as their sizes do. -/
theorem compare_eq_lt_iff {f g : UnpackedFloat} (hf : Canonical f)
    (hg : Canonical g) (hf' : NotNegative f) (hg' : NotNegative g)
    (hbounded : magnitude g < unbounded) :
    f.compare g = some .lt ↔ magnitude f < magnitude g := by
  cases g with
  | infinity => exact absurd hbounded (Nat.lt_irrefl _)
  | notANumber => exact absurd hbounded (Nat.lt_irrefl _)
  | zero t =>
      have hnot : ¬ magnitude f < magnitude (.zero t) := Nat.not_lt_zero _
      refine ⟨fun h => ?_, fun h => absurd h hnot⟩
      cases f with
      | infinity => cases hf'; cases h
      | notANumber => cases h
      | zero => cases h
      | finite => cases hf'; cases h
  | finite t m₂ e₂ h₂ =>
      cases hg'
      cases f with
      | infinity =>
          cases hf'
          exact iff_of_false (nomatch ·) (Nat.lt_asymm hbounded)
      | notANumber =>
          exact iff_of_false (nomatch ·) (Nat.lt_asymm hbounded)
      | zero =>
          have hpos : 0 < m₂ * 2 ^ (e₂ + 1074).toNat := by positivity
          exact ⟨fun _ => hpos, fun _ => rfl⟩
      | finite s m₁ e₁ h₁ =>
          cases hf'
          obtain ⟨hhigh₁, he₁, hlow₁⟩ := hf
          obtain ⟨hhigh₂, he₂, hlow₂⟩ := hg
          show some ((compare e₁ e₂).then (compare m₁ m₂)) = some .lt
            ↔ m₁ * 2 ^ (e₁ + 1074).toNat < m₂ * 2 ^ (e₂ + 1074).toNat
          -- the exponents decide, and the mantissas if these are equal
          rcases lt_trichotomy e₁ e₂ with hlt | heq | hgt
          · rw [compare_lt_iff_lt.mpr hlt]
            exact ⟨fun _ => magnitude_lt_of_exponent_lt hhigh₁ he₁ hlow₂ hlt,
              fun _ => rfl⟩
          · subst heq
            rw [compare_eq_iff_eq.mpr rfl, Nat.mul_lt_mul_right (by positivity),
              ← compare_lt_iff_lt]
            exact Option.some_inj
          · have hmore := magnitude_lt_of_exponent_lt hhigh₂ he₂ hlow₁ hgt
            rw [compare_gt_iff_gt.mpr hgt]
            exact iff_of_false (nomatch ·) (Nat.lt_asymm hmore)

/-- Doubles that are not negative compare as their sizes do. -/
theorem lt_iff_size_lt {x y : Float} (hx : AtLeastZero x)
    (hy : AtLeastZero y) (hbounded : size y < unbounded) :
    x < y ↔ size x < size y := by
  rw [lt_iff_compare]
  exact compare_eq_lt_iff (canonical x) (canonical y) hx hy hbounded

/-- Between a double and the one before it there is no other. -/
theorem size_le_of_lt {x : Float} {m : ℕ} {e : ℤ} (hlow : 2 ^ 52 < m)
    (hhigh : m < 2 ^ 53) (he : -1074 ≤ e) (hmax : e ≤ 971)
    (h : size x < m * 2 ^ (e + 1074).toNat) :
    size x ≤ (m - 1) * 2 ^ (e + 1074).toNat := by
  obtain ⟨s, hs⟩ := (size_lt_unbounded_iff x).mp
    (Nat.lt_trans h (lt_unbounded hhigh hmax))
  have hx := canonical x
  unfold size at h ⊢
  cases hf : x.toModel.unpack with
  | infinity => rw [hf] at hs; cases hs
  | notANumber => rw [hf] at hs; cases hs
  | zero => exact Nat.zero_le _
  | finite t n i hn =>
      rw [hf] at hx h
      obtain ⟨hnhigh, hi, -⟩ := hx
      show n * 2 ^ (i + 1074).toNat ≤ _
      rcases lt_or_ge i e with hlt | hge
      · exact Nat.le_of_lt (magnitude_lt_of_exponent_lt hnhigh hi
          (.inl (by omega)) hlt)
      · -- both are multiples of the last place of the bound
        obtain ⟨k, hk⟩ : ∃ k : ℕ, (i + 1074).toNat = k + (e + 1074).toNat :=
          ⟨(i - e).toNat, by omega⟩
        have hscale : n * 2 ^ (i + 1074).toNat
            = n * 2 ^ k * 2 ^ (e + 1074).toNat := by
          rw [hk, pow_add, Nat.mul_assoc]
        have hlt : n * 2 ^ k * 2 ^ (e + 1074).toNat
            < m * 2 ^ (e + 1074).toNat := hscale ▸ h
        have hless : n * 2 ^ k < m := Nat.lt_of_mul_lt_mul_right hlt
        rw [hscale]
        exact Nat.mul_le_mul_right _ (by omega)

-- ============================================= magnitudes and added zeros

/-- A double that was unpacked is packed again as it was. -/
@[simp] theorem unpack_pack_self (x : Float) :
    unpack Format.binary64 (pack Format.binary64 x.toModel.unpack)
      = x.toModel.unpack :=
  congrArg (unpack Format.binary64) (pack_unpack_of_valid x.toModel.valid)

/-- Zeros are packed as zeros. -/
@[simp] theorem magnitude_pack_zero (s : Sign) :
    magnitude (unpack Format.binary64 (pack Format.binary64 (.zero s))) = 0 :=
  congrArg magnitude unpack_packedZero

/-- A result that is the operand itself, or some zero where the operand is
one, has the size of the operand. -/
theorem magnitude_pack_of_same {x : Float} {f : UnpackedFloat}
    (h : f = x.toModel.unpack ∨ size x = 0 ∧ ∃ s, f = .zero s) :
    magnitude (unpack Format.binary64 (pack Format.binary64 f))
      = size x := by
  rcases h with rfl | ⟨hx, s, rfl⟩
  · exact congrArg magnitude (unpack_pack_self x)
  · exact (magnitude_pack_zero s).trans hx.symm

/-- Subtracting zero changes at most the sign of a zero. -/
theorem size_sub_zero {x z : Float} (hz : size z = 0) :
    size (x - z) = size x := by
  obtain ⟨t, ht⟩ := (magnitude_eq_zero_iff _).mp hz
  refine magnitude_pack_of_same
    (f := sub Format.binary64 x.toModel.unpack z.toModel.unpack) ?_
  rw [ht, size]
  cases x.toModel.unpack with
  | infinity => exact .inl rfl
  | notANumber => exact .inl rfl
  | finite => exact .inl rfl
  | zero s =>
      rw [sub]
      split
      · exact .inr ⟨rfl, _, rfl⟩
      · exact .inr ⟨rfl, _, rfl⟩

/-- Adding to zero likewise. -/
theorem size_zero_add {z y : Float} (hz : size z = 0) :
    size (z + y) = size y := by
  obtain ⟨t, ht⟩ := (magnitude_eq_zero_iff _).mp hz
  refine magnitude_pack_of_same
    (f := add Format.binary64 z.toModel.unpack y.toModel.unpack) ?_
  rw [ht, size]
  cases y.toModel.unpack with
  | infinity => exact .inl rfl
  | notANumber => exact .inl rfl
  | finite => exact .inl rfl
  | zero s =>
      rw [add]
      split
      · exact .inr ⟨rfl, _, rfl⟩
      · exact .inr ⟨rfl, _, rfl⟩

/-- The absolute value has the size of the double, and is not negative. -/
theorem size_abs (x : Float) : AtLeastZero x.abs ∧ size x.abs = size x := by
  have hx := canonical x
  show NotNegative (unpack Format.binary64 (pack Format.binary64
      x.toModel.unpack.abs))
    ∧ magnitude (unpack Format.binary64 (pack Format.binary64
      x.toModel.unpack.abs)) = magnitude x.toModel.unpack
  cases hf : x.toModel.unpack with
  | infinity s =>
      rw [UnpackedFloat.abs, unpack_pack_infinity]
      exact ⟨rfl, rfl⟩
  | notANumber =>
      rw [UnpackedFloat.abs, unpack_pack_notANumber]
      exact ⟨trivial, rfl⟩
  | zero s =>
      have hzero : unpack Format.binary64 (pack Format.binary64
          (UnpackedFloat.zero s).abs) = .zero .positive := unpack_packedZero
      rw [hzero]
      exact ⟨trivial, rfl⟩
  | finite s m e hm =>
      rw [hf] at hx
      have habs : Canonical (.finite .positive m e hm) := hx
      have hlt : size x < unbounded :=
        (size_lt_unbounded_iff x).mpr ⟨s, by rw [hf]; rfl⟩
      rw [size, hf] at hlt
      rcases unpack_pack habs rfl with ⟨heq, -⟩ | ⟨-, hle⟩
      · rw [UnpackedFloat.abs, heq]
        exact ⟨rfl, rfl⟩
      · exact absurd hlt (Nat.not_lt_of_le hle)

end Metrology.Double
