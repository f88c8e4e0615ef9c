/-
Rounding as doubles do it. A result is computed exactly, as a mantissa
and an exponent; the mantissa is shifted to the right until it fits, with
two bits that tell how the rest compares to a half, and then rounded and
packed. That is rounding to the nearest double (`roundWithAccuracy_spec`),
a carry included, and packing what was rounded keeps it unless it is too
large (`unpack_pack`).
-/
import Mathlib
import Metrology.Proofs.Double.Nearest

namespace Metrology.Double

open Metrology.Numeral (roundDiv)
open Float.Model (totalExponent Format UnpackedFloat)
open Float.Model.UnpackedFloat

-- ============================================================== shifting

/-- What is left of a number shifted to the right: the quotient, whether
the remainder reaches a half, and whether it is more than a half or more
than nothing. -/
structure Shifted (em : ExtendedMantissa) (n k : ℕ) : Prop where
  mantissa : em.mantissa = n / 2 ^ k
  roundBit : em.roundBit = true ↔ 2 ^ k ≤ 2 * (n % 2 ^ k)
  stickyBit : em.stickyBit = true ↔ 2 * (n % 2 ^ k) % 2 ^ k ≠ 0

/-- Shifting bit by bit is dividing: the last bit that went out is the half,
and the others are gathered in one. -/
theorem shifted_shiftRight (n k : ℕ) :
    Shifted (ExtendedMantissa.ofMantissaAndAccuracy n .exact >>> k) n k := by
  induction k with
  | zero =>
      refine ⟨(Nat.div_one n).symm, ?_, ?_⟩
      · simp [HShiftRight.hShiftRight, Nat.repeat,
          ExtendedMantissa.ofMantissaAndAccuracy, Nat.mod_one]
      · simp [HShiftRight.hShiftRight, Nat.repeat,
          ExtendedMantissa.ofMantissaAndAccuracy, Nat.mod_one]
  | succ k ih =>
      -- one bit more goes out: the half becomes part of the rest, and the
      -- last bit of the mantissa the half
      obtain ⟨hmantissa, hround, hsticky⟩ := ih
      have hlt : n % 2 ^ k < 2 ^ k := Nat.mod_lt n (by positivity)
      have hmod : n % 2 ^ (k + 1) = n % 2 ^ k + 2 ^ k * (n / 2 ^ k % 2) := by
        rw [pow_succ, Nat.mod_mul]
      have hdiv : n / 2 ^ (k + 1) = n / 2 ^ k / 2 := by
        rw [pow_succ, Nat.div_div_eq_div_mul]
      have hsmall : 2 * (n % 2 ^ k) < 2 ^ k →
          2 * (n % 2 ^ k) % 2 ^ k = 2 * (n % 2 ^ k) := Nat.mod_eq_of_lt
      show Shifted (ExtendedMantissa.shiftRightOne
        (ExtendedMantissa.ofMantissaAndAccuracy n .exact >>> k)) n (k + 1)
      generalize ExtendedMantissa.ofMantissaAndAccuracy n .exact >>> k = em
        at hmantissa hround hsticky
      have hdouble : 2 * (n % 2 ^ (k + 1)) % 2 ^ (k + 1)
          = 2 * (n % 2 ^ k) := by
        rw [pow_succ', Nat.mul_mod_mul_left, ← pow_succ', hmod,
          Nat.add_mul_mod_self_left, Nat.mod_eq_of_lt hlt]
      refine ⟨?_, ?_, ?_⟩
      · rw [hdiv, ← hmantissa]
        rfl
      · rw [hmod, pow_succ, ← hmantissa]
        show (em.mantissa % 2 != 0) = true ↔ _
        rw [bne_iff_ne]
        rcases Nat.mod_two_eq_zero_or_one em.mantissa with hbit | hbit
        · rw [hbit]
          omega
        · rw [hbit]
          omega
      · rw [hdouble]
        show (em.roundBit || em.stickyBit) = true ↔ _
        rw [Bool.or_eq_true, hround, hsticky]
        omega

/-- Shifted bits decide as the remainder does. -/
theorem Shifted.roundedMantissa {em : ExtendedMantissa} {n k : ℕ}
    (h : Shifted em n k) : em.roundedMantissa = roundDiv n (2 ^ k) := by
  obtain ⟨hmantissa, hround, hsticky⟩ := h
  have hlt : n % 2 ^ k < 2 ^ k := Nat.mod_lt n (by positivity)
  obtain ⟨m, r, s⟩ := em
  simp only at hmantissa hround hsticky
  subst hmantissa
  unfold roundDiv
  dsimp only
  cases r with
  | false =>
      have hbelow : 2 * (n % 2 ^ k) < 2 ^ k := by simpa using hround
      rw [if_pos hbelow]
      cases s with
      | false => rfl
      | true => rfl
  | true =>
      have hreach : 2 ^ k ≤ 2 * (n % 2 ^ k) := hround.mp rfl
      rw [if_neg (by omega)]
      have hover : 2 * (n % 2 ^ k) % 2 ^ k = 2 * (n % 2 ^ k) - 2 ^ k := by
        rw [Nat.mod_eq_sub_mod hreach, Nat.mod_eq_of_lt (by omega)]
      rw [hover] at hsticky
      cases s with
      | false =>
          -- a tie goes to the even neighbour
          have htie : ¬ 2 ^ k < 2 * (n % 2 ^ k) := by
            have hle : ¬ (2 * (n % 2 ^ k) - 2 ^ k ≠ 0) := by
              simpa using hsticky
            omega
          rw [if_neg htie]
          show n / 2 ^ k + n / 2 ^ k % 2 = _
          split
          · omega
          · omega
      | true =>
          have hmore : 2 * (n % 2 ^ k) - 2 ^ k ≠ 0 := hsticky.mp rfl
          rw [if_pos (by omega)]
          rfl

-- ============================================================== rounding

/-- The size of what is infinite or no number: one more than that of the
largest double, were its last bit to carry over. -/
def unbounded : ℕ := 2 ^ 2098

/-- There is a size below it. -/
theorem unbounded_pos : 0 < unbounded := by
  unfold unbounded
  positivity

/-- The size of an unpacked double. -/
def magnitude : UnpackedFloat → ℕ
  | .zero _ => 0
  | .finite _ m e _ => m * 2 ^ (e + 1074).toNat
  | _ => unbounded

/-- As many bits as there can be: 53, or the last one is that of the
smallest double. -/
def Canonical : UnpackedFloat → Prop
  | .finite _ m e _ => m < 2 ^ 53 ∧ -1074 ≤ e ∧ (2 ^ 52 ≤ m ∨ e = -1074)
  | _ => True

/-- The sign of zeros and finite numbers. -/
def HasSign (s : Sign) : UnpackedFloat → Prop
  | .zero t => t = s
  | .finite t _ _ _ => t = s
  | _ => False

/-- The exponent of the last bit that is kept, 53 below the first or that of
the smallest double. -/
theorem targetExponent_eq (m : ℕ) (e : ℤ) :
    Format.binary64.targetExponent (totalExponent m e)
      = max ((m.log2 : ℤ) + 1 + e - 53) (-1074) := rfl

/-- A shift to the left makes a number longer. -/
theorem log2_mul_two_pow {n : ℕ} (hn : n ≠ 0) (j : ℕ) :
    (n * 2 ^ j).log2 = n.log2 + j := by
  have hne : n * 2 ^ j ≠ 0 := by positivity
  have hlow := Nat.mul_le_mul_right (2 ^ j) (Nat.log2_self_le hn)
  have hhigh : n * 2 ^ j < 2 ^ (n.log2 + 1) * 2 ^ j :=
    Nat.mul_lt_mul_of_pos_right Nat.lt_log2_self (by positivity)
  rw [← pow_add] at hlow hhigh
  have hle := (Nat.le_log2 hne).mpr hlow
  have hlt := (Nat.log2_lt hne).mpr hhigh
  omega

/-- What has at most 53 bits is left as it is. -/
theorem shiftToTargetExponent_of_lt {m : ℕ} {e : ℤ} (hm : m < 2 ^ 53)
    (he : -1074 ≤ e) :
    shiftToTargetExponent Format.binary64 m e .exact
      = (⟨m, false, false⟩, e) := by
  have hlog : m.log2 ≤ 52 := by
    rcases Nat.eq_zero_or_pos m with rfl | hpos
    · decide
    · have hlt := (Nat.log2_lt (by omega)).mpr hm
      omega
  have hshift : (Format.binary64.targetExponent (totalExponent m e)
      - e).toNat = 0 := by
    rw [targetExponent_eq]
    omega
  simp only [shiftToTargetExponent, shiftToExponent, hshift]
  simp [HShiftRight.hShiftRight, Nat.repeat,
    ExtendedMantissa.ofMantissaAndAccuracy]

/-- A carry into the next bit is shifted out. -/
theorem shiftToTargetExponent_carry {e : ℤ} (he : -1074 ≤ e) :
    shiftToTargetExponent Format.binary64 (2 ^ 53) e .exact
      = (⟨2 ^ 52, false, false⟩, e + 1) := by
  have hshift : (Format.binary64.targetExponent (totalExponent (2 ^ 53) e)
      - e).toNat = 1 := by
    rw [targetExponent_eq, Nat.log2_two_pow]
    omega
  simp only [shiftToTargetExponent, shiftToExponent, hshift]
  simp [HShiftRight.hShiftRight, Nat.repeat,
    ExtendedMantissa.ofMantissaAndAccuracy, ExtendedMantissa.shiftRightOne]

/-- The unpacked double with this mantissa and exponent. -/
def ofParts (s : Sign) (parts : ExtendedMantissa × ℤ) : UnpackedFloat :=
  if h : parts.1.mantissa = 0 then .zero s
  else .finite s parts.1.mantissa parts.2 (Nat.pos_of_ne_zero h)

/-- A rounded mantissa, with the carry that rounding may have caused
shifted out. -/
def carried (s : Sign) (r : ℕ) (t : ℤ) : UnpackedFloat :=
  ofParts s (shiftToTargetExponent Format.binary64 r t .exact)

/-- The carry changes neither the number nor its sign. -/
theorem carried_spec (s : Sign) {r : ℕ} {t : ℤ} (hr : r ≤ 2 ^ 53)
    (ht : -1074 ≤ t) (hlow : 2 ^ 52 ≤ r ∨ t = -1074) :
    Canonical (carried s r t) ∧ HasSign s (carried s r t)
      ∧ magnitude (carried s r t) = r * 2 ^ (t + 1074).toNat := by
  rcases Nat.lt_or_eq_of_le hr with hlt | rfl
  · rw [carried, shiftToTargetExponent_of_lt hlt ht, ofParts]
    by_cases hzero : r = 0
    · subst hzero
      rw [dif_pos rfl, Nat.zero_mul]
      exact ⟨trivial, rfl, rfl⟩
    · rw [dif_neg hzero]
      exact ⟨⟨hlt, ht, hlow⟩, rfl, rfl⟩
  · -- the carry
    have hpos : (2 : ℕ) ^ 52 ≠ 0 := by decide
    have hfit : (2 : ℕ) ^ 52 < 2 ^ 53 := by decide
    have hexponent : (t + 1 + 1074).toNat = (t + 1074).toNat + 1 := by omega
    rw [carried, shiftToTargetExponent_carry ht, ofParts, dif_neg hpos]
    refine ⟨⟨hfit, by omega, .inl (Nat.le_refl _)⟩, rfl, ?_⟩
    show 2 ^ 52 * 2 ^ (t + 1 + 1074).toNat = _
    rw [hexponent, ← pow_add, ← pow_add]
    congr 1
    omega

/-- Rounding gives the nearest double, however large. -/
theorem roundWithAccuracy_spec (s : Sign) {m : ℕ} {e : ℤ} (hm : 0 < m)
    (he : -2148 ≤ e)
    (htarget : e ≤ Format.binary64.targetExponent (totalExponent m e)) :
    Canonical (roundWithAccuracy Format.binary64 s m e .exact)
      ∧ HasSign s (roundWithAccuracy Format.binary64 s m e .exact)
      ∧ magnitude (roundWithAccuracy Format.binary64 s m e .exact)
        = nearest (m * 2 ^ (e + 2148).toNat) / 2 ^ 1074 := by
  have hround : roundWithAccuracy Format.binary64 s m e .exact
      = carried s (roundDiv m
          (2 ^ (Format.binary64.targetExponent (totalExponent m e) - e).toNat))
        (e + (Format.binary64.targetExponent (totalExponent m e) - e).toNat)
      := by
    rw [← (shifted_shiftRight m _).roundedMantissa]
    rfl
  rw [hround]
  rw [targetExponent_eq] at htarget ⊢
  -- the exponents below the target are those below the grain
  have hlog := log2_mul_two_pow (Nat.ne_of_gt hm) (e + 2148).toNat
  obtain ⟨j, hj⟩ : ∃ j : ℕ, e = (j : ℤ) - 2148 := ⟨(e + 2148).toNat, by omega⟩
  obtain ⟨k, hk⟩ : ∃ k : ℕ, max ((m.log2 : ℤ) + 1 + e - 53) (-1074) - e = k :=
    ⟨(max ((m.log2 : ℤ) + 1 + e - 53) (-1074) - e).toNat, by omega⟩
  have hj' : (e + 2148).toNat = j := by omega
  have hgrain : grain (m * 2 ^ j) = k + j := by
    rw [grain, ← hj', hlog, hj']
    omega
  have hscale : nearest (m * 2 ^ j) = roundDiv m (2 ^ k) * 2 ^ (k + j) := by
    rw [nearest, hgrain, pow_add, roundDiv_mul_mul _ _ (by positivity)]
  -- at most 53 bits are left, and rounding may carry into a 54th
  have hhigh : roundDiv m (2 ^ k) ≤ 2 ^ 53 := by
    have hlt : m < 2 ^ k * 2 ^ 53 := by
      rw [← pow_add]
      exact Nat.lt_of_lt_of_le Nat.lt_log2_self
        (Nat.pow_le_pow_right (by decide) (by omega))
    have hdiv := Nat.div_lt_of_lt_mul hlt
    have hle := roundDiv_le m (2 ^ k)
    omega
  have hlow : 2 ^ 52 ≤ roundDiv m (2 ^ k) ∨ e + k = -1074 := by
    by_cases hleast : e + (k : ℤ) = -1074
    · exact .inr hleast
    · refine .inl (Nat.le_trans ?_ (div_le_roundDiv m (2 ^ k)))
      rw [Nat.le_div_iff_mul_le (by positivity), ← pow_add]
      have hlog2 : 52 + k = m.log2 := by omega
      rw [hlog2]
      exact Nat.log2_self_le (Nat.ne_of_gt hm)
  obtain ⟨hcanonical, hsign, hmagnitude⟩ :=
    carried_spec s hhigh (by omega) hlow
  rw [hk, Int.toNat_natCast, hj', hscale]
  refine ⟨hcanonical, hsign, ?_⟩
  have hsplit : k + j = (e + k + 1074).toNat + 1074 := by omega
  rw [hmagnitude, hsplit, pow_add, ← Nat.mul_assoc,
    Nat.mul_div_cancel _ (by positivity)]

-- =============================================================== packing

/-- The bit before the mantissa, which is not stored. -/
theorem toNat_one_append (m : BitVec 52) :
    (1#1 ++ m).toNat = 2 ^ 52 + m.toNat := by
  rw [BitVec.toNat_append, ← Nat.shiftLeft_add_eq_or_of_lt m.isLt]
  rfl

/-- Different numbers that fit have different bits. -/
theorem ofNat_ne_of_toNat {w n : ℕ} {x : BitVec w} (hn : n < 2 ^ w)
    (hx : n ≠ x.toNat) : BitVec.ofNat w n ≠ x := by
  rintro rfl
  rw [BitVec.toNat_ofNat, Nat.mod_eq_of_lt hn] at hx
  exact hx rfl

/-- No number is unpacked as it was packed. -/
theorem unpack_pack_notANumber :
    unpack Format.binary64 (pack Format.binary64 .notANumber)
      = .notANumber := unpack_packedNaN

theorem unpack_pack_infinity (s : Sign) :
    unpack Format.binary64 (pack Format.binary64 (.infinity s))
      = .infinity s := by
  rw [pack, packedInfinity, unpack]
  simp only [unpackMantissa_packComponents, unpackExponent_packComponents,
    unpackSign_packComponents, Sign.ofBitVec_toBitVec]
  rfl

/-- A normal double is unpacked as it was packed. -/
theorem unpack_pack_normal (s : Sign) {m : ℕ} {e : ℤ} (hm : 0 < m)
    (hlow : 2 ^ 52 ≤ m) (hhigh : m < 2 ^ 53) (he : -1074 ≤ e)
    (hmax : e ≤ 971) :
    unpack Format.binary64 (pack Format.binary64 (.finite s m e hm))
      = .finite s m e hm := by
  have hlog : m.log2 + 1 = 53 := by
    have hle := (Nat.le_log2 (Nat.ne_of_gt hm)).mpr hlow
    have hlt := (Nat.log2_lt (Nat.ne_of_gt hm)).mpr hhigh
    omega
  -- the biased exponent is neither of the two that are reserved
  obtain ⟨b, hb⟩ : ∃ b : ℕ, (e + 1023 + 52).toNat = b := ⟨_, rfl⟩
  have hfit : ¬ 2 ^ 11 ≤ b + 1 := by omega
  have hpack : pack Format.binary64 (.finite s m e hm)
      = packComponents Format.binary64 s (BitVec.ofNat 11 b)
          (BitVec.ofNat 52 m) := by
    rw [← hb] at hfit ⊢
    show (if 2 ^ 11 ≤ (e + 1023 + 52).toNat + 1 then _
      else if m.log2 + 1 = 53 then _ else _) = _
    rw [if_neg hfit, if_pos hlog]
    rfl
  have hlarge : BitVec.ofNat 11 b ≠ -1#11 :=
    ofNat_ne_of_toNat (by omega) (by show b ≠ 2047; omega)
  have hnormal : BitVec.ofNat 11 b ≠ 0#11 :=
    ofNat_ne_of_toNat (by omega) (by show b ≠ 0; omega)
  have hbits : (BitVec.ofNat 11 b).toNat = b := by
    rw [BitVec.toNat_ofNat, Nat.mod_eq_of_lt (by omega)]
  -- the leading bit is not stored and comes back
  have hmantissa : (1#1 ++ BitVec.ofNat 52 m).toNat = m := by
    rw [toNat_one_append, BitVec.toNat_ofNat, Nat.mod_eq_sub_mod hlow,
      Nat.mod_eq_of_lt (by omega)]
    omega
  rw [hpack, unpack]
  simp only [unpackMantissa_packComponents, unpackExponent_packComponents,
    unpackSign_packComponents, Sign.ofBitVec_toBitVec, if_neg hlarge,
    if_neg hnormal, hbits, hmantissa]
  congr 1
  show (b : ℤ) - (1023 + 52) = e
  omega

theorem unpack_pack_subnormal (s : Sign) {m : ℕ} (hm : 0 < m)
    (hhigh : m < 2 ^ 52) :
    unpack Format.binary64 (pack Format.binary64 (.finite s m (-1074) hm))
      = .finite s m (-1074) hm := by
  have hlog : m.log2 + 1 ≠ 53 := by
    have hlt := (Nat.log2_lt (Nat.ne_of_gt hm)).mpr hhigh
    omega
  have hpack : pack Format.binary64 (.finite s m (-1074) hm)
      = packComponents Format.binary64 s (0#11) (BitVec.ofNat 52 m) := by
    show (if 2 ^ 11 ≤ 1 + 1 then packedInfinity Format.binary64 s
      else if m.log2 + 1 = 53 then _ else _) = _
    rw [if_neg (by decide), if_neg hlog]
  have hzero : BitVec.ofNat 52 m ≠ 0#52 :=
    ofNat_ne_of_toNat hhigh (Nat.ne_of_gt hm)
  have hbits : (BitVec.ofNat 52 m).toNat = m := by
    rw [BitVec.toNat_ofNat, Nat.mod_eq_of_lt hhigh]
  have hlarge : 0#11 ≠ -1#11 := by decide
  rw [hpack, unpack]
  simp only [unpackMantissa_packComponents, unpackExponent_packComponents,
    unpackSign_packComponents, Sign.ofBitVec_toBitVec, if_neg hlarge,
    if_true, dif_neg hzero, hbits]
  rfl

/-- What is too large is packed as infinity. -/
theorem pack_eq_infinity (s : Sign) {m : ℕ} {e : ℤ} (hm : 0 < m)
    (he : 971 < e) :
    pack Format.binary64 (.finite s m e hm)
      = pack Format.binary64 (.infinity s) := by
  have hlarge : 2 ^ 11 ≤ (e + 1023 + 52).toNat + 1 := by omega
  show (if 2 ^ 11 ≤ (e + 1023 + 52).toNat + 1 then _
    else if m.log2 + 1 = 53 then _ else _) = _
  rw [if_pos hlarge]
  rfl

/-- What is not too large is smaller than what has no bound. -/
theorem lt_unbounded {m : ℕ} {e : ℤ} (hm : m < 2 ^ 53) (he : e ≤ 971) :
    m * 2 ^ (e + 1074).toNat < unbounded :=
  calc m * 2 ^ (e + 1074).toNat
      < 2 ^ 53 * 2 ^ (e + 1074).toNat :=
        Nat.mul_lt_mul_of_pos_right hm (by positivity)
    _ = 2 ^ (53 + (e + 1074).toNat) := (pow_add 2 _ _).symm
    _ ≤ unbounded := by
        rw [unbounded]
        exact pow_le_pow_right₀ (by decide) (by omega)

/-- Packing a rounded number makes it infinite if it is too large, and
keeps it otherwise. -/
theorem unpack_pack {s : Sign} {f : UnpackedFloat} (hf : Canonical f)
    (hs : HasSign s f) :
    (unpack Format.binary64 (pack Format.binary64 f) = f
        ∧ magnitude f < unbounded)
      ∨ (unpack Format.binary64 (pack Format.binary64 f) = .infinity s
        ∧ unbounded ≤ magnitude f) := by
  cases f with
  | infinity t => cases hs
  | notANumber => cases hs
  | zero t => exact .inl ⟨unpack_packedZero, unbounded_pos⟩
  | finite t m e hm =>
      obtain ⟨hhigh, he, hlow⟩ := hf
      cases hs
      -- with a larger exponent the number is packed as infinity
      by_cases hmax : e ≤ 971
      · refine .inl ⟨?_, ?_⟩
        · by_cases hnormal : 2 ^ 52 ≤ m
          · exact unpack_pack_normal _ hm hnormal hhigh he hmax
          · have hleast := hlow.resolve_left hnormal
            subst hleast
            exact unpack_pack_subnormal _ hm (by omega)
        · exact lt_unbounded hhigh hmax
      · refine .inr ⟨?_, ?_⟩
        · rw [pack_eq_infinity _ hm (by omega), unpack_pack_infinity]
        · have hnormal := hlow.resolve_right (by omega)
          calc unbounded
              ≤ 2 ^ (52 + (e + 1074).toNat) := by
                rw [unbounded]
                exact pow_le_pow_right₀ (by decide) (by omega)
            _ = 2 ^ 52 * 2 ^ (e + 1074).toNat := pow_add 2 _ _
            _ ≤ m * 2 ^ (e + 1074).toNat := Nat.mul_le_mul_right _ hnormal

/-- Every double is canonical, and finite ones are bounded. -/
theorem unpack_spec (b : BitVec Format.binary64.numBits) :
    Canonical (unpack Format.binary64 b)
      ∧ ∀ s, HasSign s (unpack Format.binary64 b) →
        magnitude (unpack Format.binary64 b) < unbounded := by
  fun_cases unpack Format.binary64 b with
  | case1 => exact ⟨trivial, fun s hs => by cases hs⟩
  | case2 => exact ⟨trivial, fun s hs => by cases hs⟩
  | case3 => exact ⟨trivial, fun s hs => unbounded_pos⟩
  -- below the normal doubles: the least exponent and no leading bit
  | case4 mantissa exponent e _ sign _ hexponent _ =>
      have hm : mantissa.toNat < 2 ^ 52 := mantissa.isLt
      have he : e + 1 = -1074 := by
        show (exponent.toNat : ℤ) - (1023 + 52) + 1 = -1074
        rw [hexponent]
        rfl
      have hhigh : mantissa.toNat < 2 ^ 53 := by omega
      exact ⟨⟨hhigh, by omega, .inr he⟩,
        fun _ _ => lt_unbounded hhigh (by omega)⟩
  -- a normal double: a leading bit goes before the mantissa
  | case5 mantissa exponent e _ sign hlarge hzero =>
      have hm : mantissa.toNat < 2 ^ 52 := mantissa.isLt
      have hbits := toNat_one_append mantissa
      have hexponent : exponent.toNat < 2 ^ 11 := exponent.isLt
      have hne : exponent.toNat ≠ 2047 := by
        intro heq
        exact hlarge (BitVec.eq_of_toNat_eq heq)
      have hpos : exponent.toNat ≠ 0 := by
        intro heq
        exact hzero (BitVec.eq_of_toNat_eq heq)
      have he : e = (exponent.toNat : ℤ) - (1023 + 52) := rfl
      have hhigh : (1#1 ++ mantissa).toNat < 2 ^ 53 := by
        rw [hbits]
        omega
      have hlow : 2 ^ 52 ≤ (1#1 ++ mantissa).toNat := by
        rw [hbits]
        omega
      exact ⟨⟨hhigh, by omega, .inl hlow⟩,
        fun _ _ => lt_unbounded hhigh (by omega)⟩

end Metrology.Double
