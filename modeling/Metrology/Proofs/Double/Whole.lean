/-
Doubles that are whole numbers. The exact view of a double is read off its
bits, and so is the unpacked number that comparisons go by; the two agree
on the magnitude (`size_of_ofFloat?`). So a double whose exact value is a
whole number is found to be one, and none but zero is taken for zero.
-/
import Metrology.Numeral.Exact
import Metrology.Proofs.Double.Size

namespace Metrology.Double

open Float.Model Float.Model.UnpackedFloat
open Metrology.Numeral (Exact)

-- ================================================================= bits

/-- The lower 52 bits are the mantissa. -/
theorem toNat_unpackMantissa (b : BitVec Format.binary64.numBits) :
    (unpackMantissa b).toNat = b.toNat % 2 ^ 52 := by
  rw [unpackMantissa, BitVec.toNat_cast, BitVec.extractLsb_toNat]
  rfl

/-- The next 11 are the exponent. -/
theorem toNat_unpackExponent (b : BitVec Format.binary64.numBits) :
    (unpackExponent b).toNat = b.toNat / 2 ^ 52 % 2 ^ 11 := by
  rw [unpackExponent, BitVec.toNat_cast, BitVec.extractLsb_toNat,
    Nat.shiftRight_eq_div_pow]
  rfl

/-- The exact view of a double has its size. -/
theorem size_of_ofFloat? {x : Float} {e : Exact}
    (h : Exact.ofFloat? x = some e) :
    size x = e.significand * 2 ^ (e.exponent + 1074).toNat := by
  have hbits : ∃ b : BitVec Format.binary64.numBits,
      x.toBits.toNat = b.toNat
        ∧ size x = magnitude (unpack Format.binary64 b) := ⟨_, rfl, rfl⟩
  obtain ⟨b, hb, hsize⟩ := hbits
  rw [hsize]
  unfold Exact.ofFloat? at h
  rw [hb] at h
  simp only [Nat.pow_eq] at h
  rw [← toNat_unpackMantissa, ← toNat_unpackExponent] at h
  -- the five ways of unpacking: infinities, what is no number, zeros,
  -- numbers below the normal ones, and those; the exact view tells the
  -- first two from the others by the largest exponent
  fun_cases unpack Format.binary64 b with
  | case1 _ _ _ _ hexponent _ | case2 _ _ hexponent _ =>
      have hlarge : (unpackExponent b).toNat = 2047 :=
        congrArg BitVec.toNat hexponent
      rw [if_pos hlarge] at h
      cases h
  | case3 _ _ _ _ _ hexponent hmantissa =>
      have hleast : (unpackExponent b).toNat = 0 :=
        congrArg BitVec.toNat hexponent
      have hzero : (unpackMantissa b).toNat = 0 :=
        congrArg BitVec.toNat hmantissa
      rw [hleast, hzero, if_neg (by decide), if_pos rfl] at h
      cases h
      rfl
  | case4 _ _ exponent _ _ _ hexponent _ =>
      have hleast : (unpackExponent b).toNat = 0 :=
        congrArg BitVec.toNat hexponent
      have heq : exponent + 1 = -1074 := by
        show ((unpackExponent b).toNat : ℤ) - (1023 + 52) + 1 = -1074
        rw [hleast]
        rfl
      rw [hleast, if_neg (by decide), if_pos rfl] at h
      cases h
      rw [heq]
      rfl
  | case5 _ _ exponent _ _ hlarge hexponent =>
      have hne : (unpackExponent b).toNat ≠ (-1#11).toNat :=
        fun heq => hlarge (BitVec.eq_of_toNat_eq heq)
      have hpos : (unpackExponent b).toNat ≠ (0#11).toNat :=
        fun heq => hexponent (BitVec.eq_of_toNat_eq heq)
      have hmax : (-1#11).toNat = 2047 := by decide
      rw [hmax] at hne
      rw [BitVec.toNat_zero] at hpos
      have heq : exponent = -1074 + ((unpackExponent b).toNat : ℤ) - 1 := by
        show ((unpackExponent b).toNat : ℤ) - (1023 + 52) = _
        omega
      rw [if_neg hne, if_neg hpos] at h
      cases h
      have hmantissa := toNat_one_append (unpackMantissa b)
      exact congrArg₂ (fun m e => m * 2 ^ (e + 1074).toNat) hmantissa heq

/-- Finite doubles have a size. -/
theorem size_lt_unbounded_of_isFinite {x : Float}
    (h : Numeral.isFinite x = true) : size x < unbounded := by
  have hbits : ∃ b : BitVec Format.binary64.numBits,
      x.toBits.toNat = b.toNat
        ∧ x.toModel.unpack = unpack Format.binary64 b := ⟨_, rfl, rfl⟩
  obtain ⟨b, hb, hunpack⟩ := hbits
  unfold Numeral.isFinite Exact.ofFloat? at h
  rw [hb] at h
  simp only [Nat.pow_eq] at h
  rw [← toNat_unpackExponent] at h
  rw [size_lt_unbounded_iff, hunpack]
  fun_cases unpack Format.binary64 b with
  | case1 _ _ _ _ hexponent _ | case2 _ _ hexponent _ =>
      have hlarge : (unpackExponent b).toNat = 2047 :=
        congrArg BitVec.toNat hexponent
      rw [if_pos hlarge] at h
      cases h
  | case3 => exact ⟨_, rfl⟩
  | case4 => exact ⟨_, rfl⟩
  | case5 => exact ⟨_, rfl⟩

end Metrology.Double

namespace Metrology.Numeral

-- ======================================================== whole numbers

/-- The exact value of the double is this whole number. -/
def IsNumber (x : Float) (k : Int) : Prop :=
  ∃ e, Exact.ofFloat? x = some e
    ∧ (if e.negative then -(e.num : Int) else e.num) = k * e.den

variable {x : Float} {k : Int}

namespace Exact

variable {e : Exact}

/-- The denominator is a power of two. -/
theorem den_pos (e : Exact) : 0 < e.den := Nat.two_pow_pos _

/-- The numerator is zero only for the significand zero. -/
theorem num_eq_zero_iff : e.num = 0 ↔ e.significand = 0 := by
  have hpos : 0 < Nat.pow 2 e.exponent.toNat := Nat.two_pow_pos _
  rw [num, Nat.mul_eq_zero, or_iff_left (Nat.ne_of_gt hpos)]

/-- The magnitude of a value that is a whole number. -/
theorem num_eq (h : (if e.negative then -(e.num : Int) else e.num)
    = k * e.den) : e.num = k.natAbs * e.den := by
  have habs := congrArg Int.natAbs h
  rw [Int.natAbs_mul, Int.natAbs_natCast, apply_ite Int.natAbs,
    Int.natAbs_neg, Int.natAbs_natCast, ite_self] at habs
  exact habs

/-- A multiple of the denominator is whole. -/
theorem isWhole_of_eq (h : e.num = k.natAbs * e.den) : e.isWhole = true := by
  rw [isWhole, h, Nat.mul_mod_left]
  rfl

/-- Truncation leaves a whole number, with its sign. -/
theorem truncate_of_eq (h : (if e.negative then -(e.num : Int) else e.num)
    = k * e.den) : e.truncate = k := by
  have hpos : 0 < (e.den : Int) := Int.natCast_pos.mpr e.den_pos
  have hnum := num_eq h
  have hfloor : e.floor = k.natAbs := by
    rw [floor, hnum, Nat.mul_div_cancel _ e.den_pos]
  rw [truncate, hfloor]
  -- the sign stands apart from the magnitude, and may be that of zero
  cases hnegative : e.negative with
  | true =>
      rw [hnegative, if_pos rfl] at h
      have hk : k ≤ 0 := by
        by_contra hk
        have := Int.mul_pos (Int.not_le.mp hk) hpos
        omega
      rw [if_pos rfl]
      omega
  | false =>
      rw [hnegative, if_neg Bool.false_ne_true] at h
      have hk : 0 ≤ k := by
        by_contra hk
        have := Int.mul_neg_of_neg_of_pos (Int.not_le.mp hk) hpos
        omega
      rw [if_neg Bool.false_ne_true]
      omega

end Exact

/-- A whole number is found to be one. -/
theorem IsNumber.isWhole (h : IsNumber x k) : isWhole x = true := by
  obtain ⟨e, he, hvalue⟩ := h
  rw [Numeral.isWhole, he]
  exact Exact.isWhole_of_eq (Exact.num_eq hvalue)

theorem IsNumber.truncate? (h : IsNumber x k) :
    Numeral.truncate? x = some k := by
  obtain ⟨e, he, hvalue⟩ := h
  rw [Numeral.truncate?, he, Option.map_some, Exact.truncate_of_eq hvalue]

/-- Only zero is taken for zero. -/
theorem IsNumber.bne_zero_iff (h : IsNumber x k) :
    (x != 0.0) = true ↔ k ≠ 0 := by
  obtain ⟨e, he, hvalue⟩ := h
  have hsize : (x == 0.0) = true ↔ e.significand = 0 := by
    rw [Double.beq_zero_iff, Double.size_of_ofFloat? he, Nat.mul_eq_zero,
      or_iff_left (Nat.ne_of_gt (Nat.two_pow_pos _))]
  have hzero : e.significand = 0 ↔ k = 0 := by
    rw [← Exact.num_eq_zero_iff, Exact.num_eq hvalue, Nat.mul_eq_zero,
      or_iff_left (Nat.ne_of_gt e.den_pos), Int.natAbs_eq_zero]
  rw [bne, Bool.not_eq_true', ← Bool.not_eq_true, hsize, hzero]

end Metrology.Numeral
