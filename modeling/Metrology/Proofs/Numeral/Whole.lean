/-
Whole numbers as text. A whole number that is not too long to be read is
read back as it was written (`readWhole?_writeWhole`), and different
numbers are written differently (`wholeChars_injective`).
-/
import Mathlib.Data.Nat.Digits.Defs
import Metrology.Numeral.Read
import Metrology.Numeral.Text
import Metrology.Proofs.Text.Plain

namespace Metrology.Numeral

open Metrology.Text

/-- One of the characters that whole numbers are written with. -/
def isWholeChar (c : Char) : Bool := c.isDigit || c == '-'

/-- Numbers are written in digits. -/
theorem isDigit_of_mem_digits {n : Nat} {c : Char} (h : c ∈ digits n) :
    c.isDigit = true :=
  Nat.isDigit_of_mem_toDigits (by decide) (by decide) h

/-- Digits stand in a row in the table of characters. -/
theorem ascii_of_isDigit {c : Char} (h : c.isDigit = true) :
    0x30 ≤ c.toNat ∧ c.toNat ≤ 0x39 := Char.isDigit_iff_toNat.mp h

/-- Whole numbers are written in characters of one byte. -/
theorem ascii_of_isWholeChar {c : Char} (h : isWholeChar c = true) :
    c.toNat < 0x80 := by
  rcases Bool.or_eq_true_iff.mp h with h | h
  · have hle := (ascii_of_isDigit h).2
    omega
  · rw [eq_of_beq h]
    decide

theorem isWholeChar_of_mem {n : Int} {c : Char} (h : c ∈ wholeChars n) :
    isWholeChar c = true := by
  unfold wholeChars at h
  unfold isWholeChar
  split at h
  · rcases List.mem_cons.mp h with rfl | h
    · decide
    · rw [isDigit_of_mem_digits h, Bool.true_or]
  · rw [isDigit_of_mem_digits h, Bool.true_or]

/-- Every number is written with a character at least. -/
theorem wholeChars_ne_nil (n : Int) : wholeChars n ≠ [] := by
  unfold wholeChars
  split
  · exact List.cons_ne_nil _ _
  · exact Nat.toDigits_ne_nil

-- ============================================================= reading

/-- A digit is read as what it stands for. -/
theorem digitValue?_of_isDigit {c : Char} (h : c.isDigit = true) :
    digitValue? c = some (c.toNat - '0'.toNat) := by
  have hrange := ascii_of_isDigit h
  have hzeros : digitZeros = 0x30 :: digitZeros.tail := rfl
  rw [digitValue?, hzeros, List.find?_cons_of_pos]
  · rfl
  · rw [Bool.and_eq_true, decide_eq_true_iff, decide_eq_true_iff]
    exact hrange

/-- Digits in a row are read as digits are. -/
theorem readAnyDigits?_of_isDigit {ds : List Char}
    (h : ∀ c ∈ ds, c.isDigit = true) : ∀ (value count : Nat)
    (pending : Bool), (pending = true → ds ≠ []) →
    readAnyDigits? value count pending ds
      = some (Nat.ofDigitChars 10 ds value, count + ds.length) := by
  induction ds with
  | nil =>
      intro value count pending hne
      -- a digit is missing only before the first one
      have hpending : pending = false := by
        cases pending with
        | false => rfl
        | true => exact absurd rfl (hne rfl)
      rw [readAnyDigits?, hpending]
      rfl
  | cons c ds ih =>
      intro value count pending _
      have hc := h c (List.mem_cons_self ..)
      have hunderscore : c ≠ '_' := by
        rintro rfl
        cases hc
      rw [readAnyDigits?, digitValue?_of_isDigit hc]
      · show readAnyDigits? _ (count + 1) false ds = _
        rw [ih (fun d hd => h d (List.mem_cons_of_mem _ hd)) _ _ false
            Bool.noConfusion, Nat.ofDigitChars_eq_foldl, Nat.ofDigitChars_eq_foldl,
          List.foldl_cons, List.length_cons, Nat.add_assoc,
          Nat.add_comm 1]
      · exact hunderscore

/-- The digits of a number are read as the number. -/
theorem readAnyDigits?_digits (n : Nat) :
    readAnyDigits? 0 0 true (digits n) = some (n, (digits n).length) := by
  rw [readAnyDigits?_of_isDigit (fun _ => isDigit_of_mem_digits) 0 0 true
      fun _ => Nat.toDigits_ne_nil, Nat.zero_add, digits,
    Nat.ofDigitChars_ten_toDigits]

/-- A whole number is read back unless it is too long. -/
theorem readWhole?_writeWhole {n : Int}
    (h : (digits n.natAbs).length ≤ wholeDigitLimit) :
    readWhole? (writeWhole n) = some n := by
  have hblank : ∀ c ∈ wholeChars n, isWhiteSpace c = false := by
    intro c hc
    have hwhole := isWholeChar_of_mem hc
    exact forall_ascii (p := fun c => isWholeChar c = true →
      isWhiteSpace c = false) (by decide) (ascii_of_isWholeChar hwhole) hwhole
  have hlimit : ¬ wholeDigitLimit < (digits n.natAbs).length := by omega
  rw [readWhole?, writeWhole, String.toList_ofList,
    trimChars_eq_self hblank, wholeChars]
  by_cases hn : n < 0
  · have hvalue : -(n.natAbs : Int) = n := by omega
    simp only [if_pos hn, readAnyDigits?_digits, Option.bind_eq_bind,
      Option.bind_some, if_neg hlimit, if_true, hvalue]
  · have hvalue : (n.natAbs : Int) = n := by omega
    have hdigits := readAnyDigits?_digits n.natAbs
    rw [if_neg hn]
    cases hcs : digits n.natAbs with
    | nil => exact absurd hcs Nat.toDigits_ne_nil
    | cons c cs =>
        have hc : c.isDigit = true :=
          isDigit_of_mem_digits (hcs ▸ List.mem_cons_self ..)
        -- the first character is a digit, so it is not read as a sign
        have hminus : c ≠ '-' := by
          rintro rfl
          cases hc
        have hplus : c ≠ '+' := by
          rintro rfl
          cases hc
        rw [hcs] at hdigits hlimit
        split
        next negative ds hsign =>
          split at hsign
          · next heq => exact absurd (List.cons.inj heq).1 hminus
          · next heq => exact absurd (List.cons.inj heq).1 hplus
          · cases hsign
            rw [hdigits]
            show (if wholeDigitLimit < (c :: cs).length then none
              else some (n.natAbs : Int)) = some n
            rw [if_neg hlimit, hvalue]

-- ======================================================== telling apart

/-- Different numbers have different digits. -/
theorem digits_injective {n k : Nat} (h : digits n = digits k) : n = k := by
  have hread := congrArg (Nat.ofDigitChars 10 · 0) h
  simpa [digits] using hread

theorem wholeChars_injective {n k : Int} (h : wholeChars n = wholeChars k) :
    n = k := by
  have hminus : ∀ i, '-' ∉ digits i := by
    intro i hmem
    cases isDigit_of_mem_digits hmem
  unfold wholeChars at h
  split at h
  · split at h
    · have heq := digits_injective (List.cons_inj_right _ |>.mp h)
      omega
    · exact absurd (h ▸ List.mem_cons_self ..) (hminus _)
  · split at h
    · exact absurd (h ▸ List.mem_cons_self ..) (hminus _)
    · have heq := digits_injective h
      omega

end Metrology.Numeral
