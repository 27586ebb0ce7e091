import QueueMachine.Arithmetic

set_option autoImplicit false

/-!
Division, and which characters the machine writes. Dividing the absolute values and giving the
results their signs is division toward zero. The remainder modulo 256 lies between -255 and 255, so a
code is one of the 256 lowest or of the 255 highest of sixteen bits; none of these is reserved for
surrogates.
-/

namespace QueueMachine.Arithmetic

theorem quotient_eq_tdiv (a b : Int) : quotient a b = a.tdiv b := by
  have size : (a.tdiv b).natAbs = a.natAbs / b.natAbs := Int.natAbs_tdiv a b
  unfold quotient
  by_cases zero : b = 0
  · rw [if_pos zero, zero, Int.tdiv_zero]
  rw [if_neg zero]
  dsimp only
  rw [← size]
  by_cases same : a < 0 ↔ b < 0
  · rw [if_pos same]
    have sign : 0 ≤ a.tdiv b := by
      by_cases negative : a < 0
      · exact Int.tdiv_nonneg_of_nonpos_of_nonpos (Int.le_of_lt negative)
          (Int.le_of_lt (same.mp negative))
      · exact Int.tdiv_nonneg (Int.not_lt.mp negative) (Int.not_lt.mp (mt same.mpr negative))
    exact Int.natAbs_of_nonneg sign
  · rw [if_neg same]
    have sign : a.tdiv b ≤ 0 := by
      by_cases negative : a < 0
      · have positive : 0 ≤ b := by omega
        have opposite : 0 ≤ (-a).tdiv b := Int.tdiv_nonneg (by omega) positive
        rw [Int.neg_tdiv] at opposite
        omega
      · exact Int.tdiv_nonpos_of_nonneg_of_nonpos (Int.not_lt.mp negative) (by omega)
    omega

theorem remainder_eq_tmod
    {b : Int}
    (nonzero : b ≠ 0)
    (a : Int) :
    remainder a b = a.tmod b := by
  have size : (a.tmod b).natAbs = a.natAbs % b.natAbs := Int.natAbs_tmod a b
  unfold remainder
  rw [if_neg nonzero]
  dsimp only
  rw [← size]
  by_cases nonnegative : 0 ≤ a
  · rw [if_pos nonnegative]
    exact Int.natAbs_of_nonneg (Int.tmod_nonneg b nonnegative)
  · rw [if_neg nonnegative]
    have opposite : 0 ≤ (-a).tmod b := Int.tmod_nonneg b (by omega)
    rw [Int.neg_tmod] at opposite
    omega

theorem characterCode_range (value : Int) :
    (0 ≤ characterCode value ∧ characterCode value ≤ 255) ∨
      (65281 ≤ characterCode value ∧ characterCode value ≤ 65535) := by
  have below : value.tmod 256 < 256 := Int.tmod_lt_of_pos value (by decide)
  have above : -256 < value.tmod 256 := Int.lt_tmod_of_pos value (by decide)
  have code : characterCode value = value.tmod 256 % 65536 :=
    congrArg (· % 65536) (remainder_eq_tmod (by decide) value)
  omega

theorem toNat_character (value : Int) : ((character value).toNat : Int) = characterCode value := by
  have range := characterCode_range value
  have valid : (characterCode value).toNat.isValidChar := by
    unfold Nat.isValidChar
    omega
  have code : (character value).toNat = (characterCode value).toNat := by
    rw [character, Char.ofNat, dif_pos valid]
    rfl
  omega

end QueueMachine.Arithmetic
