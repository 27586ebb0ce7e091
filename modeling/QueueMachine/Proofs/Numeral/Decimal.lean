import QueueMachine.Numeral.Decimal

set_option autoImplicit false

/-!
The text of a number is its plain decimal representation: cutting a number into pieces and filling
each piece with zeros puts the same digits one after another as dividing by ten over and over.
-/

namespace QueueMachine.Numeral

theorem length_toDigits_le_iff
    {n width : Nat}
    (positive : 0 < width) :
    (Nat.toDigits 10 n).length ≤ width ↔ n < placeValue width :=
  Nat.length_toDigits_le_iff (by decide) positive

namespace Piece

theorem digits_succ
    (value width : Nat)
    (positive : 0 < width) :
    digits ⟨value, width + 1⟩ = digits ⟨value / 10, width⟩ ++ [Nat.digitChar (value % 10)] := by
  by_cases small : value < 10
  · have noTens : value / 10 = 0 := by omega
    have unit : value % 10 = value := by omega
    obtain ⟨fewer, rfl⟩ : ∃ fewer, width = fewer + 1 := ⟨width - 1, by omega⟩
    simp [digits, Nat.toDigits_of_lt_base small, noTens, unit, List.replicate_succ']
  · have split := Nat.toDigits_of_base_le (b := 10) (n := value) (by decide) (by omega)
    simp only [digits, split, List.length_append, List.length_singleton, List.append_assoc]
    rw [Nat.add_sub_add_right]

theorem length_digits
    (value width : Nat)
    (positive : 0 < width)
    (fits : value < placeValue width) :
    (digits ⟨value, width⟩).length = width := by
  have short : (Nat.toDigits 10 value).length ≤ width := (length_toDigits_le_iff positive).mpr fits
  simp only [digits, List.length_append, List.length_replicate]
  omega

/-- Digits followed by a filled piece are the digits of the number put together by place value. -/
theorem toDigits_append_digits
    (high low width : Nat)
    (highPositive : 0 < high)
    (positive : 0 < width)
    (fits : low < placeValue width) :
    Nat.toDigits 10 high ++ digits ⟨low, width⟩ =
      Nat.toDigits 10 (placeValue width * high + low) := by
  induction width generalizing low with
  | zero => omega
  | succ width inductionHypothesis =>
      have tenfold : placeValue (width + 1) = placeValue width * 10 := Nat.pow_succ 10 width
      cases width with
      | zero =>
          have unit : low < 10 := fits
          have single : digits ⟨low, 1⟩ = Nat.toDigits 10 low := by
            simp [digits, Nat.toDigits_of_lt_base unit]
          rw [single]
          exact Nat.toDigits_append_toDigits (by decide) highPositive unit
      | succ width =>
          have front := inductionHypothesis (low / 10) (by omega) (by omega)
          have unit : low % 10 < 10 := Nat.mod_lt _ (by decide)
          have upper : 0 < placeValue (width + 1) * high + low / 10 :=
            Nat.add_pos_left (Nat.mul_pos (placeValue_pos _) highPositive) _
          rw [digits_succ low (width + 1) (by omega), ← List.append_assoc, front,
            ← Nat.toDigits_of_lt_base unit,
            Nat.toDigits_append_toDigits (by decide) upper unit, tenfold]
          have regrouped : placeValue (width + 1) * 10 * high =
              10 * (placeValue (width + 1) * high) := by
            rw [Nat.mul_comm (placeValue (width + 1)) 10, Nat.mul_assoc]
          congr 1
          omega

theorem digits_div_append_digits_mod
    (value width lower : Nat)
    (positive : 0 < lower)
    (large : placeValue lower ≤ value) :
    digits ⟨value / placeValue lower, width - lower⟩ ++ digits ⟨value % placeValue lower, lower⟩ =
      digits ⟨value, width⟩ := by
  have fits : value % placeValue lower < placeValue lower := Nat.mod_lt _ (placeValue_pos _)
  have highPositive : 0 < value / placeValue lower := Nat.div_pos large (placeValue_pos _)
  have joined := toDigits_append_digits _ _ lower highPositive positive fits
  rw [Nat.div_add_mod] at joined
  have lengths := congrArg List.length joined
  rw [List.length_append, length_digits _ _ positive fits] at lengths
  simp only [digits] at joined ⊢
  rw [List.append_assoc, joined, Nat.sub_sub, Nat.add_comm lower, lengths]

end Piece

theorem flatMap_digits_pieces (value width : Nat) :
    (pieces value width).flatMap Piece.digits = Piece.digits ⟨value, width⟩ := by
  fun_induction pieces value width with
  | case1 value width small => simp
  | case2 value width small inductionHigh inductionLow =>
      have large : pieceBound ≤ value := Nat.le_of_not_lt small
      rw [List.flatMap_append, inductionHigh, inductionLow]
      exact Piece.digits_div_append_digits_mod value width _ (lowerWidth_pos large)
        (placeValue_lowerWidth_le large)

theorem natDigits_eq_toDigits (n : Nat) : natDigits n = Nat.toDigits 10 n := by
  rw [natDigits, flatMap_digits_pieces]
  simp [Piece.digits]

theorem format_eq_toString (value : Int) : format value = toString value := by
  cases value with
  | ofNat n =>
      have notNegative : ¬ Int.ofNat n < 0 := Int.not_lt.mpr (Int.natCast_nonneg n)
      rw [format, if_neg notNegative, natDigits_eq_toDigits]
      rfl
  | negSucc n =>
      rw [format, if_pos (Int.negSucc_lt_zero n), natDigits_eq_toDigits]
      exact @String.ofList_append ['-'] (Nat.toDigits 10 (n + 1))

theorem toList_format_natCast (n : Nat) : (format n).toList = Nat.toDigits 10 n := by
  simp [format, natDigits_eq_toDigits, Int.not_lt.mpr (Int.natCast_nonneg n)]

end QueueMachine.Numeral
