import QueueMachine.Proofs.Machine.Growth

set_option autoImplicit false

/-!
What the operators compute. Quotient and remainder are the only numbers that make up the dividend
such that the remainder is less than the divisor and has the sign of the dividend. Hence a second
operand below 65536 counts in full, whatever its sign, and sums, differences and products with it
are exact.
-/

namespace QueueMachine

namespace Arithmetic

theorem eq_quotient_mul_add_remainder
    {b : Int}
    (nonzero : b ≠ 0)
    (a : Int) :
    a = quotient a b * b + remainder a b := by
  rw [quotient_eq_tdiv, remainder_eq_tmod nonzero, Int.add_comm]
  exact (Int.tmod_add_tdiv_mul a b).symm

theorem natAbs_remainder_lt
    {b : Int}
    (nonzero : b ≠ 0)
    (a : Int) :
    (remainder a b).natAbs < b.natAbs := by
  rw [remainder_eq_tmod nonzero, Int.natAbs_tmod]
  exact Nat.mod_lt _ (Int.natAbs_pos.mpr nonzero)

theorem remainder_eq_zero_or_sign_eq
    {b : Int}
    (nonzero : b ≠ 0)
    (a : Int) :
    remainder a b = 0 ∨ (remainder a b).sign = a.sign := by
  rw [remainder_eq_tmod nonzero]
  have sign := Int.sign_tmod a b
  by_cases divides : b ∣ a
  · rw [if_pos divides] at sign
    exact .inl (Int.sign_eq_zero_iff_zero.mp sign)
  · rw [if_neg divides] at sign
    exact .inr sign

/-- There is no other quotient with a small remainder that has the sign of the dividend. -/
theorem eq_quotient_and_eq_remainder
    {a b q r : Int}
    (small : r.natAbs < b.natAbs)
    (sum : a = q * b + r)
    (sign : r = 0 ∨ r.sign = a.sign) :
    q = quotient a b ∧ r = remainder a b := by
  have nonzero : b ≠ 0 := by omega
  have whole : r + b * q = a := by rw [sum, Int.mul_comm, Int.add_comm]
  rw [quotient_eq_tdiv, remainder_eq_tmod nonzero]
  -- The sign of the dividend decides on which side of zero the remainder is unique.
  rcases Int.le_total 0 a with nonnegative | nonpositive
  · have above : 0 ≤ r := by
      rcases sign with rfl | same
      · exact Int.le_refl 0
      · rw [← Int.sign_nonneg_iff, same]
        exact Int.sign_nonneg_iff.mpr nonnegative
    obtain ⟨isQuotient, isRemainder⟩ :=
      (Int.tdiv_tmod_unique nonnegative nonzero).mpr ⟨whole, above, by omega⟩
    exact ⟨isQuotient.symm, isRemainder.symm⟩
  · have below : r ≤ 0 := by
      rcases sign with rfl | same
      · exact Int.le_refl 0
      · rw [← Int.sign_nonpos_iff, same]
        exact Int.sign_nonpos_iff.mpr nonpositive
    obtain ⟨isQuotient, isRemainder⟩ :=
      (Int.tdiv_tmod_unique' nonpositive nonzero).mpr ⟨whole, by omega, below⟩
    exact ⟨isQuotient.symm, isRemainder.symm⟩

theorem remainder_operandModulus_of_lt
    {b : Int}
    (small : b.natAbs < 65536) :
    remainder b operandModulus = b :=
  (eq_quotient_and_eq_remainder small (by omega : b = 0 * operandModulus + b) (.inr rfl)).2.symm

end Arithmetic

namespace State

theorem natAbs_evaluate_sub_le
    {operator : Operator}
    (additive : operator = .plus ∨ operator = .minus)
    (a b : Int) :
    (evaluate operator a b - a).natAbs ≤ 65535 := by
  have small := Arithmetic.natAbs_remainder_operandModulus_le b
  rcases additive with rfl | rfl
  · rw [evaluate]
    omega
  · rw [evaluate]
    omega

theorem toList_operate
    {state : State} {a b : Int} {rest : List Int}
    (values : state.queue.toList = a :: b :: rest)
    (operator : Operator) :
    (state.operate operator).queue.toList = rest ++ [evaluate operator a b] := by
  unfold operate
  split
  next none =>
    rw [(state.queue.dequeue?_eq_none_iff).mp none] at values
    cases values
  next first behind taken =>
    rw [ValueQueue.toList_of_dequeue?_eq_some taken] at values
    obtain ⟨rfl, behindIt⟩ := List.cons.inj values
    split
    next none =>
      rw [(behind.dequeue?_eq_none_iff).mp none] at behindIt
      cases behindIt
    next second others takenNext =>
      rw [ValueQueue.toList_of_dequeue?_eq_some takenNext] at behindIt
      obtain ⟨rfl, rfl⟩ := List.cons.inj behindIt
      exact ValueQueue.toList_enqueue _ _

end State

namespace Machine

theorem step_of_executes_operate
    {machine : Machine} {operator : Operator} {operands : List String}
    (executes : machine.Executes ⟨.operate operator, operands⟩) :
    machine.step =
      ⟨{ machine with state := (machine.state.operate operator).advance }, .ok .running⟩ :=
  step_of_fetch executes.1 executes.2

/-- Quotient and remainder are the only numbers that make up the dividend such that the remainder is
less than the divisor and has the sign of the dividend, and both are zero if the divisor is. In the
queue, sums and differences are close to the first operand; if the second is below 65536 they are
exact, and so are products. -/
theorem operators_exact :
    (∀ a b q r : Int, b ≠ 0 →
      ((a = q * b + r ∧ r.natAbs < b.natAbs ∧ (r = 0 ∨ r.sign = a.sign)) ↔
        q = Arithmetic.quotient a b ∧ r = Arithmetic.remainder a b)) ∧
      (∀ a : Int, Arithmetic.quotient a 0 = 0 ∧ Arithmetic.remainder a 0 = 0) ∧
      ∀ (machine : Machine) (operator : Operator) (operands : List String) (a b : Int)
        (rest : List Int),
        machine.Executes ⟨.operate operator, operands⟩ →
        machine.state.queue.toList = a :: b :: rest →
        ∃ value,
          machine.step.answer = .ok .running ∧
            machine.step.machine.state.queue.toList = rest ++ [value] ∧
            (operator = .plus ∨ operator = .minus → (value - a).natAbs ≤ 65535) ∧
            (b.natAbs < 65536 →
              (operator = .plus → value = a + b) ∧
                (operator = .minus → value = a - b) ∧
                (operator = .times → value = a * b)) ∧
            (operator = .divide → value = Arithmetic.quotient a b) ∧
            (operator = .modulo → value = Arithmetic.remainder a b) := by
  refine ⟨?_, ?_, ?_⟩
  · intro a b q r nonzero
    constructor
    · rintro ⟨sum, small, sign⟩
      exact Arithmetic.eq_quotient_and_eq_remainder small sum sign
    · rintro ⟨rfl, rfl⟩
      exact ⟨Arithmetic.eq_quotient_mul_add_remainder nonzero a,
        Arithmetic.natAbs_remainder_lt nonzero a,
        Arithmetic.remainder_eq_zero_or_sign_eq nonzero a⟩
  · exact fun a => ⟨rfl, rfl⟩
  · intro machine operator operands a b rest executes values
    have stepped := step_of_executes_operate executes
    refine ⟨State.evaluate operator a b, ?_, ?_, fun additive =>
      State.natAbs_evaluate_sub_le additive a b, ?_, ?_, ?_⟩
    · rw [stepped]
    · rw [stepped]
      exact State.toList_operate values operator
    · intro small
      have full := Arithmetic.remainder_operandModulus_of_lt small
      refine ⟨?_, ?_, ?_⟩
      · rintro rfl
        rw [State.evaluate, full]
      · rintro rfl
        rw [State.evaluate, full]
      · rintro rfl
        rw [State.evaluate, full]
    · rintro rfl
      rfl
    · rintro rfl
      rfl

theorem operators_exact_largest_operand :
    let start := Machine.ofProgram (.ofSource "-7 65535 -" standardInputName) none
    let machine := (Machine.stepMany 2 start).machine
    (-7 = Arithmetic.quotient (-7) 2 * 2 + Arithmetic.remainder (-7) 2 ∧
        Arithmetic.remainder (-7) 2 = -1) ∧
      machine.Executes ⟨.operate .minus, []⟩ ∧
      machine.state.queue.toList = [-7, 65535] ∧
      machine.step.answer = .ok .running ∧
      machine.step.machine.state.queue.toList = [-65542] := by
  intro start machine
  obtain ⟨division, -, onMachines⟩ := operators_exact
  obtain ⟨-, unique⟩ := (division (-7) 2 (-3) (-1) (by decide)).mp ⟨by decide, by decide, .inr rfl⟩
  obtain ⟨sum, -⟩ := (division (-7) 2 _ _ (by decide)).mpr ⟨rfl, rfl⟩
  have executes : machine.Executes ⟨.operate .minus, []⟩ :=
    ⟨by decide +kernel, fetch_of_getElem?_eq_some (by decide +kernel) (by decide +kernel)⟩
  have values : machine.state.queue.toList = [-7, 65535] := by decide +kernel
  obtain ⟨value, answered, left, -, inFull, -⟩ :=
    onMachines machine .minus [] (-7) 65535 [] executes values
  obtain ⟨-, difference, -⟩ := inFull (by decide)
  rw [difference rfl] at left
  exact ⟨⟨sum, unique.symm⟩, executes, values, answered, left⟩

end Machine

end QueueMachine
