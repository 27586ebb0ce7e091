import Mathlib.Algebra.Group.Nat.Defs
import Mathlib.Data.List.MinMax
import QueueMachine.Proofs.Arithmetic
import QueueMachine.Proofs.Machine.Bounded
import QueueMachine.Proofs.RegisterBank

set_option autoImplicit false

/-!
How large the values of a program can get. Of two operands only the first enters a result in full, as
the second counts modulo 65536 or makes the result smaller. So one step makes the largest value at
most 65536 times as large, and without a multiplication it adds at most 65535 to it.
-/

namespace QueueMachine

namespace Arithmetic

theorem natAbs_remainder_operandModulus_le (value : Int) :
    (remainder value operandModulus).natAbs ≤ 65535 := by
  have below : value.natAbs % 65536 < 65536 := Nat.mod_lt _ (by decide)
  have size : (value.tmod operandModulus).natAbs = value.natAbs % 65536 := Int.natAbs_tmod value _
  rw [remainder_eq_tmod (by decide), size]
  omega

theorem natAbs_quotient_le (a b : Int) : (quotient a b).natAbs ≤ a.natAbs := by
  rw [quotient_eq_tdiv]
  exact Int.natAbs_tdiv_le_natAbs a b

theorem natAbs_remainder_le (a b : Int) : (remainder a b).natAbs ≤ a.natAbs := by
  by_cases zero : b = 0
  · rw [remainder, if_pos zero]
    exact Nat.zero_le _
  · rw [remainder_eq_tmod zero, Int.natAbs_tmod]
    exact Nat.mod_le _ _

end Arithmetic

namespace State

/-- Multiplication apart, a result exceeds the first operand by less than the modulus. -/
theorem natAbs_evaluate_le_add
    {operator : Operator}
    (notTimes : operator ≠ .times)
    (a b : Int) :
    (evaluate operator a b).natAbs ≤ a.natAbs + 65535 := by
  have small := Arithmetic.natAbs_remainder_operandModulus_le b
  cases operator with
  | plus => exact Nat.le_trans (Int.natAbs_add_le a _) (Nat.add_le_add_left small _)
  | minus => exact Nat.le_trans (Int.natAbs_sub_le a _) (Nat.add_le_add_left small _)
  | times => exact absurd rfl notTimes
  | divide => exact Nat.le_add_right_of_le (Arithmetic.natAbs_quotient_le a b)
  | modulo => exact Nat.le_add_right_of_le (Arithmetic.natAbs_remainder_le a b)

theorem natAbs_evaluate_times_le (a b : Int) :
    (evaluate .times a b).natAbs ≤ a.natAbs * 65535 := by
  rw [evaluate, Int.natAbs_mul]
  exact Nat.mul_le_mul_left _ (Arithmetic.natAbs_remainder_operandModulus_le b)

/-- Whether no value in the queue or in a register is larger than a bound, whatever its sign. -/
structure Within (bound : Nat) (state : State) : Prop where
  queue : ∀ value ∈ state.queue.toList, value.natAbs ≤ bound
  registers : ∀ register, ∀ value ∈ state.registers.get register, value.natAbs ≤ bound

namespace Within

variable {state : State} {bound larger : Nat}

theorem mono (within : state.Within bound) (le : bound ≤ larger) : state.Within larger where
  queue value member := Nat.le_trans (within.queue value member) le
  registers register value held := Nat.le_trans (within.registers register value held) le

theorem enqueue
    (within : state.Within bound)
    {value : Int}
    (small : value.natAbs ≤ bound) :
    Within bound { state with queue := state.queue.enqueue value } where
  queue other member := by
    rw [ValueQueue.toList_enqueue, List.mem_append, List.mem_singleton] at member
    rcases member with old | rfl
    · exact within.queue other old
    · exact small
  registers := within.registers

theorem dequeue
    (within : state.Within bound)
    {value : Int} {rest : ValueQueue}
    (taken : state.queue.dequeue? = some (value, rest)) :
    value.natAbs ≤ bound ∧ Within bound { state with queue := rest } := by
  have values := ValueQueue.toList_of_dequeue?_eq_some taken
  refine ⟨within.queue value (by simp [values]), fun other member => ?_, within.registers⟩
  exact within.queue other (by rw [values]; exact List.mem_cons_of_mem value member)

theorem set
    (within : state.Within bound)
    {value : Int}
    (small : value.natAbs ≤ bound)
    (register : Register) :
    Within bound { state with registers := state.registers.set register value } where
  queue := within.queue
  registers other held isHeld := by
    simp only [RegisterBank.get_set] at isHeld
    split at isHeld
    · cases isHeld
      exact small
    · exact within.registers other held isHeld

theorem operate
    (within : state.Within bound)
    (le : bound ≤ larger)
    {operator : Operator}
    (evaluated : ∀ a b : Int, a.natAbs ≤ bound → (evaluate operator a b).natAbs ≤ larger) :
    (state.operate operator).Within larger := by
  unfold State.operate
  split
  · exact within.mono le
  · rename_i a behind taken
    obtain ⟨small, afterFirst⟩ := within.dequeue taken
    split
    · exact afterFirst.mono le
    · rename_i b rest takenNext
      obtain ⟨-, afterSecond⟩ := afterFirst.dequeue takenNext
      exact (afterSecond.mono le).enqueue (evaluated a b small)

theorem jump (within : state.Within bound) (label : String) : (state.jump label).Within bound := by
  obtain ⟨pc, jumped, -⟩ := state.jump_eq label
  rw [jumped]
  exact ⟨within.queue, within.registers⟩

/-- What an operation makes of values within a bound: only a literal and the result of an operator
can be larger than what there was before. -/
theorem perform
    (within : state.Within bound)
    (le : bound ≤ larger)
    {operation : Operation}
    (pushed : ∀ value, operation = .push value → value.natAbs ≤ larger)
    (evaluated : ∀ operator, operation = .operate operator →
      ∀ a b : Int, a.natAbs ≤ bound → (evaluate operator a b).natAbs ≤ larger) :
    (state.perform operation).state.Within larger := by
  cases operation with
  | push value => exact (within.mono le).enqueue (pushed value rfl)
  | operate operator => exact within.operate le (evaluated operator rfl)
  | store register =>
      simp only [State.perform]
      split
      · exact within.mono le
      · rename_i value rest taken
        obtain ⟨small, afterwards⟩ := within.dequeue taken
        exact (afterwards.set small register).mono le
  | load register =>
      simp only [State.perform]
      split
      · exact within.mono le
      · rename_i value held
        exact (within.enqueue (within.registers register value held)).mono le
  | print style =>
      simp only [State.perform]
      split
      · exact within.mono le
      · rename_i value rest taken
        exact (within.dequeue taken).2.mono le
  | printRegister style register =>
      simp only [State.perform]
      split <;> exact within.mono le
  | mark label index =>
      have kept := within.mono le
      exact ⟨kept.queue, kept.registers⟩
  | jump label => exact (within.jump label).mono le
  | jumpIfZero register label =>
      simp only [State.perform, Effect.state]
      split
      · exact (within.jump label).mono le
      · exact within.mono le
  | jumpIf comparison left right label =>
      simp only [State.perform, Effect.state]
      split
      · exact (within.jump label).mono le
      · exact within.mono le
  | quit => exact within.mono le

end Within

theorem within_initial (labels : LabelTable) (bound : Nat) : (initial labels).Within bound where
  queue := nofun
  registers register value held := by simp [initial, RegisterBank.get_empty] at held

end State

namespace Instruction

def literal? (instruction : Instruction) : Option Int :=
  match instruction.opcode with
  | .input => (instruction.operand 0 >>= Numeral.parse).toOption
  | _ => none

/-- The largest number among one and the literals without their signs. -/
def magnitude (instructions : List Instruction) : Nat :=
  (1 :: (instructions.filterMap literal?).map Int.natAbs).foldr max 0

theorem Denotes.literal?_eq
    {instruction : Instruction} {value : Int}
    (denotes : instruction.Denotes (.push value)) :
    instruction.literal? = some value := by
  cases denotes with
  | @push literal valid =>
      change (Numeral.parse literal).toOption = _
      rw [Numeral.parse_of_isLiteral valid]
      rfl

theorem Denotes.eq_of_operate
    {instruction : Instruction} {operator : Operator}
    (denotes : instruction.Denotes (.operate operator)) :
    instruction = ⟨.operate operator, []⟩ := by
  cases denotes
  rfl

theorem one_le_magnitude (instructions : List Instruction) : 1 ≤ magnitude instructions :=
  List.le_max_of_le' 0 List.mem_cons_self (Nat.le_refl 1)

theorem natAbs_le_magnitude
    {instructions : List Instruction} {instruction : Instruction} {value : Int}
    (member : instruction ∈ instructions)
    (literal : instruction.literal? = some value) :
    value.natAbs ≤ magnitude instructions := by
  have listed : value ∈ instructions.filterMap literal? :=
    List.mem_filterMap.mpr ⟨instruction, member, literal⟩
  apply List.le_max_of_le' 0 (List.mem_cons_of_mem 1 (List.mem_map_of_mem listed))
  exact Nat.le_refl _

/-- Whether one step of some instructions leads from values within a bound to values within a larger
one. -/
structure Growth (instructions : List Instruction) (bound larger : Nat) : Prop where
  le : bound ≤ larger
  literal : ∀ instruction ∈ instructions, ∀ value ∈ instruction.literal?, value.natAbs ≤ larger
  result : ∀ operator, ⟨.operate operator, []⟩ ∈ instructions →
    ∀ a b : Int, a.natAbs ≤ bound → (State.evaluate operator a b).natAbs ≤ larger

/-- Whatever the instructions, one step multiplies the bound by no more than the modulus. -/
theorem growth_mul
    {instructions : List Instruction} {bound : Nat}
    (enough : magnitude instructions ≤ bound) :
    Growth instructions bound (bound * 65536) where
  le := Nat.le_mul_of_pos_right bound (by decide)
  literal instruction member value isLiteral := by
    have small := natAbs_le_magnitude member isLiteral
    omega
  result operator _ a b small := by
    have positive := one_le_magnitude instructions
    by_cases times : operator = .times
    · subst times
      calc (State.evaluate .times a b).natAbs
        _ ≤ a.natAbs * 65535 := State.natAbs_evaluate_times_le a b
        _ ≤ bound * 65536 := Nat.mul_le_mul small (by decide)
    · -- The bound is at least one, so that the summand is no more than the factor gives.
      have result := State.natAbs_evaluate_le_add times a b
      omega

theorem growth_add
    {instructions : List Instruction} {bound : Nat}
    (enough : magnitude instructions ≤ bound)
    (noTimes : ∀ instruction ∈ instructions, instruction.opcode ≠ .operate .times) :
    Growth instructions bound (bound + 65535) where
  le := Nat.le_add_right bound 65535
  literal instruction member value isLiteral := by
    have small := natAbs_le_magnitude member isLiteral
    omega
  result operator member a b small := by
    have notTimes : operator ≠ .times := by
      rintro rfl
      exact noTimes _ member rfl
    have result := State.natAbs_evaluate_le_add notTimes a b
    omega

end Instruction

namespace Machine

theorem Safe.within_step
    {machine : Machine}
    (safe : machine.Safe)
    {bound larger : Nat}
    (growth : Instruction.Growth machine.instructions.toList bound larger)
    (within : machine.state.Within bound) :
    machine.step.machine.state.Within larger := by
  rcases safe.step_cases with ⟨-, stepped⟩ | ⟨-, instruction, operation, found, denotes, stepped⟩
  · rw [stepped]
    exact within.mono growth.le
  · have member : instruction ∈ machine.instructions.toList := (Array.mem_of_getElem? found).val
    have performed : (machine.state.perform operation).state.Within larger := by
      apply within.perform growth.le
      · rintro value rfl
        exact growth.literal instruction member value denotes.literal?_eq
      · rintro operator rfl
        exact growth.result operator (denotes.eq_of_operate ▸ member)
    rw [stepped]
    exact ⟨performed.queue, performed.registers⟩

theorem Safe.within_stepMany
    {machine : Machine}
    (safe : machine.Safe)
    (bounds : Nat → Nat)
    (growth : ∀ count,
      Instruction.Growth machine.instructions.toList (bounds count) (bounds (count + 1)))
    (start : machine.state.Within (bounds 0))
    (count : Nat) :
    (Machine.stepMany count machine).machine.state.Within (bounds count) := by
  induction count with
  | zero => exact start
  | succ count inductionHypothesis =>
      have sameInstructions :
          (Machine.stepMany count machine).machine.instructions = machine.instructions := by
        obtain ⟨text, state, changed⟩ := exists_stepMany_eq count machine
        rw [changed]
      rw [safe.machine_stepMany_succ]
      exact (safe.stepMany count).2.within_step (sameInstructions ▸ growth count) inductionHypothesis

/-- After any number of steps of a compiled program, no value in the queue or in a register is larger
than the largest literal times as many powers of 65536; and if the program does not multiply, than
the largest literal and as many times 65535. -/
theorem within_stepMany_ofSource
    (source sourceName : String)
    (bounded : (Program.ofSource source sourceName).size < Numeral.placeValue Numeral.maxDigits)
    (sink : Option Sink)
    (isOpen : (sink.getD (.buffer {})).isOpen = true)
    (count : Nat) :
    let program := Program.ofSource source sourceName
    let largest := Instruction.magnitude program.instructions
    let ended := stepMany count (ofProgram program sink)
    (∃ signals, signals.length = count ∧ ended.answer = .ok signals) ∧
      ended.machine.state.Within (largest * 65536 ^ count) ∧
      ((∀ instruction ∈ program.instructions, instruction.opcode ≠ .operate .times) →
        ended.machine.state.Within (largest + 65535 * count)) := by
  intro program largest ended
  have safe : (ofProgram program sink).Safe := (onCourse_ofProgram bounded isOpen).toSafe
  refine ⟨(safe.stepMany count).1, ?_, fun noTimes => ?_⟩
  · apply safe.within_stepMany fun time => largest * 65536 ^ time
    · intro time
      rw [Nat.pow_succ, ← Nat.mul_assoc]
      exact Instruction.growth_mul (Nat.le_mul_of_pos_right _ (Nat.pow_pos (by decide)))
    · exact State.within_initial _ _
  · apply safe.within_stepMany fun time => largest + 65535 * time
    · intro time
      rw [Nat.mul_succ, ← Nat.add_assoc]
      exact Instruction.growth_add (Nat.le_add_right _ _) noTimes
    · exact State.within_initial _ _

/-- A loop that subtracts the largest possible number from a register in every round. -/
theorem within_stepMany_ofSource_subtracting :
    let program := Program.ofSource "-7 >a :again <a 65535 - >a Jagain" standardInputName
    let ended := stepMany 17 (ofProgram program none)
    program.size < Numeral.placeValue Numeral.maxDigits ∧
      Instruction.magnitude program.instructions = 65535 ∧
      (∀ instruction ∈ program.instructions, instruction.opcode ≠ .operate .times) ∧
      ended.machine.state.registers.assignments = [("a", -196612)] ∧
      ended.machine.state.Within (65535 * 65536 ^ 17) ∧
      ended.machine.state.Within (65535 + 65535 * 17) := by
  intro program ended
  have bounded : program.size < Numeral.placeValue Numeral.maxDigits :=
    Nat.lt_of_le_of_lt (Program.size_ofSource_le _ _) (by decide +kernel)
  have largest : Instruction.magnitude program.instructions = 65535 := by decide +kernel
  have noTimes : ∀ instruction ∈ program.instructions, instruction.opcode ≠ .operate .times := by
    decide +kernel
  obtain ⟨-, powers, multiples⟩ := within_stepMany_ofSource _ _ bounded none rfl 17
  rw [largest] at powers multiples
  exact ⟨bounded, largest, noTimes, by decide +kernel, powers, multiples noTimes⟩

end Machine

end QueueMachine
