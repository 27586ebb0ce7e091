import QueueMachine.Machine.Run
import QueueMachine.Proofs.Machine.Operation
import QueueMachine.Proofs.Sink

set_option autoImplicit false

/-!
Steps of a safe machine. A machine is safe if all its instructions denote operations, its output is
taken and nothing leads it before its first instruction. A safe machine stays safe and never meets
a fault: each step is either the one of a finished machine, which changes nothing, or performs the
operation at the program counter.
-/

namespace QueueMachine

theorem State.perform_cases (state : State) (operation : Operation) :
    (operation ≠ .quit ∧
        ((∃ next, state.perform operation = .proceed next) ∨
          ∃ text next, state.perform operation = .output text next)) ∨
      (operation = .quit ∧ state.perform operation = .halt state) := by
  cases operation with
  | quit => exact .inr ⟨rfl, rfl⟩
  | store register =>
      refine .inl ⟨by simp, .inl ?_⟩
      simp only [perform]
      split <;> exact ⟨_, rfl⟩
  | load register =>
      refine .inl ⟨by simp, .inl ?_⟩
      simp only [perform]
      split <;> exact ⟨_, rfl⟩
  | print style =>
      refine .inl ⟨by simp, ?_⟩
      simp only [perform]
      split
      · exact .inl ⟨_, rfl⟩
      · exact .inr ⟨_, _, rfl⟩
  | printRegister style register =>
      refine .inl ⟨by simp, ?_⟩
      simp only [perform]
      split
      · exact .inl ⟨_, rfl⟩
      · exact .inr ⟨_, _, rfl⟩
  | _ => exact .inl ⟨by simp, .inl ⟨_, rfl⟩⟩

def Operation.signal (operation : Operation) : Signal :=
  if operation = .quit then .halted else .running

namespace Machine

def after (machine : Machine) (operation : Operation) : Machine :=
  { machine with
    sink := machine.sink.accept (machine.state.perform operation).text
    state := machine.state.after operation }

theorem state_after (machine : Machine) (operation : Operation) :
    (machine.after operation).state = machine.state.after operation := rfl

/-- An operation is done, unless it puts out a text that the sink does not take. -/
theorem conclude_perform_cases (machine : Machine) (operation : Operation) :
    machine.conclude (machine.state.perform operation) =
        ⟨machine.after operation, .ok operation.signal⟩ ∨
      machine.sink.isOpen = false ∧
        ∃ state, state.steps = machine.state.steps ∧
          machine.conclude (machine.state.perform operation) =
            ⟨{ machine with state }, .error .closedStream⟩ := by
  rcases machine.state.perform_cases operation with
    ⟨continues, ⟨next, effect⟩ | ⟨text, next, effect⟩⟩ | ⟨rfl, effect⟩
  · have notQuit : (operation == .quit) = false := beq_eq_false_iff_ne.mpr continues
    left
    simp [after, State.after, effect, conclude, Effect.state, Effect.text, Operation.signal,
      continues, notQuit]
  · have notQuit : (operation == .quit) = false := beq_eq_false_iff_ne.mpr continues
    cases status : machine.sink.isOpen with
    | true =>
        left
        simp [after, State.after, effect, conclude, Effect.state, Effect.text, Operation.signal,
          continues, notQuit, Sink.write_of_isOpen status]
    | false =>
        obtain ⟨queue, registers, pc, changed, -⟩ := machine.state.state_perform operation
        rw [effect] at changed
        have counted : (Effect.output text next).state.steps = machine.state.steps := by rw [changed]
        refine .inr ⟨rfl, next, counted, ?_⟩
        rw [effect, conclude, Sink.write_of_not_isOpen status]
  · left
    simp [after, State.after, effect, conclude, Effect.state, Effect.text, Operation.signal]

theorem conclude_perform
    {machine : Machine}
    (isOpen : machine.sink.isOpen = true)
    (operation : Operation) :
    machine.conclude (machine.state.perform operation) =
      ⟨machine.after operation, .ok operation.signal⟩ := by
  rcases machine.conclude_perform_cases operation with done | ⟨shut, -⟩
  · exact done
  · rw [isOpen] at shut
    cases shut

theorem fetch_of_getElem?_eq_some
    {machine : Machine} {instruction : Instruction}
    (nonnegative : 0 ≤ machine.state.pc)
    (found : machine.instructions[machine.state.pc.toNat]? = some instruction) :
    machine.fetch = .ok instruction := by
  have notBelow : ¬ machine.state.pc < 0 := Int.not_lt.mpr nonnegative
  simp only [fetch, notBelow, if_false, found]

theorem mem_of_fetch_eq_ok
    {machine : Machine} {instruction : Instruction}
    (fetched : machine.fetch = .ok instruction) :
    instruction ∈ machine.instructions := by
  unfold fetch at fetched
  dsimp only at fetched
  generalize (if machine.state.pc < 0 then machine.state.pc + machine.instructions.size
    else machine.state.pc) = index at fetched
  by_cases below : index < 0
  · rw [if_pos below] at fetched
    cases fetched
  · rw [if_neg below] at fetched
    cases found : machine.instructions[index.toNat]? with
    | none =>
        rw [found] at fetched
        cases fetched
    | some other =>
        rw [found] at fetched
        cases fetched
        exact Array.mem_of_getElem? found

/-- The effect of an instruction reaches the state, and the sink by one text at most. -/
theorem exists_conclude_eq (machine : Machine) (effect : Effect) :
    ∃ text state,
      (machine.conclude effect).machine =
        { machine with sink := machine.sink.accept text, state } := by
  cases effect with
  | output text state =>
      rw [conclude]
      cases status : machine.sink.isOpen with
      | true => exact ⟨text, _, by rw [Sink.write_of_isOpen status]⟩
      | false => exact ⟨"", state, by rw [Sink.write_of_not_isOpen status, Sink.accept_empty]⟩
  | _ => exact ⟨"", _, by rw [Sink.accept_empty]; rfl⟩

/-- All that a step changes, whether it meets a fault or not. -/
theorem exists_step_eq (machine : Machine) :
    ∃ text state,
      machine.step.machine = { machine with sink := machine.sink.accept text, state } := by
  rw [step]
  split
  · exact ⟨"", machine.state, by rw [Sink.accept_empty]⟩
  · split
    · exact ⟨"", machine.state, by rw [Sink.accept_empty]⟩
    · exact machine.exists_conclude_eq _

theorem instructions_step (machine : Machine) :
    machine.step.machine.instructions = machine.instructions := by
  obtain ⟨text, state, stepped⟩ := machine.exists_step_eq
  rw [stepped]

theorem step_of_finished
    {machine : Machine}
    (finished : machine.finished = true) :
    machine.step = ⟨machine, .ok .halted⟩ := by
  rw [step, if_pos finished]

theorem step_of_fetch
    {machine : Machine} {instruction : Instruction}
    (unfinished : machine.finished = false)
    (fetched : machine.fetch = .ok instruction) :
    machine.step = machine.conclude (machine.state.execute instruction) := by
  rw [step, if_neg (by simp [unfinished]), fetched]

theorem step_of_fetch_eq_error
    {machine : Machine} {fault : Fault}
    (unfinished : machine.finished = false)
    (failed : machine.fetch = .error fault) :
    machine.step = ⟨machine, .error fault⟩ := by
  rw [step, if_neg (by simp [unfinished]), failed]

theorem step_of_denotes
    {machine : Machine} {instruction : Instruction} {operation : Operation}
    (unfinished : machine.finished = false)
    (isOpen : machine.sink.isOpen = true)
    (nonnegative : 0 ≤ machine.state.pc)
    (found : machine.instructions[machine.state.pc.toNat]? = some instruction)
    (denotes : instruction.Denotes operation) :
    machine.step = ⟨machine.after operation, .ok operation.signal⟩ := by
  rw [step, if_neg (by simp [unfinished]), fetch_of_getElem?_eq_some nonnegative found]
  dsimp only
  rw [State.execute_of_denotes denotes, conclude_perform isOpen]

theorem finished_eq_false_iff (machine : Machine) :
    machine.finished = false ↔
      machine.state.halted = false ∧ machine.state.pc < machine.instructions.size := by
  simp [finished]

/-- What keeps a machine from ever meeting a fault. -/
structure Safe (machine : Machine) : Prop where
  denotes : ∀ instruction ∈ machine.instructions, ∃ operation, instruction.Denotes operation
  isOpen : machine.sink.isOpen = true
  pc_nonneg : 0 ≤ machine.state.pc
  labels_nonneg : machine.state.labels.Nonneg

theorem Safe.exists_next
    {machine : Machine}
    (safe : machine.Safe)
    (unfinished : machine.finished = false) :
    ∃ instruction operation,
      machine.instructions[machine.state.pc.toNat]? = some instruction ∧
        instruction.Denotes operation := by
  have inRange : machine.state.pc.toNat < machine.instructions.size := by
    have bounds := (finished_eq_false_iff machine).mp unfinished
    have nonnegative := safe.pc_nonneg
    omega
  obtain ⟨operation, denotes⟩ := safe.denotes _ (Array.getElem_mem inRange)
  exact ⟨_, operation, Array.getElem?_eq_getElem inRange, denotes⟩

/-- All that a step of a safe machine can be. -/
theorem Safe.step_cases
    {machine : Machine}
    (safe : machine.Safe) :
    (machine.finished = true ∧ machine.step = ⟨machine, .ok .halted⟩) ∨
      (machine.finished = false ∧
        ∃ instruction operation,
          machine.instructions[machine.state.pc.toNat]? = some instruction ∧
            instruction.Denotes operation ∧
            machine.step = ⟨machine.after operation, .ok operation.signal⟩) := by
  cases status : machine.finished with
  | true => exact .inl ⟨rfl, step_of_finished status⟩
  | false =>
      obtain ⟨instruction, operation, found, denotes⟩ := safe.exists_next status
      exact .inr ⟨rfl, instruction, operation, found, denotes,
        step_of_denotes status safe.isOpen safe.pc_nonneg found denotes⟩

theorem Safe.after
    {machine : Machine}
    (safe : machine.Safe)
    (operation : Operation) :
    (machine.after operation).Safe := by
  obtain ⟨queue, registers, pc, changed, reason⟩ := machine.state.after_eq operation
  have nonnegative : 0 ≤ pc := by
    rcases reason with rfl | ⟨label, -, bound⟩
    · exact safe.pc_nonneg
    · exact safe.labels_nonneg label pc bound
  refine ⟨safe.denotes, by simpa [Machine.after] using safe.isOpen, ?_, ?_⟩
  · rw [state_after, changed]
    exact Int.add_nonneg nonnegative (by decide)
  · rw [state_after, changed]
    cases operation with
    | mark name index => exact safe.labels_nonneg.bind name index
    | _ => exact safe.labels_nonneg

theorem Safe.step
    {machine : Machine}
    (safe : machine.Safe) :
    (∃ signal, machine.step.answer = .ok signal) ∧ machine.step.machine.Safe := by
  rcases safe.step_cases with ⟨-, stepped⟩ | ⟨-, _, operation, -, -, stepped⟩
  · rw [stepped]
    exact ⟨⟨_, rfl⟩, safe⟩
  · rw [stepped]
    exact ⟨⟨_, rfl⟩, safe.after operation⟩

theorem Safe.steps_step
    {machine : Machine}
    (safe : machine.Safe)
    (unfinished : machine.finished = false) :
    machine.step.machine.state.steps = machine.state.steps + 1 := by
  rcases safe.step_cases with ⟨finished, -⟩ | ⟨-, _, operation, -, -, stepped⟩
  · rw [unfinished] at finished
    cases finished
  · obtain ⟨queue, registers, pc, changed, -⟩ := machine.state.after_eq operation
    rw [stepped, state_after, changed]

theorem stepMany_succ_of_error
    {machine next : Machine} {fault : Fault}
    (failed : machine.step = ⟨next, .error fault⟩)
    (count : Nat) :
    stepMany (count + 1) machine = ⟨next, .error fault⟩ := by
  simp only [stepMany, failed]

theorem stepMany_succ_of_ok
    {machine next : Machine} {signal : Signal}
    (stepped : machine.step = ⟨next, .ok signal⟩)
    (count : Nat) :
    stepMany (count + 1) machine =
      ⟨(stepMany count next).machine, (stepMany count next).answer.map (signal :: ·)⟩ := by
  simp only [stepMany, stepped]

/-- What every step keeps, and keeps free of faults, any number of steps keeps. -/
theorem stepMany_of_step
    {invariant : Machine → Prop}
    (kept : ∀ machine, invariant machine →
      (∃ signal, machine.step.answer = .ok signal) ∧ invariant machine.step.machine)
    (count : Nat) {machine : Machine}
    (start : invariant machine) :
    (∃ signals, signals.length = count ∧ (stepMany count machine).answer = .ok signals) ∧
      invariant (stepMany count machine).machine := by
  induction count generalizing machine with
  | zero => exact ⟨⟨[], rfl, rfl⟩, start⟩
  | succ count inductionHypothesis =>
      obtain ⟨⟨signal, answered⟩, next⟩ := kept machine start
      obtain ⟨⟨signals, length, answers⟩, ended⟩ := inductionHypothesis next
      match stepped : machine.step with
      | ⟨following, .error fault⟩ =>
          rw [stepped] at answered
          cases answered
      | ⟨following, .ok first⟩ =>
          rw [stepped] at ended answers
          rw [stepMany_succ_of_ok stepped]
          refine ⟨⟨first :: signals, by rw [List.length_cons, length], ?_⟩, ended⟩
          rw [answers]
          rfl

theorem machine_stepMany_add
    {first : Nat} {machine : Machine} {signals : List Signal}
    (answered : (stepMany first machine).answer = .ok signals)
    (second : Nat) :
    (stepMany (first + second) machine).machine =
      (stepMany second (stepMany first machine).machine).machine := by
  induction first generalizing machine signals with
  | zero => rw [Nat.zero_add]; rfl
  | succ first inductionHypothesis =>
      rw [Nat.succ_add]
      match stepped : machine.step with
      | ⟨following, .error fault⟩ =>
          rw [stepMany_succ_of_error stepped] at answered
          cases answered
      | ⟨following, .ok signal⟩ =>
          rw [stepMany_succ_of_ok stepped] at answered
          rw [stepMany_succ_of_ok stepped, stepMany_succ_of_ok stepped]
          dsimp only at answered ⊢
          cases rest : (stepMany first following).answer with
          | error fault =>
              rw [rest] at answered
              cases answered
          | ok others => exact inductionHypothesis rest

theorem machine_stepMany_one (machine : Machine) :
    (stepMany 1 machine).machine = machine.step.machine := by
  match stepped : machine.step with
  | ⟨following, .error fault⟩ => rw [stepMany_succ_of_error stepped]
  | ⟨following, .ok signal⟩ =>
      rw [stepMany_succ_of_ok stepped]
      rfl

theorem machine_stepMany_of_step
    {invariant : Machine → Prop}
    (kept : ∀ machine, invariant machine → invariant machine.step.machine)
    (count : Nat) {machine : Machine}
    (start : invariant machine) :
    invariant (stepMany count machine).machine := by
  induction count generalizing machine with
  | zero => exact start
  | succ count inductionHypothesis =>
      have next := kept machine start
      match stepped : machine.step with
      | ⟨following, .error fault⟩ =>
          rw [stepped] at next
          rw [stepMany_succ_of_error stepped]
          exact next
      | ⟨following, .ok signal⟩ =>
          rw [stepped] at next
          rw [stepMany_succ_of_ok stepped]
          exact inductionHypothesis next

/-- All that steps change, faults included: text is added to the sink, and there is a new state. -/
theorem exists_stepMany_eq (count : Nat) (machine : Machine) :
    ∃ text state,
      (stepMany count machine).machine =
        { machine with sink := machine.sink.accept text, state } := by
  refine @machine_stepMany_of_step
    (fun reached => ∃ text state, reached = { machine with sink := machine.sink.accept text, state })
    ?_ count machine ⟨"", machine.state, by rw [Sink.accept_empty]⟩
  rintro _ ⟨text, state, rfl⟩
  obtain ⟨more, next, stepped⟩ :=
    exists_step_eq { machine with sink := machine.sink.accept text, state }
  exact ⟨text ++ more, next, by rw [stepped, Sink.accept_accept]⟩

theorem loop_of_step
    {invariant : Machine → Prop} {traced : Bool}
    (announced : ∀ machine, invariant machine → machine.finished = false →
      ∃ block, machine.announce traced = .ok block)
    (kept : ∀ machine, invariant machine →
      (∃ signal, machine.step.answer = .ok signal) ∧ invariant machine.step.machine)
    (bound : Nat) {machine : Machine}
    (start : invariant machine)
    (trace : String) :
    (loop traced bound machine trace).fault = none ∧
      invariant (loop traced bound machine trace).machine := by
  induction bound generalizing machine trace with
  | zero => exact ⟨rfl, start⟩
  | succ bound inductionHypothesis =>
      rw [loop]
      split
      · exact ⟨rfl, start⟩
      · rename_i unfinished
        obtain ⟨block, told⟩ := announced machine start (by simpa using unfinished)
        obtain ⟨⟨signal, answered⟩, next⟩ := kept machine start
        rw [told]
        dsimp only
        split
        · rename_i stepped
          rw [stepped] at answered
          cases answered
        · rename_i following first stepped
          rw [stepped] at next
          exact inductionHypothesis next _

end Machine

end QueueMachine
