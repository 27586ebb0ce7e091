import QueueMachine.Proofs.Machine.Calls

set_option autoImplicit false

/-!
What a step that meets a fault leaves behind. An instruction looks at its operands before it changes
anything, but for the three that take the head of the queue first: storing a value in a register and
printing one, as a number or as a character. A step that fails has done no more than that, however
the machine came to the state it is in and whatever its sink.
-/

namespace QueueMachine

/-- Whether the head of the queue is taken before anything can go wrong. -/
def Opcode.takesHead : Opcode → Bool
  | .store => true
  | .print _ => true
  | _ => false

theorem Opcode.takesHead_iff (opcode : Opcode) :
    opcode.takesHead = true ↔ opcode ∈ [.store, .print .number, .print .character] := by
  cases opcode with
  | print style => cases style <;> decide
  | operate operator => cases operator <;> decide
  | printRegister style => cases style <;> decide
  | jumpIf comparison => cases comparison <;> decide
  | _ => decide

namespace State

/-- What can be left of a state when an instruction fails: all of it, or all but the head of the
queue. -/
inductive Leaves (opcode : Opcode) (state : State) : State → Prop where
  | all : opcode.takesHead = false → Leaves opcode state state
  | tail {value : Int} {rest : ValueQueue} :
      opcode.takesHead = true → state.queue.dequeue? = some (value, rest) →
      Leaves opcode state { state with queue := rest }

theorem attempt_cases (state : State) (change : Except Fault State) :
    (∃ next, state.attempt change = .proceed next) ∨ (state.attempt change).state = state := by
  cases change with
  | ok next => exact .inl ⟨next, rfl⟩
  | error fault => exact .inr rfl

/-- An instruction is carried out or halts the machine, unless it has left the state as a failing
instruction does. -/
theorem execute_cases (state : State) (instruction : Instruction) :
    (∃ next, state.execute instruction = .proceed next) ∨
      (∃ next, state.execute instruction = .halt next) ∨
      Leaves instruction.opcode state (state.execute instruction).state := by
  obtain ⟨opcode, operands⟩ := instruction
  have attempted (untouched : opcode.takesHead = false) (change : Except Fault State) :
      (∃ next, state.attempt change = .proceed next) ∨
        (∃ next, state.attempt change = .halt next) ∨
        Leaves opcode state (state.attempt change).state := by
    rcases state.attempt_cases change with proceeds | same
    · exact .inl proceeds
    · rw [same]
      exact .inr (.inr (.all untouched))
  cases opcode with
  | operate operator => exact .inl ⟨_, rfl⟩
  | store =>
      simp only [execute]
      cases taken : state.queue.dequeue? with
      | none => exact .inl ⟨_, rfl⟩
      | some pair =>
          -- the register is looked up when the head is already taken
          obtain ⟨value, rest⟩ := pair
          rcases attempt_cases { state with queue := rest } _ with proceeds | same
          · exact .inl proceeds
          · refine .inr (.inr ?_)
            dsimp only
            rw [same]
            exact .tail rfl taken
  | print style =>
      simp only [execute]
      cases taken : state.queue.dequeue? with
      | none => exact .inl ⟨_, rfl⟩
      | some pair => exact .inr (.inr (.tail rfl taken))
  | printRegister style =>
      simp only [execute]
      split
      · exact .inr (.inr (.all rfl))
      · exact .inl ⟨_, rfl⟩
      · exact .inr (.inr (.all rfl))
  | quit => exact .inr (.inl ⟨_, rfl⟩)
  | _ => exact attempted rfl _

end State

namespace Machine

theorem machine_conclude_of_fault?
    {machine : Machine} {effect : Effect} {fault : Fault}
    (failed : (machine.conclude effect).fault? = some fault) :
    (machine.conclude effect).machine = { machine with state := effect.state } := by
  cases effect with
  | proceed state => cases failed
  | halt state => cases failed
  | fault met state => rfl
  | output text state =>
      rw [conclude] at failed ⊢
      -- what the sink refuses it has not taken in any part
      cases written : machine.sink.write text with
      | error refused => rfl
      | ok sink =>
          rw [written] at failed
          cases failed

/-- All that a step which meets a fault can have done: there was no instruction to fetch, or the one
that was fetched has failed. -/
theorem exists_leaves_of_fault?
    {machine : Machine} {fault : Fault}
    (failed : machine.step.fault? = some fault) :
    ∃ left, machine.step.machine = { machine with state := left } ∧
      ((left = machine.state ∧ ∃ met, machine.fetch = .error met) ∨
        ∃ instruction, machine.fetch = .ok instruction ∧
          State.Leaves instruction.opcode machine.state left) := by
  cases status : machine.finished with
  | true =>
      rw [step_of_finished status] at failed
      cases failed
  | false =>
      cases fetched : machine.fetch with
      | error met =>
          rw [step_of_fetch_eq_error status fetched]
          exact ⟨machine.state, rfl, .inl ⟨rfl, met, rfl⟩⟩
      | ok instruction =>
          rw [step_of_fetch status fetched] at failed ⊢
          refine ⟨_, machine_conclude_of_fault? failed, .inr ⟨instruction, rfl, ?_⟩⟩
          rcases machine.state.execute_cases instruction with
            ⟨next, effect⟩ | ⟨next, effect⟩ | leaves
          · rw [effect] at failed
            cases failed
          · rw [effect] at failed
            cases failed
          · exact leaves

/-- A step that meets a fault leaves the whole machine as it was, the sink and what it holds
included, but for the head of the queue, which is lost if and only if the instruction is one of the
three that take it first. -/
theorem step_of_fault?
    (machine : Machine) (fault : Fault)
    (failed : machine.step.fault? = some fault) :
    ∃ queue,
      machine.step.machine = { machine with state := { machine.state with queue } } ∧
        ((queue = machine.state.queue ∧
            ∀ instruction, machine.fetch = .ok instruction →
              instruction.opcode ∉ [.store, .print .number, .print .character]) ∨
          ∃ instruction value, machine.fetch = .ok instruction ∧
            instruction.opcode ∈ [.store, .print .number, .print .character] ∧
            machine.state.queue.toList = value :: queue.toList) := by
  obtain ⟨left, changed, ⟨rfl, met, unfetched⟩ | ⟨instruction, fetched, leaves⟩⟩ :=
    exists_leaves_of_fault? failed
  · refine ⟨_, changed, .inl ⟨rfl, fun instruction fetched => ?_⟩⟩
    rw [unfetched] at fetched
    cases fetched
  · cases leaves with
    | all untouched =>
        refine ⟨_, changed, .inl ⟨rfl, fun other fetched' => ?_⟩⟩
        rw [fetched] at fetched'
        cases fetched'
        rw [← Opcode.takesHead_iff, untouched]
        decide
    | @tail value rest takes taken =>
        refine ⟨rest, changed, .inr ⟨instruction, value, fetched, ?_, ?_⟩⟩
        · exact (Opcode.takesHead_iff _).mp takes
        · exact ValueQueue.toList_of_dequeue?_eq_some taken

/-- A number that a closed stream refuses is gone from the queue, and nothing else is. -/
theorem step_of_fault?_refused_print :
    let instructions : List Instruction :=
      [⟨.input, ["5"]⟩, ⟨.input, ["6"]⟩, ⟨.print .number, []⟩]
    let start := make instructions .empty (some (.stream { ownsStream := true }))
    ∃ ended, start.callAll? [.step, .step, .closeSink] = some ended ∧
      ended.step.fault? = some .closedStream ∧
      ended.state.queue.toList = [5, 6] ∧
      ∃ queue, ended.step.machine = { ended with state := { ended.state with queue } } ∧
        queue.toList = [6] := by
  intro instructions start
  obtain ⟨ended, reached, failed, values, fetched⟩ :
      ∃ ended, start.callAll? [.step, .step, .closeSink] = some ended ∧
        ended.step.fault? = some .closedStream ∧ ended.state.queue.toList = [5, 6] ∧
        ended.fetch = .ok ⟨.print .number, []⟩ :=
    ⟨_, rfl, by decide +kernel, by decide +kernel,
      fetch_of_getElem?_eq_some (by decide +kernel) (by decide +kernel)⟩
  obtain ⟨queue, changed, ⟨-, kept⟩ | ⟨_, value, -, -, lost⟩⟩ := step_of_fault? ended _ failed
  · exact absurd (by decide) (kept _ fetched)
  · rw [values] at lost
    exact ⟨ended, reached, failed, values, queue, changed, (List.cons.inj lost).2.symm⟩

end Machine

end QueueMachine
