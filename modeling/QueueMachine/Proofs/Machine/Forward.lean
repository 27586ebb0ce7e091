import Mathlib.Order.Nat
import QueueMachine.Proofs.Machine.History
import QueueMachine.Proofs.Machine.Trace

set_option autoImplicit false

/-!
Programs that only jump forward. A label can be moved from one mark to another while the program
runs, but never to anything else than a mark of its name. So if all these marks stand behind the
jumps to the label, every step leads further on, and a run without a limit ends after at most as many
steps as there are instructions.
-/

namespace QueueMachine

namespace Instruction

/-- The label of a jump, which is the last of its operands. -/
def jumpLabel? (instruction : Instruction) : Option String :=
  match instruction.opcode with
  | .jump => instruction.operands.getLast?
  | .jumpIfZero => instruction.operands.getLast?
  | .jumpIf _ => instruction.operands.getLast?
  | _ => none

theorem Denotes.jumpLabel?_eq
    {instruction : Instruction} {operation : Operation}
    (denotes : instruction.Denotes operation) :
    instruction.jumpLabel? = operation.jumpLabel? := by
  cases denotes <;> rfl

/-- Whether all marks of the label of a jump stand behind the jump, for every jump. -/
def Forward (instructions : List Instruction) : Prop :=
  ∀ (position : Nat) (instruction : Instruction) (label : String),
    instructions[position]? = some instruction →
    instruction.jumpLabel? = some label →
    ∀ mark ∈ marks instructions label, position < mark

theorem forward_iff_forall_mem_zipIdx (instructions : List Instruction) :
    Forward instructions ↔
      ∀ jump ∈ instructions.zipIdx, ∀ label ∈ jump.1.jumpLabel?,
        ∀ mark ∈ instructions.zipIdx, mark.1.IsMark label → jump.2 < mark.2 := by
  constructor
  · rintro forward ⟨jump, position⟩ standing label aimed ⟨mark, index⟩ marking isMark
    rw [List.mem_zipIdx_iff_getElem?] at standing marking
    exact forward position jump label standing aimed index ⟨mark, marking, isMark⟩
  · rintro checked position jump label standing aimed index ⟨mark, marking, isMark⟩
    exact checked (jump, position) (List.mem_zipIdx_iff_getElem?.mpr standing) label aimed
      (mark, index) (List.mem_zipIdx_iff_getElem?.mpr marking) isMark

instance (instructions : List Instruction) : Decidable (Forward instructions) :=
  decidable_of_iff' _ (forward_iff_forall_mem_zipIdx instructions)

end Instruction

namespace Machine

def positions (machine : Machine) : List Int :=
  if machine.finished then [] else [machine.state.pc]

/-- Whether every step leads further on, as long as the machine is not finished. -/
def Advances (machine : Machine) : Prop :=
  ∀ count, (stepMany count machine).machine.finished = false →
    (stepMany count machine).machine.state.pc < (stepMany (count + 1) machine).machine.state.pc

theorem loop_add_of_finished
    {traced : Bool} {bound : Nat} {machine : Machine} {trace : String}
    (finished : (loop traced bound machine trace).machine.finished = true)
    (extra : Nat) :
    loop traced (bound + extra) machine trace = loop traced bound machine trace := by
  induction bound generalizing machine trace with
  | zero =>
      rw [Nat.zero_add]
      exact loop_of_finished finished traced extra trace
  | succ bound inductionHypothesis =>
      rw [Nat.succ_add]
      cases status : machine.finished with
      | true => rw [loop_of_finished status, loop_of_finished status]
      | false =>
          cases told : machine.announce traced with
          | error fault => rw [loop_succ_of_silent status told, loop_succ_of_silent status told]
          | ok block =>
              match stepped : machine.step with
              | ⟨next, .error fault⟩ =>
                  rw [loop_succ_of_error status told stepped, loop_succ_of_error status told stepped]
              | ⟨next, .ok signal⟩ =>
                  rw [loop_succ_of_ok status told stepped] at finished
                  rw [loop_succ_of_ok status told stepped, loop_succ_of_ok status told stepped]
                  exact inductionHypothesis finished

theorem finished_run (machine : Machine) (traced : Bool) (bound : Nat) :
    (machine.run traced bound).machine.finished =
      (loop traced bound machine "").machine.finished :=
  finished_closeSink _

theorem loop_of_le
    {traced : Bool} {bound larger : Nat} {machine : Machine}
    (finished : (machine.run traced bound).machine.finished = true)
    (enough : bound ≤ larger) :
    loop traced larger machine "" = loop traced bound machine "" := by
  obtain ⟨extra, rfl⟩ := Nat.exists_eq_add_of_le enough
  rw [finished_run] at finished
  exact loop_add_of_finished finished extra

/-- A run without a limit is a run that is given enough steps. -/
theorem runWithin?_none_of_le
    {traced : Bool} {bound patience : Nat} {machine : Machine}
    (finished : (machine.run traced bound).machine.finished = true)
    (enough : bound ≤ patience) :
    machine.runWithin? traced none patience = some (machine.run traced bound) := by
  have ended := loop_of_le finished enough
  rw [finished_run] at finished
  simp only [runWithin?, runToEnd?, ended, finished, Bool.or_true, if_true]
  rfl

variable {source sourceName : String}

/-- A step of a program that only jumps forward leads further on. -/
theorem OnCourse.pc_lt_step
    {program : Program} {machine : Machine}
    (forward : Instruction.Forward program.instructions)
    (onCourse : machine.OnCourse program)
    (unfinished : machine.finished = false) :
    machine.state.pc < machine.step.machine.state.pc := by
  rcases onCourse.toSafe.step_cases with
    ⟨finished, -⟩ | ⟨-, instruction, operation, found, denotes, stepped⟩
  · rw [unfinished] at finished
    cases finished
  · obtain ⟨queue, registers, pc, changed, reason⟩ := machine.state.after_eq operation
    rw [stepped, state_after, changed]
    rcases reason with rfl | ⟨label, aimed, bound⟩
    · exact Int.lt_succ machine.state.pc
    · -- Wherever the label has been moved to, a mark of its name stands there.
      obtain ⟨target, rfl, standing⟩ := onCourse.anchored.marks label pc bound
      rw [onCourse.instructions, List.getElem?_toArray] at found
      have behind : machine.state.pc.toNat < target :=
        forward _ instruction label found (denotes.jumpLabel?_eq.trans aimed) target
          ⟨_, standing, rfl, rfl⟩
      have nonnegative := onCourse.pc_nonneg
      dsimp only
      omega

theorem Safe.pairwise_history_positions
    {machine : Machine}
    (safe : machine.Safe)
    (advances : machine.Advances)
    (count : Nat) :
    (machine.history positions count).Pairwise (· < ·) ∧
      ∀ position ∈ machine.history positions count,
        position < (Machine.stepMany count machine).machine.state.pc := by
  induction count with
  | zero => exact ⟨.nil, nofun⟩
  | succ count inductionHypothesis =>
      obtain ⟨increasing, passed⟩ := inductionHypothesis
      have split : machine.history positions (count + 1) =
          machine.history positions count ++ (Machine.stepMany count machine).machine.positions := by
        simp [history, List.range_succ]
      cases status : (Machine.stepMany count machine).machine.finished with
      | true =>
          have still : (Machine.stepMany (count + 1) machine).machine =
              (Machine.stepMany count machine).machine := by
            rw [safe.machine_stepMany_succ, step_of_finished status]
          rw [split, positions, if_pos status, List.append_nil, still]
          exact ⟨increasing, passed⟩
      | false =>
          have further := advances count status
          rw [split, positions, if_neg (by simp [status])]
          refine ⟨List.pairwise_append.mpr ⟨increasing, List.pairwise_singleton _ _, ?_⟩, ?_⟩
          · intro earlier member last isLast
            rw [List.mem_singleton.mp isLast]
            exact passed earlier member
          · intro position member
            rcases List.mem_append.mp member with earlier | isLast
            · exact Int.lt_trans (passed position earlier) further
            · rw [List.mem_singleton.mp isLast]
              exact further

theorem Advances.exists_finishTime_or_le_pc
    {machine : Machine}
    (advances : machine.Advances)
    (count : Nat) :
    (∃ time ≤ count, time ∈ machine.finishTimes) ∨
      machine.state.pc + count ≤ (stepMany count machine).machine.state.pc := by
  induction count with
  | zero => exact .inr (Int.le_of_eq (Int.add_zero _))
  | succ count inductionHypothesis =>
      rcases inductionHypothesis with ⟨time, within, isFinish⟩ | advanced
      · exact .inl ⟨time, Nat.le_succ_of_le within, isFinish⟩
      · cases status : (stepMany count machine).machine.finished with
        | true => exact .inl ⟨count, Nat.le_succ count, status⟩
        | false =>
            have further := advances count status
            exact .inr (by omega)

theorem OnCourse.advances
    (bounded : (Program.ofSource source sourceName).size < Numeral.placeValue Numeral.maxDigits)
    (forward : Instruction.Forward (Program.ofSource source sourceName).instructions)
    {machine : Machine}
    (onCourse : machine.OnCourse (.ofSource source sourceName)) :
    machine.Advances := by
  intro count unfinished
  obtain ⟨-, reached⟩ := stepMany_of_step (fun _ => OnCourse.step bounded) count onCourse
  rw [onCourse.toSafe.machine_stepMany_succ]
  exact reached.pc_lt_step forward unfinished

theorem OnCourse.exists_isLeast_finishTimes
    (bounded : (Program.ofSource source sourceName).size < Numeral.placeValue Numeral.maxDigits)
    (forward : Instruction.Forward (Program.ofSource source sourceName).instructions)
    {machine : Machine}
    (onCourse : machine.OnCourse (.ofSource source sourceName)) :
    ∃ finish ≤ (Program.ofSource source sourceName).size, IsLeast machine.finishTimes finish := by
  classical
  obtain ⟨time, within, isFinish⟩ :
      ∃ time ≤ (Program.ofSource source sourceName).size, time ∈ machine.finishTimes := by
    rcases (onCourse.advances bounded forward).exists_finishTime_or_le_pc
      (Program.ofSource source sourceName).size with finished | advanced
    · exact finished
    · obtain ⟨-, reached⟩ := stepMany_of_step (fun _ => OnCourse.step bounded)
        (Program.ofSource source sourceName).size onCourse
      have nonnegative := onCourse.pc_nonneg
      refine ⟨_, Nat.le_refl _, Bool.or_eq_true_iff.mpr (.inr (decide_eq_true ?_))⟩
      rw [reached.size_eq]
      omega
  have least := Nat.isLeast_find ⟨time, isFinish⟩
  exact ⟨_, Nat.le_trans (least.2 isFinish) within, least⟩

/-- A compiled program that only jumps forward moves on with every step until it is finished, and so
executes no instruction twice. It finishes after at most as many steps as it has instructions, and a
run without a limit, traced or not, ends there just as the run with that limit does. -/
theorem runWithin?_none_of_forward
    (source sourceName : String)
    (bounded : (Program.ofSource source sourceName).size < Numeral.placeValue Numeral.maxDigits)
    (forward : Instruction.Forward (Program.ofSource source sourceName).instructions)
    (sink : Option Sink)
    (isOpen : (sink.getD (.buffer {})).isOpen = true)
    (traced : Bool) :
    let program := Program.ofSource source sourceName
    let start := ofProgram program sink
    (∀ count,
      (∃ signals, signals.length = count ∧ (stepMany count start).answer = .ok signals) ∧
        ((stepMany count start).machine.finished = false →
          (stepMany count start).machine.state.pc <
            (stepMany (count + 1) start).machine.state.pc) ∧
        (start.history positions count).Nodup) ∧
      ∃ finish ended,
        IsLeast start.finishTimes finish ∧ finish ≤ program.size ∧
          ended.fault = none ∧ ended.machine.finished = true ∧
          ended.machine.state.steps = finish ∧
          ∀ patience,
            start.runWithin? traced (some program.size) patience = some ended ∧
              (finish ≤ patience → start.runWithin? traced none patience = some ended) := by
  intro program start
  have onCourse : start.OnCourse program := onCourse_ofProgram bounded isOpen
  have safe : start.Safe := onCourse.toSafe
  have advances : start.Advances := onCourse.advances bounded forward
  refine ⟨fun count => ⟨(safe.stepMany count).1, advances count, ?_⟩, ?_⟩
  · exact (safe.pairwise_history_positions advances count).1.imp Int.ne_of_lt
  · obtain ⟨finish, within, least⟩ := onCourse.exists_isLeast_finishTimes bounded forward
    have runs := onCourse.stateOnCourse.machine_run bounded traced
    have finished : (start.run traced finish).machine.finished = true := by
      rw [runs, finished_closeSink]
      exact least.1
    have limited : start.run traced program.size = start.run traced finish :=
      congrArg Run.closeSink (loop_of_le finished within)
    refine ⟨finish, start.run traced finish, least, within, fault_run_ofSource bounded isOpen _ _,
      finished, ?_, fun patience => ⟨congrArg some limited, runWithin?_none_of_le finished⟩⟩
    rw [runs, state_closeSink, safe.steps_stepMany_of_isLeast least, Nat.min_self]
    exact Nat.zero_add finish

/-- Two jumps over marks: one label has two marks behind its jump, of which the last is meant, and
the other jump leads to `quit`. -/
theorem runWithin?_none_of_forward_two_marks :
    let program := Program.ofSource "Jx :x 1 P :x 0 >a Zay 2 P :y 3 P Q 4 P" standardInputName
    let start := ofProgram program none
    program.size < Numeral.placeValue Numeral.maxDigits ∧
      Instruction.Forward program.instructions ∧
      (start.history positions 20).Nodup ∧
      start.history positions 20 = [0, 5, 6, 7, 11, 12, 13] ∧
      ∃ ended,
        start.runWithin? true (some program.size) 0 = some ended ∧
          start.runWithin? true none 20 = some ended ∧
          ended.machine.output? = some "3\n" := by
  intro program start
  have bounded : program.size < Numeral.placeValue Numeral.maxDigits :=
    Nat.lt_of_le_of_lt (Program.size_ofSource_le _ _) (by decide +kernel)
  have forward : Instruction.Forward program.instructions := by decide +kernel
  have small : program.size ≤ 20 := by decide +kernel
  obtain ⟨stepwise, finish, ended, -, within, -, -, -, runs⟩ :=
    runWithin?_none_of_forward _ _ bounded forward none rfl true
  have limited := (runs 0).1
  have prints : (start.runWithin? true (some program.size) 0).map (·.machine.output?) =
      some (some "3\n") := by
    decide +kernel
  rw [limited, Option.map_some, Option.some.injEq] at prints
  exact ⟨bounded, forward, (stepwise 20).2.2, by decide +kernel, ended, limited,
    (runs 20).2 (Nat.le_trans within small), prints⟩

end Machine

end QueueMachine
