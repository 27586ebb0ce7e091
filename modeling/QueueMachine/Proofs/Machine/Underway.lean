import QueueMachine.Proofs.Machine.Bounded
import QueueMachine.Proofs.Machine.Reachable

set_option autoImplicit false

/-!
Machines on the way. A program takes one course on a machine with a buffer of its own, and the count
of the steps tells where on it the machine is. A step goes one further, and a reset goes back to
where every run starts.
-/

namespace QueueMachine

namespace Machine

/-- Whether this is the machine of the program after as many steps as it has counted. -/
def Underway (program : Program) (machine : Machine) : Prop :=
  (stepMany machine.state.steps (ofProgram program none)).machine = machine

theorem underway_ofProgram (program : Program) : (ofProgram program none).Underway program :=
  rfl

namespace Underway

theorem exists_eq
    {program : Program} {machine : Machine}
    (underway : machine.Underway program) :
    ∃ text state,
      machine =
        { ofProgram program none with
          sink := (ofProgram program none).sink.accept text
          state } := by
  obtain ⟨text, state, reached⟩ := exists_stepMany_eq machine.state.steps (ofProgram program none)
  exact ⟨text, state, underway.symm.trans reached⟩

theorem reset_eq
    {program : Program} {machine : Machine}
    (underway : machine.Underway program) :
    machine.reset = ofProgram program none := by
  obtain ⟨text, state, rfl⟩ := underway.exists_eq
  rfl

theorem closed_sink_closeSink
    {program : Program} {machine : Machine}
    (underway : machine.Underway program) :
    machine.sink.closed = false ∧ machine.closeSink.sink.closed = true := by
  obtain ⟨text, state, rfl⟩ := underway.exists_eq
  exact ⟨rfl, rfl⟩

theorem closingFault?_eq_none
    {program : Program} {machine : Machine}
    (underway : machine.Underway program) :
    machine.closingFault? = none := by
  obtain ⟨text, state, rfl⟩ := underway.exists_eq
  rfl

variable {source sourceName : String}

theorem onCourse
    (bounded : (Program.ofSource source sourceName).size < Numeral.placeValue Numeral.maxDigits)
    {machine : Machine}
    (underway : machine.Underway (.ofSource source sourceName)) :
    machine.OnCourse (.ofSource source sourceName) := by
  have start :
      (ofProgram (.ofSource source sourceName) none).OnCourse (.ofSource source sourceName) :=
    onCourse_ofProgram bounded rfl
  have reached := (stepMany_of_step (fun _ => OnCourse.step bounded) machine.state.steps start).2
  rwa [underway] at reached

theorem inProgram
    {machine : Machine}
    (underway : machine.Underway (.ofSource source sourceName)) :
    machine.InProgram (.ofSource source sourceName) := by
  have reached := @machine_stepMany_of_step (InProgram (.ofSource source sourceName))
    (fun _ => InProgram.step) machine.state.steps _ (inProgram_ofProgram none)
  rwa [underway] at reached

theorem exists_stepMany_eq
    (bounded : (Program.ofSource source sourceName).size < Numeral.placeValue Numeral.maxDigits)
    {machine : Machine}
    (underway : machine.Underway (.ofSource source sourceName)) :
    ∃ signals, signals.length = machine.state.steps ∧
      stepMany machine.state.steps (ofProgram (.ofSource source sourceName) none) =
        ⟨machine, .ok signals⟩ := by
  have safe := ((underway_ofProgram _).onCourse bounded).toSafe
  obtain ⟨⟨signals, length, answered⟩, -⟩ := safe.stepMany machine.state.steps
  refine ⟨signals, length, ?_⟩
  unfold Underway at underway
  match ended : stepMany machine.state.steps (ofProgram (.ofSource source sourceName) none) with
  | ⟨reached, answer⟩ =>
      rw [ended] at underway answered
      exact congr (congrArg Outcome.mk underway) answered

/-- A step of an unfinished machine goes one further, and it tells that the machine has halted only
if the machine is finished then. -/
theorem step
    (bounded : (Program.ofSource source sourceName).size < Numeral.placeValue Numeral.maxDigits)
    {machine : Machine}
    (underway : machine.Underway (.ofSource source sourceName))
    (unfinished : machine.finished = false) :
    ∃ next signal, machine.step = ⟨next, .ok signal⟩ ∧
      next.Underway (.ofSource source sourceName) ∧
      next.state.steps = machine.state.steps + 1 ∧
      (signal = .halted → next.finished = true) := by
  have start := ((underway_ofProgram (.ofSource source sourceName)).onCourse bounded).toSafe
  have safe := (underway.onCourse bounded).toSafe
  have counted := safe.steps_step unfinished
  have further := start.machine_stepMany_succ machine.state.steps
  rw [underway] at further
  rcases safe.step_cases with ⟨finished, -⟩ | ⟨-, instruction, operation, -, -, stepped⟩
  · rw [unfinished] at finished
    cases finished
  · rw [stepped] at counted further
    refine ⟨machine.after operation, operation.signal, stepped, ?_, counted, ?_⟩
    · rw [Underway, counted, further]
    · intro halted
      have isQuit : operation = .quit := by
        by_contra other
        rw [Operation.signal, if_neg other] at halted
        cases halted
      subst isQuit
      simp [finished, Machine.after, State.after]

end Underway

theorem succ_le_of_not_reached
    {maxSteps : Option Int} {steps : Nat}
    (room : (maxSteps.any fun limit => limit ≤ (steps : Int)) = false) :
    ∀ limit ∈ maxSteps, ((steps + 1 : Nat) : Int) ≤ limit := by
  rintro limit ⟨⟩
  have below : ¬ limit ≤ (steps : Int) := of_decide_eq_false room
  omega

end Machine

end QueueMachine
