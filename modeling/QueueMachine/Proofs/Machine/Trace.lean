import QueueMachine.Proofs.Machine.Bounded

set_option autoImplicit false

/-!
Traced runs of compiled programs. Tracing is an observer: a traced run leaves the same machine as one
without a trace, and meets a fault only where the other meets it too, at a closed stream. Its text is
one block for each instruction that is executed, which shows the state just before.
-/

namespace QueueMachine

def registerLetters : List Char := "abcdefghijklmnopqrstuvwxyz".toList

/-- The set registers in the order of their letters, each with its value. -/
def RegisterBank.shown (bank : RegisterBank) : List String :=
  registerLetters.filterMap fun letter =>
    ((Register.ofLetter? letter).bind bank.get).map fun value =>
      String.singleton letter ++ "=" ++ toString value

/-- The block of a trace for an instruction that is about to be executed in a state. -/
def State.traceText (state : State) (instruction : Instruction) : String :=
  "[PC=" ++ toString state.pc ++ "] EXEC: " ++ instruction.describe ++ "\n"
    ++ "  QUEUE: [" ++ ", ".intercalate (state.queue.toList.map toString) ++ "]\n"
    ++ "  REGISTERS: \x7b" ++ ", ".intercalate state.registers.shown ++ "\x7d\n\n"

theorem registerLetters_eq :
    registerLetters = (List.finRange registerCount).map Register.letter := by
  decide

theorem RegisterBank.shown_eq (bank : RegisterBank) :
    bank.shown =
      bank.assignments.map fun (name, value) => name ++ "=" ++ Numeral.format value := by
  rw [shown, registerLetters_eq, List.filterMap_map, assignments, List.map_filterMap]
  congr 1
  funext register
  rw [Function.comp_apply, Register.ofLetter?_letter, Option.bind_some, Option.map_map]
  simp only [Numeral.format_eq_toString]
  rfl

theorem ValueQueue.join_eq (separator : String) (queue : ValueQueue) :
    queue.join separator = separator.intercalate (queue.toList.map toString) := by
  rw [join, funext Numeral.format_eq_toString]

namespace Machine

theorem traceBlock_of_fetch
    {machine : Machine} {instruction : Instruction}
    (fetched : machine.fetch = .ok instruction)
    (writable : machine.state.pc.natAbs < Numeral.placeValue Numeral.maxDigits) :
    machine.traceBlock = .ok (machine.state.traceText instruction) := by
  have position : Numeral.write machine.state.pc = .ok (toString machine.state.pc) := by
    rw [Numeral.write, if_pos writable, Numeral.format_eq_toString]
  rw [traceBlock, fetched, position, ValueQueue.join_eq]
  dsimp only
  rw [← RegisterBank.shown_eq]
  rfl

/-- Whether the machine would be on course if its sink took text. -/
def StateOnCourse (program : Program) (machine : Machine) : Prop :=
  ({ machine with sink := .buffer {} } : Machine).OnCourse program

theorem OnCourse.stateOnCourse
    {program : Program} {machine : Machine}
    (onCourse : machine.OnCourse program) :
    machine.StateOnCourse program where
  denotes := onCourse.denotes
  isOpen := rfl
  pc_nonneg := onCourse.pc_nonneg
  labels_nonneg := onCourse.labels_nonneg
  instructions := onCourse.instructions
  anchored := onCourse.anchored
  pc_le := onCourse.pc_le
  quit := onCourse.quit

variable {source sourceName : String}

theorem stateOnCourse_ofProgram
    (bounded : (Program.ofSource source sourceName).size < Numeral.placeValue Numeral.maxDigits)
    (sink : Option Sink) :
    (ofProgram (.ofSource source sourceName) sink).StateOnCourse (.ofSource source sourceName) := by
  cases sink with
  | none => exact @onCourse_ofProgram source sourceName bounded none rfl
  | some given => exact @onCourse_ofProgram source sourceName bounded (some (.buffer {})) rfl

theorem StateOnCourse.after
    (bounded : (Program.ofSource source sourceName).size < Numeral.placeValue Numeral.maxDigits)
    {machine : Machine} {instruction : Instruction} {operation : Operation}
    (onCourse : machine.StateOnCourse (.ofSource source sourceName))
    (unfinished : machine.finished = false)
    (found : machine.instructions[machine.state.pc.toNat]? = some instruction)
    (denotes : instruction.Denotes operation) :
    (machine.after operation).StateOnCourse (.ofSource source sourceName) :=
  (OnCourse.after bounded onCourse unfinished found denotes).stateOnCourse

/-- What a compiled program does next, whatever the sink: its instruction can be announced, and is
executed unless a closed stream refuses its text. -/
theorem StateOnCourse.step_cases
    (bounded : (Program.ofSource source sourceName).size < Numeral.placeValue Numeral.maxDigits)
    {machine : Machine}
    (onCourse : machine.StateOnCourse (.ofSource source sourceName))
    (unfinished : machine.finished = false) :
    ∃ instruction operation,
      machine.Executes instruction ∧
        machine.announce true = .ok (machine.state.traceText instruction) ∧
        (machine.step = ⟨machine.after operation, .ok operation.signal⟩ ∧
            (machine.after operation).StateOnCourse (.ofSource source sourceName) ∨
          machine.sink.isOpen = false ∧
            ∃ state, state.steps = machine.state.steps ∧
              machine.step = ⟨{ machine with state }, .error .closedStream⟩) := by
  obtain ⟨instruction, operation, found, denotes⟩ := onCourse.toSafe.exists_next unfinished
  have fetched : machine.fetch = .ok instruction :=
    fetch_of_getElem?_eq_some onCourse.pc_nonneg found
  have writable : machine.state.pc.natAbs < Numeral.placeValue Numeral.maxDigits := by
    have nonnegative : 0 ≤ machine.state.pc := onCourse.pc_nonneg
    have notBehind : machine.state.pc ≤ (Program.ofSource source sourceName).size := onCourse.pc_le
    omega
  refine ⟨instruction, operation, ⟨unfinished, fetched⟩, traceBlock_of_fetch fetched writable, ?_⟩
  rw [step_of_fetch unfinished fetched, State.execute_of_denotes denotes]
  rcases machine.conclude_perform_cases operation with done | refused
  · exact .inl ⟨done, onCourse.after bounded unfinished found denotes⟩
  · exact .inr refused

/-- The trace of the first steps of a machine, given the instructions that they execute. -/
def traceOf (machine : Machine) (executed : List Instruction) : String :=
  String.join (executed.mapIdx fun time instruction =>
    (stepMany time machine).machine.state.traceText instruction)

theorem traceOf_cons
    {machine next : Machine} {signal : Signal}
    (stepped : machine.step = ⟨next, .ok signal⟩)
    (instruction : Instruction) (rest : List Instruction) :
    machine.traceOf (instruction :: rest) =
      machine.state.traceText instruction ++ next.traceOf rest := by
  rw [traceOf, List.mapIdx_cons, String.join_cons, traceOf]
  simp only [stepMany_succ_of_ok stepped]
  rfl

/-- Whether some instructions are all that a bounded run executes, in order, and a traced run takes
the same steps and tells of these instructions one by one. -/
structure TracedBy (machine : Machine) (bound : Nat) (executed : List Instruction) : Prop where
  executes : ∀ time instruction, executed[time]? = some instruction →
    (stepMany time machine).machine.Executes instruction
  steps : machine.state.steps + executed.length =
    (stepMany bound machine).machine.state.steps +
      if (stepMany bound machine).fault?.isSome then 1 else 0
  loop_eq : ∀ trace, loop true bound machine trace =
    ⟨(stepMany bound machine).machine, (stepMany bound machine).fault?,
      trace ++ machine.traceOf executed⟩

theorem tracedBy_zero (machine : Machine) : machine.TracedBy 0 [] where
  executes := nofun
  steps := rfl
  loop_eq trace := by
    rw [loop, traceOf, List.mapIdx_nil, String.join_nil, String.append_empty]
    rfl

theorem tracedBy_of_finished
    {machine : Machine}
    (finished : machine.finished = true)
    (bound : Nat) :
    machine.TracedBy bound [] where
  executes := nofun
  steps := by rw [stepMany_of_finished finished]; rfl
  loop_eq trace := by
    rw [loop_of_finished finished, stepMany_of_finished finished, traceOf, List.mapIdx_nil,
      String.join_nil, String.append_empty]
    rfl

theorem tracedBy_of_refused
    {machine : Machine} {instruction : Instruction} {state : State} {fault : Fault}
    (executes : machine.Executes instruction)
    (told : machine.announce true = .ok (machine.state.traceText instruction))
    (counted : state.steps = machine.state.steps)
    (failed : machine.step = ⟨{ machine with state }, .error fault⟩)
    (bound : Nat) :
    machine.TracedBy (bound + 1) [instruction] where
  executes time later found := by
    cases time with
    | zero =>
        cases found
        exact executes
    | succ time => cases found
  steps := by
    rw [stepMany_succ_of_error failed, ← counted]
    rfl
  loop_eq trace := by
    rw [loop_succ_of_error executes.1 told failed, stepMany_succ_of_error failed, traceOf,
      List.mapIdx_singleton, String.join_cons, String.join_nil, String.append_empty]
    rfl

theorem TracedBy.cons
    {machine next : Machine} {signal : Signal} {bound : Nat} {executed : List Instruction}
    (rest : next.TracedBy bound executed)
    {instruction : Instruction}
    (executes : machine.Executes instruction)
    (told : machine.announce true = .ok (machine.state.traceText instruction))
    (stepped : machine.step = ⟨next, .ok signal⟩)
    (counted : next.state.steps = machine.state.steps + 1) :
    machine.TracedBy (bound + 1) (instruction :: executed) where
  executes time later found := by
    cases time with
    | zero =>
        cases found
        exact executes
    | succ time =>
        rw [stepMany_succ_of_ok stepped]
        exact rest.executes time later found
  steps := by
    rw [fault?_stepMany_succ_of_ok stepped, stepMany_succ_of_ok stepped, ← rest.steps, counted,
      List.length_cons]
    omega
  loop_eq trace := by
    rw [loop_succ_of_ok executes.1 told stepped, rest.loop_eq, fault?_stepMany_succ_of_ok stepped,
      stepMany_succ_of_ok stepped, traceOf_cons stepped, String.append_assoc]

theorem StateOnCourse.exists_tracedBy
    (bounded : (Program.ofSource source sourceName).size < Numeral.placeValue Numeral.maxDigits)
    (bound : Nat) {machine : Machine}
    (onCourse : machine.StateOnCourse (.ofSource source sourceName)) :
    ∃ executed, machine.TracedBy bound executed := by
  induction bound generalizing machine with
  | zero => exact ⟨[], machine.tracedBy_zero⟩
  | succ bound inductionHypothesis =>
      cases status : machine.finished with
      | true => exact ⟨[], tracedBy_of_finished status _⟩
      | false =>
          obtain ⟨instruction, operation, executes, told, reached⟩ :=
            onCourse.step_cases bounded status
          rcases reached with ⟨stepped, next⟩ | ⟨-, state, counted, failed⟩
          · obtain ⟨executed, rest⟩ := inductionHypothesis next
            obtain ⟨queue, registers, pc, changed, -⟩ := machine.state.after_eq operation
            exact ⟨_, rest.cons executes told stepped (by rw [state_after, changed])⟩
          · exact ⟨_, tracedBy_of_refused executes told counted failed bound⟩

/-- The only fault that a compiled program meets is a closed stream. -/
theorem StateOnCourse.fault?_stepMany
    (bounded : (Program.ofSource source sourceName).size < Numeral.placeValue Numeral.maxDigits)
    (count : Nat) {machine : Machine}
    (onCourse : machine.StateOnCourse (.ofSource source sourceName)) :
    (stepMany count machine).fault? = none ∨
      machine.sink.isOpen = false ∧ (stepMany count machine).fault? = some .closedStream := by
  induction count generalizing machine with
  | zero => exact .inl rfl
  | succ count inductionHypothesis =>
      cases status : machine.finished with
      | true => exact .inl (by rw [stepMany_of_finished status]; rfl)
      | false =>
          obtain ⟨instruction, operation, -, -, reached⟩ := onCourse.step_cases bounded status
          rcases reached with ⟨stepped, next⟩ | ⟨shut, state, -, failed⟩
          · have later := inductionHypothesis next
            rw [Machine.after, Sink.isOpen_accept] at later
            rw [fault?_stepMany_succ_of_ok stepped]
            exact later
          · exact .inr ⟨shut, by rw [stepMany_succ_of_error failed]; rfl⟩

theorem StateOnCourse.machine_run
    (bounded : (Program.ofSource source sourceName).size < Numeral.placeValue Numeral.maxDigits)
    {machine : Machine}
    (onCourse : machine.StateOnCourse (.ofSource source sourceName))
    (traced : Bool) (bound : Nat) :
    (machine.run traced bound).machine = (stepMany bound machine).machine.closeSink := by
  cases traced with
  | false => rw [run_false_eq]
  | true =>
      obtain ⟨executed, tracedBy⟩ := onCourse.exists_tracedBy bounded bound
      rw [run, tracedBy.loop_eq]
      rfl

/-- A traced run of a compiled program leaves the same machine as one without a trace, with the same
fault if it meets a closed stream and none otherwise. Its trace is one block for each instruction
that was executed, with the state just before; every step that counts has one, and so has the one
that the closed stream refused. -/
theorem run_traced_ofSource
    (source sourceName : String)
    (bounded : (Program.ofSource source sourceName).size < Numeral.placeValue Numeral.maxDigits)
    (sink : Option Sink)
    (bound : Nat) :
    let start := ofProgram (.ofSource source sourceName) sink
    let plain := start.run false bound
    let traced := start.run true bound
    traced.machine = plain.machine ∧
      traced.fault = plain.fault ∧
      (traced.fault = none ∨ start.sink.isOpen = false ∧ traced.fault = some .closedStream) ∧
      plain.trace = "" ∧
      ∃ executed : List Instruction,
        executed.length =
            plain.machine.state.steps + (if (stepMany bound start).fault?.isSome then 1 else 0) ∧
          (∀ time instruction, executed[time]? = some instruction →
            (stepMany time start).machine.Executes instruction) ∧
          traced.trace =
            String.join (executed.mapIdx fun time instruction =>
              (stepMany time start).machine.state.traceText instruction) := by
  intro start plain traced
  have onCourse : start.StateOnCourse (.ofSource source sourceName) :=
    stateOnCourse_ofProgram bounded sink
  obtain ⟨executed, tracedBy⟩ := onCourse.exists_tracedBy bounded bound
  have plainly : plain = _ := run_false_eq start bound
  have told : traced =
      Run.closeSink
        ⟨(stepMany bound start).machine, (stepMany bound start).fault?, start.traceOf executed⟩ := by
    change start.run true bound = _
    rw [run, tracedBy.loop_eq, String.empty_append]
  rw [told, plainly]
  refine ⟨rfl, rfl, ?_, rfl, executed, ?_, tracedBy.executes, rfl⟩
  · rw [Run.closeSink]
    rcases (stepMany bound start).machine.closingFault?_cases with well | ⟨shut, failed⟩
    · rw [well, Option.none_or]
      exact onCourse.fault?_stepMany bounded bound
    · rw [failed, Option.some_or, ← isOpen_stepMany bound start]
      exact .inr ⟨shut, rfl⟩
  rw [state_closeSink, ← tracedBy.steps]
  exact (Nat.zero_add _).symm

/-- A run that counts two steps and is refused the third, which the trace tells of too. -/
theorem run_traced_ofSource_refused :
    let program := Program.ofSource "-7 >c Pc Q" standardInputName
    let closed : Sink := .stream { stream := { closed := true }, ownsStream := false }
    let start := ofProgram program (some closed)
    let traced := start.run true 9
    program.size < Numeral.placeValue Numeral.maxDigits ∧
      traced.machine = (start.run false 9).machine ∧
      traced.machine.state.steps = 2 ∧
      traced.fault = some .closedStream ∧
      traced.trace =
        "[PC=0] EXEC: INPUT -7\n  QUEUE: []\n  REGISTERS: \x7b\x7d\n\n"
          ++ "[PC=1] EXEC: REG_PUT c\n  QUEUE: [-7]\n  REGISTERS: \x7b\x7d\n\n"
          ++ "[PC=2] EXEC: PRINT_REG c\n  QUEUE: []\n  REGISTERS: \x7bc=-7\x7d\n\n" ∧
      ∃ executed : List Instruction,
        executed.length = 3 ∧
          ∀ time instruction, executed[time]? = some instruction →
            (stepMany time start).machine.Executes instruction := by
  intro program closed start traced
  have bounded : program.size < Numeral.placeValue Numeral.maxDigits :=
    Nat.lt_of_le_of_lt (Program.size_ofSource_le _ _) (by decide +kernel)
  obtain ⟨sameMachine, sameFault, -, -, executed, length, executes, -⟩ :=
    run_traced_ofSource _ _ bounded (some closed) 9
  have refused : (start.run false 9).fault = some .closedStream := by decide +kernel
  have refusedStep : (stepMany 9 start).fault? = some .closedStream := by decide +kernel
  have counted : (start.run false 9).machine.state.steps = 2 := by decide +kernel
  refine ⟨bounded, sameMachine, by rw [sameMachine, counted], sameFault.trans refused,
    by decide +kernel, executed, ?_, executes⟩
  rw [length, refusedStep, counted]
  rfl

end Machine

end QueueMachine
