import Mathlib.Order.Bounds.Basic
import QueueMachine.Proofs.Machine.Compiled

set_option autoImplicit false

/-!
Bounded runs of compiled programs. A machine without faults takes one step after another until it is
finished and none from then on, so that a bound only says how far along the one course of the
program a run gets. Two runs with a bound each get as far as one run with the sum of the bounds.
-/

namespace QueueMachine

theorem Instruction.Denotes.opcode_eq_quit_iff
    {instruction : Instruction} {operation : Operation}
    (denotes : instruction.Denotes operation) :
    instruction.opcode = .quit ↔ operation = .quit := by
  cases denotes <;> simp

namespace Machine

/-- Whether an instruction is what the next step of the machine executes. -/
def Executes (machine : Machine) (instruction : Instruction) : Prop :=
  machine.finished = false ∧ machine.fetch = .ok instruction

def finishTimes (machine : Machine) : Set Nat :=
  {count | (stepMany count machine).machine.finished = true}

theorem Safe.stepMany
    {machine : Machine}
    (safe : machine.Safe)
    (count : Nat) :
    (∃ signals, signals.length = count ∧ (stepMany count machine).answer = .ok signals) ∧
      (stepMany count machine).machine.Safe :=
  stepMany_of_step (fun _ safe => safe.step) count safe

theorem Safe.machine_stepMany_add
    {machine : Machine}
    (safe : machine.Safe)
    (first second : Nat) :
    (Machine.stepMany (first + second) machine).machine =
      (Machine.stepMany second (Machine.stepMany first machine).machine).machine := by
  obtain ⟨⟨signals, -, answered⟩, -⟩ := safe.stepMany first
  exact Machine.machine_stepMany_add answered second

theorem Safe.machine_stepMany_succ
    {machine : Machine}
    (safe : machine.Safe)
    (count : Nat) :
    (Machine.stepMany (count + 1) machine).machine =
      (Machine.stepMany count machine).machine.step.machine := by
  rw [safe.machine_stepMany_add, machine_stepMany_one]

theorem Safe.fault?_stepMany
    {machine : Machine}
    (safe : machine.Safe)
    (count : Nat) :
    (Machine.stepMany count machine).fault? = none := by
  obtain ⟨⟨signals, -, answered⟩, -⟩ := safe.stepMany count
  rw [Outcome.fault?, answered]

theorem Safe.steps_stepMany_of_unfinished
    {machine : Machine}
    (safe : machine.Safe)
    {count : Nat}
    (unfinished : ∀ time < count, time ∉ machine.finishTimes) :
    (Machine.stepMany count machine).machine.state.steps = machine.state.steps + count := by
  induction count with
  | zero => rfl
  | succ count inductionHypothesis =>
      have running : (Machine.stepMany count machine).machine.finished = false :=
        Bool.not_eq_true _ ▸ unfinished count (Nat.lt_succ_self count)
      rw [safe.machine_stepMany_succ, (safe.stepMany count).2.steps_step running,
        inductionHypothesis fun time earlier => unfinished time (Nat.lt_succ_of_lt earlier)]
      rfl

theorem Safe.steps_stepMany_of_isLeast
    {machine : Machine} {finish : Nat}
    (safe : machine.Safe)
    (least : IsLeast machine.finishTimes finish)
    (count : Nat) :
    (Machine.stepMany count machine).machine.state.steps =
      machine.state.steps + min count finish := by
  have unfinished : ∀ time < min count finish, time ∉ machine.finishTimes := by
    intro time earlier isFinish
    have notEarlier : finish ≤ time := least.2 isFinish
    omega
  rw [← safe.steps_stepMany_of_unfinished unfinished]
  rcases Nat.le_total count finish with before | behind
  · rw [Nat.min_eq_left before]
  · obtain ⟨extra, rfl⟩ := Nat.exists_eq_add_of_le behind
    rw [Nat.min_eq_right behind, safe.machine_stepMany_add, stepMany_of_finished least.1]

/-- A step halts the machine by executing `quit`, and in no other way. -/
theorem Safe.halted_step_iff
    {machine : Machine}
    (safe : machine.Safe) :
    machine.step.machine.state.halted = true ↔
      machine.state.halted = true ∨
        ∃ instruction, machine.Executes instruction ∧ instruction.opcode = .quit := by
  rcases safe.step_cases with
    ⟨finished, stepped⟩ | ⟨unfinished, instruction, operation, found, denotes, stepped⟩
  · rw [stepped]
    refine ⟨.inl, fun reason => reason.elim id ?_⟩
    rintro ⟨instruction, ⟨unfinished, -⟩, -⟩
    rw [finished] at unfinished
    cases unfinished
  · have fetched := fetch_of_getElem?_eq_some safe.pc_nonneg found
    obtain ⟨running, -⟩ := (finished_eq_false_iff machine).mp unfinished
    obtain ⟨queue, registers, pc, changed, -⟩ := machine.state.after_eq operation
    rw [stepped, state_after, changed, running]
    constructor
    · intro halted
      have isQuit : operation = .quit := by simpa using halted
      subst isQuit
      cases denotes
      exact .inr ⟨_, ⟨unfinished, fetched⟩, rfl⟩
    · rintro (halted | ⟨other, ⟨-, fetchedToo⟩, isQuit⟩)
      · cases halted
      · rw [fetched] at fetchedToo
        cases fetchedToo
        rw [(denotes.opcode_eq_quit_iff).mp isQuit]
        rfl

theorem Safe.halted_stepMany_iff
    {machine : Machine}
    (safe : machine.Safe)
    (running : machine.state.halted = false)
    (count : Nat) :
    (Machine.stepMany count machine).machine.state.halted = true ↔
      ∃ time < count, ∃ instruction,
        (Machine.stepMany time machine).machine.Executes instruction ∧
          instruction.opcode = .quit := by
  induction count with
  | zero =>
      refine ⟨fun halted => ?_, fun ⟨time, earlier, _⟩ => absurd earlier (Nat.not_lt_zero time)⟩
      exact absurd halted (Bool.not_eq_true _ ▸ running)
  | succ count inductionHypothesis =>
      rw [safe.machine_stepMany_succ, (safe.stepMany count).2.halted_step_iff, inductionHypothesis]
      constructor
      · rintro (⟨time, earlier, executed⟩ | executed)
        · exact ⟨time, Nat.lt_succ_of_lt earlier, executed⟩
        · exact ⟨count, Nat.lt_succ_self count, executed⟩
      · rintro ⟨time, earlier, executed⟩
        rcases Nat.lt_succ_iff_lt_or_eq.mp earlier with before | rfl
        · exact .inl ⟨time, before, executed⟩
        · exact .inr executed

theorem exists_sink_stepMany_eq
    {machine : Machine} {buffer : Buffer}
    (buffered : machine.sink = .buffer buffer)
    (count : Nat) :
    ∃ text, (stepMany count machine).machine.sink = .buffer (buffer.write text) ∧
      (stepMany count machine).machine.sinkClosed = machine.sinkClosed := by
  obtain ⟨text, state, changed⟩ := exists_stepMany_eq count machine
  rw [changed, buffered]
  exact ⟨text, rfl, rfl⟩

/-- Two runs of a machine with a buffer get as far as one run with the sum of their bounds. -/
theorem Safe.run_run_eq
    {machine : Machine}
    (safe : machine.Safe)
    (buffered : machine.sink.ownsStream? = none)
    (first second : Nat) :
    (machine.run false first).machine.run false second = machine.run false (first + second) := by
  have stillBuffered : (Machine.stepMany first machine).machine.sink.ownsStream? = none :=
    machine_stepMany_of_step (fun reached => (reached.ownsStream?_step).trans) first buffered
  have laterFault := ((safe.stepMany first).2.fault?_stepMany second)
  have isOpen := Sink.isOpen_of_ownsStream?_eq_none buffered
  rw [run_false_of_isOpen isOpen, run_false_of_isOpen isOpen, run_false_eq,
    stepMany_closeSink stillBuffered, closingFault?_of_sinkClosed (sinkClosed_closeSink _),
    closeSink_of_sinkClosed (sinkClosed_closeSink _), safe.machine_stepMany_add,
    safe.fault?_stepMany, Option.none_or, ← laterFault]
  rfl

/-- Two bounded runs of a compiled program on a buffer leave the same machine as one run with the
sum of the bounds, and as that many steps, but for the sink that the steps leave open. The steps
that count are those up to the bound or the end of the program, whichever comes first; only `quit`
halts the machine; and the longer run prints what the shorter one prints, and then more. -/
theorem run_run_ofSource
    (source sourceName : String)
    (bounded : (Program.ofSource source sourceName).size < Numeral.placeValue Numeral.maxDigits)
    (buffer : Option Buffer)
    (regular : ∀ given ∈ buffer, (Sink.buffer given).Regular)
    (first second : Nat) :
    let start := ofProgram (.ofSource source sourceName) (buffer.map .buffer)
    let early := start.run false first
    let twice := early.machine.run false second
    let once := start.run false (first + second)
    let stepped := stepMany (first + second) start
    (early.fault = none ∧ twice.fault = none ∧ once.fault = none ∧
        ∃ signals, signals.length = first + second ∧ stepped.answer = .ok signals) ∧
      twice.machine = once.machine ∧
      (∃ text,
        stepped.machine.sink = .buffer { buffer.getD {} with text } ∧
          stepped.machine.sinkClosed = false ∧
          once.machine =
            { stepped.machine with sinkClosed := true, sink := .buffer ⟨text, true, 1⟩ }) ∧
      (∀ finish, IsLeast start.finishTimes finish →
        once.machine.state.steps = min (first + second) finish) ∧
      (start.finishTimes = ∅ → once.machine.state.steps = first + second) ∧
      (once.machine.state.halted = true ↔
        ∃ time < first + second, ∃ instruction,
          (stepMany time start).machine.Executes instruction ∧ instruction.opcode = .quit) ∧
      ∃ printed rest,
        early.machine.output? = some printed ∧ once.machine.output? = some (printed ++ rest) := by
  intro start early twice once stepped
  have buffered : start.sink = .buffer (buffer.getD {}) := by cases buffer <;> rfl
  have given : (Sink.buffer (buffer.getD {})).Regular := by
    cases buffer with
    | none => exact .buffer
    | some given => exact regular given rfl
  have safe : start.Safe := (onCourse_ofProgram bounded (by cases buffer <;> rfl)).toSafe
  have joined : twice = once := safe.run_run_eq (by rw [buffered]; rfl) first second
  have closed : once.machine = stepped.machine.closeSink :=
    congrArg Run.machine (run_false_eq start (first + second))
  have state : once.machine.state = stepped.machine.state := by rw [closed, state_closeSink]
  have noFault : ∀ bound, (start.run false bound).fault = none := by
    intro bound
    rw [run_false_of_isOpen (by rw [buffered]; rfl)]
    exact safe.fault?_stepMany bound
  refine ⟨⟨noFault first, joined ▸ noFault _, noFault _, (safe.stepMany _).1⟩,
    congrArg Run.machine joined, ?_, ?_, ?_, ?_, ?_⟩
  · obtain ⟨text, sink, unclosed⟩ := exists_sink_stepMany_eq buffered (first + second)
    have written : (Sink.buffer ((buffer.getD {}).write text)).Regular := given.write rfl
    refine ⟨_, sink, unclosed, ?_⟩
    rw [closed, closeSink_of_not_sinkClosed unclosed, sink, written.close_buffer]
    rfl
  · intro finish least
    rw [state, safe.steps_stepMany_of_isLeast least]
    exact Nat.zero_add _
  · intro never
    rw [state, safe.steps_stepMany_of_unfinished (by simp [never])]
    exact Nat.zero_add _
  · rw [state]
    exact safe.halted_stepMany_iff rfl (first + second)
  · obtain ⟨text, sink, -⟩ := exists_sink_stepMany_eq buffered first
    obtain ⟨rest, laterSink, -⟩ := exists_sink_stepMany_eq sink second
    refine ⟨(buffer.getD {}).text ++ text, rest, ?_, ?_⟩
    · change (start.run false first).machine.output? = _
      rw [run_false_eq, output?_closeSink, output?, sink]
      rfl
    · rw [← safe.machine_stepMany_add] at laterSink
      rw [closed, output?_closeSink, output?, laterSink]
      rfl

/-- A run that stops between two values it prints, and a second one that meets `quit` before its
bound. -/
theorem run_run_ofSource_quit_before_bound :
    let program := Program.ofSource "1 P 2 P Q 3 P" standardInputName
    let start := ofProgram program (some (.buffer {}))
    let once := start.run false 7
    program.size < Numeral.placeValue Numeral.maxDigits ∧
      (Sink.buffer {}).Regular ∧
      IsLeast start.finishTimes 5 ∧
      ((start.run false 3).machine.run false 4).machine = once.machine ∧
      once.machine.state.steps = 5 ∧
      once.machine.sink = .buffer ⟨"1\n2\n", true, 1⟩ ∧
      (∃ time < 7, ∃ instruction,
        (stepMany time start).machine.Executes instruction ∧ instruction.opcode = .quit) ∧
      ∃ rest, some ("1\n" ++ rest) = once.machine.output? := by
  intro program start once
  have bounded : program.size < Numeral.placeValue Numeral.maxDigits :=
    Nat.lt_of_le_of_lt (Program.size_ofSource_le _ _) (by decide +kernel)
  have unfinished : ∀ time < 5, (stepMany time start).machine.finished = false := by
    decide +kernel
  have least : IsLeast start.finishTimes 5 := by
    refine ⟨show (stepMany 5 start).machine.finished = true by decide +kernel, ?_⟩
    intro time isFinish
    apply Nat.le_of_not_lt
    intro earlier
    change (stepMany time start).machine.finished = true at isFinish
    rw [unfinished time earlier] at isFinish
    cases isFinish
  obtain ⟨-, joined, -, counted, -, halts, printed, rest, early, late⟩ :=
    run_run_ofSource _ _ bounded (some {}) (by rintro given ⟨⟩; exact .buffer) 3 4
  have shown : (start.run false 3).machine.output? = some "1\n" := by decide +kernel
  have same : printed = "1\n" := Option.some.inj (early.symm.trans shown)
  exact ⟨bounded, .buffer, least, joined, counted 5 least, by decide +kernel,
    halts.mp (by decide +kernel), rest, by rw [← same]; exact late.symm⟩

end Machine

end QueueMachine
