import QueueMachine.Proofs.Compilation
import QueueMachine.Proofs.Machine.Run

set_option autoImplicit false

/-!
Machines of compiled programs. Whatever the source, the machine stays on course: it never meets a
fault, it never leaves the program by more than running off its end, and every label keeps standing
for a mark of its name, however often marks are executed, skipped or declared twice.
-/

namespace QueueMachine

namespace Program

theorem exists_denotes_ofSource
    {source sourceName : String}
    (bounded : (ofSource source sourceName).size < Numeral.placeValue Numeral.maxDigits)
    {instruction : Instruction}
    (member : instruction ∈ (ofSource source sourceName).instructions) :
    ∃ operation, instruction.Denotes operation := by
  refine Instruction.exists_denotes (wellFormed_of_mem_instructions member) ?_
  obtain ⟨command, -, index, rfl, inRange⟩ := command_of_mem_instructions member
  intro isMark operand first
  cases command with
  | mark label =>
      cases first
      rw [Numeral.toList_format_natCast]
      exact (Numeral.length_toDigits_le_iff (by decide)).mpr (Nat.lt_trans inRange bounded)
  | _ => cases isMark

/-- A mark of a compiled program binds its label to the very position at which it stands. -/
theorem index_eq_of_denotes_mark
    {source sourceName label : String} {position index : Nat} {instruction : Instruction}
    (bounded : (ofSource source sourceName).size < Numeral.placeValue Numeral.maxDigits)
    (found : (ofSource source sourceName).instructions[position]? = some instruction)
    (denotes : instruction.Denotes (.mark label index)) :
    index = position := by
  cases denotes with
  | mark readable =>
      obtain ⟨rfl, -⟩ := mark_of_getElem?_ofSource found
      have inProgram := (List.getElem?_eq_some_iff.mp found).1
      rw [length_instructions] at inProgram
      rw [Numeral.readText_format_natCast (Nat.lt_trans inProgram bounded)] at readable
      exact (Int.ofNat_inj.mp (Except.ok.inj readable)).symm

end Program

/-- The labels are those of the program, each bound to a mark of its name. -/
structure LabelTable.Anchored (program : Program) (table : LabelTable) : Prop where
  names : table.names = program.labels.names
  marks : ∀ name target, table.resolve? name = some target →
    ∃ position : Nat, target = position ∧
      program.instructions[position]? = some ⟨.mark, [Numeral.format position, name]⟩

namespace LabelTable

variable {source sourceName : String}

theorem anchored_labels_ofSource :
    Anchored (.ofSource source sourceName) (Program.ofSource source sourceName).labels :=
  ⟨rfl, fun _ _ bound => Program.mark_of_resolve?_ofSource bound⟩

theorem Anchored.nonneg
    {program : Program} {table : LabelTable}
    (anchored : table.Anchored program) :
    table.Nonneg := by
  intro name target bound
  obtain ⟨position, rfl, -⟩ := anchored.marks name target bound
  exact Int.natCast_nonneg position

theorem Anchored.lt_size
    {program : Program} {table : LabelTable} {name : String} {target : Int}
    (anchored : table.Anchored program)
    (bound : table.resolve? name = some target) :
    target < program.size := by
  obtain ⟨position, rfl, standing⟩ := anchored.marks name target bound
  have inProgram := (List.getElem?_eq_some_iff.mp standing).1
  rw [Program.length_instructions] at inProgram
  exact Int.ofNat_lt.mpr inProgram

theorem Anchored.rebind
    (bounded : (Program.ofSource source sourceName).size < Numeral.placeValue Numeral.maxDigits)
    {table : LabelTable} {position : Nat} {instruction : Instruction} {operation : Operation}
    (anchored : table.Anchored (.ofSource source sourceName))
    (found : (Program.ofSource source sourceName).instructions[position]? = some instruction)
    (denotes : instruction.Denotes operation) :
    (operation.rebind table).Anchored (.ofSource source sourceName) := by
  cases denotes with
  | @mark text label index readable =>
      obtain rfl := Program.index_eq_of_denotes_mark bounded found (.mark readable)
      obtain ⟨rfl, known⟩ := Program.mark_of_getElem?_ofSource found
      rw [← anchored.names] at known
      refine ⟨(names_bind_of_mem known _).trans anchored.names, ?_⟩
      intro name target bound
      simp only [Operation.rebind, resolve?_bind] at bound
      split at bound
      · rename_i same
        cases bound
        subst same
        exact ⟨_, rfl, found⟩
      · exact anchored.marks name target bound
  | _ => exact anchored

end LabelTable

namespace Machine

/-- What holds in every state that the machine of a compiled program reaches. -/
structure OnCourse (program : Program) (machine : Machine) : Prop extends machine.Safe where
  instructions : machine.instructions = program.instructions.toArray
  anchored : machine.state.labels.Anchored program
  pc_le : machine.state.pc ≤ program.size
  quit : machine.state.halted = true →
    ∃ position : Nat, machine.state.pc = position + 1 ∧
      program.instructions[position]? = some ⟨.quit, []⟩

variable {source sourceName : String}

theorem OnCourse.size_eq
    {program : Program} {machine : Machine}
    (onCourse : machine.OnCourse program) :
    machine.instructions.size = program.size := by
  rw [onCourse.instructions, List.size_toArray, Program.length_instructions]

theorem onCourse_ofProgram
    (bounded : (Program.ofSource source sourceName).size < Numeral.placeValue Numeral.maxDigits)
    {sink : Option Sink}
    (isOpen : (sink.getD (.buffer {})).isOpen = true) :
    (ofProgram (.ofSource source sourceName) sink).OnCourse (.ofSource source sourceName) where
  denotes instruction member :=
    Program.exists_denotes_ofSource bounded (by simpa [ofProgram, make] using member)
  isOpen := isOpen
  pc_nonneg := Int.le_refl 0
  labels_nonneg := LabelTable.anchored_labels_ofSource.nonneg
  instructions := rfl
  anchored := LabelTable.anchored_labels_ofSource
  pc_le := Int.natCast_nonneg _
  quit := nofun

theorem OnCourse.after
    (bounded : (Program.ofSource source sourceName).size < Numeral.placeValue Numeral.maxDigits)
    {machine : Machine} {instruction : Instruction} {operation : Operation}
    (onCourse : machine.OnCourse (.ofSource source sourceName))
    (unfinished : machine.finished = false)
    (found : machine.instructions[machine.state.pc.toNat]? = some instruction)
    (denotes : instruction.Denotes operation) :
    (machine.after operation).OnCourse (.ofSource source sourceName) := by
  obtain ⟨queue, registers, pc, changed, reason⟩ := machine.state.after_eq operation
  rw [← state_after] at changed
  obtain ⟨running, inRange⟩ := (finished_eq_false_iff machine).mp unfinished
  rw [onCourse.size_eq] at inRange
  rw [onCourse.instructions, List.getElem?_toArray] at found
  refine ⟨onCourse.toSafe.after operation, onCourse.instructions, ?_, ?_, ?_⟩
  · rw [changed]
    exact onCourse.anchored.rebind bounded found denotes
  · rw [changed]
    rcases reason with rfl | ⟨label, -, bound⟩
    · exact inRange
    · exact onCourse.anchored.lt_size bound
  · intro halted
    rw [changed] at halted
    have isQuit : operation = .quit := by simpa [running] using halted
    subst isQuit
    have nonnegative := onCourse.pc_nonneg
    refine ⟨machine.state.pc.toNat, ?_, ?_⟩
    · change machine.state.pc + 1 = _
      omega
    · cases denotes
      exact found

theorem OnCourse.step
    (bounded : (Program.ofSource source sourceName).size < Numeral.placeValue Numeral.maxDigits)
    {machine : Machine}
    (onCourse : machine.OnCourse (.ofSource source sourceName)) :
    (∃ signal, machine.step.answer = .ok signal) ∧
      machine.step.machine.OnCourse (.ofSource source sourceName) := by
  rcases onCourse.toSafe.step_cases with
    ⟨-, stepped⟩ | ⟨unfinished, instruction, operation, found, denotes, stepped⟩
  · rw [stepped]
    exact ⟨⟨_, rfl⟩, onCourse⟩
  · rw [stepped]
    exact ⟨⟨_, rfl⟩, onCourse.after bounded unfinished found denotes⟩

theorem OnCourse.exists_announce
    (bounded : (Program.ofSource source sourceName).size < Numeral.placeValue Numeral.maxDigits)
    {machine : Machine}
    (onCourse : machine.OnCourse (.ofSource source sourceName))
    (unfinished : machine.finished = false)
    (traced : Bool) :
    ∃ block, machine.announce traced = .ok block := by
  cases traced with
  | false => exact ⟨"", rfl⟩
  | true =>
      obtain ⟨instruction, -, found, -⟩ := onCourse.toSafe.exists_next unfinished
      have writable : machine.state.pc.natAbs < Numeral.placeValue Numeral.maxDigits := by
        have nonnegative := onCourse.pc_nonneg
        have notBehind := onCourse.pc_le
        omega
      rw [announce, if_pos rfl, traceBlock, fetch_of_getElem?_eq_some onCourse.pc_nonneg found,
        Numeral.write, if_pos writable]
      exact ⟨_, rfl⟩

theorem fault_run_ofSource
    (bounded : (Program.ofSource source sourceName).size < Numeral.placeValue Numeral.maxDigits)
    {sink : Option Sink}
    (isOpen : (sink.getD (.buffer {})).isOpen = true)
    (traced : Bool) (bound : Nat) :
    ((ofProgram (.ofSource source sourceName) sink).run traced bound).fault = none := by
  obtain ⟨noFault, onCourse⟩ := loop_of_step
    (fun _ onCourse unfinished => OnCourse.exists_announce bounded onCourse unfinished traced)
    (fun _ => OnCourse.step bounded) bound (onCourse_ofProgram bounded isOpen) ""
  rw [run, Run.closeSink_of_isOpen onCourse.isOpen]
  exact noFault

/-- After any number of steps the machine of a compiled program has met no fault and is on course,
and once it is finished further steps change nothing. -/
theorem stepMany_ofSource
    (source sourceName : String)
    (bounded : (Program.ofSource source sourceName).size < Numeral.placeValue Numeral.maxDigits)
    (buffer : Option Buffer)
    (count : Nat) :
    let program := Program.ofSource source sourceName
    let ended := stepMany count (ofProgram program (buffer.map .buffer))
    let machine := ended.machine
    (∃ signals, signals.length = count ∧ ended.answer = .ok signals) ∧
      machine.instructions.toList = program.instructions ∧
      (0 ≤ machine.state.pc ∧ machine.state.pc ≤ program.instructions.length) ∧
      machine.state.labels.names = program.labels.names ∧
      (∀ name index, machine.state.labels.resolve? name = some index →
        0 ≤ index ∧ index < program.instructions.length ∧
          program.instructions[index.toNat]? = some ⟨.mark, [Numeral.format index, name]⟩) ∧
      (machine.state.halted = true →
        1 ≤ machine.state.pc ∧
          (program.instructions[(machine.state.pc - 1).toNat]?).map Instruction.opcode =
            some .quit) ∧
      (machine.finished = true → machine.state.halted = false →
        machine.state.pc = program.instructions.length) ∧
      (machine.finished = true → machine.step = ⟨machine, .ok .halted⟩) ∧
      (machine.finished = false →
        machine.step.machine.state.steps = machine.state.steps + 1) := by
  intro program ended machine
  have start : (ofProgram program (buffer.map .buffer)).OnCourse program :=
    onCourse_ofProgram bounded (by cases buffer <;> rfl)
  obtain ⟨answered, onCourse⟩ := stepMany_of_step (fun _ => OnCourse.step bounded) count start
  change machine.OnCourse program at onCourse
  have length := program.length_instructions
  refine ⟨answered, by rw [onCourse.instructions], ⟨onCourse.pc_nonneg, ?_⟩,
    onCourse.anchored.names, ?_, ?_, ?_, step_of_finished, onCourse.toSafe.steps_step⟩
  · rw [length]
    exact onCourse.pc_le
  · intro name index bound
    obtain ⟨position, rfl, standing⟩ := onCourse.anchored.marks name index bound
    have inProgram := (List.getElem?_eq_some_iff.mp standing).1
    exact ⟨Int.natCast_nonneg position, Int.ofNat_lt.mpr inProgram, standing⟩
  · intro halted
    obtain ⟨position, place, standing⟩ := onCourse.quit halted
    have before : (machine.state.pc - 1).toNat = position := by omega
    exact ⟨by omega, by rw [before, standing]; rfl⟩
  · intro finished running
    have atEnd : (machine.instructions.size : Int) ≤ machine.state.pc := by
      simpa [Machine.finished, running] using finished
    rw [onCourse.size_eq] at atEnd
    rw [length]
    exact Int.le_antisymm onCourse.pc_le atEnd

/-- A label that is declared twice, jumped to and executed again. -/
theorem stepMany_ofSource_redeclared :
    let program := Program.ofSource ":again 7 P :again Jagain" "loop"
    let ended := stepMany 12 (ofProgram program none)
    program.size < Numeral.placeValue Numeral.maxDigits ∧
      (∃ signals, signals.length = 12 ∧ ended.answer = .ok signals) ∧
      (0 ≤ ended.machine.state.pc ∧ ended.machine.state.pc ≤ program.instructions.length) ∧
      ended.machine.state.labels.names = program.labels.names := by
  intro program ended
  have bounded : program.size < Numeral.placeValue Numeral.maxDigits :=
    Nat.lt_of_le_of_lt (Program.size_ofSource_le _ _) (by decide +kernel)
  obtain ⟨answered, -, within, names, -⟩ := stepMany_ofSource _ _ bounded none 12
  exact ⟨bounded, answered, within, names⟩

end Machine

end QueueMachine
