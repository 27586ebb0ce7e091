import Mathlib.Data.List.Nodup
import Mathlib.Logic.Equiv.Basic
import QueueMachine.Proofs.Machine.Compiled
import QueueMachine.Proofs.RegisterBank

set_option autoImplicit false

/-!
Names do not matter. When the labels of a program get other names, no two of them the same, and the
registers change places, the machine does the same steps: it goes to the same places, prints the same
text and keeps the same values, only under the new names. The argument is a diagram for one step.
Renaming an instruction renames the operation it denotes, performing a renamed operation in a renamed
state is renaming what the operation leads to, and the rest of a step looks at no name.
-/

namespace QueueMachine

/-- New names for labels, all different, and new places for registers. -/
structure Renaming where
  label : String ↪ String
  register : Equiv.Perm Register

/-- The new name of the register that a text names. Other texts name no register and stay. -/
def Renaming.registerName (scheme : Renaming) (name : String) : String :=
  match Register.ofName? name with
  | some register => (scheme.register register).name
  | none => name

def Opcode.labelOperand? : Opcode → Option Nat
  | mark => some 1
  | jump => some 0
  | jumpIfZero => some 1
  | jumpIf _ => some 2
  | _ => none

namespace Instruction

/-- An operand under its new name, given where it stands. -/
def renameOperand
    (scheme : Renaming)
    (opcode : Opcode)
    (position : Nat)
    (operand : String) : String :=
  if position < opcode.registerOperands then scheme.registerName operand
  else if opcode.labelOperand? = some position then scheme.label operand
  else operand

def rename (scheme : Renaming) (instruction : Instruction) : Instruction where
  opcode := instruction.opcode
  operands := instruction.operands.mapIdx (renameOperand scheme instruction.opcode)

end Instruction

namespace LabelTable

def rename (scheme : Renaming) (table : LabelTable) : LabelTable where
  entries := table.entries.map fun entry => (scheme.label entry.1, entry.2)
  nodup_names := by
    have names : (table.entries.map fun entry => (scheme.label entry.1, entry.2)).map Prod.fst =
        (table.entries.map Prod.fst).map scheme.label := by
      simp [Function.comp_def]
    rw [names]
    exact List.Nodup.map scheme.label.injective table.nodup_names

end LabelTable

@[irreducible]
def RegisterBank.rename (scheme : Renaming) (bank : RegisterBank) : RegisterBank :=
  ⟨Vector.ofFn fun register => bank.get (scheme.register.symm register)⟩

def Operation.rename (scheme : Renaming) : Operation → Operation
  | .push value => .push value
  | .operate operator => .operate operator
  | .store register => .store (scheme.register register)
  | .load register => .load (scheme.register register)
  | .print style => .print style
  | .printRegister style register => .printRegister style (scheme.register register)
  | .mark label index => .mark (scheme.label label) index
  | .jump label => .jump (scheme.label label)
  | .jumpIfZero register label =>
      .jumpIfZero (scheme.register register) (scheme.label label)
  | .jumpIf comparison left right label =>
      .jumpIf comparison (scheme.register left) (scheme.register right) (scheme.label label)
  | .quit => .quit

def State.rename (scheme : Renaming) (state : State) : State :=
  { state with
    registers := state.registers.rename scheme
    labels := state.labels.rename scheme }

def Effect.rename (scheme : Renaming) : Effect → Effect
  | .proceed state => .proceed (state.rename scheme)
  | .output text state => .output text (state.rename scheme)
  | .halt state => .halt (state.rename scheme)
  | .fault met state => .fault met (state.rename scheme)

def Program.rename (scheme : Renaming) (program : Program) : Program :=
  { program with
    statements := program.statements.map fun statement =>
      { statement with instruction := statement.instruction.rename scheme }
    labels := program.labels.rename scheme }

def Machine.rename (scheme : Renaming) (machine : Machine) : Machine :=
  { machine with
    instructions := machine.instructions.map (Instruction.rename scheme)
    compiledLabels := machine.compiledLabels.rename scheme
    state := machine.state.rename scheme }

variable (scheme : Renaming)

theorem Renaming.registerName_name (register : Register) :
    scheme.registerName register.name = (scheme.register register).name := by
  simp [registerName, Register.ofName?_name]

namespace LabelTable

theorem lookup_map_rename (entries : List (String × Int)) (name : String) :
    (entries.map fun entry => (scheme.label entry.1, entry.2)).lookup (scheme.label name) =
      entries.lookup name := by
  induction entries with
  | nil => rfl
  | cons entry rest inductionHypothesis =>
      obtain ⟨other, bound⟩ := entry
      by_cases same : name = other
      · simp [same]
      · have different : scheme.label name ≠ scheme.label other :=
          fun equal => same (scheme.label.injective equal)
        rw [List.map_cons, lookup_cons_of_ne different, lookup_cons_of_ne same,
          inductionHypothesis]

theorem resolve?_rename (table : LabelTable) (name : String) :
    (table.rename scheme).resolve? (scheme.label name) = table.resolve? name :=
  lookup_map_rename scheme table.entries name

theorem bindEntry_map_rename (name : String) (index : Int) (entries : List (String × Int)) :
    bindEntry (scheme.label name) index
        (entries.map fun entry => (scheme.label entry.1, entry.2)) =
      (bindEntry name index entries).map fun entry => (scheme.label entry.1, entry.2) := by
  induction entries with
  | nil => rfl
  | cons entry rest inductionHypothesis =>
      obtain ⟨other, bound⟩ := entry
      by_cases same : other = name
      · simp [bindEntry, same]
      · have different : scheme.label other ≠ scheme.label name :=
          fun equal => same (scheme.label.injective equal)
        simp [bindEntry, same, different, inductionHypothesis]

/-- Different labels keep different names, so that binding one leaves the others alone. -/
theorem bind_rename (table : LabelTable) (name : String) (index : Int) :
    (table.rename scheme).bind (scheme.label name) index =
      (table.bind name index).rename scheme := by
  simp [bind, rename, bindEntry_map_rename]

end LabelTable

namespace RegisterBank

@[simp]
theorem get_rename (bank : RegisterBank) (register : Register) :
    (bank.rename scheme).get (scheme.register register) = bank.get register := by
  simp [rename, get]

theorem set_rename (bank : RegisterBank) (register : Register) (value : Int) :
    (bank.rename scheme).set (scheme.register register) value =
      (bank.set register value).rename scheme := by
  apply ext_get
  intro place
  obtain ⟨other, rfl⟩ := scheme.register.surjective place
  simp [get_set]

theorem rename_empty : empty.rename scheme = empty := by
  apply ext_get
  intro place
  obtain ⟨other, rfl⟩ := scheme.register.surjective place
  rw [get_rename]
  simp [empty, get]

end RegisterBank

theorem Instruction.Denotes.rename
    {instruction : Instruction} {operation : Operation}
    (denotes : instruction.Denotes operation) :
    (instruction.rename scheme).Denotes (operation.rename scheme) := by
  cases denotes with
  | push valid => exact .push valid
  | operate => exact .operate
  | print => exact .print
  | mark readable => exact .mark readable
  | jump => exact .jump
  | quit => exact .quit
  | @store register =>
      have renamed := @Denotes.store (scheme.register register)
      rwa [← scheme.registerName_name] at renamed
  | @load register =>
      have renamed := @Denotes.load (scheme.register register)
      rwa [← scheme.registerName_name] at renamed
  | @printRegister style register =>
      have renamed := @Denotes.printRegister style (scheme.register register)
      rwa [← scheme.registerName_name] at renamed
  | @jumpIfZero register label =>
      have renamed := @Denotes.jumpIfZero (scheme.register register) (scheme.label label)
      rwa [← scheme.registerName_name] at renamed
  | @jumpIf comparison left right label =>
      have renamed := @Denotes.jumpIf comparison (scheme.register left)
        (scheme.register right) (scheme.label label)
      rwa [← scheme.registerName_name, ← scheme.registerName_name] at renamed

namespace State

@[simp]
theorem queue_rename (state : State) : (state.rename scheme).queue = state.queue := by
  simp only [rename]

theorem jump_rename (state : State) (label : String) :
    (state.rename scheme).jump (scheme.label label) = (state.jump label).rename scheme := by
  have bound : (state.rename scheme).labels.resolve? (scheme.label label) =
      state.labels.resolve? label := state.labels.resolve?_rename scheme label
  unfold jump
  rw [bound]
  cases state.labels.resolve? label <;> rfl

theorem operate_rename (state : State) (operator : Operator) :
    (state.rename scheme).operate operator = (state.operate operator).rename scheme := by
  unfold operate
  rw [queue_rename]
  cases state.queue.dequeue? with
  | none => rfl
  | some taken =>
      obtain ⟨first, behind⟩ := taken
      dsimp only
      cases behind.dequeue? <;> rfl

theorem get_registers_rename (state : State) (register : Register) :
    (state.rename scheme).registers.get (scheme.register register) =
      state.registers.get register :=
  state.registers.get_rename scheme register

/-- Performing a renamed operation in a renamed state is renaming what the operation leads to. -/
theorem perform_rename (state : State) (operation : Operation) :
    (state.rename scheme).perform (operation.rename scheme) =
      (state.perform operation).rename scheme := by
  cases operation with
  | push value => rfl
  | operate operator =>
      simp only [Operation.rename, perform, operate_rename, Effect.rename]
  | store register =>
      simp only [Operation.rename, perform, queue_rename]
      cases state.queue.dequeue? with
      | none => rfl
      | some taken =>
          have stored := state.registers.set_rename scheme register taken.1
          simp only [Effect.rename, State.rename, stored]
  | load register =>
      simp only [Operation.rename, perform, get_registers_rename]
      cases state.registers.get register <;> rfl
  | print style =>
      simp only [Operation.rename, perform, queue_rename]
      cases state.queue.dequeue? <;> rfl
  | printRegister style register =>
      simp only [Operation.rename, perform, get_registers_rename]
      cases state.registers.get register <;> rfl
  | mark label index =>
      have bound := state.labels.bind_rename scheme label index
      simp only [Operation.rename, perform, Effect.rename, State.rename, bound]
  | jump label => simp only [Operation.rename, perform, jump_rename, Effect.rename]
  | jumpIfZero register label =>
      simp only [Operation.rename, perform, get_registers_rename, jump_rename, Effect.rename]
      split <;> rfl
  | jumpIf comparison left right label =>
      simp only [Operation.rename, perform, get_registers_rename, jump_rename, Effect.rename]
      split <;> rfl
  | quit => rfl

end State

namespace Machine

theorem finished_rename (machine : Machine) :
    (machine.rename scheme).finished = machine.finished := by
  simp [finished, rename, State.rename]

theorem fetch_rename (machine : Machine) :
    (machine.rename scheme).fetch = machine.fetch.map (Instruction.rename scheme) := by
  have samePlace : (machine.rename scheme).state.pc = machine.state.pc := by
    simp only [rename, State.rename]
  have renamed : (machine.rename scheme).instructions =
      machine.instructions.map (Instruction.rename scheme) := by
    simp only [rename]
  unfold fetch
  rw [samePlace, renamed, Array.size_map]
  dsimp only
  generalize (if machine.state.pc < 0 then machine.state.pc + machine.instructions.size
    else machine.state.pc) = index
  by_cases below : index < 0
  · rw [if_pos below, if_pos below]
    rfl
  · rw [if_neg below, if_neg below, Array.getElem?_map]
    cases machine.instructions[index.toNat]? <;> rfl

theorem conclude_rename (machine : Machine) (effect : Effect) :
    (machine.rename scheme).conclude (effect.rename scheme) =
      ⟨(machine.conclude effect).machine.rename scheme, (machine.conclude effect).answer⟩ := by
  cases effect with
  | proceed state => rfl
  | halt state => rfl
  | fault met state => rfl
  | output text state =>
      have sameSink : (machine.rename scheme).sink = machine.sink := by simp only [rename]
      simp only [Effect.rename, conclude, sameSink]
      cases machine.sink.write text <;> rfl

theorem step_rename
    {machine : Machine}
    (denotes : ∀ instruction ∈ machine.instructions, ∃ operation, instruction.Denotes operation) :
    (machine.rename scheme).step =
      ⟨machine.step.machine.rename scheme, machine.step.answer⟩ := by
  have renamed := machine.fetch_rename scheme
  cases status : machine.finished with
  | true =>
      rw [step_of_finished status, step_of_finished ((machine.finished_rename scheme).trans status)]
  | false =>
      have unfinished := (machine.finished_rename scheme).trans status
      cases fetched : machine.fetch with
      | error fault =>
          rw [fetched] at renamed
          rw [step_of_fetch_eq_error status fetched, step_of_fetch_eq_error unfinished renamed]
      | ok instruction =>
          obtain ⟨operation, denoted⟩ := denotes instruction (mem_of_fetch_eq_ok fetched)
          rw [fetched] at renamed
          rw [step_of_fetch status fetched, step_of_fetch unfinished renamed,
            State.execute_of_denotes denoted, State.execute_of_denotes (denoted.rename scheme)]
          have performed := machine.state.perform_rename scheme operation
          change (machine.rename scheme).state.perform _ = _ at performed
          rw [performed]
          exact machine.conclude_rename scheme _

theorem stepMany_rename
    (count : Nat) {machine : Machine}
    (denotes : ∀ instruction ∈ machine.instructions, ∃ operation, instruction.Denotes operation) :
    stepMany count (machine.rename scheme) =
      ⟨(stepMany count machine).machine.rename scheme, (stepMany count machine).answer⟩ := by
  induction count generalizing machine with
  | zero => rfl
  | succ count inductionHypothesis =>
      have first := step_rename scheme denotes
      have sameInstructions := machine.instructions_step
      match stepped : machine.step with
      | ⟨next, .error fault⟩ =>
          rw [stepped] at first
          rw [stepMany_succ_of_error first, stepMany_succ_of_error stepped]
      | ⟨next, .ok signal⟩ =>
          rw [stepped] at first sameInstructions
          have later := @inductionHypothesis next (by rwa [sameInstructions])
          rw [stepMany_succ_of_ok first, stepMany_succ_of_ok stepped, later]

theorem ofProgram_rename (program : Program) (sink : Option Sink) :
    ofProgram (program.rename scheme) sink = (ofProgram program sink).rename scheme := by
  have instructions : (program.rename scheme).instructions =
      program.instructions.map (Instruction.rename scheme) := by
    simp [Program.rename, Program.instructions, Function.comp_def]
  have start : State.initial (program.labels.rename scheme) =
      (State.initial program.labels).rename scheme := by
    simp only [State.initial, State.rename, RegisterBank.rename_empty]
  simp only [ofProgram, make, rename, instructions, List.map_toArray, ← start]
  simp only [Program.rename]

/-- However the labels of a compiled program are named anew, no two alike, and its registers change
places, the machine takes the same steps: it is at the same place with the same count, queue and
sink, its labels are the same under their new names, and each register holds in its new place what it
held before. -/
theorem stepMany_rename_ofSource
    (source sourceName : String)
    (bounded : (Program.ofSource source sourceName).size < Numeral.placeValue Numeral.maxDigits)
    (scheme : Renaming)
    (sink : Option Sink)
    (count : Nat) :
    let program := Program.ofSource source sourceName
    let plain := stepMany count (ofProgram program sink)
    let renamed := stepMany count (ofProgram (program.rename scheme) sink)
    ((sink.getD (.buffer {})).isOpen = true →
        ∃ signals, signals.length = count ∧ plain.answer = .ok signals) ∧
      renamed.answer = plain.answer ∧
      renamed.machine.state.pc = plain.machine.state.pc ∧
      renamed.machine.state.halted = plain.machine.state.halted ∧
      renamed.machine.state.steps = plain.machine.state.steps ∧
      renamed.machine.state.queue = plain.machine.state.queue ∧
      renamed.machine.sink = plain.machine.sink ∧
      renamed.machine.state.labels.entries =
        plain.machine.state.labels.entries.map (fun entry => (scheme.label entry.1, entry.2)) ∧
      ∀ register,
        renamed.machine.state.registers.get (scheme.register register) =
          plain.machine.state.registers.get register := by
  intro program plain renamed
  have denotes : ∀ instruction ∈ (ofProgram program sink).instructions,
      ∃ operation, instruction.Denotes operation := by
    intro instruction member
    apply Program.exists_denotes_ofSource bounded
    simpa [ofProgram, make] using member
  have inStep : renamed = ⟨plain.machine.rename scheme, plain.answer⟩ := by
    change stepMany count (ofProgram (program.rename scheme) sink) = _
    rw [ofProgram_rename, stepMany_rename scheme count denotes]
  rw [inStep]
  refine ⟨?_, rfl, rfl, rfl, rfl, rfl, rfl, rfl, ?_⟩
  · intro isOpen
    have start : (ofProgram program sink).OnCourse program := onCourse_ofProgram bounded isOpen
    exact (stepMany_of_step (fun _ => OnCourse.step bounded) count start).1
  · intro register
    exact plain.machine.state.get_registers_rename scheme register

/-- A loop whose first label is empty and gets the name that its other label had, and whose only
register changes places with the last one. -/
theorem stepMany_rename_ofSource_swapped :
    let program := Program.ofSource "3 >b : Pb <b 1 - >b Zbend J :end" standardInputName
    let scheme : Renaming :=
      { label := ⟨("end" ++ ·), fun _ _ => (String.append_right_inj "end").mp⟩
        register := Equiv.swap ⟨1, by decide⟩ ⟨25, by decide⟩ }
    let plain := stepMany 30 (ofProgram program none)
    let renamed := stepMany 30 (ofProgram (program.rename scheme) none)
    program.size < Numeral.placeValue Numeral.maxDigits ∧
      (program.rename scheme).instructions.map Instruction.describe =
        ["INPUT 3", "REG_PUT z", "MARK 2 end", "PRINT_REG z", "REG_GET z", "INPUT 1", "MINUS",
          "REG_PUT z", "JUMP_IF_0 z endend", "JUMP end", "MARK 10 endend"] ∧
      renamed.answer = plain.answer ∧
      renamed.machine.state.pc = plain.machine.state.pc ∧
      renamed.machine.sink = plain.machine.sink ∧
      renamed.machine.sink.written = "3\n2\n1\n" ∧
      renamed.machine.state.labels.entries = [("end", 2), ("endend", 10)] ∧
      renamed.machine.state.registers.get ⟨25, by decide⟩ = some 0 := by
  intro program scheme plain renamed
  have bounded : program.size < Numeral.placeValue Numeral.maxDigits :=
    Nat.lt_of_le_of_lt (Program.size_ofSource_le _ _) (by decide +kernel)
  obtain ⟨-, answer, pc, -, -, -, sink, labels, registers⟩ :=
    stepMany_rename_ofSource _ _ bounded scheme none 30
  have printed : plain.machine.sink.written = "3\n2\n1\n" := by decide +kernel
  have bound : plain.machine.state.labels.entries = [("", 2), ("end", 10)] := by decide +kernel
  have held : plain.machine.state.registers.get ⟨1, by decide⟩ = some 0 := by decide +kernel
  refine ⟨bounded, by decide +kernel, answer, pc, sink, ?_, ?_, ?_⟩
  · rw [← printed]
    exact congrArg Sink.written sink
  · rw [bound] at labels
    exact labels
  · exact (registers ⟨1, by decide⟩).trans held

end Machine

end QueueMachine
