import QueueMachine.Proofs.Compilation
import QueueMachine.Proofs.Machine.Fault
import QueueMachine.Proofs.Machine.Listed

set_option autoImplicit false

/-!
Where calls can lead the machine of a compiled program. However it is used, whatever its sink and
however long the program, the machine keeps the instructions it was made with, and its program
counter and its labels stay in the program, or just behind its end. A mark whose index has too many
digits to be read meets a fault and binds nothing, so that long programs are no exception.
-/

namespace QueueMachine

namespace LabelTable

theorem exists_mapM_eq_ok
    {entries : List (String × Int)} {written : String × Int → Except Fault String}
    (each : ∀ entry ∈ entries, ∃ text, written entry = .ok text) :
    ∃ texts, entries.mapM written = .ok texts := by
  induction entries with
  | nil => exact ⟨[], rfl⟩
  | cons entry rest inductionHypothesis =>
      obtain ⟨text, first⟩ := each entry List.mem_cons_self
      obtain ⟨texts, others⟩ :=
        inductionHypothesis fun other member => each other (List.mem_cons_of_mem entry member)
      refine ⟨text :: texts, ?_⟩
      rw [List.mapM_cons, first, others]
      rfl

theorem resolve?_of_mem_sorted
    {table : LabelTable} {name : String} {index : Int}
    (member : (name, index) ∈ table.sorted) :
    table.resolve? name = some index :=
  lookup_of_mem table.nodup_names (List.mem_mergeSort.mp member)

end LabelTable

/-- An instruction that can stand in a listing denotes an operation, unless it is a mark whose index
cannot be read. -/
theorem State.exists_denotes_or_fault
    (state : State) {instruction : Instruction}
    (wellFormed : instruction.WellFormed) :
    (∃ operation, instruction.Denotes operation) ∨
      ∃ fault, state.execute instruction = .fault fault state := by
  rcases state.labels.bindMark_cases wellFormed with
    ⟨readable, -⟩ | ⟨index, label, rfl, -, unbound⟩
  · exact .inl (Instruction.exists_denotes wellFormed readable)
  · right
    rw [LabelTable.bindMark, if_pos rfl] at unbound
    cases read : Instruction.binding ⟨.mark, [index, label]⟩ with
    | ok bound =>
        rw [read] at unbound
        cases unbound
    | error fault =>
        refine ⟨fault, ?_⟩
        rw [execute]
        dsimp only
        rw [read]
        rfl

namespace Machine

/-- Whether the machine has the instructions and the labels of a program, and stands in it or just
behind its end. -/
structure InProgram (program : Program) (machine : Machine) : Prop where
  instructions : machine.instructions = program.instructions.toArray
  compiledLabels : machine.compiledLabels = program.labels
  pc_nonneg : 0 ≤ machine.state.pc
  pc_le : machine.state.pc ≤ program.size
  labels : ∀ name target, machine.state.labels.resolve? name = some target →
    0 ≤ target ∧ target < program.size

variable {source sourceName : String}

theorem resolve?_ofSource_range
    {name : String} {target : Int}
    (bound : (Program.ofSource source sourceName).labels.resolve? name = some target) :
    0 ≤ target ∧ target < (Program.ofSource source sourceName).size := by
  obtain ⟨position, rfl, standing⟩ := Program.mark_of_resolve?_ofSource bound
  have inProgram := (List.getElem?_eq_some_iff.mp standing).1
  rw [Program.length_instructions] at inProgram
  exact ⟨Int.natCast_nonneg position, Int.ofNat_lt.mpr inProgram⟩

theorem inProgram_ofProgram (sink : Option Sink) :
    (ofProgram (.ofSource source sourceName) sink).InProgram (.ofSource source sourceName) where
  instructions := rfl
  compiledLabels := rfl
  pc_nonneg := Int.le_refl 0
  pc_le := Int.natCast_nonneg _
  labels _ _ := resolve?_ofSource_range

namespace InProgram

theorem size_eq
    {program : Program} {machine : Machine}
    (inProgram : machine.InProgram program) :
    machine.instructions.size = program.size := by
  rw [inProgram.instructions, List.size_toArray, Program.length_instructions]

theorem reset
    {machine : Machine}
    (inProgram : machine.InProgram (.ofSource source sourceName)) :
    machine.reset.InProgram (.ofSource source sourceName) where
  instructions := inProgram.instructions
  compiledLabels := inProgram.compiledLabels
  pc_nonneg := Int.le_refl 0
  pc_le := Int.natCast_nonneg _
  labels name target bound := by
    change machine.compiledLabels.resolve? name = some target at bound
    rw [inProgram.compiledLabels] at bound
    exact resolve?_ofSource_range bound

theorem closeSink
    {program : Program} {machine : Machine}
    (inProgram : machine.InProgram program) :
    machine.closeSink.InProgram program := by
  unfold Machine.closeSink
  split
  · exact inProgram
  · exact { inProgram with }

theorem after
    {machine : Machine} {instruction : Instruction} {operation : Operation}
    (inProgram : machine.InProgram (.ofSource source sourceName))
    (unfinished : machine.finished = false)
    (found : machine.instructions[machine.state.pc.toNat]? = some instruction)
    (denotes : instruction.Denotes operation) :
    (machine.after operation).InProgram (.ofSource source sourceName) := by
  obtain ⟨queue, registers, pc, changed, reason⟩ := machine.state.after_eq operation
  rw [← state_after] at changed
  obtain ⟨-, inRange⟩ := (finished_eq_false_iff machine).mp unfinished
  rw [inProgram.size_eq] at inRange
  rw [inProgram.instructions, List.getElem?_toArray] at found
  have nonnegative := inProgram.pc_nonneg
  have jumped : 0 ≤ pc ∧ pc < (Program.ofSource source sourceName).size := by
    rcases reason with rfl | ⟨label, -, bound⟩
    · exact ⟨nonnegative, inRange⟩
    · exact inProgram.labels label pc bound
  refine ⟨inProgram.instructions, inProgram.compiledLabels, ?_, ?_, ?_⟩
  · rw [changed]
    exact Int.add_nonneg jumped.1 (by decide)
  · rw [changed]
    exact jumped.2
  · rw [changed]
    intro name target bound
    cases denotes with
    | @mark text label index readable =>
        -- the mark binds its label to the place where it stands
        obtain ⟨rfl, -⟩ := Program.mark_of_getElem?_ofSource found
        have place := Numeral.eq_of_readText_format_eq_ok readable
        rw [Operation.rebind, LabelTable.resolve?_bind] at bound
        split at bound
        · cases bound
          omega
        · exact inProgram.labels name target bound
    | _ => exact inProgram.labels name target bound

theorem step
    {machine : Machine}
    (inProgram : machine.InProgram (.ofSource source sourceName)) :
    machine.step.machine.InProgram (.ofSource source sourceName) := by
  cases failed : machine.step.fault? with
  | some fault =>
      obtain ⟨left, changed, ⟨rfl, -⟩ | ⟨instruction, -, leaves⟩⟩ := exists_leaves_of_fault? failed
      · rw [changed]
        exact inProgram
      · rw [changed]
        cases leaves <;> exact { inProgram with }
  | none =>
      cases status : machine.finished with
      | true =>
          rw [step_of_finished status]
          exact inProgram
      | false =>
          obtain ⟨-, inRange⟩ := (finished_eq_false_iff machine).mp status
          have nonnegative := inProgram.pc_nonneg
          have inside : machine.state.pc.toNat < machine.instructions.size := by omega
          obtain ⟨instruction, found⟩ :
              ∃ instruction, machine.instructions[machine.state.pc.toNat]? = some instruction :=
            ⟨_, Array.getElem?_eq_getElem inside⟩
          have fetched := fetch_of_getElem?_eq_some nonnegative found
          have member := mem_of_fetch_eq_ok fetched
          rw [inProgram.instructions, List.mem_toArray] at member
          rw [step_of_fetch status fetched] at failed ⊢
          rcases machine.state.exists_denotes_or_fault
            (Program.wellFormed_of_mem_instructions member) with ⟨operation, denotes⟩ | ⟨fault, met⟩
          · rw [State.execute_of_denotes denotes] at failed ⊢
            rcases machine.conclude_perform_cases operation with done | ⟨-, _, -, refused⟩
            · rw [done]
              exact inProgram.after status found denotes
            · rw [refused] at failed
              cases failed
          · rw [met] at failed
            cases failed

theorem callAll?
    {machine ended : Machine} {calls : List Call}
    (inProgram : machine.InProgram (.ofSource source sourceName))
    (reached : machine.callAll? calls = some ended) :
    ended.InProgram (.ofSource source sourceName) :=
  @callAll?_of_kept (InProgram (.ofSource source sourceName)) (fun _ => step) (fun _ => closeSink)
    (fun _ => reset) calls machine ended inProgram reached

theorem exists_write_pc
    {program : Program} {machine : Machine}
    (inProgram : machine.InProgram program)
    (bounded : program.size < Numeral.placeValue Numeral.maxDigits) :
    ∃ text, Numeral.write machine.state.pc = .ok text := by
  have writable : machine.state.pc.natAbs < Numeral.placeValue Numeral.maxDigits := by
    have nonnegative := inProgram.pc_nonneg
    have notBehind := inProgram.pc_le
    omega
  exact ⟨_, if_pos writable⟩

/-- The labels can be written one by one in any form that shows the name and the index. -/
theorem exists_mapM_labels
    {program : Program} {machine : Machine}
    (inProgram : machine.InProgram program)
    (bounded : program.size < Numeral.placeValue Numeral.maxDigits)
    (form : String → String → String) :
    ∃ texts,
      (machine.state.labels.sorted.mapM fun (name, index) => do
        return form name (← Numeral.write index)) = .ok texts := by
  apply LabelTable.exists_mapM_eq_ok
  rintro ⟨name, index⟩ member
  have writable : index.natAbs < Numeral.placeValue Numeral.maxDigits := by
    have range := inProgram.labels name index (LabelTable.resolve?_of_mem_sorted member)
    omega
  have written : Numeral.write index = .ok (Numeral.format index) := if_pos writable
  refine ⟨form name (Numeral.format index), ?_⟩
  dsimp only
  rw [written]
  rfl

end InProgram

end Machine

end QueueMachine
