import QueueMachine.Proofs.Machine.Compiled

set_option autoImplicit false

/-!
What labels stand for while a compiled program runs. A run starts with each label at the last mark
of its name and moves it to every such mark that is executed, so that it always stands for the most
recent one. A jump goes on behind the mark that its label stands for; landing there does not execute
the mark, and leaves the labels alone.
-/

namespace QueueMachine

/-- Whether an instruction makes the machine jump to a label, the registers being as given. -/
inductive Instruction.JumpsTo (label : String) (registers : RegisterBank) : Instruction → Prop where
  | always : JumpsTo label registers ⟨.jump, [label]⟩
  | zero {register : Register} :
      registers.get register = some 0 →
      JumpsTo label registers ⟨.jumpIfZero, [register.name, label]⟩
  | equal {left right : Register} :
      registers.get left = registers.get right →
      JumpsTo label registers ⟨.jumpIf .equal, [left.name, right.name, label]⟩
  | more {left right : Register} {greater smaller : Int} :
      registers.get left = some greater →
      registers.get right = some smaller →
      smaller < greater →
      JumpsTo label registers ⟨.jumpIf .more, [left.name, right.name, label]⟩

theorem Instruction.JumpsTo.of_compares
    {comparison : Comparison} {left right : Register} {registers : RegisterBank} {label : String}
    (holds : State.compares comparison (registers.get left) (registers.get right) = true) :
    JumpsTo label registers ⟨.jumpIf comparison, [left.name, right.name, label]⟩ := by
  cases comparison with
  | equal => exact .equal (beq_iff_eq.mp holds)
  | more =>
      cases leftValue : registers.get left with
      | none =>
          rw [leftValue] at holds
          cases holds
      | some greater =>
          cases rightValue : registers.get right with
          | none =>
              rw [leftValue, rightValue] at holds
              cases holds
          | some smaller =>
              rw [leftValue, rightValue] at holds
              exact .more leftValue rightValue (of_decide_eq_true holds)

theorem Instruction.Denotes.isMark_iff
    {instruction : Instruction} {operation : Operation}
    (denotes : instruction.Denotes operation)
    (label : String) :
    instruction.IsMark label ↔ ∃ index, operation = .mark label index := by
  cases denotes <;> simp [Instruction.IsMark]

theorem Operation.resolve?_rebind_of_ne
    {operation : Operation} {label : String}
    (notMark : ∀ index, operation ≠ .mark label index)
    (table : LabelTable) :
    (operation.rebind table).resolve? label = table.resolve? label := by
  cases operation with
  | mark other index =>
      have different : label ≠ other := by
        rintro rfl
        exact notMark index rfl
      rw [rebind, LabelTable.resolve?_bind, if_neg different]
  | _ => rfl

theorem State.execute_of_jumpsTo
    {instruction : Instruction} {label : String} {state : State} {target : Int}
    (jumps : instruction.JumpsTo label state.registers)
    (bound : state.labels.resolve? label = some target) :
    state.execute instruction = .proceed { state with pc := target } := by
  have jumped : state.jump label = { state with pc := target } := by
    rw [jump, bound]
  cases jumps with
  | always => rw [execute_of_denotes .jump, perform, jumped]
  | zero isZero => rw [execute_of_denotes .jumpIfZero, perform, if_pos isZero, jumped]
  | equal same =>
      have holds : compares .equal (state.registers.get _) (state.registers.get _) = true :=
        beq_iff_eq.mpr same
      rw [execute_of_denotes .jumpIf, perform, if_pos holds, jumped]
  | @more left right greater smaller leftValue rightValue less =>
      have holds :
          compares .more (state.registers.get left) (state.registers.get right) = true := by
        rw [leftValue, rightValue]
        exact decide_eq_true less
      rw [execute_of_denotes .jumpIf, perform, if_pos holds, jumped]

/-- Only an instruction that jumps to some label moves the program counter. -/
theorem Instruction.Denotes.exists_jumpsTo
    {instruction : Instruction} {operation : Operation}
    (denotes : instruction.Denotes operation)
    {state : State}
    (moved : (state.perform operation).state.pc ≠ state.pc) :
    ∃ label, instruction.JumpsTo label state.registers := by
  obtain ⟨queue, registers, pc, changed, reason⟩ := state.state_perform operation
  rcases reason with rfl | ⟨label, aimed, -⟩
  · exact absurd (by rw [changed]) moved
  · cases denotes with
    | jump => exact ⟨_, .always⟩
    | @jumpIfZero register label =>
        by_cases isZero : state.registers.get register = some 0
        · exact ⟨label, .zero isZero⟩
        · rw [State.perform, if_neg isZero] at moved
          exact absurd rfl moved
    | @jumpIf comparison left right label =>
        by_cases holds :
            State.compares comparison (state.registers.get left) (state.registers.get right) = true
        · exact ⟨label, .of_compares holds⟩
        · rw [State.perform, if_neg holds] at moved
          exact absurd rfl moved
    | _ => cases aimed

namespace Machine

def ExecutesMark (label : String) (machine : Machine) : Prop :=
  machine.finished = false ∧
    ∃ instruction, machine.fetch = .ok instruction ∧ instruction.IsMark label

variable {source sourceName : String}

/-- What a step does to a label: executing a mark of its name binds it to the mark, and nothing else
changes what it stands for. -/
theorem OnCourse.resolve?_step
    (bounded : (Program.ofSource source sourceName).size < Numeral.placeValue Numeral.maxDigits)
    {machine : Machine}
    (onCourse : machine.OnCourse (.ofSource source sourceName))
    (label : String) :
    (machine.ExecutesMark label ∧
        machine.step.machine.state.labels.resolve? label = some machine.state.pc) ∨
      (¬ machine.ExecutesMark label ∧
        machine.step.machine.state.labels.resolve? label =
          machine.state.labels.resolve? label) := by
  rcases onCourse.toSafe.step_cases with
    ⟨finished, stepped⟩ | ⟨unfinished, instruction, operation, found, denotes, stepped⟩
  · refine .inr ⟨fun executes => ?_, by rw [stepped]⟩
    have unfinished := executes.1
    rw [finished] at unfinished
    cases unfinished
  · have fetched := fetch_of_getElem?_eq_some onCourse.pc_nonneg found
    have labels : machine.step.machine.state.labels = operation.rebind machine.state.labels := by
      obtain ⟨queue, registers, pc, changed, -⟩ := machine.state.after_eq operation
      rw [stepped, state_after, changed]
    rw [labels]
    by_cases isMark : instruction.IsMark label
    · refine .inl ⟨⟨unfinished, instruction, fetched, isMark⟩, ?_⟩
      obtain ⟨index, rfl⟩ := (denotes.isMark_iff label).mp isMark
      have nonnegative := onCourse.pc_nonneg
      rw [onCourse.instructions, List.getElem?_toArray] at found
      rw [Operation.rebind, LabelTable.resolve?_bind, if_pos rfl,
        Program.index_eq_of_denotes_mark bounded found denotes, Int.toNat_of_nonneg nonnegative]
    · refine .inr ⟨?_, Operation.resolve?_rebind_of_ne ?_ machine.state.labels⟩
      · rintro ⟨-, other, fetchedToo, otherMark⟩
        rw [fetched] at fetchedToo
        cases fetchedToo
        exact isMark otherMark
      · rintro index rfl
        exact isMark ((denotes.isMark_iff label).mpr ⟨index, rfl⟩)

def markings (machine : Machine) (count : Nat) (label : String) : Set Nat :=
  {time | time < count ∧ (stepMany time machine).machine.ExecutesMark label}

theorem isGreatest_markings_succ
    {machine : Machine} {count : Nat} {label : String}
    (executes : (stepMany count machine).machine.ExecutesMark label) :
    IsGreatest (machine.markings (count + 1) label) count :=
  ⟨⟨Nat.lt_succ_self count, executes⟩, fun _ earlier => Nat.le_of_lt_succ earlier.1⟩

theorem markings_succ_of_not
    {machine : Machine} {count : Nat} {label : String}
    (idle : ¬ (stepMany count machine).machine.ExecutesMark label) :
    machine.markings (count + 1) label = machine.markings count label := by
  refine Set.ext fun time => ⟨fun ⟨earlier, executes⟩ => ⟨?_, executes⟩,
    fun ⟨earlier, executes⟩ => ⟨Nat.lt_succ_of_lt earlier, executes⟩⟩
  have different : time ≠ count := by
    rintro rfl
    exact idle executes
  omega

theorem OnCourse.resolve?_stepMany
    (bounded : (Program.ofSource source sourceName).size < Numeral.placeValue Numeral.maxDigits)
    {machine : Machine}
    (onCourse : machine.OnCourse (.ofSource source sourceName))
    (count : Nat) (label : String) :
    (machine.markings count label = ∅ ∧
        (stepMany count machine).machine.state.labels.resolve? label =
          machine.state.labels.resolve? label) ∨
      ∃ time, IsGreatest (machine.markings count label) time ∧
        (stepMany count machine).machine.state.labels.resolve? label =
          some (stepMany time machine).machine.state.pc := by
  induction count with
  | zero =>
      refine .inl ⟨Set.eq_empty_iff_forall_notMem.mpr fun time executed => ?_, rfl⟩
      exact Nat.not_lt_zero time executed.1
  | succ count inductionHypothesis =>
      obtain ⟨⟨signals, -, answered⟩, reached⟩ :=
        stepMany_of_step (fun _ => OnCourse.step bounded) count onCourse
      rw [machine_stepMany_add answered, machine_stepMany_one]
      rcases reached.resolve?_step bounded label with ⟨executes, bound⟩ | ⟨idle, kept⟩
      · exact .inr ⟨count, isGreatest_markings_succ executes, bound⟩
      · rw [markings_succ_of_not idle, kept]
        exact inductionHypothesis

/-- A jump goes on right behind what its label stands for and changes nothing else. -/
theorem step_of_jumpsTo
    {machine : Machine} {instruction : Instruction} {label : String} {target : Int}
    (unfinished : machine.finished = false)
    (fetched : machine.fetch = .ok instruction)
    (jumps : instruction.JumpsTo label machine.state.registers)
    (bound : machine.state.labels.resolve? label = some target) :
    machine.step =
      ⟨{ machine with
          state := { machine.state with pc := target + 1, steps := machine.state.steps + 1 } },
        .ok .running⟩ := by
  rw [step_of_fetch unfinished fetched, State.execute_of_jumpsTo jumps bound]
  rfl

theorem Safe.exists_jumpsTo
    {machine : Machine}
    (safe : machine.Safe)
    (unfinished : machine.finished = false)
    (elsewhere : machine.step.machine.state.pc ≠ machine.state.pc + 1) :
    ∃ instruction label,
      machine.fetch = .ok instruction ∧ instruction.JumpsTo label machine.state.registers := by
  rcases safe.step_cases with
    ⟨finished, -⟩ | ⟨-, instruction, operation, found, denotes, stepped⟩
  · rw [finished] at unfinished
    cases unfinished
  · have moved : (machine.state.perform operation).state.pc ≠ machine.state.pc := by
      intro kept
      apply elsewhere
      rw [stepped]
      exact congrArg (· + 1) kept
    obtain ⟨label, jumps⟩ := denotes.exists_jumpsTo moved
    exact ⟨instruction, label, fetch_of_getElem?_eq_some safe.pc_nonneg found, jumps⟩

/-- After any number of steps of a compiled program, a label stands for the mark of its name that
was executed last; if there was none, for the last mark of its name in the program; and if there is
none, for nothing. A jump to the label then goes on right behind that mark and leaves all labels
alone; a step that does not go on at the next instruction is such a jump, to some label. -/
theorem resolve?_stepMany_ofSource
    (source sourceName : String)
    (bounded : (Program.ofSource source sourceName).size < Numeral.placeValue Numeral.maxDigits)
    (buffer : Option Buffer)
    (count : Nat) (label : String) :
    let program := Program.ofSource source sourceName
    let start := ofProgram program (buffer.map .buffer)
    let executed := start.markings count label
    let marks := Instruction.marks program.instructions label
    let ended := stepMany count start
    let machine := ended.machine
    (∃ signals, signals.length = count ∧ ended.answer = .ok signals) ∧
      (executed.Nonempty →
        ∃ time, IsGreatest executed time ∧
          machine.state.labels.resolve? label = some (stepMany time start).machine.state.pc) ∧
      (executed = ∅ → marks.Nonempty →
        ∃ position : Nat, IsGreatest marks position ∧
          machine.state.labels.resolve? label = some (position : Int)) ∧
      (executed = ∅ → marks = ∅ → machine.state.labels.resolve? label = none) ∧
      (∀ instruction target,
        machine.finished = false →
        machine.fetch = .ok instruction →
        instruction.JumpsTo label machine.state.registers →
        machine.state.labels.resolve? label = some target →
        (∃ position ∈ marks, target = (position : Nat)) ∧
          machine.step =
            ⟨{ machine with
                state :=
                  { machine.state with pc := target + 1, steps := machine.state.steps + 1 } },
              .ok .running⟩) ∧
      (machine.finished = false →
        machine.step.machine.state.pc ≠ machine.state.pc + 1 →
        ∃ instruction other,
          machine.fetch = .ok instruction ∧
            instruction.JumpsTo other machine.state.registers) := by
  intro program start executed marks ended machine
  have onCourse : start.OnCourse program :=
    onCourse_ofProgram bounded (by cases buffer <;> rfl)
  obtain ⟨answered, reached⟩ := stepMany_of_step (fun _ => OnCourse.step bounded) count onCourse
  have history := onCourse.resolve?_stepMany bounded count label
  have kept : executed = ∅ →
      machine.state.labels.resolve? label = program.labels.resolve? label := by
    intro noneExecuted
    rcases history with ⟨-, same⟩ | ⟨time, latest, -⟩
    · exact same
    · exact absurd noneExecuted (Set.Nonempty.ne_empty ⟨time, latest.1⟩)
  refine ⟨answered, ?_, ?_, ?_, ?_, reached.toSafe.exists_jumpsTo⟩
  · intro someExecuted
    rcases history with ⟨noneExecuted, -⟩ | latest
    · exact absurd noneExecuted someExecuted.ne_empty
    · exact latest
  · intro noneExecuted someMark
    rw [kept noneExecuted]
    cases bound : program.labels.resolve? label with
    | none =>
        have noMark := (Program.resolve?_ofSource_eq_none_iff source sourceName label).mp bound
        exact absurd noMark someMark.ne_empty
    | some target =>
        obtain ⟨position, last, rfl⟩ :=
          (Program.resolve?_ofSource_eq_some_iff source sourceName label target).mp bound
        exact ⟨position, last, rfl⟩
  · intro noneExecuted noMark
    rw [kept noneExecuted]
    exact (Program.resolve?_ofSource_eq_none_iff source sourceName label).mpr noMark
  · intro instruction target unfinished fetched jumps bound
    obtain ⟨position, rfl, standing⟩ := reached.anchored.marks label target bound
    exact ⟨⟨position, ⟨_, standing, rfl, rfl⟩, rfl⟩, step_of_jumpsTo unfinished fetched jumps bound⟩

/-- A label whose second mark is jumped over once the first was executed, so that a jump goes back
to the first. -/
theorem resolve?_stepMany_ofSource_skipped_mark :
    let program := Program.ofSource ":a Jb :a :b Ja" standardInputName
    let start := ofProgram program none
    let machine := (stepMany 2 start).machine
    program.size < Numeral.placeValue Numeral.maxDigits ∧
      program.labels.resolve? "a" = some 2 ∧
      (∃ time, IsGreatest (start.markings 2 "a") time ∧
        machine.state.labels.resolve? "a" = some (stepMany time start).machine.state.pc) ∧
      machine.state.labels.resolve? "a" = some 0 ∧
      machine.fetch = .ok ⟨.jump, ["a"]⟩ ∧
      machine.step =
        ⟨{ machine with
            state := { machine.state with pc := 1, steps := machine.state.steps + 1 } },
          .ok .running⟩ := by
  intro program start machine
  have bounded : program.size < Numeral.placeValue Numeral.maxDigits :=
    Nat.lt_of_le_of_lt (Program.size_ofSource_le _ _) (by decide +kernel)
  have first : start.ExecutesMark "a" :=
    ⟨by decide +kernel, ⟨.mark, ["0", "a"]⟩, by decide +kernel, by decide⟩
  have back : machine.state.labels.resolve? "a" = some 0 := by decide +kernel
  have next : machine.fetch = .ok ⟨.jump, ["a"]⟩ := by decide +kernel
  obtain ⟨-, latest, -, -, jumped, -⟩ := resolve?_stepMany_ofSource _ _ bounded none 2 "a"
  obtain ⟨-, stepped⟩ := jumped ⟨.jump, ["a"]⟩ 0 (by decide +kernel) next .always back
  exact ⟨bounded, by decide +kernel, latest ⟨0, by decide, first⟩, back, next, stepped⟩

end Machine

end QueueMachine
