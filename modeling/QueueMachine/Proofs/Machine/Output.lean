import QueueMachine.Proofs.Arithmetic
import QueueMachine.Proofs.Machine.History
import QueueMachine.Proofs.Text.Line
import QueueMachine.Text.Utf8

set_option autoImplicit false

/-!
What a run prints. Each printing instruction that has something to print adds one piece to the
output: a number on a line of its own, or a single character. If only numbers are printed, they can be
read back from the lines.
-/

namespace QueueMachine

structure Printing where
  style : PrintStyle
  value : Int
  deriving DecidableEq

namespace Printing

def text (printing : Printing) : String :=
  State.printed printing.style printing.value

theorem text_eq (printing : Printing) :
    (printing.style = .number → printing.text = Numeral.format printing.value ++ "\n") ∧
      (printing.style = .character →
        ∃ c : Char, printing.text = String.singleton c ∧
          (c.toNat : Int) = Arithmetic.characterCode printing.value ∧
          (c.toNat ≤ 255 ∨ 65281 ≤ c.toNat ∧ c.toNat ≤ 65535)) := by
  obtain ⟨style, value⟩ := printing
  constructor
  · rintro rfl
    rfl
  · rintro rfl
    have code := Arithmetic.toNat_character value
    have range := Arithmetic.characterCode_range value
    exact ⟨Arithmetic.character value, rfl, code, by omega⟩

theorem toList_join_text
    {printings : List Printing}
    (numbers : ∀ printing ∈ printings, printing.style = .number) :
    (String.join (printings.map text)).toList =
      (printings.map fun printing => (Numeral.format printing.value).toList).flatMap
        (· ++ ['\n']) := by
  induction printings with
  | nil => rfl
  | cons printing others inductionHypothesis =>
      have othersNumbers := fun other member => numbers other (List.mem_cons_of_mem printing member)
      have line := printing.text_eq.1 (numbers printing (by simp))
      simp [line, inductionHypothesis othersNumbers]

theorem exists_lines_of_numbers
    {printings : List Printing}
    (numbers : ∀ printing ∈ printings, printing.style = .number) :
    ∃ lines,
      Text.splitAtEach '\n' (String.join (printings.map text)).toList = lines ++ [[]] ∧
        lines.mapM (fun line => Numeral.parse (String.ofList line)) =
          .ok (printings.map Printing.value) := by
  refine ⟨printings.map fun printing => (Numeral.format printing.value).toList, ?_, ?_⟩
  · rw [toList_join_text numbers]
    apply Text.splitAtEach_flatMap_terminated
    intro line member
    obtain ⟨printing, -, rfl⟩ := List.mem_map.mp member
    exact Numeral.lineFeed_not_mem_format printing.value
  · clear numbers
    induction printings with
    | nil => rfl
    | cons printing others inductionHypothesis =>
        rw [List.map_cons, List.mapM_cons, String.ofList_toList, Numeral.parse_format,
          inductionHypothesis]
        rfl

end Printing

namespace State

/-- What an instruction prints when it is executed in a state: the value at the head of the queue, or
the one in a register, and nothing if there is none. -/
def printing? (state : State) (instruction : Instruction) : Option Printing :=
  match instruction.opcode with
  | .print style => state.queue.toList.head?.map (Printing.mk style)
  | .printRegister style =>
      match state.loadOperand instruction with
      | .ok held => held.map (Printing.mk style)
      | .error _ => none
  | _ => none

theorem text_perform
    {instruction : Instruction} {operation : Operation}
    (denotes : instruction.Denotes operation)
    (state : State) :
    (state.perform operation).text =
      String.join ((state.printing? instruction).toList.map Printing.text) := by
  cases denotes with
  | @print style =>
      cases taken : state.queue.dequeue? with
      | none =>
          have nothing := (state.queue.dequeue?_eq_none_iff).mp taken
          simp [perform, printing?, taken, nothing, Effect.text]
      | some head =>
          obtain ⟨value, rest⟩ := head
          have values := ValueQueue.toList_of_dequeue?_eq_some taken
          simp [perform, printing?, taken, values, Effect.text, Printing.text]
  | @printRegister style register =>
      simp only [perform, printing?, loadOperand_name]
      cases state.registers.get register <;> simp [Effect.text, Printing.text]
  | store =>
      simp only [perform, printing?]
      split <;> simp [Effect.text]
  | load =>
      simp only [perform, printing?]
      split <;> simp [Effect.text]
  | _ => simp [perform, printing?, Effect.text]

theorem opcode_of_printing?_eq_some
    {state : State} {instruction : Instruction} {printing : Printing}
    (prints : state.printing? instruction = some printing) :
    instruction.opcode = .print printing.style ∨
      instruction.opcode = .printRegister printing.style := by
  unfold printing? at prints
  split at prints
  · rename_i style opcode
    obtain ⟨value, -, rfl⟩ := Option.map_eq_some_iff.mp prints
    exact .inl opcode
  · rename_i style opcode
    split at prints
    · obtain ⟨value, -, rfl⟩ := Option.map_eq_some_iff.mp prints
      exact .inr opcode
    · cases prints
  · cases prints

end State

namespace Machine

def printings (machine : Machine) : List Printing :=
  (machine.next?.bind machine.state.printing?).toList

theorem Safe.sink_step
    {machine : Machine}
    (safe : machine.Safe) :
    machine.step.machine.sink =
      machine.sink.accept (String.join (machine.printings.map Printing.text)) := by
  rcases safe.next_cases with ⟨none, stepped⟩ | ⟨instruction, operation, -, denotes, next, stepped⟩
  · simp [printings, none, stepped]
  · rw [printings, next, stepped, Option.bind_some, ← State.text_perform denotes]
    rfl

theorem Safe.sink_stepMany
    {machine : Machine}
    (safe : machine.Safe)
    (count : Nat) :
    (Machine.stepMany count machine).machine.sink =
      machine.sink.accept (String.join ((machine.history printings count).map Printing.text)) := by
  refine @Safe.history_of_step _ printings
    (fun first printed last =>
      last.sink = first.sink.accept (String.join (printed.map Printing.text)))
    ?_ ?_ (fun _ safe => safe.sink_step) machine safe count
  · intro machine
    simp
  · intro first middle last early late before after
    simp [after, before]

theorem opcode_of_mem_history_printings
    {source sourceName : String}
    (bounded : (Program.ofSource source sourceName).size < Numeral.placeValue Numeral.maxDigits)
    {machine : Machine}
    (onCourse : machine.OnCourse (.ofSource source sourceName))
    {count : Nat} {printing : Printing}
    (member : printing ∈ machine.history printings count) :
    ∃ instruction ∈ (Program.ofSource source sourceName).instructions,
      instruction.opcode = .print printing.style ∨
        instruction.opcode = .printRegister printing.style := by
  obtain ⟨time, -, printed⟩ := List.mem_flatMap.mp member
  obtain ⟨instruction, next, prints⟩ := Option.bind_eq_some_iff.mp (Option.mem_toList.mp printed)
  have reached := (stepMany_of_step (fun _ => OnCourse.step bounded) time onCourse).2
  have inMachine := mem_of_fetch_eq_ok (next?_eq_some_iff.mp next).2
  rw [reached.instructions, List.mem_toArray] at inMachine
  exact ⟨instruction, inMachine, State.opcode_of_printing?_eq_some prints⟩

/-- After any number of steps of a compiled program, the output is what the printing instructions
printed, in order: numbers on lines of their own, and characters whose codes are the lowest or the
highest of sixteen bits. If the program prints no characters, the numbers can be read back from the
lines. -/
theorem output?_stepMany_ofSource
    (source sourceName : String)
    (bounded : (Program.ofSource source sourceName).size < Numeral.placeValue Numeral.maxDigits)
    (count : Nat) :
    let program := Program.ofSource source sourceName
    let start := ofProgram program none
    let ended := stepMany count start
    let printed := start.history printings count
    let output := String.join (printed.map Printing.text)
    (∃ signals, signals.length = count ∧ ended.answer = .ok signals) ∧
      ended.machine.output? = some output ∧
      Text.decodeUtf8 (Text.encodeUtf8 output) = .ok output ∧
      (∀ printing ∈ printed,
        (printing.style = .number → printing.text = Numeral.format printing.value ++ "\n") ∧
          (printing.style = .character →
            ∃ c : Char, printing.text = String.singleton c ∧
              (c.toNat : Int) = Arithmetic.characterCode printing.value ∧
              (c.toNat ≤ 255 ∨ 65281 ≤ c.toNat ∧ c.toNat ≤ 65535))) ∧
      ((∀ instruction ∈ program.instructions,
          instruction.opcode ≠ .print .character ∧
            instruction.opcode ≠ .printRegister .character) →
        ∃ lines,
          Text.splitAtEach '\n' output.toList = lines ++ [[]] ∧
            lines.mapM (fun line => Numeral.parse (String.ofList line)) =
              .ok (printed.map Printing.value)) := by
  intro program start ended printed output
  have onCourse : start.OnCourse program := onCourse_ofProgram bounded rfl
  have sink : ended.machine.sink = start.sink.accept output := onCourse.toSafe.sink_stepMany count
  have shown : ended.machine.output? = some output := by
    rw [output?, sink]
    exact congrArg some (String.empty_append)
  refine ⟨(onCourse.toSafe.stepMany count).1, shown, Text.decodeUtf8_encodeUtf8 output, ?_, ?_⟩
  · intro printing _
    exact printing.text_eq
  · intro noCharacters
    apply Printing.exists_lines_of_numbers
    intro printing member
    obtain ⟨instruction, inProgram, opcode⟩ := opcode_of_mem_history_printings bounded onCourse member
    obtain ⟨noPrint, noPrintRegister⟩ := noCharacters instruction inProgram
    cases style : printing.style with
    | number => rfl
    | character =>
        rw [style] at opcode
        rcases opcode with prints | prints
        · exact absurd prints noPrint
        · exact absurd prints noPrintRegister

/-- Two printing instructions find nothing to print, one in the queue and one in a register. -/
theorem output?_stepMany_ofSource_nothing_to_print :
    let program := Program.ofSource "0 3 - P P Pa 7 >a Pa" standardInputName
    let start := ofProgram program none
    let printed := start.history printings 9
    program.size < Numeral.placeValue Numeral.maxDigits ∧
      (∀ instruction ∈ program.instructions,
        instruction.opcode ≠ .print .character ∧ instruction.opcode ≠ .printRegister .character) ∧
      printed = [⟨.number, -3⟩, ⟨.number, 7⟩] ∧
      (stepMany 9 start).machine.output? = some "-3\n7\n" ∧
      ∃ lines,
        Text.splitAtEach '\n' "-3\n7\n".toList = lines ++ [[]] ∧
          lines.mapM (fun line => Numeral.parse (String.ofList line)) = .ok [-3, 7] := by
  intro program start printed
  have bounded : program.size < Numeral.placeValue Numeral.maxDigits :=
    Nat.lt_of_le_of_lt (Program.size_ofSource_le _ _) (by decide +kernel)
  have noCharacters : ∀ instruction ∈ program.instructions,
      instruction.opcode ≠ .print .character ∧ instruction.opcode ≠ .printRegister .character := by
    decide +kernel
  have pieces : printed = [⟨.number, -3⟩, ⟨.number, 7⟩] := by decide +kernel
  have joined : String.join (printed.map Printing.text) = "-3\n7\n" := by
    rw [pieces]
    decide +kernel
  obtain ⟨-, shown, -, -, readBack⟩ := output?_stepMany_ofSource _ _ bounded 9
  obtain ⟨lines, cut, read⟩ := readBack noCharacters
  change Text.splitAtEach '\n' (String.join (printed.map Printing.text)).toList = _ at cut
  change _ = Except.ok (printed.map Printing.value) at read
  rw [joined] at cut
  rw [pieces] at read
  exact ⟨bounded, noCharacters, pieces, shown.trans (congrArg some joined), lines, cut, read⟩

end Machine

end QueueMachine
