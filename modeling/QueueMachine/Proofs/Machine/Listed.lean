import QueueMachine.Proofs.Listing
import QueueMachine.Proofs.Machine.Step

set_option autoImplicit false

/-!
Machines of listings. A listing can bind its labels to any index, so nothing ties them to the marks
of the program as in a compiled one. The checks of the reader still suffice for the machine, but for
one gap: they put no limit on the digits of an index, and one that is too long to be read keeps the
machine from being made. A machine that is made never meets a fault.
-/

namespace QueueMachine

namespace LabelTable

/-- What a well-formed instruction does to a table: it binds at most one label, to a natural number,
unless it is a mark whose index is too long to be read. -/
theorem bindMark_cases
    (table : LabelTable) {instruction : Instruction}
    (wellFormed : instruction.WellFormed) :
    (instruction.Readable ∧
        ∃ next, table.bindMark instruction = .ok next ∧ (table.Nonneg → next.Nonneg)) ∨
      ∃ index label, instruction = ⟨.mark, [index, label]⟩ ∧
        Numeral.maxDigits < index.toList.length ∧
        table.bindMark instruction = .error (.unreadableNumeral index.toList.length) := by
  by_cases isMark : instruction.opcode = .mark
  · obtain ⟨opcode, operands⟩ := instruction
    obtain ⟨arity, -, -, unsigned⟩ := wellFormed
    cases isMark
    match operands, arity with
    | [index, label], _ =>
        have digits := (Numeral.isDigits_iff_isUnsigned index).mpr (unsigned rfl index rfl)
        rw [bindMark, if_pos rfl]
        by_cases long : Numeral.maxDigits < index.toList.length
        · have unreadable : Numeral.readText index =
              .error (.unreadableNumeral index.toList.length) := by
            rw [Numeral.readText, Numeral.read_digits digits, if_pos long]
          rw [Instruction.binding_of_readText_eq_error unreadable]
          exact .inr ⟨index, label, rfl, long, rfl⟩
        · have short := Nat.not_lt.mp long
          have readable := Instruction.readText_of_isUnsigned (unsigned rfl index rfl) short
          rw [Instruction.binding_of_readText_eq_ok readable]
          refine .inl ⟨?_, _, rfl, fun nonneg => nonneg.bind label _⟩
          rintro - operand ⟨⟩
          exact short
  · refine .inl ⟨fun mark => absurd mark isMark, table, ?_, id⟩
    rw [bindMark, if_neg isMark]
    rfl

/-- The marks of well-formed instructions bind their labels, all to natural numbers, up to the first
mark whose index is too long to be read. -/
theorem foldlM_bindMark_cases
    {instructions : List Instruction}
    (wellFormed : ∀ instruction ∈ instructions, instruction.WellFormed)
    {table : LabelTable}
    (nonneg : table.Nonneg) :
    ((∀ instruction ∈ instructions, instruction.Readable) ∧
        ∃ labels, instructions.foldlM bindMark table = .ok labels ∧ labels.Nonneg) ∨
      ∃ index label, ⟨.mark, [index, label]⟩ ∈ instructions ∧
        Numeral.maxDigits < index.toList.length ∧
        instructions.foldlM bindMark table = .error (.unreadableNumeral index.toList.length) := by
  induction instructions generalizing table with
  | nil => exact .inl ⟨nofun, table, rfl, nonneg⟩
  | cons instruction rest inductionHypothesis =>
      rw [List.foldlM_cons]
      rw [List.forall_mem_cons] at wellFormed
      rcases table.bindMark_cases wellFormed.1 with
        ⟨readable, next, bound, kept⟩ | ⟨index, label, rfl, long, unbound⟩
      · rw [bound]
        rcases inductionHypothesis wellFormed.2 (kept nonneg) with
          ⟨readables, labels, complete, nonnegs⟩ | ⟨index, label, member, long, failed⟩
        · exact .inl ⟨List.forall_mem_cons.mpr ⟨readable, readables⟩, labels, complete, nonnegs⟩
        · exact .inr ⟨index, label, List.mem_cons_of_mem _ member, long, failed⟩
      · rw [unbound]
        exact .inr ⟨index, label, List.mem_cons_self, long, rfl⟩

variable {instructions : List Instruction}

theorem ofInstructions_cases
    (wellFormed : ∀ instruction ∈ instructions, instruction.WellFormed) :
    ((∀ instruction ∈ instructions, instruction.Readable) ∧
        ∃ labels, ofInstructions instructions = .ok labels ∧ labels.Nonneg) ∨
      ∃ index label, ⟨.mark, [index, label]⟩ ∈ instructions ∧
        Numeral.maxDigits < index.toList.length ∧
        ofInstructions instructions = .error (.unreadableNumeral index.toList.length) :=
  foldlM_bindMark_cases wellFormed nonneg_empty

theorem eq_unreadableNumeral_of_ofInstructions_eq_error
    (wellFormed : ∀ instruction ∈ instructions, instruction.WellFormed)
    {fault : Fault}
    (failed : ofInstructions instructions = .error fault) :
    ∃ digits, Numeral.maxDigits < digits ∧ fault = .unreadableNumeral digits := by
  rcases ofInstructions_cases wellFormed with
    ⟨-, labels, complete, -⟩ | ⟨index, label, -, long, unreadable⟩
  · rw [complete] at failed
    cases failed
  · rw [unreadable] at failed
    cases failed
    exact ⟨_, long, rfl⟩

theorem ofInstructions_eq_error_iff
    (wellFormed : ∀ instruction ∈ instructions, instruction.WellFormed) :
    (∃ fault, ofInstructions instructions = .error fault) ↔
      ∃ index label, ⟨.mark, [index, label]⟩ ∈ instructions ∧
        Numeral.maxDigits < index.toList.length := by
  rcases ofInstructions_cases wellFormed with
    ⟨readable, labels, complete, -⟩ | ⟨index, label, member, long, failed⟩
  · constructor
    · rintro ⟨fault, failed⟩
      rw [complete] at failed
      cases failed
    · rintro ⟨index, label, member, long⟩
      exact absurd (readable _ member rfl index rfl) (Nat.not_le.mpr long)
  · exact ⟨fun _ => ⟨index, label, member, long⟩, fun _ => ⟨_, failed⟩⟩

end LabelTable

namespace Listing

/-- A line that gives a mark an index of more digits than can be read. -/
def IsUnreadableMark (line : List Char) : Prop :=
  ∃ field index label, Text.splitAtEach separator line = [field, index, label] ∧
    Text.trim field = Opcode.mark.mnemonic.toList ∧ Numeral.maxDigits < index.length

theorem IsUnreadableMark.trim_ne_nil
    {line : List Char}
    (unreadable : IsUnreadableMark line) :
    Text.trim line ≠ [] := by
  obtain ⟨field, index, label, fields, name, -⟩ := unreadable
  apply @Opcode.trim_ne_nil_of_mnemonic .mark
  intro c inName
  have inField : c ∈ field := Text.mem_of_mem_trim (name ▸ inName)
  exact (Text.mem_of_mem_splitAtEach separator line field (by simp [fields]) c inField).1

theorem isUnreadableMark_iff
    {line : List Char} {instruction : Instruction}
    (accepted : parseLine line = .ok instruction) :
    IsUnreadableMark line ↔
      ∃ index label, instruction = ⟨.mark, [index, label]⟩ ∧
        Numeral.maxDigits < index.toList.length := by
  obtain ⟨field, operands, fields, code, verbatim, -⟩ :=
    (parseLine_eq_ok_iff line instruction).mp accepted
  obtain ⟨opcode, texts⟩ := instruction
  constructor
  · rintro ⟨field', index, label, same, name, long⟩
    rw [fields] at same
    cases same
    rw [name, String.ofList_toList, Opcode.ofMnemonic?_mnemonic] at code
    cases code
    cases verbatim
    exact ⟨_, _, rfl, by rwa [String.toList_ofList]⟩
  · rintro ⟨index, label, ⟨⟩, long⟩
    match operands, verbatim with
    | [first, second], verbatim =>
        cases verbatim
        rw [String.toList_ofList] at long
        have name := congrArg String.toList (Opcode.eq_mnemonic_of_ofMnemonic?_eq_some code)
        rw [String.toList_ofList] at name
        exact ⟨field, first, second, fields, name, long⟩

theorem exists_isUnreadableMark_iff
    {text : String} {instructions : List Instruction}
    (accepted : parse text = .ok instructions) :
    (∃ line ∈ Text.lines text.toList, IsUnreadableMark line) ↔
      ∃ index label, ⟨.mark, [index, label]⟩ ∈ instructions ∧
        Numeral.maxDigits < index.toList.length := by
  constructor
  · rintro ⟨line, inLines, unreadable⟩
    have notBlank : line ∈ filled (Text.lines text.toList) :=
      List.mem_filter.mpr ⟨inLines, by simp [unreadable.trim_ne_nil]⟩
    obtain ⟨instruction, readLine⟩ := exists_of_mem_filled accepted notBlank
    obtain ⟨index, label, rfl, long⟩ := (isUnreadableMark_iff readLine).mp unreadable
    exact ⟨index, label, (mem_iff_of_parse_eq_ok accepted _).mpr ⟨line, notBlank, readLine⟩, long⟩
  · rintro ⟨index, label, member, long⟩
    obtain ⟨line, notBlank, readLine⟩ := (mem_iff_of_parse_eq_ok accepted _).mp member
    exact ⟨line, (List.mem_filter.mp notBlank).1,
      (isUnreadableMark_iff readLine).mpr ⟨index, label, rfl, long⟩⟩

end Listing

namespace Machine

theorem ofInstructions_eq (instructions : List Instruction) (sink : Option Sink) :
    ofInstructions instructions sink =
      (LabelTable.ofInstructions instructions).map (make instructions · sink) := by
  rw [ofInstructions]
  cases LabelTable.ofInstructions instructions <;> rfl

theorem safe_of_ofInstructions_eq_ok
    {instructions : List Instruction}
    (wellFormed : ∀ instruction ∈ instructions, instruction.WellFormed)
    {machine : Machine}
    (made : ofInstructions instructions none = .ok machine) :
    machine.Safe ∧ machine.instructions = instructions.toArray := by
  rw [ofInstructions_eq] at made
  rcases LabelTable.ofInstructions_cases wellFormed with
    ⟨readable, labels, complete, nonneg⟩ | ⟨_, _, -, -, failed⟩
  · rw [complete] at made
    cases made
    refine ⟨⟨fun instruction member => ?_, rfl, Int.le_refl 0, nonneg⟩, rfl⟩
    have listed : instruction ∈ instructions := by simpa [make] using member
    exact Instruction.exists_denotes (wellFormed instruction listed) (readable instruction listed)
  · rw [failed] at made
    cases made

/-- For a listing that is read, an index with too many digits is all that keeps its machine from
being made, with a fault that says so. A machine that is made takes any number of steps without a
fault, never stands before its first instruction, and is finished wherever it stands behind its
last. -/
theorem stepMany_of_parse_eq_ok
    {text : String} {instructions : List Instruction}
    (accepted : Listing.parse text = .ok instructions) :
    ((∃ fault, LabelTable.ofInstructions instructions = .error fault) ↔
        ∃ line ∈ Text.lines text.toList, Listing.IsUnreadableMark line) ∧
      (∀ fault, LabelTable.ofInstructions instructions = .error fault ↔
        ofInstructions instructions none = .error fault) ∧
      (∀ fault, ofInstructions instructions none = .error fault →
        ∃ digits, Numeral.maxDigits < digits ∧ fault = .unreadableNumeral digits) ∧
      ∀ machine, ofInstructions instructions none = .ok machine → ∀ count,
        let ended := stepMany count machine
        (∃ signals, signals.length = count ∧ ended.answer = .ok signals) ∧
          ended.machine.instructions.toList = instructions ∧
          0 ≤ ended.machine.state.pc ∧
          (instructions.length ≤ ended.machine.state.pc →
            ended.machine.finished = true ∧ ended.machine.step = ⟨ended.machine, .ok .halted⟩) ∧
          (ended.machine.finished = false →
            ended.machine.step.machine.state.steps = ended.machine.state.steps + 1) := by
  have wellFormed : ∀ instruction ∈ instructions, instruction.WellFormed := fun instruction member =>
    (Listing.listable_of_parse_eq_ok accepted instruction member).toWellFormed
  have sameFault : ∀ fault, LabelTable.ofInstructions instructions = .error fault ↔
      ofInstructions instructions none = .error fault := by
    intro fault
    rw [ofInstructions_eq]
    cases LabelTable.ofInstructions instructions <;> simp [Except.map]
  refine ⟨?_, sameFault, ?_, ?_⟩
  · rw [LabelTable.ofInstructions_eq_error_iff wellFormed,
      Listing.exists_isUnreadableMark_iff accepted]
  · intro fault failed
    exact LabelTable.eq_unreadableNumeral_of_ofInstructions_eq_error wellFormed
      ((sameFault fault).mpr failed)
  · intro machine made count ended
    obtain ⟨answered, safe, sameInstructions⟩ := @stepMany_of_step
      (fun machine => machine.Safe ∧ machine.instructions = instructions.toArray)
      (fun machine ⟨safe, same⟩ =>
        ⟨safe.step.1, safe.step.2, (instructions_step machine).trans same⟩)
      count machine (safe_of_ofInstructions_eq_ok wellFormed made)
    change ended.machine.Safe at safe
    change ended.machine.instructions = _ at sameInstructions
    refine ⟨answered, by rw [sameInstructions], safe.pc_nonneg, fun behind => ?_, safe.steps_step⟩
    have finished : ended.machine.finished = true := by
      simp [Machine.finished, sameInstructions, behind]
    exact ⟨finished, step_of_finished finished⟩

/-- A mark that sends the machine far behind its last instruction. -/
theorem stepMany_of_parse_far_mark :
    let instructions : List Instruction := [⟨.mark, ["99", "far"]⟩, ⟨.jump, ["far"]⟩]
    Listing.parse "MARK\t99\tfar\nJUMP\tfar\n" = .ok instructions ∧
      ∃ machine, ofInstructions instructions none = .ok machine ∧
        (stepMany 2 machine).machine.state.pc = 100 ∧
        (stepMany 2 machine).machine.finished = true ∧
        (∃ signals, signals.length = 5 ∧ (stepMany 5 machine).answer = .ok signals) := by
  intro instructions
  have accepted : Listing.parse "MARK\t99\tfar\nJUMP\tfar\n" = .ok instructions := by rfl
  obtain ⟨machine, made, place⟩ : ∃ machine, ofInstructions instructions none = .ok machine ∧
      (stepMany 2 machine).machine.state.pc = 100 := ⟨_, rfl, by rfl⟩
  have runs := (stepMany_of_parse_eq_ok accepted).2.2.2 machine made
  exact ⟨accepted, machine, made, place, ((runs 2).2.2.2.1 (by rw [place]; decide)).1, (runs 5).1⟩

end Machine

end QueueMachine
