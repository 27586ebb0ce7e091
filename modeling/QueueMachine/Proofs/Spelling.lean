import QueueMachine.Proofs.Compilation

set_option autoImplicit false

/-!
What can be compiled. An instruction that a source can make at a position is spelled as one word,
which compiles to it again. So the lists of instructions that sources compile to are exactly those
whose instructions are well formed, have no blank in a label, and give every mark the index at which
it stands.
-/

namespace QueueMachine

namespace Opcode

/-- What the word for an instruction starts with. A literal stands for itself. -/
def sign : Opcode → List Char
  | operate operator => [operator.symbol]
  | store => ['>']
  | load => ['<']
  | print .number => ['P']
  | printRegister .number => ['P']
  | print .character => ['C']
  | printRegister .character => ['C']
  | mark => [':']
  | jump => ['J']
  | jumpIfZero => ['Z']
  | jumpIf .equal => ['E']
  | jumpIf .more => ['G']
  | quit => ['Q']
  | input => []

theorem isBlank_of_mem_sign (opcode : Opcode) : ∀ c ∈ opcode.sign, Text.isBlank c = false :=
  isBlank_of_all sign rfl opcode

end Opcode

namespace Numeral

theorem isBlank_of_isSigned
    {text : String}
    (signed : IsSigned text) :
    ∀ c ∈ text.toList, Text.isBlank c = false := by
  obtain ⟨sign, digits, rfl, kind, unsigned⟩ := signed
  intro c member
  rw [String.toList_append, List.mem_append] at member
  rcases member with inSign | inDigits
  · rcases kind with rfl | rfl | rfl
    · simp at inSign
    · obtain rfl : c = '+' := by simpa using inSign
      decide
    · obtain rfl : c = '-' := by simpa using inSign
      decide
  · have digit := (isDigits_iff _).mp ((isDigits_iff_isUnsigned digits).mpr unsigned)
    exact Text.isBlank_eq_false_of_isAsciiDigit (digit.2 c inDigits)

theorem isLiteral_ofList_cons
    {c : Char}
    (notSign : isSign c = false)
    (notDigit : Text.isAsciiDigit c = false)
    (rest : List Char) :
    isLiteral (String.ofList (c :: rest)) = false := by
  rw [isSign, Bool.or_eq_false_iff, beq_eq_false_iff_ne, beq_eq_false_iff_ne] at notSign
  have unsplit : splitSign (c :: rest) = (false, c :: rest) := by
    unfold splitSign
    split
    · rename_i starts
      exact absurd (List.cons.inj starts).1 notSign.2
    · rename_i starts
      exact absurd (List.cons.inj starts).1 notSign.1
    · rfl
  rw [isLiteral, String.toList_ofList, unsplit]
  simp [isDigits, notDigit]

end Numeral

namespace Instruction

/-- The word for an instruction. A mark leaves out its index, which its place will give it. -/
def spell (instruction : Instruction) : List Char :=
  let operands :=
    if instruction.opcode = .mark then instruction.operands.tail else instruction.operands
  instruction.opcode.sign ++ operands.flatMap String.toList

/-- The label of a mark or a jump, which is the last of its operands. -/
def label? (instruction : Instruction) : Option String :=
  match instruction.opcode with
  | .mark => instruction.operands.getLast?
  | .jump => instruction.operands.getLast?
  | .jumpIfZero => instruction.operands.getLast?
  | .jumpIf _ => instruction.operands.getLast?
  | _ => none

/-- What an instruction must be for a source to make it at a position. -/
structure Compilable (position : Nat) (instruction : Instruction) : Prop
    extends instruction.WellFormed where
  label : ∀ label ∈ instruction.label?, ∀ c ∈ label.toList, Text.isBlank c = false
  place : instruction.opcode = .mark →
    instruction.operands.head? = some (Numeral.format position)

def AllCompilable (instructions : List Instruction) : Prop :=
  ∀ (position : Nat) (instruction : Instruction),
    instructions[position]? = some instruction → instruction.Compilable position

theorem mem_operands_of_mem_label?
    {instruction : Instruction} {label : String}
    (member : label ∈ instruction.label?) :
    label ∈ instruction.operands := by
  rw [label?] at member
  split at member
  · exact List.mem_of_getLast? member
  · exact List.mem_of_getLast? member
  · exact List.mem_of_getLast? member
  · exact List.mem_of_getLast? member
  · cases member

theorem isBlank_of_mem_spell
    {instruction : Instruction}
    (noBlank : ∀ operand ∈ instruction.operands, ∀ c ∈ operand.toList, Text.isBlank c = false) :
    ∀ c ∈ instruction.spell, Text.isBlank c = false := by
  intro c member
  rcases List.mem_append.mp member with inSign | inOperands
  · exact instruction.opcode.isBlank_of_mem_sign c inSign
  · obtain ⟨operand, spelled, inOperand⟩ := List.mem_flatMap.mp inOperands
    apply noBlank operand _ c inOperand
    split at spelled
    · exact List.mem_of_mem_tail spelled
    · exact spelled

end Instruction

namespace Command

def registers : Command → List Register
  | .store register => [register]
  | .load register => [register]
  | .printRegister _ register => [register]
  | .jumpIfZero register _ => [register]
  | .jumpIf _ left right _ => [left, right]
  | _ => []

/-- The word for the instruction of a command: a sign, then registers, then text. -/
theorem spell_instruction (command : Command) (index : Nat) :
    (command.instruction index).spell =
      (command.instruction index).opcode.sign ++
        (command.registers.map Register.letter ++ command.verbatim) := by
  cases command <;> simp [instruction, Instruction.spell, registers, verbatim, Register.name]

theorem ofWord?_ofList_cons
    {head : Char}
    (notSign : Numeral.isSign head = false)
    (notDigit : Text.isAsciiDigit head = false)
    (rest : List Char) :
    ofWord? (String.ofList (head :: rest)) = ofHead? head rest := by
  rw [ofWord?, Numeral.isLiteral_ofList_cons notSign notDigit, String.toList_ofList]
  rfl

theorem ofWord?_spell_instruction
    {command : Command}
    (sound : command.Sound)
    (index : Nat) :
    ofWord? (String.ofList (command.instruction index).spell) = some command := by
  rw [spell_instruction]
  cases command with
  | push literal =>
      change ofWord? (String.ofList literal.toList) = _
      rw [String.ofList_toList, ofWord?, if_pos (sound literal rfl)]
  | operate operator =>
      -- a sign without digits is no literal
      rw [ofWord?, Numeral.isLiteral, String.toList_ofList]
      cases operator <;> rfl
  | store register =>
      apply (ofWord?_ofList_cons rfl rfl _).trans
      exact (withRegister_eq_some_iff .store _ _).mpr ⟨register, [], rfl, rfl⟩
  | load register =>
      apply (ofWord?_ofList_cons rfl rfl _).trans
      exact (withRegister_eq_some_iff .load _ _).mpr ⟨register, [], rfl, rfl⟩
  | print style => cases style <;> exact ofWord?_ofList_cons rfl rfl []
  | printRegister style register =>
      have printed : printing style [register.letter] = some (.printRegister style register) :=
        (withRegister_eq_some_iff (.printRegister style) _ _).mpr ⟨register, [], rfl, rfl⟩
      cases style <;> exact (ofWord?_ofList_cons rfl rfl _).trans printed
  | mark label =>
      apply (ofWord?_ofList_cons rfl rfl _).trans
      exact congrArg (some ∘ mark) String.ofList_toList
  | jump label =>
      apply (ofWord?_ofList_cons rfl rfl _).trans
      exact congrArg (some ∘ jump) String.ofList_toList
  | jumpIfZero register label =>
      have tested : withRegister (fun register => .jumpIfZero register (String.ofList label.toList))
          (register.letter :: label.toList) = some (.jumpIfZero register label) := by
        apply (withRegister_eq_some_iff _ _ _).mpr
        exact ⟨register, label.toList, rfl, by rw [String.ofList_toList]⟩
      exact (ofWord?_ofList_cons rfl rfl _).trans tested
  | jumpIf comparison left right label =>
      have compared : conditional comparison (left.letter :: right.letter :: label.toList) =
          some (.jumpIf comparison left right label) := by
        apply (conditional_eq_some_iff _ _ _).mpr
        exact ⟨left, right, label.toList, rfl, by rw [String.ofList_toList]⟩
      cases comparison <;> exact (ofWord?_ofList_cons rfl rfl _).trans compared
  | quit => exact ofWord?_ofList_cons rfl rfl []

theorem spell_instruction_ne_nil
    {command : Command}
    (sound : command.Sound)
    (index : Nat) :
    (command.instruction index).spell ≠ [] := by
  intro empty
  have spelled := ofWord?_spell_instruction sound index
  rw [empty] at spelled
  cases spelled

theorem compilable_instruction
    {command : Command}
    (sound : command.Sound)
    (noBlank : ∀ c ∈ command.verbatim, Text.isBlank c = false)
    (index : Nat) :
    (command.instruction index).Compilable index := by
  refine ⟨wellFormed_instruction sound index, ?_, ?_⟩
  · intro label member
    exact isBlank_of_mem_operands noBlank index label
      (Instruction.mem_operands_of_mem_label? member)
  · intro isMark
    cases command with
    | mark label => rfl
    | _ => cases isMark

end Command

theorem Instruction.Compilable.exists_command
    {position : Nat} {instruction : Instruction}
    (compilable : instruction.Compilable position) :
    ∃ command : Command, command.Sound ∧ (∀ c ∈ command.verbatim, Text.isBlank c = false) ∧
      command.instruction position = instruction := by
  obtain ⟨wellFormed, noBlank, place⟩ := compilable
  rcases wellFormed.exists_command with
    ⟨command, sound, -, made⟩ | ⟨text, label, rfl, -⟩
  · refine ⟨command, sound, ?_, made position⟩
    rw [← made position] at noBlank
    cases command with
    | push literal =>
        exact Numeral.isBlank_of_isSigned
          ((Numeral.isLiteral_iff_isSigned literal).mp (sound literal rfl))
    | mark label => exact noBlank label rfl
    | jump label => exact noBlank label rfl
    | jumpIfZero register label => exact noBlank label rfl
    | jumpIf comparison left right label => exact noBlank label rfl
    | _ => nofun
  · obtain rfl := Option.some.inj (place rfl)
    exact ⟨.mark label, nofun, noBlank label rfl, rfl⟩

namespace Program

/-- A source with one word for each instruction, divided by spaces. -/
def spell (instructions : List Instruction) : String :=
  String.ofList ([' '].intercalate (instructions.map Instruction.spell))

theorem allCompilable_ofSource (source sourceName : String) :
    Instruction.AllCompilable (ofSource source sourceName).instructions := by
  intro position instruction standing
  rw [instructions_ofSource, List.getElem?_mapIdx, Option.map_eq_some_iff] at standing
  obtain ⟨command, found, rfl⟩ := standing
  obtain ⟨sound, noBlank⟩ := mem_commands_spec (List.mem_of_getElem? found)
  exact Command.compilable_instruction sound noBlank position

/-- The words for compilable instructions give commands that stand for these instructions. The
induction moves along the list, so the first of them stands at any index. -/
theorem mapIdx_ofWords_spell
    {instructions : List Instruction} {start : Nat}
    (compilable : ∀ (position : Nat) (instruction : Instruction),
      instructions[position]? = some instruction → instruction.Compilable (start + position)) :
    (Command.ofWords (instructions.map fun instruction => String.ofList instruction.spell)).mapIdx
        (fun offset => Command.instruction (start + offset)) =
      instructions := by
  induction instructions generalizing start with
  | nil => rfl
  | cons instruction rest inductionHypothesis =>
      obtain ⟨command, sound, -, rfl⟩ := (compilable 0 instruction rfl).exists_command
      have behind := @inductionHypothesis (start + 1) fun position later standing => by
        rw [Nat.add_assoc, Nat.add_comm 1]
        exact compilable (position + 1) later standing
      rw [List.map_cons, Command.ofWords,
        List.filterMap_cons_some (Command.ofWord?_spell_instruction sound _), List.mapIdx_cons]
      apply congrArg (List.cons _)
      simp only [Nat.add_assoc, Nat.add_comm 1] at behind
      exact behind

theorem words_spell
    {instructions : List Instruction}
    (compilable : Instruction.AllCompilable instructions) :
    Token.words (spell instructions).toList =
      instructions.map fun instruction => String.ofList instruction.spell := by
  have spelled : ∀ part ∈ instructions.map Instruction.spell,
      part ≠ [] ∧ ∀ c ∈ part, Text.isBlank c = false := by
    intro part member
    obtain ⟨instruction, inProgram, rfl⟩ := List.mem_map.mp member
    obtain ⟨position, standing⟩ := List.mem_iff_getElem?.mp inProgram
    obtain ⟨command, sound, noBlank, rfl⟩ :=
      (compilable position instruction standing).exists_command
    refine ⟨Command.spell_instruction_ne_nil sound position, ?_⟩
    exact Instruction.isBlank_of_mem_spell (Command.isBlank_of_mem_operands noBlank position)
  have nonempty := fun part member => (spelled part member).1
  have noBlank := fun part member => (spelled part member).2
  rw [spell, String.toList_ofList, Token.words_intercalate nonempty noBlank, List.map_map]
  rfl

theorem instructions_ofSource_spell
    {instructions : List Instruction}
    (compilable : Instruction.AllCompilable instructions)
    (sourceName : String) :
    (ofSource (spell instructions) sourceName).instructions = instructions := by
  have restored := @mapIdx_ofWords_spell instructions 0 fun position instruction standing => by
    rw [Nat.zero_add]
    exact compilable position instruction standing
  simp only [Nat.zero_add] at restored
  rw [instructions_ofSource, commands_eq_ofWords, words_spell compilable]
  exact restored

/-- Some source compiles to a list of instructions exactly if each of them is compilable at its
position, and then the source that spells them out does. -/
theorem exists_ofSource_iff_allCompilable
    (instructions : List Instruction) (sourceName : String) :
    ((∃ source, (ofSource source sourceName).instructions = instructions) ↔
        Instruction.AllCompilable instructions) ∧
      ((ofSource (spell instructions) sourceName).instructions = instructions ↔
        Instruction.AllCompilable instructions) := by
  constructor
  · constructor
    · rintro ⟨source, rfl⟩
      exact allCompilable_ofSource source sourceName
    · intro compilable
      exact ⟨_, instructions_ofSource_spell compilable sourceName⟩
  · constructor
    · intro made
      rw [← made]
      exact allCompilable_ofSource _ sourceName
    · intro compilable
      exact instructions_ofSource_spell compilable sourceName

/-- Words that are easily taken for others: a minus sign alone and before digits, empty labels, and
a label that looks like a jump. -/
theorem exists_ofSource_iff_allCompilable_lookalikes :
    let instructions : List Instruction :=
      [⟨.mark, ["0", ""]⟩, ⟨.operate .minus, []⟩, ⟨.input, ["-007"]⟩, ⟨.print .number, []⟩,
        ⟨.printRegister .number, ["z"]⟩, ⟨.mark, ["5", "J"]⟩, ⟨.jumpIf .more, ["a", "b", ""]⟩]
    Instruction.AllCompilable instructions ∧
      spell instructions = ": - -007 P Pz :J Gab" ∧
      (ofSource (spell instructions) standardInputName).instructions = instructions := by
  intro instructions
  have spelled : spell instructions = ": - -007 P Pz :J Gab" := by decide +kernel
  have made : (ofSource (spell instructions) standardInputName).instructions = instructions := by
    rw [spelled]
    decide +kernel
  have both := exists_ofSource_iff_allCompilable instructions standardInputName
  exact ⟨both.1.mp ⟨_, made⟩, spelled, made⟩

end Program

end QueueMachine
