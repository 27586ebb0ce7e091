import QueueMachine.Program
import QueueMachine.Proofs.Declaration
import QueueMachine.Proofs.Listing
import QueueMachine.Proofs.Token

set_option autoImplicit false

/-!
What compiling a source gives. The instructions are those of the commands among its words, each at
its own index, and the labels are those that the commands declare, each bound to the index of its
mark. All the rest follows from these two equations: every instruction can stand in a listing, every
label is bound to a mark of its name, and binding the marks of the instructions anew gives the same
labels.
-/

namespace QueueMachine

namespace Command

def ofTokens (tokens : List Token) : List Command :=
  tokens.filterMap fun token => ofWord? token.text

def ofWords (words : List String) : List Command :=
  words.filterMap ofWord?

theorem ofTokens_eq_ofWords (tokens : List Token) :
    ofTokens tokens = ofWords (tokens.map Token.text) := by
  rw [ofTokens, ofWords, List.filterMap_map]
  rfl

theorem ofWords_append (first second : List String) :
    ofWords (first ++ second) = ofWords first ++ ofWords second :=
  List.filterMap_append

end Command

namespace Compiler

def instructions (compiler : Compiler) : List Instruction :=
  compiler.statements.toList.map Statement.instruction

/-- Whether a compiler holds exactly what some commands compile to. -/
structure Holds (compiler : Compiler) (commands : List Command) : Prop where
  instructions : compiler.instructions = commands.mapIdx Command.instruction
  labels : compiler.labels = Command.labels commands

theorem holds_nil (sourceName : String) : ({ sourceName } : Compiler).Holds [] :=
  ⟨rfl, rfl⟩

theorem Holds.size_eq
    {compiler : Compiler} {commands : List Command}
    (holds : compiler.Holds commands) :
    compiler.statements.size = commands.length := by
  have lengths := congrArg List.length holds.instructions
  simpa [Compiler.instructions] using lengths

theorem Holds.compileCommand
    {compiler : Compiler} {commands : List Command}
    (holds : compiler.Holds commands)
    (command : Command) (origin : Option Origin) :
    (compiler.compileCommand command origin).Holds (commands ++ [command]) := by
  have size := holds.size_eq
  constructor
  · have pushed : (compiler.compileCommand command origin).instructions =
        compiler.instructions ++ [command.instruction compiler.statements.size] := by
      simp [Compiler.compileCommand, emit, Compiler.instructions]
    rw [pushed, holds.instructions, size, List.mapIdx_concat]
  · rw [Command.labels, List.zipIdx_append, List.foldl_append]
    change Command.declare compiler.labels (command, compiler.statements.size) =
      Command.declare (Command.labels commands) (command, 0 + commands.length)
    rw [holds.labels, size, Nat.zero_add]

theorem Holds.compileWord
    {compiler : Compiler} {commands : List Command}
    (holds : compiler.Holds commands)
    (word : String) (origin : Option Origin) :
    (compiler.compileWord word origin).Holds (commands ++ (Command.ofWord? word).toList) := by
  rw [Compiler.compileWord]
  split
  · rename_i command found
    rw [found]
    exact holds.compileCommand command origin
  · rename_i dropped
    rw [dropped]
    simpa using holds

theorem Holds.compileToken
    {compiler : Compiler} {commands : List Command}
    (holds : compiler.Holds commands)
    (token : Token) :
    (compiler.compileToken token).Holds (commands ++ (Command.ofWord? token.text).toList) := by
  have compiled := holds.compileWord token.text
    (some ⟨compiler.sourceName, token.line, token.column, compiler.cursor, token.text⟩)
  exact ⟨compiled.instructions, compiled.labels⟩

theorem Holds.foldl_compileToken
    {compiler : Compiler} {commands : List Command}
    (holds : compiler.Holds commands)
    (tokens : List Token) :
    (tokens.foldl Compiler.compileToken compiler).Holds (commands ++ Command.ofTokens tokens) := by
  induction tokens generalizing compiler commands with
  | nil => simpa [Command.ofTokens] using holds
  | cons token rest inductionHypothesis =>
      have first := holds.compileToken token
      have all := inductionHypothesis first
      rw [List.foldl_cons]
      cases found : Command.ofWord? token.text with
      | none => simpa [Command.ofTokens, found] using all
      | some command => simpa [Command.ofTokens, found] using all

theorem Holds.compile
    {compiler : Compiler} {commands : List Command}
    (holds : compiler.Holds commands)
    (tokens : List Token) :
    (compiler.compile tokens).Holds (commands ++ Command.ofTokens tokens) :=
  have compiled := holds.foldl_compileToken tokens
  ⟨compiled.instructions, compiled.labels⟩

end Compiler

namespace Program

def commands (source : String) : List Command :=
  Command.ofTokens (Token.scan source)

theorem commands_eq_ofWords (source : String) :
    commands source = Command.ofWords (Token.words source.toList) := by
  rw [commands, Command.ofTokens_eq_ofWords, Token.map_text_scan]

theorem holds_compile_scan (source sourceName : String) :
    (({ sourceName } : Compiler).compile (Token.scan source)).Holds (commands source) := by
  simpa [commands] using (Compiler.holds_nil sourceName).compile (Token.scan source)

theorem instructions_ofSource (source sourceName : String) :
    (ofSource source sourceName).instructions = (commands source).mapIdx Command.instruction :=
  (holds_compile_scan source sourceName).instructions

theorem labels_ofSource (source sourceName : String) :
    (ofSource source sourceName).labels = Command.labels (commands source) :=
  (holds_compile_scan source sourceName).labels

theorem length_instructions (program : Program) : program.instructions.length = program.size := by
  simp [instructions, size]

theorem length_commands (source sourceName : String) :
    (commands source).length = (ofSource source sourceName).size := by
  rw [← length_instructions, instructions_ofSource, List.length_mapIdx]

theorem size_ofSource_le (source sourceName : String) :
    (ofSource source sourceName).size ≤ source.toList.length := by
  rw [← length_commands]
  exact Nat.le_trans (List.length_filterMap_le _ _) (Token.length_scan_le source)

theorem mem_commands_spec
    {source : String} {command : Command}
    (member : command ∈ commands source) :
    command.Sound ∧ ∀ c ∈ command.verbatim, Text.isBlank c = false := by
  obtain ⟨token, inTokens, found⟩ := List.mem_filterMap.mp member
  obtain ⟨sound, taken⟩ := Command.sound_and_verbatim_of_ofWord? found
  refine ⟨sound, fun c inCommand => ?_⟩
  exact Token.isBlank_of_mem_scan source token inTokens c (taken inCommand)

theorem command_of_mem_instructions
    {source sourceName : String} {instruction : Instruction}
    (member : instruction ∈ (ofSource source sourceName).instructions) :
    ∃ command ∈ commands source, ∃ index : Nat, instruction = command.instruction index ∧
      index < (ofSource source sourceName).size := by
  rw [instructions_ofSource] at member
  obtain ⟨index, inRange, rfl⟩ := List.mem_mapIdx.mp member
  exact ⟨_, List.getElem_mem inRange, index, rfl, length_commands source sourceName ▸ inRange⟩

theorem isBlank_of_mem_operands
    {source sourceName : String} {instruction : Instruction}
    (member : instruction ∈ (ofSource source sourceName).instructions) :
    ∀ operand ∈ instruction.operands, ∀ c ∈ operand.toList, Text.isBlank c = false := by
  obtain ⟨command, inCommands, index, rfl, -⟩ := command_of_mem_instructions member
  exact Command.isBlank_of_mem_operands (mem_commands_spec inCommands).2 index

theorem wellFormed_of_mem_instructions
    {source sourceName : String} {instruction : Instruction}
    (member : instruction ∈ (ofSource source sourceName).instructions) :
    instruction.WellFormed := by
  obtain ⟨command, inCommands, index, rfl, -⟩ := command_of_mem_instructions member
  exact Command.wellFormed_instruction (mem_commands_spec inCommands).1 index

theorem listable_of_mem_instructions
    {source sourceName : String} {instruction : Instruction}
    (member : instruction ∈ (ofSource source sourceName).instructions) :
    instruction.Listable := by
  refine ⟨wellFormed_of_mem_instructions member, fun operand inOperands c inOperand => ?_⟩
  have notBlank := isBlank_of_mem_operands member operand inOperands c inOperand
  constructor
  · rintro rfl
    exact absurd notBlank (by decide)
  · rw [← Bool.not_eq_true] at notBlank ⊢
    exact fun lineBreak => notBlank (Text.isBlank_of_isLineBreak lineBreak)

theorem mark_of_resolve?_ofSource
    {source sourceName name : String} {target : Int}
    (bound : (ofSource source sourceName).labels.resolve? name = some target) :
    ∃ position : Nat, target = position ∧
      (ofSource source sourceName).instructions[position]? =
        some ⟨.mark, [Numeral.format position, name]⟩ := by
  rw [labels_ofSource] at bound
  obtain ⟨position, found, place⟩ := Command.mark_of_resolve?_labels bound
  refine ⟨position, place, ?_⟩
  rw [instructions_ofSource, List.getElem?_mapIdx, found]
  rfl

theorem resolve?_ofSource_eq_some_iff (source sourceName name : String) (target : Int) :
    (ofSource source sourceName).labels.resolve? name = some target ↔
      ∃ position : Nat,
        IsGreatest (Instruction.marks (ofSource source sourceName).instructions name) position ∧
          target = position := by
  rw [labels_ofSource, instructions_ofSource]
  exact Command.resolve?_labels_eq_some_iff (commands source) name target

theorem resolve?_ofSource_eq_none_iff (source sourceName name : String) :
    (ofSource source sourceName).labels.resolve? name = none ↔
      Instruction.marks (ofSource source sourceName).instructions name = ∅ := by
  rw [labels_ofSource, instructions_ofSource]
  exact Command.resolve?_labels_eq_none_iff (commands source) name

theorem mark_of_getElem?_ofSource
    {source sourceName text label : String} {position : Nat}
    (found : (ofSource source sourceName).instructions[position]? = some ⟨.mark, [text, label]⟩) :
    text = Numeral.format position ∧ label ∈ (ofSource source sourceName).labels.names := by
  rw [instructions_ofSource, List.getElem?_mapIdx, Option.map_eq_some_iff] at found
  obtain ⟨command, place, made⟩ := found
  cases command with
  | mark name =>
      cases made
      refine ⟨rfl, ?_⟩
      rw [labels_ofSource, Command.mem_names_labels]
      exact List.mem_of_getElem? place
  | _ => cases made

theorem ofInstructions_instructions_ofSource
    {source sourceName : String}
    (bounded : (ofSource source sourceName).size ≤ Numeral.placeValue Numeral.maxDigits) :
    LabelTable.ofInstructions (ofSource source sourceName).instructions =
      .ok (ofSource source sourceName).labels := by
  rw [instructions_ofSource, labels_ofSource]
  exact Command.ofInstructions_mapIdx_instruction (length_commands source sourceName ▸ bounded)

end Program

end QueueMachine
