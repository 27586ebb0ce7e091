import QueueMachine.Proofs.Compilation

set_option autoImplicit false

/-!
Compilers that are used over and over, on whole sources and on single words in any order. After
every use a compiler holds what the commands among all the words it was given compile to, so its
instructions are well formed and its labels and marks never part.
-/

namespace QueueMachine

namespace Compiler

/-- One use of a compiler: on the tokens of a source, or on a word that belongs to none. -/
inductive Use where
  | source (tokens : List Token)
  | word (text : String)

def Use.words : Use → List String
  | .source tokens => tokens.map Token.text
  | .word text => [text]

def use (compiler : Compiler) : Use → Compiler
  | .source tokens => compiler.compile tokens
  | .word text => compiler.compileWord text none

def useAll (compiler : Compiler) (uses : List Use) : Compiler :=
  uses.foldl use compiler

theorem Holds.use
    {compiler : Compiler} {commands : List Command}
    (holds : compiler.Holds commands)
    (one : Use) :
    (compiler.use one).Holds (commands ++ Command.ofWords one.words) := by
  cases one with
  | source tokens =>
      rw [Use.words, ← Command.ofTokens_eq_ofWords]
      exact holds.compile tokens
  | word text =>
      have single : Command.ofWords [text] = (Command.ofWord? text).toList := by
        cases found : Command.ofWord? text <;> simp [Command.ofWords, found]
      rw [Use.words, single]
      exact holds.compileWord text none

theorem Holds.useAll
    {compiler : Compiler} {commands : List Command}
    (holds : compiler.Holds commands)
    (uses : List Use) :
    (compiler.useAll uses).Holds (commands ++ Command.ofWords (uses.flatMap Use.words)) := by
  induction uses generalizing compiler commands with
  | nil => simpa [Command.ofWords, Compiler.useAll] using holds
  | cons first rest inductionHypothesis =>
      have all := inductionHypothesis (holds.use first)
      rwa [List.append_assoc, ← Command.ofWords_append, ← List.flatMap_cons] at all

theorem holds_useAll (sourceName : String) (uses : List Use) :
    (useAll { sourceName } uses).Holds (Command.ofWords (uses.flatMap Use.words)) :=
  (holds_nil sourceName).useAll uses

theorem size_useAll_le (sourceName : String) (uses : List Use) :
    (useAll { sourceName } uses).statements.size ≤ (uses.flatMap Use.words).length := by
  rw [(holds_useAll sourceName uses).size_eq]
  exact List.length_filterMap_le _ _

theorem size_useAll_take_le (sourceName : String) (uses : List Use) (count : Nat) :
    (useAll { sourceName } (uses.take count)).statements.size ≤
      (useAll { sourceName } uses).statements.size := by
  rw [(holds_useAll sourceName _).size_eq, (holds_useAll sourceName uses).size_eq]
  have parted : uses.flatMap Use.words =
      (uses.take count).flatMap Use.words ++ (uses.drop count).flatMap Use.words := by
    rw [← List.flatMap_append, List.take_append_drop]
  rw [parted, Command.ofWords_append, List.length_append]
  exact Nat.le_add_right _ _

/-- What holds of a compiler whenever it is not at work: its instructions are well formed, each mark
names its own position, and each label stands for the last mark of its name. -/
structure Consistent (compiler : Compiler) : Prop where
  wellFormed : ∀ instruction ∈ compiler.instructions, instruction.WellFormed
  index : ∀ (position : Nat) (instruction : Instruction),
    compiler.instructions[position]? = some instruction → instruction.opcode = .mark →
      instruction.operands.head? = some (Numeral.format position)
  bound : ∀ name target, compiler.labels.resolve? name = some target ↔
    ∃ position : Nat, IsGreatest (Instruction.marks compiler.instructions name) position ∧
      target = position
  unbound : ∀ name, compiler.labels.resolve? name = none ↔
    Instruction.marks compiler.instructions name = ∅

theorem Holds.consistent
    {compiler : Compiler} {commands : List Command}
    (holds : compiler.Holds commands)
    (sound : ∀ command ∈ commands, command.Sound) :
    compiler.Consistent := by
  obtain ⟨instructions, labels⟩ := holds
  refine ⟨?_, ?_, ?_, ?_⟩
  · intro instruction member
    rw [instructions] at member
    obtain ⟨index, inRange, rfl⟩ := List.mem_mapIdx.mp member
    exact Command.wellFormed_instruction (sound _ (List.getElem_mem inRange)) index
  · intro position instruction standing isMark
    rw [instructions, List.getElem?_mapIdx, Option.map_eq_some_iff] at standing
    obtain ⟨command, -, rfl⟩ := standing
    cases command with
    | mark label => rfl
    | _ => cases isMark
  · intro name target
    rw [instructions, labels]
    exact Command.resolve?_labels_eq_some_iff commands name target
  · intro name
    rw [instructions, labels]
    exact Command.resolve?_labels_eq_none_iff commands name

theorem Holds.ofInstructions
    {compiler : Compiler} {commands : List Command}
    (holds : compiler.Holds commands)
    (bounded : compiler.statements.size ≤ Numeral.placeValue Numeral.maxDigits) :
    LabelTable.ofInstructions compiler.instructions = .ok compiler.labels := by
  rw [holds.size_eq] at bounded
  rw [holds.instructions, holds.labels]
  exact Command.ofInstructions_mapIdx_instruction bounded

/-- A new compiler is consistent after each of its uses, whatever they are: its instructions are
those of the commands among the words it was given, no more than there are words, and binding their
marks anew gives its labels. -/
theorem consistent_useAll
    (sourceName : String) (uses : List Use)
    (bounded : (useAll { sourceName } uses).statements.size < Numeral.placeValue Numeral.maxDigits)
    (count : Nat) :
    let compiler := useAll { sourceName } (uses.take count)
    let words := (uses.take count).flatMap Use.words
    compiler.Consistent ∧
      LabelTable.ofInstructions compiler.instructions = .ok compiler.labels ∧
      compiler.instructions.length ≤ words.length ∧
      compiler.instructions = (Command.ofWords words).mapIdx Command.instruction := by
  intro compiler words
  have holds := holds_useAll sourceName (uses.take count)
  refine ⟨holds.consistent ?_, holds.ofInstructions ?_, ?_, holds.instructions⟩
  · intro command member
    obtain ⟨word, -, found⟩ := List.mem_filterMap.mp member
    exact (Command.sound_and_verbatim_of_ofWord? found).1
  · exact Nat.le_of_lt (Nat.lt_of_le_of_lt (size_useAll_take_le sourceName uses count) bounded)
  · rw [Compiler.instructions, List.length_map, Array.length_toList]
    exact size_useAll_le sourceName (uses.take count)

/-- A label that is declared by a single word and again among tokens, one of which is dropped. -/
theorem consistent_useAll_redeclared :
    let uses : List Use :=
      [.word ":a", .source [⟨"-12", 1, 1⟩, ⟨"?!", 1, 5⟩, ⟨":a", 2, 1⟩], .word "", .word "Ja"]
    let compiler := useAll {} (uses.take 2)
    (useAll {} uses).statements.size < Numeral.placeValue Numeral.maxDigits ∧
      compiler.instructions =
        [⟨.mark, ["0", "a"]⟩, ⟨.input, ["-12"]⟩, ⟨.mark, ["2", "a"]⟩] ∧
      compiler.Consistent ∧
      LabelTable.ofInstructions compiler.instructions = .ok compiler.labels := by
  intro uses compiler
  have bounded : (useAll {} uses).statements.size < Numeral.placeValue Numeral.maxDigits :=
    Nat.lt_of_le_of_lt (size_useAll_le _ _) (by decide +kernel)
  obtain ⟨consistent, reindexed, -⟩ := consistent_useAll _ uses bounded 2
  exact ⟨bounded, by decide +kernel, consistent, reindexed⟩

end Compiler

end QueueMachine
