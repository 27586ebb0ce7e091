import Mathlib.Data.List.Basic
import QueueMachine.Proofs.Compilation

set_option autoImplicit false

/-!
Sources put together. What a source compiles to is decided by its commands alone, so a source can be
compiled in parts: the instructions of the second part are moved behind those of the first, and its
labels hide labels of the same name in the first. Words that give no command can be struck out.
-/

namespace QueueMachine

/-- An instruction moved by a distance: the index of a mark grows by as much. -/
def Instruction.relocate (distance : Nat) (instruction : Instruction) : Instruction :=
  match instruction with
  | ⟨.mark, text :: rest⟩ =>
      match Numeral.readText text with
      | .ok index => ⟨.mark, Numeral.format (index + distance) :: rest⟩
      | .error _ => instruction
  | _ => instruction

namespace Command

theorem relocate_instruction
    (command : Command) {index : Nat}
    (bounded : index < Numeral.placeValue Numeral.maxDigits)
    (distance : Nat) :
    (command.instruction index).relocate distance = command.instruction (index + distance) := by
  cases command with
  | mark label =>
      simp only [instruction, Instruction.relocate, Numeral.readText_format_natCast bounded]
      rfl
  | _ => rfl

theorem mapIdx_instruction_append
    (first : List Command) {second : List Command}
    (bounded : second.length ≤ Numeral.placeValue Numeral.maxDigits) :
    (first ++ second).mapIdx instruction =
      first.mapIdx instruction ++
        (second.mapIdx instruction).map (Instruction.relocate first.length) := by
  rw [List.mapIdx_append]
  apply congrArg (first.mapIdx instruction ++ ·)
  apply List.ext_getElem?
  intro position
  rw [List.getElem?_map, List.getElem?_mapIdx, List.getElem?_mapIdx]
  cases standing : second[position]? with
  | none => rfl
  | some command =>
      have inRange := (List.getElem?_eq_some_iff.mp standing).1
      exact congrArg some
        (relocate_instruction command (Nat.lt_of_lt_of_le inRange bounded) first.length).symm

/-- The labels of the second part hide those of the first. -/
theorem resolve?_labels_append (first second : List Command) (name : String) :
    (labels (first ++ second)).resolve? name =
      match (labels second).resolve? name with
      | some index => some (index + first.length)
      | none => (labels first).resolve? name := by
  rw [labels, List.zipIdx_append, List.foldl_append, resolve?_foldl_declare_eq,
    resolve?_labels second name]
  cases lastMark? name second with
  | none => rfl
  | some offset =>
      dsimp only [Option.map_some]
      congr 1
      omega

theorem ofTokens_filter_of_idle
    {tokens : List Token} {picked : Token → Bool}
    (idle : ∀ token ∈ tokens, picked token = true → ofWord? token.text = none) :
    ofTokens (tokens.filter (!picked ·)) = ofTokens tokens := by
  rw [ofTokens, ofTokens, List.filterMap_filter]
  apply List.filterMap_congr
  intro token member
  cases struck : picked token with
  | false => rfl
  | true => exact (idle token member struck).symm

end Command

theorem Compiler.Holds.same_program
    {first second : Compiler} {commands : List Command}
    (firstHolds : first.Holds commands)
    (secondHolds : second.Holds commands) :
    first.program.same second.program = true := by
  have instructions : first.program.instructions = second.program.instructions :=
    firstHolds.instructions.trans secondHolds.instructions.symm
  have labels : first.program.labels = second.program.labels :=
    firstHolds.labels.trans secondHolds.labels.symm
  rw [Program.same, instructions, labels, Bool.and_eq_true, beq_iff_eq]
  exact ⟨rfl, LabelTable.same_self _⟩

namespace Program

theorem commands_append
    {gap : String}
    (nonempty : gap ≠ "")
    (blank : ∀ c ∈ gap.toList, Text.isBlank c = true)
    (first second : String) :
    commands (first ++ gap ++ second) = commands first ++ commands second := by
  have letters : gap.toList ≠ [] := fun empty => nonempty (String.toList_eq_nil_iff.mp empty)
  rw [commands_eq_ofWords, commands_eq_ofWords, commands_eq_ofWords, ← Command.ofWords_append,
    String.toList_append, String.toList_append,
    Token.words_append_blanks_append letters blank]

theorem commands_strike
    {source : String} {picked : Token → Bool}
    (idle : ∀ token ∈ Token.scan source, picked token = true → Command.ofWord? token.text = none) :
    commands (Token.strike picked source) = commands source := by
  rw [commands_eq_ofWords, Token.words_strike, ← Command.ofTokens_eq_ofWords,
    Command.ofTokens_filter_of_idle idle, commands]

/-- A source that is put together from two compiles to the instructions of the first and those of
the second, moved behind them, with the labels of both; a compiler that is given the two one after
the other makes the same program. Words that give no command can be struck out of any source, or
left out when it is compiled, without changing the program. -/
theorem ofSource_append
    (first gap second sourceName : String)
    (nonempty : gap ≠ "")
    (blank : ∀ c ∈ gap.toList, Text.isBlank c = true)
    (bounded : (ofSource first sourceName).size + (ofSource second sourceName).size <
      Numeral.placeValue Numeral.maxDigits) :
    let front := ofSource first sourceName
    let back := ofSource second sourceName
    let whole := ofSource (first ++ gap ++ second) sourceName
    whole.instructions =
        front.instructions ++ back.instructions.map (Instruction.relocate front.size) ∧
      (∀ name, whole.labels.resolve? name =
        match back.labels.resolve? name with
        | some index => some (index + front.size)
        | none => front.labels.resolve? name) ∧
      ((({ sourceName } : Compiler).compile (Token.scan first)).compile
        (Token.scan second)).program.same whole = true ∧
      ∀ (source : String) (picked : Token → Bool),
        (∀ token ∈ Token.scan source,
          picked token = true → Command.ofWord? token.text = none) →
        (ofSource (Token.strike picked source) sourceName).same (ofSource source sourceName) =
            true ∧
          (({ sourceName } : Compiler).compile
            ((Token.scan source).filter (!picked ·))).program.same (ofSource source sourceName) =
            true := by
  intro front back whole
  have joined := commands_append nonempty blank first second
  have short : (commands second).length ≤ Numeral.placeValue Numeral.maxDigits := by
    rw [length_commands second sourceName]
    omega
  have wholeHolds := holds_compile_scan (first ++ gap ++ second) sourceName
  refine ⟨?_, ?_, ?_, ?_⟩
  · rw [instructions_ofSource, instructions_ofSource, instructions_ofSource, joined,
      Command.mapIdx_instruction_append _ short, length_commands first sourceName]
  · intro name
    rw [labels_ofSource, labels_ofSource, labels_ofSource, joined,
      Command.resolve?_labels_append, length_commands first sourceName]
  · have inParts := (holds_compile_scan first sourceName).compile (Token.scan second)
    rw [joined] at wholeHolds
    exact inParts.same_program wholeHolds
  · intro source picked idle
    have sourceHolds := holds_compile_scan source sourceName
    have struckHolds := holds_compile_scan (Token.strike picked source) sourceName
    have filteredHolds :=
      (Compiler.holds_nil sourceName).compile ((Token.scan source).filter (!picked ·))
    rw [commands_strike idle] at struckHolds
    rw [Command.ofTokens_filter_of_idle idle] at filteredHolds
    exact ⟨struckHolds.same_program sourceHolds, filteredHolds.same_program sourceHolds⟩

/-- Two parts that declare a label each of its own and one in common, with a word between that gives
no command and a blank that is no space. -/
theorem ofSource_append_common_label :
    let first := ":a Ja ?? :b"
    let second := ":b 5 :c"
    let whole := ofSource (first ++ "\u2003" ++ second) standardInputName
    (ofSource first standardInputName).size + (ofSource second standardInputName).size <
        Numeral.placeValue Numeral.maxDigits ∧
      whole.instructions =
        [⟨.mark, ["0", "a"]⟩, ⟨.jump, ["a"]⟩, ⟨.mark, ["2", "b"]⟩, ⟨.mark, ["3", "b"]⟩,
          ⟨.input, ["5"]⟩, ⟨.mark, ["5", "c"]⟩] ∧
      whole.labels.resolve? "a" = some 0 ∧
      whole.labels.resolve? "b" = some 3 ∧
      Token.strike (fun token => token.column == 7) first = ":a Ja  :b" ∧
      (ofSource ":a Ja  :b" standardInputName).same (ofSource first standardInputName) = true := by
  intro first second whole
  have bounded : (ofSource first standardInputName).size +
      (ofSource second standardInputName).size < Numeral.placeValue Numeral.maxDigits :=
    Nat.lt_of_le_of_lt
      (Nat.add_le_add (size_ofSource_le first _) (size_ofSource_le second _)) (by decide +kernel)
  have blank : ∀ c ∈ "\u2003".toList, Text.isBlank c = true := List.all_eq_true.mp (by decide)
  obtain ⟨instructions, labels, -, struck⟩ :=
    ofSource_append first "\u2003" second standardInputName (by decide) blank bounded
  have shorter : Token.strike (fun token => token.column == 7) first = ":a Ja  :b" := by
    decide +kernel
  refine ⟨bounded, instructions.trans (by decide +kernel), (labels "a").trans (by decide +kernel),
    (labels "b").trans (by decide +kernel), shorter, ?_⟩
  have same := (struck first (fun token => token.column == 7) (by decide +kernel)).1
  rwa [shorter] at same

end Program

end QueueMachine
