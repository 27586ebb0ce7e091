import QueueMachine.Listing
import QueueMachine.Proofs.Operand
import QueueMachine.Proofs.Text.Line

set_option autoImplicit false

/-!
Listings are read back as they were written. The checks on a line are exactly well-formedness of
the instruction, so reading a rendered list returns it if and only if all its instructions are
well formed and no operand holds a tab or a line break; and every list that is read from any text
is of that kind.
-/

namespace QueueMachine

namespace Opcode

theorem ofMnemonic?_mnemonic (opcode : Opcode) : ofMnemonic? opcode.mnemonic = some opcode := by
  have checked : ∀ opcode ∈ all, ofMnemonic? opcode.mnemonic = some opcode := by decide
  exact checked opcode opcode.mem_all

theorem isBlank_of_all
    (text : Opcode → List Char)
    (checked : (all.all fun opcode => (text opcode).all fun c => !Text.isBlank c) = true)
    (opcode : Opcode) :
    ∀ c ∈ text opcode, Text.isBlank c = false := by
  intro c member
  have kept := List.all_eq_true.mp (List.all_eq_true.mp checked opcode opcode.mem_all) c member
  simpa using kept

theorem isBlank_of_mem_mnemonic (opcode : Opcode) :
    ∀ c ∈ opcode.mnemonic.toList, Text.isBlank c = false :=
  isBlank_of_all (fun opcode => opcode.mnemonic.toList) rfl opcode

theorem toList_mnemonic_ne_nil (opcode : Opcode) : opcode.mnemonic.toList ≠ [] := by
  have checked : ∀ opcode ∈ all, opcode.mnemonic.toList ≠ [] := by decide
  exact checked opcode opcode.mem_all

theorem eq_mnemonic_of_ofMnemonic?_eq_some
    {name : String} {opcode : Opcode}
    (found : ofMnemonic? name = some opcode) :
    name = opcode.mnemonic :=
  (eq_of_beq (List.find?_some (p := fun opcode : Opcode => opcode.mnemonic == name) found)).symm

theorem trim_ne_nil_of_mnemonic
    {opcode : Opcode} {line : List Char}
    (holds : ∀ c ∈ opcode.mnemonic.toList, c ∈ line) :
    Text.trim line ≠ [] := by
  obtain ⟨c, inName⟩ := List.exists_mem_of_ne_nil _ opcode.toList_mnemonic_ne_nil
  exact List.ne_nil_of_mem
    (Text.mem_trim (holds c inName) (opcode.isBlank_of_mem_mnemonic c inName))

end Opcode

/-- An instruction that can stand in a listing: well formed, with nothing in its operands that would
end a field or a line. -/
structure Instruction.Listable (instruction : Instruction) : Prop
    extends instruction.WellFormed where
  unbroken : ∀ operand ∈ instruction.operands, ∀ c ∈ operand.toList,
    c ≠ '\t' ∧ Text.isLineBreak c = false

namespace Listing

theorem find?_isName_eq_none_iff (operands : List String) :
    operands.find? (!Register.isName ·) = none ↔
      ∀ operand ∈ operands, Register.IsLetter operand := by
  simp [List.find?_eq_none, Register.isName_iff_isLetter]

theorem operandFault?_eq_none_iff
    {instruction : Instruction}
    (arity : instruction.operands.length = instruction.opcode.arity) :
    operandFault? instruction = none ↔ instruction.WellFormed := by
  obtain ⟨opcode, operands⟩ := instruction
  constructor
  · intro accepted
    simp only [operandFault?] at accepted
    split at accepted
    · cases accepted
    · rename_i lettered
      refine ⟨arity, (find?_isName_eq_none_iff _).mp lettered, ?_, ?_⟩
      · rintro ⟨⟩ operand member
        obtain ⟨literal, rfl⟩ := List.length_eq_one_iff.mp arity
        rw [List.mem_singleton.mp member, ← Numeral.isLiteral_iff_isSigned]
        simpa using accepted
      · rintro ⟨⟩ operand first
        obtain ⟨label, rfl⟩ := List.head?_eq_some_iff.mp first
        rw [← Numeral.isDigits_iff_isUnsigned]
        simpa using accepted
  · intro wellFormed
    simp only [operandFault?]
    rw [(find?_isName_eq_none_iff _).mpr wellFormed.registers]
    dsimp only
    split
    · rename_i literal rest
      have signed := wellFormed.literal rfl literal (by simp)
      rw [if_pos ((Numeral.isLiteral_iff_isSigned literal).mpr signed)]
    · rename_i index rest
      have unsigned := wellFormed.index rfl index rfl
      rw [if_pos ((Numeral.isDigits_iff_isUnsigned index).mpr unsigned)]
    · rfl

theorem parseFields_eq_ok_iff (field : String) (operands : List String) (instruction : Instruction) :
    parseFields field operands = .ok instruction ↔
      Opcode.ofMnemonic? (String.ofList (Text.trim field.toList)) = some instruction.opcode ∧
        instruction.operands = operands ∧ instruction.WellFormed := by
  constructor
  · intro accepted
    rw [parseFields] at accepted
    split at accepted
    · cases accepted
    · rename_i opcode named
      split at accepted
      · cases accepted
      · rename_i arity
        have arity := Decidable.of_not_not arity
        split at accepted
        · cases accepted
        · rename_i faultless
          cases accepted
          exact ⟨named, rfl, (operandFault?_eq_none_iff arity).mp faultless⟩
  · rintro ⟨named, rfl, wellFormed⟩
    simp only [parseFields, named]
    rw [if_neg (not_not_intro wellFormed.arity),
      (operandFault?_eq_none_iff wellFormed.arity).mpr wellFormed]

/-- A line is read to an instruction exactly if its first field names the operation code and its
other fields are well-formed operands. -/
theorem parseLine_eq_ok_iff (line : List Char) (instruction : Instruction) :
    parseLine line = .ok instruction ↔
      ∃ field operands, Text.splitAtEach separator line = field :: operands ∧
        Opcode.ofMnemonic? (String.ofList (Text.trim field)) = some instruction.opcode ∧
        instruction.operands = operands.map String.ofList ∧ instruction.WellFormed := by
  match fields : Text.splitAtEach separator line with
  | [] => exact absurd fields (Text.splitAtEach_ne_nil separator line)
  | field :: operands =>
      simp only [parseLine, fields, List.map_cons, parseFields_eq_ok_iff, String.toList_ofList]
      constructor
      · intro accepted
        exact ⟨field, operands, rfl, accepted⟩
      · rintro ⟨_, _, same, accepted⟩
        cases same
        exact accepted

def filled (lines : List (List Char)) : List (List Char) :=
  lines.filter fun line => !(Text.trim line).isEmpty

theorem parseLines_eq_ok_iff
    (number : Nat) (lines : List (List Char)) (instructions : List Instruction) :
    parseLines number lines = .ok instructions ↔
      (filled lines).map parseLine = instructions.map .ok := by
  induction lines generalizing number instructions with
  | nil => cases instructions <;> simp [parseLines, filled]
  | cons line rest inductionHypothesis =>
      rw [parseLines]
      by_cases blank : (Text.trim line).isEmpty = true
      · rw [if_pos blank, inductionHypothesis, filled, filled,
          List.filter_cons_of_neg (by simp [blank])]
      · rw [if_neg blank, filled, List.filter_cons_of_pos (by simp [blank]), List.map_cons, ← filled]
        constructor
        · intro accepted
          split at accepted
          · cases accepted
          · rename_i instruction first
            split at accepted
            · cases accepted
            · rename_i others remaining
              cases accepted
              rw [first, (inductionHypothesis _ _).mp remaining, List.map_cons]
        · intro readable
          cases instructions with
          | nil => cases readable
          | cons instruction others =>
              rw [List.map_cons, List.cons.injEq] at readable
              simp only [readable.1, (inductionHypothesis (number + 1) others).mpr readable.2]

theorem mem_iff_of_parse_eq_ok
    {text : String} {instructions : List Instruction}
    (accepted : parse text = .ok instructions)
    (instruction : Instruction) :
    instruction ∈ instructions ↔
      ∃ line ∈ filled (Text.lines text.toList), parseLine line = .ok instruction := by
  rw [parse, parseLines_eq_ok_iff] at accepted
  rw [← List.mem_map, accepted]
  simp

theorem exists_of_mem_filled
    {text : String} {instructions : List Instruction} {line : List Char}
    (accepted : parse text = .ok instructions)
    (notBlank : line ∈ filled (Text.lines text.toList)) :
    ∃ instruction, parseLine line = .ok instruction := by
  rw [parse, parseLines_eq_ok_iff] at accepted
  have readLine := List.mem_map_of_mem (f := parseLine) notBlank
  rw [accepted] at readLine
  obtain ⟨instruction, -, same⟩ := List.mem_map.mp readLine
  exact ⟨instruction, same.symm⟩

theorem listable_of_parseLine_eq_ok
    {line : List Char} {instruction : Instruction}
    (noBreak : ∀ c ∈ line, Text.isLineBreak c = false)
    (accepted : parseLine line = .ok instruction) :
    instruction.Listable := by
  obtain ⟨field, operands, fields, -, verbatim, wellFormed⟩ :=
    (parseLine_eq_ok_iff line instruction).mp accepted
  refine ⟨wellFormed, fun operand member c inOperand => ?_⟩
  rw [verbatim] at member
  obtain ⟨piece, inOperands, rfl⟩ := List.mem_map.mp member
  rw [String.toList_ofList] at inOperand
  have inFields : piece ∈ Text.splitAtEach separator line := by simp [fields, inOperands]
  obtain ⟨inLine, different⟩ := Text.mem_of_mem_splitAtEach separator line piece inFields c inOperand
  exact ⟨different, noBreak c inLine⟩

theorem listable_of_parse_eq_ok
    {text : String} {instructions : List Instruction}
    (accepted : parse text = .ok instructions) :
    ∀ instruction ∈ instructions, instruction.Listable := by
  intro instruction member
  obtain ⟨line, inLines, readLine⟩ := (mem_iff_of_parse_eq_ok accepted instruction).mp member
  exact listable_of_parseLine_eq_ok
    (Text.isLineBreak_of_mem_lines _ line (List.mem_filter.mp inLines).1) readLine

/-- The line of an instruction, without the line feed at its end. -/
def lineOf (instruction : Instruction) : List Char :=
  [separator].intercalate
    (instruction.opcode.mnemonic.toList :: instruction.operands.map String.toList)

theorem toList_renderInstruction (instruction : Instruction) :
    (renderInstruction instruction).toList = lineOf instruction ++ ['\n'] := by
  simp [renderInstruction, lineOf]

theorem toList_render (instructions : List Instruction) :
    (render instructions).toList =
      instructions.flatMap fun instruction => lineOf instruction ++ ['\n'] := by
  simp [render, List.flatMap_map, toList_renderInstruction]

/-- Whatever holds of the separator, of names and of operands holds throughout a line. -/
theorem forall_mem_lineOf
    {property : Char → Prop} {instruction : Instruction}
    (ofSeparator : property separator)
    (ofName : ∀ c ∈ instruction.opcode.mnemonic.toList, property c)
    (ofOperands : ∀ operand ∈ instruction.operands, ∀ c ∈ operand.toList, property c) :
    ∀ c ∈ lineOf instruction, property c := by
  intro c member
  rcases Text.mem_of_mem_intercalate member with rfl | ⟨piece, inPieces, inPiece⟩
  · exact ofSeparator
  · rcases List.mem_cons.mp inPieces with rfl | inOperands
    · exact ofName c inPiece
    · obtain ⟨operand, isOperand, rfl⟩ := List.mem_map.mp inOperands
      exact ofOperands operand isOperand c inPiece

theorem isLineBreak_of_mem_mnemonic (opcode : Opcode) :
    ∀ c ∈ opcode.mnemonic.toList, Text.isLineBreak c = false := by
  intro c member
  have notBlank := opcode.isBlank_of_mem_mnemonic c member
  rw [← Bool.not_eq_true] at notBlank ⊢
  exact fun lineBreak => notBlank (Text.isBlank_of_isLineBreak lineBreak)

theorem isLineBreak_of_mem_lineOf
    {instruction : Instruction}
    (listable : instruction.Listable) :
    ∀ c ∈ lineOf instruction, Text.isLineBreak c = false :=
  forall_mem_lineOf (by decide) (isLineBreak_of_mem_mnemonic _)
    fun operand member c inOperand => (listable.unbroken operand member c inOperand).2

theorem trim_lineOf_ne_nil (instruction : Instruction) : Text.trim (lineOf instruction) ≠ [] := by
  apply @Opcode.trim_ne_nil_of_mnemonic instruction.opcode
  intro c inName
  rw [lineOf]
  cases instruction.operands with
  | nil => simpa using inName
  | cons operand operands =>
      rw [List.map_cons, List.intercalate_cons_cons, List.append_assoc]
      exact List.mem_append_left _ inName

theorem parseLine_lineOf
    {instruction : Instruction}
    (listable : instruction.Listable) :
    parseLine (lineOf instruction) = .ok instruction := by
  have free : ∀ piece ∈ instruction.opcode.mnemonic.toList :: instruction.operands.map String.toList,
      separator ∉ piece := by
    intro piece member inPiece
    rcases List.mem_cons.mp member with rfl | inOperands
    · exact absurd (instruction.opcode.isBlank_of_mem_mnemonic _ inPiece) (by decide)
    · obtain ⟨operand, isOperand, rfl⟩ := List.mem_map.mp inOperands
      exact (listable.unbroken operand isOperand _ inPiece).1 rfl
  refine (parseLine_eq_ok_iff _ _).mpr
    ⟨_, _, Text.splitAtEach_intercalate _ _ free, ?_, ?_, listable.toWellFormed⟩
  · rw [Text.trim_of_forall instruction.opcode.isBlank_of_mem_mnemonic, String.ofList_toList,
      Opcode.ofMnemonic?_mnemonic]
  · simp [Function.comp_def]

theorem carriageReturn_not_mem_render
    {instructions : List Instruction}
    (listable : ∀ instruction ∈ instructions, instruction.Listable) :
    '\r' ∉ (render instructions).toList := by
  rw [toList_render]
  intro member
  obtain ⟨instruction, inInstructions, inLine⟩ := List.mem_flatMap.mp member
  rcases List.mem_append.mp inLine with inside | atEnd
  · exact absurd (isLineBreak_of_mem_lineOf (listable instruction inInstructions) _ inside)
      (by decide)
  · exact absurd atEnd (by decide)

theorem lines_render
    {instructions : List Instruction}
    (listable : ∀ instruction ∈ instructions, instruction.Listable) :
    Text.lines (render instructions).toList = instructions.map lineOf := by
  rw [toList_render]
  induction instructions with
  | nil => rfl
  | cons instruction rest inductionHypothesis =>
      rw [List.flatMap_cons, List.append_assoc, List.singleton_append,
        Text.lines_append_lineFeed (isLineBreak_of_mem_lineOf (listable instruction (by simp))),
        inductionHypothesis fun other member => listable other (List.mem_cons_of_mem _ member),
        List.map_cons]

theorem parse_render
    {instructions : List Instruction}
    (listable : ∀ instruction ∈ instructions, instruction.Listable) :
    parse (render instructions) = .ok instructions := by
  have noneBlank : filled (instructions.map lineOf) = instructions.map lineOf := by
    rw [filled, List.filter_eq_self]
    intro line member
    obtain ⟨instruction, -, rfl⟩ := List.mem_map.mp member
    simpa using trim_lineOf_ne_nil instruction
  rw [parse, parseLines_eq_ok_iff, lines_render listable, noneBlank, List.map_map]
  exact List.map_congr_left fun instruction member => parseLine_lineOf (listable instruction member)

/-- Reading what was rendered returns it exactly if every instruction can stand in a listing, and
reading any text gives only such instructions, so that what was read once is read again. -/
theorem parse_render_eq_ok_iff_listable (instructions : List Instruction) :
    (parse (render instructions) = .ok instructions ↔
        ∀ instruction ∈ instructions, instruction.Listable) ∧
      ∀ text, parse text = .ok instructions →
        (∀ instruction ∈ instructions, instruction.Listable) ∧
          parse (render instructions) = .ok instructions := by
  refine ⟨⟨listable_of_parse_eq_ok, parse_render⟩, fun text accepted => ?_⟩
  have listable := listable_of_parse_eq_ok accepted
  exact ⟨listable, parse_render listable⟩

/-- The name has blanks around it, one line is blank, the label is empty and the index has leading
zeros. -/
theorem parse_render_of_untidy_text :
    parse " MARK \t007\t\r\n\n PRINT" = .ok [⟨.mark, ["007", ""]⟩, ⟨.print .number, []⟩] ∧
      parse (render [⟨.mark, ["007", ""]⟩, ⟨.print .number, []⟩]) =
        .ok [⟨.mark, ["007", ""]⟩, ⟨.print .number, []⟩] := by
  have accepted : parse " MARK \t007\t\r\n\n PRINT" =
      .ok [⟨.mark, ["007", ""]⟩, ⟨.print .number, []⟩] := by rfl
  exact ⟨accepted, ((parse_render_eq_ok_iff_listable _).2 _ accepted).2⟩

end Listing

end QueueMachine
