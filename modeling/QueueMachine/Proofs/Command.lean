import QueueMachine.Command
import QueueMachine.Proofs.Operand
import QueueMachine.Proofs.Text.Line

set_option autoImplicit false

/-!
What reading a word as a command guarantees. The only texts that a command takes over are its
literal and its label, and both are parts of the word; a literal is one of a program. So the
instruction for a command is well formed at any index, and its operands hold no blank if the word
has none.
-/

namespace QueueMachine

theorem Register.isLetter_name (register : Register) : Register.IsLetter register.name :=
  (Register.isLetter_iff_exists_name _).mpr ⟨register, rfl⟩

theorem Register.isBlank_of_mem_name (register : Register) :
    ∀ c ∈ register.name.toList, Text.isBlank c = false := by
  have checked : ∀ register : Register, Text.isBlank register.letter = false := by decide
  simpa [Register.name] using checked register

theorem Numeral.isUnsigned_format_natCast (n : Nat) : Numeral.IsUnsigned (Numeral.format n) := by
  rw [← Numeral.isDigits_iff_isUnsigned, Numeral.toList_format_natCast]
  exact Numeral.isDigits_toDigits n

theorem Numeral.isBlank_of_mem_format_natCast (n : Nat) :
    ∀ c ∈ (Numeral.format n).toList, Text.isBlank c = false := fun c member =>
  Text.isBlank_eq_false_of_isAsciiDigit (Numeral.isAsciiDigit_of_mem_format_natCast n c member)

namespace Command

theorem withRegister_eq_some_iff
    (command : Register → Command) (cs : List Char) (result : Command) :
    withRegister command cs = some result ↔
      ∃ register rest, cs = register.letter :: rest ∧ result = command register := by
  cases cs with
  | nil => simp [withRegister]
  | cons c rest =>
      simp only [withRegister, Option.map_eq_some_iff, Register.ofLetter?_eq_some_iff]
      constructor
      · rintro ⟨register, rfl, rfl⟩
        exact ⟨register, rest, rfl, rfl⟩
      · rintro ⟨register, _, same, rfl⟩
        cases same
        exact ⟨register, rfl, rfl⟩

theorem conditional_eq_some_iff
    (comparison : Comparison) (cs : List Char) (result : Command) :
    conditional comparison cs = some result ↔
      ∃ left right label, cs = left.letter :: right.letter :: label ∧
        result = .jumpIf comparison left right (String.ofList label) := by
  match cs with
  | [] => simp [conditional]
  | [_] => simp [conditional]
  | c :: d :: label =>
      simp only [conditional, Option.bind_eq_bind, Option.bind_eq_some_iff,
        Register.ofLetter?_eq_some_iff, Option.pure_def, Option.some.injEq]
      constructor
      · rintro ⟨left, rfl, right, rfl, rfl⟩
        exact ⟨left, right, label, rfl, rfl⟩
      · rintro ⟨left, right, _, same, rfl⟩
        cases same
        exact ⟨left, rfl, right, rfl, rfl⟩

/-- The text that a command takes over from its word. -/
def verbatim : Command → List Char
  | .push literal => literal.toList
  | .mark label => label.toList
  | .jump label => label.toList
  | .jumpIfZero _ label => label.toList
  | .jumpIf _ _ _ label => label.toList
  | _ => []

/-- Whether the literal of a command, if it has one, is a literal of a program. -/
def Sound (command : Command) : Prop :=
  ∀ literal, command = .push literal → Numeral.isLiteral literal = true

theorem sound_and_verbatim_of_withRegister
    {command : Register → Command} {cs : List Char} {result : Command}
    (sound : ∀ register, (command register).Sound)
    (taken : ∀ register, (command register).verbatim ⊆ cs)
    (found : withRegister command cs = some result) :
    result.Sound ∧ result.verbatim ⊆ cs := by
  obtain ⟨register, rest, -, rfl⟩ := (withRegister_eq_some_iff command cs result).mp found
  exact ⟨sound register, taken register⟩

theorem sound_and_verbatim_of_printing
    {style : PrintStyle} {cs : List Char} {result : Command}
    (found : printing style cs = some result) :
    result.Sound ∧ result.verbatim ⊆ cs := by
  rw [printing] at found
  split at found
  · cases found
    exact ⟨nofun, by simp [verbatim]⟩
  · exact sound_and_verbatim_of_withRegister (by rintro _ _ ⟨⟩) (by simp [verbatim]) found

theorem sound_and_verbatim_of_conditional
    {comparison : Comparison} {cs : List Char} {result : Command}
    (found : conditional comparison cs = some result) :
    result.Sound ∧ result.verbatim ⊆ cs := by
  obtain ⟨left, right, label, rfl, rfl⟩ := (conditional_eq_some_iff comparison cs result).mp found
  exact ⟨by rintro _ ⟨⟩, by simp [verbatim]⟩

theorem sound_and_verbatim_of_ofHead?
    {head : Char} {rest : List Char} {command : Command}
    (found : ofHead? head rest = some command) :
    command.Sound ∧ command.verbatim ⊆ rest := by
  unfold ofHead? at found
  split at found
  · cases found
    exact ⟨nofun, by simp [verbatim]⟩
  · split at found
    · exact sound_and_verbatim_of_withRegister (by rintro _ _ ⟨⟩) (by simp [verbatim]) found
    · exact sound_and_verbatim_of_withRegister (by rintro _ _ ⟨⟩) (by simp [verbatim]) found
    · exact sound_and_verbatim_of_printing found
    · exact sound_and_verbatim_of_printing found
    · cases found
      exact ⟨nofun, by simp [verbatim]⟩
    · cases found
      exact ⟨nofun, by simp [verbatim]⟩
    · exact sound_and_verbatim_of_withRegister (by rintro _ _ ⟨⟩)
        (fun _ _ member => List.mem_of_mem_tail (by simpa [verbatim] using member)) found
    · exact sound_and_verbatim_of_conditional found
    · exact sound_and_verbatim_of_conditional found
    · cases found
      exact ⟨nofun, by simp [verbatim]⟩
    · cases found

theorem sound_and_verbatim_of_ofWord?
    {word : String} {command : Command}
    (found : ofWord? word = some command) :
    command.Sound ∧ command.verbatim ⊆ word.toList := by
  rw [ofWord?] at found
  split at found
  · rename_i literal
    cases found
    refine ⟨?_, by simp [verbatim]⟩
    rintro _ ⟨⟩
    exact literal
  · split at found
    · cases found
    · rename_i head rest letters
      obtain ⟨sound, taken⟩ := sound_and_verbatim_of_ofHead? found
      rw [letters]
      exact ⟨sound, fun c member => List.mem_cons_of_mem head (taken member)⟩

theorem wellFormed_instruction
    {command : Command}
    (sound : command.Sound)
    (index : Nat) :
    (command.instruction index).WellFormed := by
  cases command with
  | push literal =>
      refine ⟨rfl, by simp [instruction, Opcode.registerOperands], ?_, nofun⟩
      intro _ operand member
      rw [List.mem_singleton.mp member, ← Numeral.isLiteral_iff_isSigned]
      exact sound literal rfl
  | mark label =>
      refine ⟨rfl, by simp [instruction, Opcode.registerOperands], nofun, ?_⟩
      rintro - operand ⟨⟩
      exact Numeral.isUnsigned_format_natCast index
  | operate operator => exact ⟨rfl, by simp [instruction, Opcode.registerOperands], nofun, nofun⟩
  | print style => exact ⟨rfl, by simp [instruction, Opcode.registerOperands], nofun, nofun⟩
  | jump label => exact ⟨rfl, by simp [instruction, Opcode.registerOperands], nofun, nofun⟩
  | quit => exact ⟨rfl, by simp [instruction, Opcode.registerOperands], nofun, nofun⟩
  | _ =>
      exact ⟨rfl, by simp [instruction, Opcode.registerOperands, Register.isLetter_name],
        nofun, nofun⟩

theorem isBlank_of_mem_operands
    {command : Command}
    (noBlank : ∀ c ∈ command.verbatim, Text.isBlank c = false)
    (index : Nat) :
    ∀ operand ∈ (command.instruction index).operands,
      ∀ c ∈ operand.toList, Text.isBlank c = false := by
  cases command with
  | push literal => simpa [instruction, verbatim] using noBlank
  | jump label => simpa [instruction, verbatim] using noBlank
  | mark label =>
      simp only [instruction, List.forall_mem_cons]
      exact ⟨Numeral.isBlank_of_mem_format_natCast index, noBlank, by simp⟩
  | jumpIfZero register label =>
      simp only [instruction, List.forall_mem_cons]
      exact ⟨register.isBlank_of_mem_name, noBlank, by simp⟩
  | jumpIf comparison left right label =>
      simp only [instruction, List.forall_mem_cons]
      exact ⟨left.isBlank_of_mem_name, right.isBlank_of_mem_name, noBlank, by simp⟩
  | store register => simpa [instruction] using register.isBlank_of_mem_name
  | load register => simpa [instruction] using register.isBlank_of_mem_name
  | printRegister style register => simpa [instruction] using register.isBlank_of_mem_name
  | _ => simp [instruction]

end Command

theorem Instruction.WellFormed.exists_command
    {instruction : Instruction}
    (wellFormed : instruction.WellFormed) :
    (∃ command : Command, command.Sound ∧ command.declares? = none ∧
        ∀ index, command.instruction index = instruction) ∨
      ∃ text label, instruction = ⟨.mark, [text, label]⟩ ∧ Numeral.IsUnsigned text := by
  obtain ⟨opcode, operands⟩ := instruction
  obtain ⟨arity, registers, literal, index⟩ := wellFormed
  have named : ∀ operand ∈ operands.take opcode.registerOperands,
      ∃ register : Register, operand = register.name := fun operand member =>
    (Register.isLetter_iff_exists_name operand).mp (registers operand member)
  cases opcode with
  | operate operator =>
      obtain rfl := List.length_eq_zero_iff.mp arity
      exact .inl ⟨.operate operator, nofun, rfl, fun _ => rfl⟩
  | store =>
      obtain ⟨name, rfl⟩ := List.length_eq_one_iff.mp arity
      obtain ⟨register, rfl⟩ := named name (by simp [Opcode.registerOperands])
      exact .inl ⟨.store register, nofun, rfl, fun _ => rfl⟩
  | load =>
      obtain ⟨name, rfl⟩ := List.length_eq_one_iff.mp arity
      obtain ⟨register, rfl⟩ := named name (by simp [Opcode.registerOperands])
      exact .inl ⟨.load register, nofun, rfl, fun _ => rfl⟩
  | print style =>
      obtain rfl := List.length_eq_zero_iff.mp arity
      exact .inl ⟨.print style, nofun, rfl, fun _ => rfl⟩
  | printRegister style =>
      obtain ⟨name, rfl⟩ := List.length_eq_one_iff.mp arity
      obtain ⟨register, rfl⟩ := named name (by simp [Opcode.registerOperands])
      exact .inl ⟨.printRegister style register, nofun, rfl, fun _ => rfl⟩
  | mark =>
      match operands, arity with
      | [text, label], _ => exact .inr ⟨text, label, rfl, index rfl text rfl⟩
  | jump =>
      obtain ⟨label, rfl⟩ := List.length_eq_one_iff.mp arity
      exact .inl ⟨.jump label, nofun, rfl, fun _ => rfl⟩
  | jumpIfZero =>
      match operands, arity with
      | [name, label], _ =>
          obtain ⟨register, rfl⟩ := named name (by simp [Opcode.registerOperands])
          exact .inl ⟨.jumpIfZero register label, nofun, rfl, fun _ => rfl⟩
  | jumpIf comparison =>
      match operands, arity with
      | [first, second, label], _ =>
          obtain ⟨left, rfl⟩ := named first (by simp [Opcode.registerOperands])
          obtain ⟨right, rfl⟩ := named second (by simp [Opcode.registerOperands])
          exact .inl ⟨.jumpIf comparison left right label, nofun, rfl, fun _ => rfl⟩
  | quit =>
      obtain rfl := List.length_eq_zero_iff.mp arity
      exact .inl ⟨.quit, nofun, rfl, fun _ => rfl⟩
  | input =>
      obtain ⟨text, rfl⟩ := List.length_eq_one_iff.mp arity
      have sound : (Command.push text).Sound := by
        rintro _ ⟨⟩
        exact (Numeral.isLiteral_iff_isSigned text).mpr (literal rfl text (by simp))
      exact .inl ⟨.push text, sound, rfl, fun _ => rfl⟩

end QueueMachine
