import QueueMachine.Instruction
import QueueMachine.Proofs.Numeral.Reading
import QueueMachine.RegisterBank

set_option autoImplicit false

/-!
Well-formed operands. What an operation code asks of its operands is said here in terms of their
characters; the checks that a listing makes and the operands that the compiler writes are measured
against it.
-/

namespace QueueMachine

namespace Register

/-- Whether a text is one of the letters `a` to `z`. -/
def IsLetter (name : String) : Prop :=
  ∃ c, name = String.singleton c ∧ 'a' ≤ c ∧ c ≤ 'z'

theorem toNat_letter (register : Register) : register.letter.toNat = 97 + register.val := by
  revert register
  decide

theorem ofLetter?_letter (register : Register) : ofLetter? register.letter = some register := by
  have inRange : 97 ≤ register.letter.toNat ∧ register.letter.toNat - 97 < registerCount := by
    rw [toNat_letter]
    exact ⟨by omega, by rw [Nat.add_sub_cancel_left]; exact register.isLt⟩
  rw [ofLetter?, dif_pos inRange]
  congr 1
  apply Fin.ext
  simp [toNat_letter]

theorem ofLetter?_eq_some_iff (c : Char) (register : Register) :
    ofLetter? c = some register ↔ c = register.letter := by
  constructor
  · intro found
    rw [ofLetter?] at found
    split at found
    · rename_i inRange
      cases found
      have code : 97 + (c.toNat - 97) = c.toNat := by omega
      simp only [letter, code, Char.ofNat_toNat]
    · cases found
  · rintro rfl
    exact ofLetter?_letter register

theorem isLetter_iff_exists_name (text : String) :
    IsLetter text ↔ ∃ register : Register, text = register.name := by
  constructor
  · rintro ⟨c, rfl, lower, upper⟩
    simp only [Char.le_def, UInt32.le_iff_toNat_le] at lower upper
    change 97 ≤ c.toNat at lower
    change c.toNat ≤ 122 at upper
    have code : 97 + (c.toNat - 97) = c.toNat := by omega
    refine ⟨⟨c.toNat - 97, by rw [registerCount]; omega⟩, ?_⟩
    simp only [name, letter, code, Char.ofNat_toNat]
  · rintro ⟨register, rfl⟩
    have small : register.val < 26 := register.isLt
    refine ⟨register.letter, rfl, ?_, ?_⟩ <;>
      rw [Char.le_def, UInt32.le_iff_toNat_le]
    · change 97 ≤ register.letter.toNat
      rw [toNat_letter]
      omega
    · change register.letter.toNat ≤ 122
      rw [toNat_letter]
      omega

theorem ofName?_name (register : Register) : ofName? register.name = some register := by
  simp [ofName?, name, ofLetter?_letter]

theorem isName_iff_isLetter (text : String) : isName text = true ↔ IsLetter text := by
  rw [isLetter_iff_exists_name]
  constructor
  · intro found
    obtain ⟨register, named⟩ := Option.isSome_iff_exists.mp found
    refine ⟨register, ?_⟩
    rw [ofName?] at named
    split at named
    · rename_i c single
      rw [(ofLetter?_eq_some_iff c register).mp named] at single
      rw [← String.toList_inj, single, name, String.toList_singleton]
    · cases named
  · rintro ⟨register, rfl⟩
    rw [isName, ofName?_name]
    rfl

end Register

namespace Numeral

/-- Whether a text is one or more of the digits `0` to `9`. -/
def IsUnsigned (text : String) : Prop :=
  text ≠ "" ∧ ∀ c ∈ text.toList, '0' ≤ c ∧ c ≤ '9'

/-- Whether a text is a sign or none, and one or more of the digits `0` to `9`. -/
def IsSigned (text : String) : Prop :=
  ∃ sign digits, text = sign ++ digits ∧ (sign = "" ∨ sign = "+" ∨ sign = "-") ∧ IsUnsigned digits

theorem isDigits_iff_isUnsigned (text : String) :
    isDigits text.toList = true ↔ IsUnsigned text := by
  rw [isDigits_iff, IsUnsigned, ne_eq, String.toList_eq_nil_iff]
  simp [Text.isAsciiDigit]

theorem isLiteral_iff_isSigned (text : String) : isLiteral text = true ↔ IsSigned text := by
  constructor
  · intro literal
    have digits : IsUnsigned (String.ofList (splitSign text.toList).2) := by
      rw [← isDigits_iff_isUnsigned, String.toList_ofList]
      exact literal
    rcases splitSign_cases text.toList with ⟨rest, form, parts⟩ | ⟨rest, form, parts⟩ | ⟨-, parts⟩
    · rw [parts] at digits
      exact ⟨"-", _, by simp [← String.toList_inj, form], by simp, digits⟩
    · rw [parts] at digits
      exact ⟨"+", _, by simp [← String.toList_inj, form], by simp, digits⟩
    · rw [parts] at digits
      exact ⟨"", _, by simp, by simp, digits⟩
  · rintro ⟨sign, digits, rfl, kind, unsigned⟩
    have all := (isDigits_iff_isUnsigned digits).mpr unsigned
    have plain := splitSign_digits ((isDigits_iff _).mp all).2
    rcases kind with rfl | rfl | rfl
    · simpa [isLiteral, plain] using all
    · simpa [isLiteral, splitSign] using all
    · simpa [isLiteral, splitSign] using all

end Numeral

namespace Instruction

/-- What an instruction must be for a listing to take it and for the machine to execute it: as many
operands as the operation code asks for, and of the form that it asks for. -/
structure WellFormed (instruction : Instruction) : Prop where
  arity : instruction.operands.length = instruction.opcode.arity
  registers : ∀ operand ∈ instruction.operands.take instruction.opcode.registerOperands,
    Register.IsLetter operand
  literal : instruction.opcode = .input →
    ∀ operand ∈ instruction.operands, Numeral.IsSigned operand
  index : instruction.opcode = .mark →
    ∀ operand ∈ instruction.operands.head?, Numeral.IsUnsigned operand

theorem binding_of_readText_eq_ok
    {opcode : Opcode} {text label : String} {rest : List String} {index : Int}
    (readable : Numeral.readText text = .ok index) :
    (⟨opcode, text :: label :: rest⟩ : Instruction).binding = .ok (label, index) := by
  change (do return (label, ← Numeral.readText text)) = _
  rw [readable]
  rfl

theorem binding_of_readText_eq_error
    {opcode : Opcode} {text label : String} {rest : List String} {fault : Fault}
    (unreadable : Numeral.readText text = .error fault) :
    (⟨opcode, text :: label :: rest⟩ : Instruction).binding = .error fault := by
  change (do return (label, ← Numeral.readText text)) = _
  rw [unreadable]
  rfl

end Instruction

end QueueMachine
