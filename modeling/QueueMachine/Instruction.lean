import QueueMachine.LabelTable
import QueueMachine.Opcode

set_option autoImplicit false

/-!
Instructions: an operation code with operands that are plain texts. Nothing ties the operands to the
code here; listings check them when they are read, and the machine when it runs into them.
-/

namespace QueueMachine

structure Instruction where
  opcode : Opcode
  operands : List String := []
  deriving DecidableEq, Repr

namespace Instruction

def describe (instruction : Instruction) : String :=
  " ".intercalate (instruction.opcode.mnemonic :: instruction.operands)

def operand (instruction : Instruction) (position : Nat) : Except Fault String :=
  match instruction.operands[position]? with
  | some text => .ok text
  | none => .error .noSuchPosition

def binding (instruction : Instruction) : Except Fault (String × Int) := do
  let label ← instruction.operand 1
  let index ← Numeral.readText (← instruction.operand 0)
  return (label, index)

end Instruction

namespace LabelTable

def bindMark (table : LabelTable) (instruction : Instruction) : Except Fault LabelTable :=
  if instruction.opcode = .mark then do
    let (label, index) ← instruction.binding
    return table.bind label index
  else return table

/-- The table that results when all marks among the instructions bind their labels in order. -/
def ofInstructions (instructions : List Instruction) : Except Fault LabelTable :=
  instructions.foldlM bindMark .empty

end LabelTable

end QueueMachine
