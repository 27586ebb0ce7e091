import QueueMachine.Instruction
import QueueMachine.Numeral.Literal
import QueueMachine.RegisterBank
import QueueMachine.Text.Line

set_option autoImplicit false

/-!
Listings: the text form of instructions, one to a line, the name of the operation code and the
operands divided by tabs. `render` writes a listing and `parse` reads one. Reading skips blank lines
and accepts blanks around the name; it refuses an unknown name, a wrong number of operands and
malformed operands, and reports the first line at fault.
-/

namespace QueueMachine.Listing

inductive Cause where
  | unknownOpcode (field : String)
  | wrongArity (opcode : Opcode) (got : Nat)
  | badRegister (opcode : Opcode) (operand : String)
  | badLiteral (operand : String)
  | badIndex (operand : String)
  deriving DecidableEq, Repr

def Cause.message : Cause → String
  | .unknownOpcode field => "unknown opcode " ++ Text.quote field
  | .wrongArity opcode got => s!"{opcode.mnemonic} expects {opcode.arity} operand(s), got {got}"
  | .badRegister opcode operand => s!"{opcode.mnemonic}: bad register " ++ Text.quote operand
  | .badLiteral operand => "INPUT: bad literal " ++ Text.quote operand
  | .badIndex operand => "MARK: bad index " ++ Text.quote operand

/-- A complaint with the line it is about; line zero stands for no line. -/
def located (line : Int) (complaint : String) : String :=
  if line = 0 then complaint else s!"line {line}: " ++ complaint

structure FormatError where
  line : Nat
  cause : Cause
  deriving DecidableEq, Repr

def FormatError.message (error : FormatError) : String :=
  located error.line error.cause.message

def separator : Char := '\t'

def renderInstruction (instruction : Instruction) : String :=
  (String.singleton separator).intercalate
    (instruction.opcode.mnemonic :: instruction.operands) ++ "\n"

def render (instructions : List Instruction) : String :=
  String.join (instructions.map renderInstruction)

/-- The first complaint about the operands of an instruction that has the right number of them. -/
def operandFault? (instruction : Instruction) : Option Cause :=
  let opcode := instruction.opcode
  let registers := instruction.operands.take opcode.registerOperands
  match registers.find? (!Register.isName ·) with
  | some operand => some (.badRegister opcode operand)
  | none =>
      match opcode, instruction.operands with
      | .input, literal :: _ =>
          if Numeral.isLiteral literal then none else some (.badLiteral literal)
      | .mark, index :: _ =>
          if Numeral.isDigits index.toList then none else some (.badIndex index)
      | _, _ => none

def parseFields (field : String) (operands : List String) : Except Cause Instruction :=
  match Opcode.ofMnemonic? (String.ofList (Text.trim field.toList)) with
  | none => .error (.unknownOpcode field)
  | some opcode =>
      if operands.length ≠ opcode.arity then .error (.wrongArity opcode operands.length)
      else
        match operandFault? ⟨opcode, operands⟩ with
        | some cause => .error cause
        | none => .ok ⟨opcode, operands⟩

def parseLine (line : List Char) : Except Cause Instruction :=
  match (Text.splitAtEach separator line).map String.ofList with
  | [] => .error (.unknownOpcode "")
  | field :: operands => parseFields field operands

def parseLines (number : Nat) : List (List Char) → Except FormatError (List Instruction)
  | [] => .ok []
  | line :: rest =>
      if (Text.trim line).isEmpty then parseLines (number + 1) rest
      else
        match parseLine line with
        | .error cause => .error ⟨number, cause⟩
        | .ok instruction =>
            match parseLines (number + 1) rest with
            | .error error => .error error
            | .ok instructions => .ok (instruction :: instructions)

/-- Reads a listing, counting its lines from one. -/
def parse (text : String) : Except FormatError (List Instruction) :=
  parseLines 1 (Text.lines text.toList)

end QueueMachine.Listing
