set_option autoImplicit false

/-!
The operation codes of the machine, with the names and operand counts that a listing uses.
-/

namespace QueueMachine

inductive Operator where
  | plus
  | minus
  | times
  | divide
  | modulo
  deriving DecidableEq, Repr

namespace Operator

def all : List Operator := [.plus, .minus, .times, .divide, .modulo]

def mnemonic : Operator → String
  | .plus => "PLUS"
  | .minus => "MINUS"
  | .times => "MULT"
  | .divide => "DIV"
  | .modulo => "MOD"

def symbol : Operator → Char
  | .plus => '+'
  | .minus => '-'
  | .times => '*'
  | .divide => '/'
  | .modulo => '%'

def ofSymbol? (c : Char) : Option Operator :=
  all.find? fun operator => operator.symbol == c

end Operator

/-- How a value is printed: as a number on a line of its own, or as one character. -/
inductive PrintStyle where
  | number
  | character
  deriving DecidableEq, Repr

inductive Comparison where
  | equal
  | more
  deriving DecidableEq, Repr

inductive Opcode where
  | operate (operator : Operator)
  | store
  | load
  | print (style : PrintStyle)
  | printRegister (style : PrintStyle)
  | mark
  | jump
  | jumpIfZero
  | jumpIf (comparison : Comparison)
  | quit
  | input
  deriving DecidableEq, Repr

namespace Opcode

def all : List Opcode :=
  Operator.all.map operate ++
    [store, load, print .number, printRegister .number, print .character, printRegister .character,
      mark, jump, jumpIfZero, jumpIf .equal, jumpIf .more, quit, input]

theorem mem_all (opcode : Opcode) : opcode ∈ all := by
  cases opcode with
  | operate operator => cases operator <;> decide
  | print style => cases style <;> decide
  | printRegister style => cases style <;> decide
  | jumpIf comparison => cases comparison <;> decide
  | _ => decide

def mnemonic : Opcode → String
  | operate operator => operator.mnemonic
  | store => "REG_PUT"
  | load => "REG_GET"
  | print .number => "PRINT"
  | print .character => "PRINT_CHAR"
  | printRegister .number => "PRINT_REG"
  | printRegister .character => "PRINT_REG_CHAR"
  | mark => "MARK"
  | jump => "JUMP"
  | jumpIfZero => "JUMP_IF_0"
  | jumpIf .equal => "JUMP_IF_EQUAL"
  | jumpIf .more => "JUMP_IF_MORE"
  | quit => "QUIT"
  | input => "INPUT"

def ofMnemonic? (name : String) : Option Opcode :=
  all.find? fun opcode => opcode.mnemonic == name

/-- The number of operands a listing must give. -/
def arity : Opcode → Nat
  | operate _ => 0
  | store => 1
  | load => 1
  | print _ => 0
  | printRegister _ => 1
  | mark => 2
  | jump => 1
  | jumpIfZero => 2
  | jumpIf _ => 3
  | quit => 0
  | input => 1

/-- How many of the operands, from the first, name registers. -/
def registerOperands : Opcode → Nat
  | store => 1
  | load => 1
  | printRegister _ => 1
  | jumpIfZero => 1
  | jumpIf _ => 2
  | _ => 0

end Opcode

end QueueMachine
