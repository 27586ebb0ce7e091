import QueueMachine.Arithmetic
import QueueMachine.Instruction
import QueueMachine.Numeral.Literal
import QueueMachine.RegisterBank
import QueueMachine.ValueQueue

set_option autoImplicit false

/-!
The state of a running program and the effect of one instruction on it. An instruction whose
condition is not met (too few values in the queue, an unset register, an unknown label) changes
nothing else and is passed over; what it took from the queue stays taken. A malformed operand is a
fault, and the effect then tells in which state the fault was met.
-/

namespace QueueMachine

structure State where
  queue : ValueQueue := .empty
  registers : RegisterBank := .empty
  labels : LabelTable
  /-- The index of the instruction to execute next; a jump can leave it anywhere. -/
  pc : Int := 0
  steps : Nat := 0
  halted : Bool := false
  deriving DecidableEq

/-- What executing an instruction leads to, before the machine moves on. -/
inductive Effect where
  | proceed (state : State)
  | output (text : String) (state : State)
  | halt (state : State)
  | fault (fault : Fault) (state : State)

namespace State

def initial (labels : LabelTable) : State := { labels }

def attempt (state : State) : Except Fault State → Effect
  | .ok changed => .proceed changed
  | .error fault => .fault fault state

def jump (state : State) (label : String) : State :=
  match state.labels.resolve? label with
  | some target => { state with pc := target }
  | none => state

/-- The result of an operator on the first and the second value taken from the queue. -/
def evaluate : Operator → Int → Int → Int
  | .plus, a, b => a + Arithmetic.remainder b Arithmetic.operandModulus
  | .minus, a, b => a - Arithmetic.remainder b Arithmetic.operandModulus
  | .times, a, b => a * Arithmetic.remainder b Arithmetic.operandModulus
  | .divide, a, b => Arithmetic.quotient a b
  | .modulo, a, b => Arithmetic.remainder a b

/-- Takes two values and adds their result; a lone value is taken and lost. -/
def operate (state : State) (operator : Operator) : State :=
  match state.queue.dequeue? with
  | none => state
  | some (a, behind) =>
      match behind.dequeue? with
      | none => { state with queue := behind }
      | some (b, rest) => { state with queue := rest.enqueue (evaluate operator a b) }

def printed : PrintStyle → Int → String
  | .number, value => Numeral.format value ++ "\n"
  | .character, value => String.singleton (Arithmetic.character value)

/-- Whether a comparison of two register states calls for the jump. Unset registers are equal to
each other and never more than anything. -/
def compares : Comparison → Option Int → Option Int → Bool
  | .equal, left, right => left == right
  | .more, some left, some right => right < left
  | .more, _, _ => false

def loadOperand (state : State) (instruction : Instruction) : Except Fault (Option Int) := do
  state.registers.load (← instruction.operand 0)

def storeOperand
    (state : State)
    (instruction : Instruction)
    (value : Int) : Except Fault State := do
  let registers ← state.registers.store (← instruction.operand 0) value
  return { state with registers }

def jumpIfZero (state : State) : List String → Except Fault State
  | [register, label] => do
      let value ← state.registers.load register
      return if value = some 0 then state.jump label else state
  | operands =>
      .error (if operands.length < 2 then .tooFewOperands 2 operands.length else .tooManyOperands 2)

def jumpIf (state : State) (comparison : Comparison) : List String → Except Fault State
  | [left, right, label] => do
      let leftValue ← state.registers.load left
      let rightValue ← state.registers.load right
      return if compares comparison leftValue rightValue then state.jump label else state
  | operands =>
      .error (if operands.length < 3 then .tooFewOperands 3 operands.length else .tooManyOperands 3)

def execute (state : State) (instruction : Instruction) : Effect :=
  match instruction.opcode with
  | .operate operator => .proceed (state.operate operator)
  | .store =>
      match state.queue.dequeue? with
      | none => .proceed state
      | some (value, rest) =>
          let taken := { state with queue := rest }
          taken.attempt (taken.storeOperand instruction value)
  | .load =>
      state.attempt do
        match ← state.loadOperand instruction with
        | none => return state
        | some value => return { state with queue := state.queue.enqueue value }
  | .print style =>
      match state.queue.dequeue? with
      | none => .proceed state
      | some (value, rest) => .output (printed style value) { state with queue := rest }
  | .printRegister style =>
      match state.loadOperand instruction with
      | .error fault => .fault fault state
      | .ok none => .proceed state
      | .ok (some value) => .output (printed style value) state
  | .mark =>
      state.attempt do
        let (label, index) ← instruction.binding
        return { state with labels := state.labels.bind label index }
  | .jump => state.attempt do return state.jump (← instruction.operand 0)
  | .jumpIfZero => state.attempt (state.jumpIfZero instruction.operands)
  | .jumpIf comparison => state.attempt (state.jumpIf comparison instruction.operands)
  | .quit => .halt state
  | .input =>
      state.attempt do
        let value ← Numeral.parse (← instruction.operand 0)
        return { state with queue := state.queue.enqueue value }

/-- The state after an instruction is done: past it, or past the mark it jumped to. -/
def advance (state : State) : State :=
  { state with pc := state.pc + 1, steps := state.steps + 1 }

end State

end QueueMachine
