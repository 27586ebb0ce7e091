import QueueMachine.Machine.State
import QueueMachine.Program
import QueueMachine.Sink

set_option autoImplicit false

/-!
The machine: instructions, the labels they start with, the state and the sink for the output. A
machine that is given no sink makes a buffer of its own, and a new one whenever it is reset. `step`
executes one instruction; a fault leaves the program counter and the step count where they were.
-/

namespace QueueMachine

structure Machine where
  instructions : Array Instruction
  /-- The labels as compiled, which every run starts with. -/
  compiledLabels : LabelTable
  ownsSink : Bool
  sink : Sink
  state : State
  /-- Whether this machine has closed its sink since it was made or reset. -/
  sinkClosed : Bool := false
  deriving DecidableEq

inductive Signal where
  | running
  | halted
  deriving DecidableEq, Repr

/-- A machine after something was tried on it, with the answer or the fault that ended it. -/
structure Machine.Outcome (Answer : Type) where
  machine : Machine
  answer : Except Fault Answer

namespace Machine

/-- A machine with the given labels; its own buffer takes the output if there is no sink. -/
def make
    (instructions : List Instruction)
    (labels : LabelTable)
    (sink : Option Sink) : Machine where
  instructions := instructions.toArray
  compiledLabels := labels
  ownsSink := sink.isNone
  sink := sink.getD (.buffer {})
  state := .initial labels

def ofProgram (program : Program) (sink : Option Sink) : Machine :=
  make program.instructions program.labels sink

def ofInstructions
    (instructions : List Instruction)
    (sink : Option Sink) : Except Fault Machine := do
  return make instructions (← LabelTable.ofInstructions instructions) sink

def reset (machine : Machine) : Machine :=
  { machine with
    sink := if machine.ownsSink then .buffer {} else machine.sink
    state := .initial machine.compiledLabels
    sinkClosed := false }

def finished (machine : Machine) : Bool :=
  machine.state.halted || machine.instructions.size ≤ machine.state.pc

def output? (machine : Machine) : Option String :=
  machine.sink.value?

def closeSink (machine : Machine) : Machine :=
  if machine.sinkClosed then machine
  else { machine with sinkClosed := true, sink := machine.sink.close }

def closingFault? (machine : Machine) : Option Fault :=
  if machine.sinkClosed then none else machine.sink.closingFault?

/-- Positions from here on, and below its negative, do not fit a machine word. -/
def wordBound : Int := 9223372036854775808

/-- The instruction at the program counter; negative indices count back from the end. -/
def fetch (machine : Machine) : Except Fault Instruction :=
  let pc := machine.state.pc
  let index := if pc < 0 then pc + machine.instructions.size else pc
  match if index < 0 then none else machine.instructions[index.toNat]? with
  | some instruction => .ok instruction
  | none =>
      .error (if pc < -wordBound ∨ wordBound ≤ pc then .hugePosition else .noSuchPosition)

def conclude (machine : Machine) : Effect → Outcome Signal
  | .proceed state => ⟨{ machine with state := state.advance }, .ok .running⟩
  | .output text state =>
      match machine.sink.write text with
      | .ok sink => ⟨{ machine with sink, state := state.advance }, .ok .running⟩
      | .error fault => ⟨{ machine with state }, .error fault⟩
  | .halt state =>
      ⟨{ machine with state := { state.advance with halted := true } }, .ok .halted⟩
  | .fault fault state => ⟨{ machine with state }, .error fault⟩

def step (machine : Machine) : Outcome Signal :=
  if machine.finished then ⟨machine, .ok .halted⟩
  else
    match machine.fetch with
    | .error fault => ⟨machine, .error fault⟩
    | .ok instruction => machine.conclude (machine.state.execute instruction)

/-- The given number of steps and their signals; a fault skips the rest. -/
def stepMany : Nat → Machine → Outcome (List Signal)
  | 0, machine => ⟨machine, .ok []⟩
  | count + 1, machine =>
      match machine.step with
      | ⟨machine, .error fault⟩ => ⟨machine, .error fault⟩
      | ⟨machine, .ok signal⟩ =>
          let ⟨machine, rest⟩ := stepMany count machine
          ⟨machine, rest.map (signal :: ·)⟩

end Machine

end QueueMachine
