import QueueMachine.Machine.Basic

set_option autoImplicit false

/-!
Running a machine until it is finished, or for a limited number of steps. A traced run writes a
block of text before every instruction. However a run ends, the sink is closed.

Not every program ends. `run` is total because it is given the number of steps it may take; a run
without a limit is given some patience instead, and has no answer when that is used up.
-/

namespace QueueMachine

namespace Machine

def traceBlock (machine : Machine) : Except Fault String := do
  let instruction ← machine.fetch
  let registers := machine.state.registers.assignments.map fun (name, value) =>
    name ++ "=" ++ Numeral.format value
  let pc ← Numeral.write machine.state.pc
  return s!"[PC={pc}] EXEC: {instruction.describe}\n"
    ++ "  QUEUE: [" ++ machine.state.queue.join ", " ++ "]\n"
    ++ "  REGISTERS: \x7b" ++ ", ".intercalate registers ++ "\x7d\n\n"

/-- How a run ended: the machine, the fault that cut it short if any, and the text of the trace. -/
structure Run where
  machine : Machine
  fault : Option Fault
  trace : String

/-- What is written before a step: a block of the trace, or nothing in a run without a trace. -/
def announce (traced : Bool) (machine : Machine) : Except Fault String :=
  if traced then machine.traceBlock else .ok ""

def loop (traced : Bool) : Nat → Machine → String → Run
  | 0, machine, trace => ⟨machine, none, trace⟩
  | bound + 1, machine, trace =>
      if machine.finished then ⟨machine, none, trace⟩
      else
        match machine.announce traced with
        | .error fault => ⟨machine, some fault, trace⟩
        | .ok block =>
            match machine.step with
            | ⟨machine, .error fault⟩ => ⟨machine, some fault, trace ++ block⟩
            | ⟨machine, .ok _⟩ => loop traced bound machine (trace ++ block)

/-- Closes the sink behind a run. A fault that is met then hides the one that ended the run. -/
def Run.closeSink (ended : Run) : Run :=
  { ended with
    machine := ended.machine.closeSink
    fault := ended.machine.closingFault?.or ended.fault }

/-- Runs for at most the given number of steps and closes the sink. -/
def run (machine : Machine) (traced : Bool) (bound : Nat) : Run :=
  (loop traced bound machine "").closeSink

/-- Runs to the end, if that comes before the patience is used up. -/
def runToEnd? (machine : Machine) (traced : Bool) (patience : Nat) : Option Run :=
  let ended := loop traced patience machine ""
  if ended.fault.isSome || ended.machine.finished then some ended.closeSink else none

/-- Runs under an optional limit on the number of steps. A negative limit allows none. -/
def runWithin?
    (machine : Machine)
    (traced : Bool)
    (limit : Option Int)
    (patience : Nat) : Option Run :=
  match limit with
  | some bound => some (machine.run traced bound.toNat)
  | none => machine.runToEnd? traced patience

end Machine

end QueueMachine
