import QueueMachine.Directory
import QueueMachine.Machine.Run

set_option autoImplicit false

/-!
Compiling and running a program in one go: from a text, with the output in a buffer, or from a file,
with the output in another file.
-/

namespace QueueMachine

/-- How a program is run: whether it is traced, how many steps it may take, and how many it gets
when there is no such limit. -/
structure RunSettings where
  traced : Bool := false
  limit : Option Int := none
  patience : Nat

def Machine.runWith? (machine : Machine) (settings : RunSettings) : Option Machine.Run :=
  machine.runWithin? settings.traced settings.limit settings.patience

/-- Runs a program text; the output is in the buffer of the machine that results. -/
def runSource?
    (source sourceName : String)
    (settings : RunSettings) : Option Machine.Run :=
  (Machine.ofProgram (Program.ofSource source sourceName) (some (.buffer {}))).runWith? settings

def fileSink : Sink := .stream { ownsStream := true }

/-- What came of working with files: an answer, and the directory that was left in any case. -/
structure FileOutcome (Answer : Type) where
  directory : Directory
  answer : Except FileProblem Answer

/-- Opens a file for writing, which makes the file or empties it. -/
def Directory.create (directory : Directory) (path : String) : FileOutcome Place :=
  match directory.placeFor path with
  | .error problem => ⟨directory, .error problem⟩
  | .ok place => ⟨directory.putText place "", .ok place⟩

/-- Runs a program and writes its output to a file, which stays empty if the run has no answer. -/
def Program.runToFile
    (program : Program)
    (directory : Directory)
    (output : String)
    (settings : RunSettings) : FileOutcome (Option Machine.Run) :=
  match directory.create output with
  | ⟨directory, .error problem⟩ => ⟨directory, .error problem⟩
  | ⟨directory, .ok place⟩ =>
      let ended := (Machine.ofProgram program (some fileSink)).runWith? settings
      ⟨ended.elim directory fun run => directory.putText place run.machine.sink.written, .ok ended⟩

structure FileRun where
  program : Program
  run : Machine.Run

/-- Runs the program in one file and writes its output to another. The output file is opened only
after the program has been read. -/
def runFile
    (directory : Directory)
    (input output : String)
    (settings : RunSettings) : FileOutcome (Option FileRun) :=
  let sourceName := Path.normalize input
  match directory.readText sourceName with
  | .error problem => ⟨directory, .error problem⟩
  | .ok source =>
      let program := Program.ofSource source sourceName
      let outcome := program.runToFile directory output settings
      { directory := outcome.directory
        answer := outcome.answer.map fun ended => ended.map fun run => { program, run } }

end QueueMachine
