import QueueMachine.CommandLine.Options
import QueueMachine.Execution
import QueueMachine.Listing
import QueueMachine.Viewer.Terminal
import QueueMachine.Viewer.Window

set_option autoImplicit false

/-!
A session of the command line: from the arguments, the files and the input it is given to what it
prints, the files it leaves and its exit code. The program comes from a listing, from the command
line, from a file or from the standard input; it can be written out as a listing, shown in a viewer
or run. Every failure is told on the standard error and gives exit code one; wrong arguments give
two. Only a limit without a number breaks a session off before it can report anything.
-/

namespace QueueMachine.CommandLine

inductive Failure where
  | listing (error : Listing.FormatError)
  | file (problem : FileProblem)
  | fault (fault : Fault)
  /-- The program was to come from the command line, but without a text. -/
  | blankSource

namespace Failure

def isRefusal : Failure → Bool
  | .file (.opening error) => error.failure ≠ .nullByte
  | .file (.writing (.system _)) => true
  | _ => false

/-- Whether a failure has a report of its own kind. -/
def isExpected : Failure → Bool
  | .listing _ => true
  | failure => failure.isRefusal

def cause : Failure → String
  | .listing error => error.message
  | .file problem => problem.message
  | .fault met => met.message
  | .blankSource => "expected string or bytes-like object, got 'list'"

def report (failure : Failure) : String :=
  match failure with
  | .listing error => s!"Invalid bytecode listing: {error.message}\n"
  | _ =>
      if failure.isRefusal then failure.cause ++ "\n"
      else s!"quack execution failed: {failure.cause}\n"

end Failure

structure TerminalDevice where
  screen : Terminal.Screen
  keys : List Int

structure WindowDevice where
  events : List (List Window.Event)

/-- Why a file does not take a text, and what it holds then. -/
structure Rejection where
  problem : WritingProblem
  left : ByteArray

/-- What a session finds: files, input, and the devices or why they cannot be had. -/
structure Environment where
  directory : Directory
  /-- The texts that are not taken by the file at a place. -/
  rejection? : Place → String → Option Rejection := fun _ _ => none
  /-- The text on the standard input, unless the bytes there are none. -/
  input : Except Text.DecodingFault String
  terminal : Except String TerminalDevice
  window : Except String WindowDevice
  patience : Nat
  convention : Convention := .later
  /-- What is told of a failure in a traced session, where it came from included. -/
  traceback : Failure → String := Failure.report

def Environment.store
    (environment : Environment)
    (directory : Directory)
    (place : Place)
    (text : String) : FileOutcome Unit :=
  match environment.rejection? place text with
  | none => ⟨directory.putText place text, .ok ()⟩
  | some { problem, left } => ⟨directory.put place (.file left), .error (.writing problem)⟩

/-- What is told of a failure. -/
def Environment.report (environment : Environment) (options : Options) (failure : Failure) :
    String :=
  if options.trace && !failure.isExpected then environment.traceback failure else failure.report

structure Outcome where
  code : Nat := 0
  /-- Whether the arguments alone decided the outcome. -/
  decidedEarly : Bool := false
  /-- What broke the session off, if anything did. -/
  breakdown : Option String := none
  output : String := ""
  errors : String := ""
  directory : Directory
  frames : List Terminal.Frame := []
  drawings : List Window.Drawing := []

def inlineName : String := "<inline>"

/-- The program of a listing file, with the labels that its marks bind. -/
def loadListing (environment : Environment) (path : String) : Except Failure Program := do
  let text ← (environment.directory.readText path).mapError .file
  let instructions ← (Listing.parse text).mapError .listing
  let labels ← (LabelTable.ofInstructions instructions).mapError .fault
  return .ofInstructions instructions labels path

def loadProgram (environment : Environment) (options : Options) : Except Failure Program :=
  match Options.given options.bytecodePath, options.inline, Options.given options.script with
  | some path, _, _ => loadListing environment path
  | none, .value source, _ => .ok (.ofSource source inlineName)
  | none, .blank, _ => .error .blankSource
  | none, .absent, some path => do
      let source ← (environment.directory.readText (Path.normalize path)).mapError .file
      return .ofSource source path
  | none, .absent, none => do
      let source ← environment.input.mapError fun fault => .file (.decoding fault)
      return .ofSource source standardInputName

/-- Writes the program out as a listing, if that is asked for. -/
def dump (environment : Environment) (options : Options) (program : Program) : FileOutcome Unit :=
  let directory := environment.directory
  match Options.given options.dumpPath with
  | none => ⟨directory, .ok ()⟩
  | some path =>
      match directory.placeFor path with
      | .error problem => ⟨directory, .error problem⟩
      | .ok place => environment.store directory place (Listing.render program.instructions)

section Outcomes

variable (environment : Environment) (options : Options) (directory : Directory)

def failed (failure : Failure) : Outcome :=
  { code := 1, errors := environment.report options failure, directory }

/-- The outcome of a viewer, with the report of the fault that ended it if any. -/
def viewed (fault : Option Fault) : Outcome :=
  match fault with
  | none => { directory }
  | some fault => failed environment options directory (.fault fault)

def viewInTerminal (machine : Machine) (device : TerminalDevice) : Outcome :=
  let viewer := Terminal.Viewer.make machine options.maxSteps.value?
  let session := viewer.run device.screen device.keys
  { viewed environment options directory session.fault with frames := session.frames }

def viewInWindow (machine : Machine) (device : WindowDevice) : Outcome :=
  let ended := (Window.Viewer.make machine options.maxSteps.value?).run device.events
  let fault :=
    match ended.answer with
    | .ok () => none
    | .error fault => some fault
  { viewed environment options directory fault with
    drawings := Window.Viewer.opening ++ ended.drawings }

/-- Shows the machine in the viewer asked for. The terminal stands in for a window that cannot be
had. -/
def view (machine : Machine) (kind : ViewerKind) : Outcome :=
  match kind, environment.window, environment.terminal with
  | .window, .ok device, _ => viewInWindow environment options directory machine device
  | .window, .error _, .ok device => viewInTerminal environment options directory machine device
  | .window, .error windowCause, .error terminalCause =>
      let errors := s!"Visualizer unavailable. GUI error: {windowCause}; "
        ++ s!"Headless error: {terminalCause}\n"
      { code := 1, errors, directory }
  | .terminal, _, .ok device => viewInTerminal environment options directory machine device
  | .terminal, _, .error cause =>
      { code := 1, errors := s!"Visualizer unavailable: {cause}\n", directory }

/-- The outcome of a run whose output belongs in the file at a place, or on the standard output if
there is none. -/
def delivered (place : Option Place) (run : Machine.Run) : Outcome :=
  let written := run.machine.sink.written
  let stored : FileOutcome Unit :=
    match place with
    | none => ⟨directory, .ok ()⟩
    | some place => environment.store directory place written
  let output := if place.isSome then "" else written
  let failure? : Option Failure :=
    match stored.answer with
    | .ok () => run.fault.map .fault
    | .error problem => some (.file problem)
  match failure? with
  | none => { output, errors := run.trace, directory := stored.directory }
  | some failure =>
      { code := 1
        output
        errors := run.trace ++ environment.report options failure
        directory := stored.directory }

def execute? (program : Program) : Option Outcome :=
  let settings : RunSettings :=
    { traced := options.trace
      limit := options.maxSteps.value?
      patience := environment.patience }
  let place : Except FileProblem (Option Place) :=
    match Options.given options.outputPath with
    | none => .ok none
    | some path => (directory.placeFor path).map some
  match place with
  | .error problem => some (failed environment options directory (.file problem))
  | .ok place => do
      let sink : Sink := .stream { ownsStream := place.isSome }
      let run ← (Machine.ofProgram program (some sink)).runWith? settings
      return delivered environment options directory place run

end Outcomes

/-- Does what the options ask for; there is no answer if the program outlasts the patience. -/
def perform? (environment : Environment) (options : Options) : Option Outcome :=
  match loadProgram environment options with
  | .error failure => some (failed environment options environment.directory failure)
  | .ok program =>
      match dump environment options program with
      | ⟨directory, .error problem⟩ => some (failed environment options directory (.file problem))
      | ⟨directory, .ok ()⟩ =>
          match options.visualize with
          | some kind =>
              some (view environment options directory (Machine.ofProgram program none) kind)
          | none => execute? environment options directory program

/-- What is said when a limit without a number is compared with zero. -/
def blankLimitMessage : String := "'<' not supported between instances of 'list' and 'int'"

def run? (environment : Environment) (arguments : List String) : Option Outcome :=
  match Options.ofArguments environment.convention arguments with
  | .ok options => perform? environment options
  | .error .help =>
      some { decidedEarly := true, output := help, directory := environment.directory }
  | .error (.wrong complaint) =>
      some
        { code := 2
          decidedEarly := true
          errors := usage ++ s!"quack: error: {complaint}\n"
          directory := environment.directory }
  | .error .blankLimit =>
      some
        { code := 1
          decidedEarly := true
          breakdown := some blankLimitMessage
          directory := environment.directory }

end QueueMachine.CommandLine
