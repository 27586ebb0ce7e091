import QueueMachine.CommandLine.Argument
import QueueMachine.Numeral.Limited

set_option autoImplicit false

/-!
Options collected from the arguments. Options take effect in order, so that the last of several
equal ones wins, asking for help ends the reading at once, and the first complaint is the one that
is made. Arguments that nothing takes are complained about at the end.

There are two conventions for what is attached to an option. By the earlier one an option can be
given without the value it calls for: a path is then as good as not given, but a source or a limit is
not.
-/

namespace QueueMachine.CommandLine

/-- How what is attached to an option is read. Earlier, two dashes were taken away from there, and an
equals sign among names of one letter was a letter like others. Later, two dashes are a value, and
help is shown even if something else follows its letter. -/
inductive Convention where
  | earlier
  | later
  deriving DecidableEq, Repr

inductive ViewerKind where
  | window
  | terminal
  deriving DecidableEq, Repr

/-- What has become of an option with a value: it was not given, it was given without the value, or
it has one. -/
inductive Setting (α : Type) where
  | absent
  | blank
  | value (content : α)
  deriving DecidableEq, Repr

namespace Setting

def isGiven {α : Type} : Setting α → Bool
  | absent => false
  | blank => true
  | value _ => true

def value? {α : Type} : Setting α → Option α
  | absent => none
  | blank => none
  | value content => some content

def ofGiven {α : Type} : Option α → Setting α
  | none => blank
  | some content => value content

end Setting

structure Options where
  script : Option String := none
  inline : Setting String := .absent
  outputPath : Option String := none
  bytecodePath : Option String := none
  dumpPath : Option String := none
  trace : Bool := false
  maxSteps : Setting Int := .absent
  visualize : Option ViewerKind := none
  deriving DecidableEq, Repr

/-- Why the arguments give no options: help was asked for, they are wrong, or a limit without a
number was to be compared. -/
inductive Refusal where
  | help
  | wrong (complaint : String)
  | blankLimit
  deriving DecidableEq, Repr

namespace Refusal

def ofFlag (flag : Flag) (complaint : String) : Refusal :=
  .wrong s!"argument {flag.title}: {complaint}"

def ignored (flag : Flag) (value : List Char) : Refusal :=
  ofFlag flag ("ignored explicit argument " ++ Text.quote (String.ofList value))

end Refusal

namespace Options

def viewerOfName? : String → Option ViewerKind
  | "gui" => some .window
  | "curses" => some .terminal
  | _ => none

def apply (options : Options) (flag : Flag) (value : Option String) : Except Refusal Options :=
  match flag with
  | .help => .error .help
  | .execute => .ok { options with inline := .ofGiven value }
  | .output => .ok { options with outputPath := value }
  | .loadBytecode => .ok { options with bytecodePath := value }
  | .dumpBytecode => .ok { options with dumpPath := value }
  | .trace => .ok { options with trace := true }
  | .maxSteps =>
      match value with
      | none => .ok { options with maxSteps := .blank }
      | some text =>
          match Numeral.readText text with
          | .ok limit => .ok { options with maxSteps := .value limit }
          | .error _ => .error (.ofFlag flag ("invalid int value: " ++ Text.quote text))
  | .visualize =>
      match value with
      | none => .ok { options with visualize := some .window }
      | some name =>
          match viewerOfName? name with
          | some kind => .ok { options with visualize := some kind }
          | none =>
              .error (.ofFlag flag
                ("invalid choice: " ++ Text.quote name ++ " (choose from 'gui', 'curses')"))

end Options

/-- The options that stand in one argument: those whose value is settled, and the last one if it
may take the next argument for its value. -/
structure Cluster where
  settled : List (Flag × Option String) := []
  pending : Option Flag := none

namespace Cluster

/-- The value that an attached text gives, if it gives one. -/
def attachedValue (convention : Convention) (text : List Char) : Option String :=
  if convention = .earlier ∧ text = ['-', '-'] then none else some (String.ofList text)

/-- What is attached to a letter by the characters behind it. -/
def attach (convention : Convention) (behind : List Char) : Attachment :=
  match convention, behind with
  | .later, '=' :: text => { text, divided := true }
  | _, text => { text, divided := false }

theorem length_attach_le (convention : Convention) (behind : List Char) :
    (attach convention behind).text.length ≤ behind.length := by
  unfold attach
  split
  · exact Nat.le_succ _
  · exact Nat.le_refl _

/-- Whether a text behind an option that takes no value may be further names of one letter. -/
def mayBeNames (convention : Convention) (short divided : Bool) (text : List Char) : Bool :=
  match convention with
  | .earlier => short
  | .later => short && !divided && text.head? ≠ some '-'

/-- Takes an option apart from the text attached to it. By the later convention a letter that names
no option ends the cluster: the one option of a single letter that takes no value asks for help, which
comes before any complaint about the letter. -/
def expand
    (convention : Convention)
    (flag : Flag)
    (short divided : Bool)
    (text : List Char) : Except Refusal Cluster :=
  match flag.valence with
  | .required => .ok { settled := [(flag, attachedValue convention text)] }
  | .optional => .ok { settled := [(flag, attachedValue convention text)] }
  | .none =>
      match text with
      | [] => .error (.ignored flag text)
      | letter :: rest =>
          if !mayBeNames convention short divided text then .error (.ignored flag text)
          else
            match Flag.ofName? (String.ofList ['-', letter]), convention with
            | none, .earlier => .error (.ignored flag text)
            | none, .later => .ok { settled := [(flag, none)] }
            | some next, _ =>
                if rest.isEmpty then .ok { settled := [(flag, none)], pending := some next }
                else do
                  let behind := attach convention rest
                  let cluster ← expand convention next true behind.divided behind.text
                  return { cluster with settled := (flag, none) :: cluster.settled }
termination_by text.length
decreasing_by exact Nat.lt_succ_of_le (length_attach_le convention rest)

def ofOption (convention : Convention) (flag : Flag) (name : String) :
    Option Attachment → Except Refusal Cluster
  | none => .ok { pending := some flag }
  | some { text, divided } => expand convention flag (name.length == 2) divided text

end Cluster

/-- The options so far and what has been noted about the arguments before the next one. -/
structure Reading where
  options : Options := {}
  scriptTaken : Bool := false
  /-- Whether the argument just before was taken as the script. -/
  besideScript : Bool := false
  /-- An option that waits for its value, behind others of the same argument. -/
  awaiting : Option (List (Flag × Option String) × Flag) := none
  /-- What nothing has taken. -/
  extras : List String := []

namespace Reading

def applyAll (reading : Reading) (settings : List (Flag × Option String)) :
    Except Refusal Reading := do
  let options ← settings.foldlM (fun options (flag, value) => options.apply flag value)
    reading.options
  return { reading with options, awaiting := none }

/-- Closes an option that waits for a value and gets none. -/
def giveNone (reading : Reading) : Except Refusal Reading :=
  match reading.awaiting with
  | none => .ok reading
  | some (settled, flag) =>
      match flag.valence with
      | .required => .error (.ofFlag flag "expected one argument")
      | _ => reading.applyAll (settled ++ [(flag, none)])

def addExtra (reading : Reading) (text : String) : Reading :=
  { reading with extras := reading.extras ++ [text], besideScript := false }

/-- A plain argument is the value of an option that waits for one, else the script, else extra. -/
def readPlain (reading : Reading) (text : String) : Except Refusal Reading :=
  match reading.awaiting with
  | some (settled, flag) => reading.applyAll (settled ++ [(flag, some text)])
  | none =>
      if reading.scriptTaken then .ok (reading.addExtra text)
      else
        .ok { reading with
          options := { reading.options with script := some text }
          scriptTaken := true
          besideScript := true }

/-- A separator goes with the script, whether before or directly behind it. -/
def readSeparator (reading : Reading) : Reading :=
  if reading.scriptTaken && !reading.besideScript then reading.addExtra "--"
  else { reading with besideScript := false }

def readOption
    (convention : Convention)
    (reading : Reading)
    (flag : Flag)
    (name : String)
    (attachment : Option Attachment) : Except Refusal Reading := do
  let cluster ← Cluster.ofOption convention flag name attachment
  let reading := { reading with besideScript := false }
  match cluster.pending with
  | none => reading.applyAll cluster.settled
  | some last =>
      match last.valence with
      | .none => reading.applyAll (cluster.settled ++ [(last, none)])
      | _ => return { reading with awaiting := some (cluster.settled, last) }

def readArgument (convention : Convention) (reading : Reading) :
    Argument → Except Refusal Reading
  | .plain text => reading.readPlain text
  | .separator => do return (← reading.giveNone).readSeparator
  | .unknownOption text => do return (← reading.giveNone).addExtra text
  | .option flag name attachment => do
      readOption convention (← reading.giveNone) flag name attachment

def readAll (convention : Convention) (arguments : List Argument) : Except Refusal Reading := do
  (← arguments.foldlM (readArgument convention) {}).giveNone

end Reading

namespace Options

/-- A path that was given and is not empty. -/
def given (path : Option String) : Option String :=
  path.filter (· ≠ "")

def readsInput (options : Options) : Bool :=
  (given options.bytecodePath).isNone && !options.inline.isGiven && (given options.script).isNone

def paths (options : Options) : List String :=
  [options.script, options.bytecodePath, options.dumpPath, options.outputPath].filterMap given

/-- What is wrong with options each of which is right by itself. -/
def conflict? (options : Options) : Option Refusal :=
  let hasScript := (given options.script).isSome
  if options.inline.isGiven && hasScript then
    some (.wrong "cannot use script path and --execute together")
  else if (given options.bytecodePath).isSome && (options.inline.isGiven || hasScript) then
    some (.wrong "--load-bytecode cannot be combined with a script or --execute")
  else if options.visualize.isSome && ((given options.outputPath).isSome || options.trace) then
    some (.wrong "--visualize cannot be combined with --output or --trace")
  else
    match options.maxSteps with
    | .absent => none
    | .blank => some .blankLimit
    | .value limit => if limit < 0 then some (.wrong "--max-steps must not be negative") else none

/-- The options that the arguments give. -/
def ofArguments (convention : Convention) (texts : List String) : Except Refusal Options := do
  let arguments ← (Argument.ofTexts texts).mapError .wrong
  let reading ← Reading.readAll convention arguments
  if !reading.extras.isEmpty then
    throw (.wrong ("unrecognized arguments: " ++ " ".intercalate reading.extras))
  match reading.options.conflict? with
  | some refusal => throw refusal
  | none => return reading.options

end Options

end QueueMachine.CommandLine
