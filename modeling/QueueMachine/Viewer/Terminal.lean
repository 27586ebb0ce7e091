import QueueMachine.Machine.Basic
import QueueMachine.Text.Line

set_option autoImplicit false

/-!
A viewer that shows a machine on a text terminal and steps it at the press of a key. Everything it
draws is a value: `lines` is the content, a `Frame` is what of it fits on a screen, and `run` turns
a list of key codes into the frames drawn between them.
-/

namespace QueueMachine.Terminal

structure Screen where
  height : Int
  width : Int
  /-- Why a text is refused as a whole, if it is. -/
  refusal? : String → Option String := fun _ => none

/-- A line of content; the line at the program counter is highlighted. -/
structure Line where
  text : String
  highlighted : Bool := false
  deriving DecidableEq, Repr

/-- A line as it was put on the screen. -/
structure PlacedLine where
  row : Int
  column : Int
  text : String
  reversed : Bool
  deriving DecidableEq, Repr

structure Frame where
  lines : List PlacedLine := []
  /-- How long to wait for a key, in milliseconds; without end if negative. -/
  timeout : Option Int := none
  refreshed : Bool := false
  deriving DecidableEq, Repr

/-- What there is of a frame when a fault breaks the drawing off. -/
structure Interruption where
  frame : Frame
  fault : Fault

inductive Key where
  | timeout
  | quit
  | toggle
  | step
  | reset
  | other (code : Int)
  deriving DecidableEq, Repr

namespace Key

def rightArrow : Int := 261

def quitCode : Int := 113

def ofCode (code : Int) : Key :=
  if code = -1 then .timeout
  else if code = quitCode ∨ code = 81 then .quit
  else if code = 32 ∨ code = 112 ∨ code = 80 then .toggle
  else if code = 110 ∨ code = rightArrow then .step
  else if code = 114 ∨ code = 82 then .reset
  else .other code

end Key

structure Viewer where
  machine : Machine
  maxSteps : Option Int
  step : Nat := 0
  halted : Bool
  autoRun : Bool := false
  message : String

structure Attempt where
  viewer : Viewer
  fault : Option Fault := none

namespace Viewer

def make (machine : Machine) (maxSteps : Option Int) : Viewer where
  machine
  maxSteps
  halted := machine.finished
  message := "Press SPACE to run/pause, n to step, q to quit."

def limitReached (viewer : Viewer) : Bool :=
  viewer.maxSteps.any fun limit => limit ≤ (viewer.step : Int)

/-- Steps the machine once, unless it has halted or the limit is reached. -/
def advance (viewer : Viewer) (auto : Bool) : Attempt :=
  if viewer.halted then { viewer := { viewer with autoRun := false } }
  else if viewer.limitReached then
    { viewer :=
        { viewer with
          autoRun := false
          message := "Reached max steps; press r to reset or q to quit." } }
  else
    match viewer.machine.step with
    | ⟨machine, .error fault⟩ => { viewer := { viewer with machine }, fault := some fault }
    | ⟨machine, .ok signal⟩ =>
        let stepped := { viewer with machine, step := viewer.step + 1 }
        if signal = .halted ∨ machine.finished then
          { viewer :=
              { stepped with
                halted := true
                autoRun := false
                message := "Halted. Press r to reset or q to quit." } }
        else if auto then { viewer := { stepped with message := "Running..." } }
        else { viewer := stepped }

def advanceMany : Nat → Bool → Viewer → Attempt
  | 0, _, viewer => { viewer }
  | count + 1, auto, viewer =>
      match viewer.advance auto with
      | { viewer, fault := some fault } => { viewer, fault := some fault }
      | { viewer, fault := none } => advanceMany count auto viewer

def reset (viewer : Viewer) : Viewer :=
  let machine := viewer.machine.reset
  { viewer with
    machine
    step := 0
    halted := machine.finished
    autoRun := false
    message := "Reset. Press SPACE to run or n to step." }

def threeDigits (n : Nat) : String :=
  String.ofList (Numeral.Piece.digits ⟨n, 3⟩)

def flagText (flag : Bool) : String :=
  if flag then "True" else "False"

/-- The instructions around the program counter, at most `window` of them. -/
def instructionLines (viewer : Viewer) (window : Int) : List Line :=
  let instructions := viewer.machine.instructions.toList
  let pc := viewer.machine.state.pc
  if instructions.isEmpty then [{ text := "<no instructions>" }]
  else
    let cursor := min pc (instructions.length - 1)
    let first := max 0 (cursor - window / 2)
    let shown := instructions.zipIdx.filter fun (_, index) =>
      first ≤ (index : Int) && (index : Int) < first + window
    shown.map fun (instruction, index) =>
      let atCursor : Bool := (index : Int) = pc
      let marker := if atCursor then "→" else " "
      { text := s!"{marker}{threeDigits index} {instruction.describe}", highlighted := atCursor }

def queueText (state : State) : String :=
  if state.queue.isEmpty then "<empty>" else state.queue.join " "

def registerLines (state : State) : List Line :=
  match state.registers.assignments with
  | [] => [{ text := "  <all unset>" }]
  | assignments =>
      assignments.map fun (name, value) => { text := s!"  {name} = {Numeral.format value}" }

def labelName (name : String) : String :=
  if name = "" then "<empty>" else name

def labelsText (state : State) : Except Fault String := do
  let labels ← state.labels.sorted.mapM fun (name, index) => do
    return labelName name ++ "@" ++ (← Numeral.write index)
  return if labels.isEmpty then "<none>" else ", ".intercalate labels

def lastFive (lines : List (List Char)) : List (List Char) :=
  lines.drop (lines.length - 5)

def outputLines (machine : Machine) : List Line :=
  match machine.output? with
  | none => [{ text := "  <written to external sink>" }]
  | some output =>
      let shown := if output = "" then "<empty>" else output
      (lastFive (Text.lines shown.toList)).map fun line =>
        { text := "  " ++ String.ofList line }

def lines (viewer : Viewer) (window : Int) : Except Fault (List Line) := do
  let state := viewer.machine.state
  let pc ← Numeral.write state.pc
  let labels ← labelsText state
  let status := s!"Step: {viewer.step} | PC: {pc} | Auto: {flagText viewer.autoRun} | "
    ++ s!"Halted: {flagText viewer.halted}"
  let blank : Line := { text := "" }
  return [{ text := "Quack Instructions (SPACE: run/pause, n: step, r: reset, q: quit)" }, blank]
    ++ viewer.instructionLines window
    ++ [blank, { text := status }, blank, { text := "Queue (head first):" },
        { text := "  " ++ queueText state }, { text := "Registers:" }]
    ++ registerLines state
    ++ [{ text := "Labels:" }, { text := "  " ++ labels }, { text := "Output:" }]
    ++ outputLines viewer.machine

def defaultWindow : Int := 10

def instructionRoom (screen : Screen) : Int :=
  min defaultWindow (max 1 (screen.height - 16))

/-- The characters up to a position, which counts back from the end if it is negative. -/
def upTo (text : String) (stop : Int) : String :=
  let length : Int := text.length
  String.ofList (text.toList.take (if stop < 0 then length + stop else stop).toNat)

/-- A text at the start of a row, cut to the width of the screen less one; nothing if there is no
such row or no room. -/
def place (screen : Screen) (row : Int) (text : String) (reversed : Bool) : Option PlacedLine :=
  if 0 ≤ row ∧ row < screen.height ∧ 1 < screen.width then
    some ⟨row, 0, String.ofList (text.toList.take (screen.width - 1).toNat), reversed⟩
  else none

/-- Writes a text at the start of a row. The whole text must be acceptable, whether there is room for
it or not. -/
def write (screen : Screen) (frame : Frame) (row : Int) (text : String) (reversed : Bool) :
    Except Interruption Frame :=
  if 0 ≤ row ∧ row < screen.height then
    match screen.refusal? text with
    | some reason => .error ⟨frame, .refusedText reason⟩
    | none => .ok { frame with lines := frame.lines ++ (place screen row text reversed).toList }
  else .ok frame

/-- Writes lines one below the other from the top, as far as they come to stand above the last two
rows. -/
def writeLines (screen : Screen) (content : List Line) : Except Interruption Frame :=
  (content.take (screen.height - 2).toNat).zipIdx.foldlM
    (fun frame (line, row) => write screen frame row line.text line.highlighted) {}

/-- Draws the content and, on the last row but one, the message. -/
def draw (viewer : Viewer) (screen : Screen) : Except Interruption Frame := do
  let content ← (viewer.lines (instructionRoom screen)).mapError ({ frame := {}, fault := · })
  let frame ← writeLines screen content
  let message := upTo viewer.message (screen.width - 1)
  let frame ← write screen frame (screen.height - 2) message false
  return { frame with refreshed := true }

/-- Whether the machine advances by itself when no key comes. -/
def runsAlone (viewer : Viewer) : Bool :=
  viewer.autoRun && !viewer.halted

def timeout (viewer : Viewer) : Int :=
  if viewer.runsAlone then 120 else -1

def toggle (viewer : Viewer) : Viewer :=
  if viewer.halted then
    { viewer with message := "Program halted. Press r to reset or q to quit." }
  else
    { viewer with
      autoRun := !viewer.autoRun
      message := if viewer.autoRun then "Paused." else "Running..." }

/-- Answers a key; there is no answer to the one that quits. -/
def respond? (viewer : Viewer) : Key → Option Attempt
  | .timeout => some (if viewer.runsAlone then viewer.advance true else { viewer })
  | .quit => none
  | .toggle => some { viewer := viewer.toggle }
  | .step => some (viewer.advance false)
  | .reset => some { viewer := viewer.reset }
  | .other code => some { viewer := { viewer with message := s!"Unhandled key: {code}." } }

/-- The frames drawn in one run and the viewer after it, with the fault that ended it if any. -/
structure Session where
  viewer : Viewer
  frames : List Frame
  fault : Option Fault := none

/-- Draws a frame behind those drawn before and goes on with them all, unless the drawing meets a
fault. -/
def drawThen
    (viewer : Viewer)
    (screen : Screen)
    (frames : List Frame)
    (goOn : List Frame → Session) : Session :=
  match viewer.draw screen with
  | .error { frame, fault } => { viewer, frames := frames ++ [frame], fault := some fault }
  | .ok frame => goOn (frames ++ [{ frame with timeout := some viewer.timeout }])

/-- Draws a frame and answers a key, over and over, until a key quits or the keys run out. -/
def loop (screen : Screen) : List Int → Viewer → List Frame → Session
  | [], viewer, frames => viewer.drawThen screen frames fun frames => { viewer, frames }
  | code :: rest, viewer, frames =>
      viewer.drawThen screen frames fun frames =>
        match viewer.respond? (.ofCode code) with
        | none => { viewer, frames }
        | some { viewer, fault := some fault } => { viewer, frames, fault := some fault }
        | some { viewer, fault := none } => loop screen rest viewer frames

/-- Runs the viewer on a screen. However that ends, the sink of the machine is closed. -/
def run (viewer : Viewer) (screen : Screen) (keys : List Int) : Session :=
  let session := loop screen keys viewer []
  { session with
    viewer := { session.viewer with machine := session.viewer.machine.closeSink }
    fault := session.viewer.machine.closingFault?.or session.fault }

end Viewer

end QueueMachine.Terminal
