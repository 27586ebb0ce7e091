import QueueMachine.Viewer.Terminal

set_option autoImplicit false

/-!
A viewer that shows a machine in a window. What it does to the window is a list of `Drawing`s, in
the order in which they are made; input comes as one list of events for each frame.
-/

namespace QueueMachine.Window

structure Color where
  red : Nat
  green : Nat
  blue : Nat
  deriving DecidableEq, Repr

structure Area where
  x : Int
  y : Int
  width : Int
  height : Int
  deriving DecidableEq, Repr

inductive Drawing where
  | start
  | setSize (width height : Int)
  | setCaption (caption : String)
  | setFont (name : String) (size : Nat)
  | fill (color : Color)
  | box (color : Color) (area : Area) (radius : Nat)
  | text (content : String) (x y : Int) (color : Color) (background : Option Color)
  | flip
  | tick (rate : Nat)
  | stop
  deriving DecidableEq, Repr

inductive Event where
  | close
  | other
  | space
  | pause
  | reset
  | quit
  | otherKey
  deriving DecidableEq, Repr

def screenWidth : Int := 1280

def screenHeight : Int := 800

def margin : Int := 20

def lineHeight : Int := 22

def backgroundColor : Color := ⟨240, 240, 240⟩

def fontColor : Color := ⟨10, 10, 10⟩

def cursorColor : Color := ⟨200, 255, 200⟩

def changeColor : Color := ⟨255, 220, 200⟩

def sectionColor : Color := ⟨220, 220, 220⟩

def titleBarColor : Color := ⟨180, 180, 180⟩

def titleColor : Color := ⟨50, 50, 50⟩

def statusColor : Color := ⟨100, 100, 100⟩

/-- The numbered instructions, and the row of the program counter or `-1` if it is past the end. -/
def instructionRows (machine : Machine) : List String × Int :=
  let rows := machine.instructions.toList.zipIdx.map fun (instruction, index) =>
    s!"{Terminal.Viewer.threeDigits index}: {instruction.describe}"
  (rows, if machine.state.pc < rows.length then machine.state.pc else -1)

/-- The set registers by name, and the rows that differ from the previous assignments. -/
def registerRows (registers previous : List (String × Int)) : List String × List Nat :=
  let sorted := registers.mergeSort fun a b => a.1 ≤ b.1
  let rows := sorted.map fun (name, value) => s!"{name}: {Numeral.format value}"
  let changed := sorted.zipIdx.filterMap fun ((name, value), index) =>
    if previous.lookup name = some value then none else some index
  (if rows.isEmpty then ["<all unset>"] else rows, changed)

def outputRows : Option String → List String
  | none => ["<written to external sink>"]
  | some output =>
      match Text.lines output.toList with
      | [] => ["<empty>"]
      | lines => lines.map String.ofList

def queueRows (queue : ValueQueue) : List String :=
  [if queue.isEmpty then "<empty>" else queue.join " "]

def labelRows (labels : LabelTable) : Except Fault (List String) := do
  let rows ← labels.sorted.mapM fun (name, index) => do
    return Terminal.Viewer.labelName name ++ " -> " ++ (← Numeral.write index)
  return if rows.isEmpty then ["<none>"] else rows

/-- A titled box with as many rows as fit, such that the highlighted row is among them. -/
def drawSection
    (title : String)
    (rows : List String)
    (area : Area)
    (highlight : Int)
    (changed : List Int) : List Drawing :=
  let visible := max 1 ((area.height - 40) / lineHeight)
  let first := if visible ≤ highlight then highlight - visible / 2 else 0
  let shown := rows.zipIdx.filter fun (_, index) =>
    first ≤ (index : Int) && (index : Int) < first + visible
  let drawRow : String × Nat → Drawing := fun (row, index) =>
    let background :=
      if (index : Int) = highlight then some cursorColor
      else if changed.contains (index : Int) then some changeColor
      else none
    .text row (area.x + 10) (area.y + 40 + (index - first) * lineHeight) fontColor background
  [.box sectionColor area 5, .box titleBarColor { area with height := 30 } 5,
      .text title (area.x + 10) (area.y + 5) titleColor none]
    ++ shown.map drawRow

structure Viewer where
  machine : Machine
  maxSteps : Option Int
  running : Bool := true
  paused : Bool := true
  message : String := "Press P to run, SPACE to step, R to reset, Q to quit."
  /-- The assignments as last drawn, with which the next are compared. -/
  previousRegisters : List (String × Int) := []

/-- A viewer after something was tried on it: what was drawn, and the answer or the fault that was
met. -/
structure Attempt (Answer : Type) where
  viewer : Viewer
  drawings : List Drawing := []
  answer : Except Fault Answer

namespace Viewer

def make (machine : Machine) (maxSteps : Option Int) : Viewer := { machine, maxSteps }

def opening : List Drawing :=
  [.start, .setSize screenWidth screenHeight, .setCaption "Quack VM Visualizer",
    .setFont "monospace" 18]

def status (viewer : Viewer) : String :=
  if viewer.machine.finished then "HALTED" else if viewer.paused then "PAUSED" else "RUNNING"

def rightColumn : Int := 560

def rightWidth : Int := screenWidth - rightColumn - margin

def halfWidth : Int := rightWidth / 2 - 10

def upperRow : Int := margin + 100

def lowerRow : Int := upperRow + 280

def messageRow : Int := screenHeight - margin - 40

def drawUpper (viewer : Viewer) : List Drawing :=
  let state := viewer.machine.state
  let (instructions, cursor) := instructionRows viewer.machine
  let instructions := if instructions.isEmpty then ["<no instructions>"] else instructions
  let (registers, changed) := registerRows state.registers.assignments viewer.previousRegisters
  drawSection "Instructions" instructions
      ⟨margin, margin, 520, screenHeight - 2 * margin - 60⟩ cursor []
    ++ drawSection "Queue (head first)" (queueRows state.queue)
      ⟨rightColumn, margin, rightWidth, 80⟩ (-1) []
    ++ drawSection "Registers" registers
      ⟨rightColumn, upperRow, halfWidth, 260⟩ (-1) (changed.map Int.ofNat)

def drawLower (viewer : Viewer) (labels : List String) : List Drawing :=
  drawSection "Labels" labels
      ⟨rightColumn + rightWidth / 2 + 10, upperRow, halfWidth, 260⟩ (-1) []
    ++ drawSection "Output" (outputRows viewer.machine.output?)
      ⟨rightColumn, lowerRow, rightWidth, screenHeight - lowerRow - margin - 60⟩ (-1) []
    ++ [.text s!"Msg: {viewer.message}" margin messageRow statusColor none,
      .text
        (s!"Status: {viewer.status} | Steps: {viewer.machine.state.steps} | "
          ++ "[SPACE] step [P] run/pause [R] reset [Q] quit")
        margin (messageRow + lineHeight) statusColor none,
      .flip]

/-- Draws everything. A label index that cannot be written stops the drawing half way. -/
def draw (viewer : Viewer) : Attempt Unit :=
  let upper := .fill backgroundColor :: viewer.drawUpper
  match labelRows viewer.machine.state.labels with
  | .error fault => { viewer, drawings := upper, answer := .error fault }
  | .ok labels =>
      { viewer :=
          { viewer with
            previousRegisters := viewer.machine.state.registers.assignments }
        drawings := upper ++ viewer.drawLower labels
        answer := .ok () }

def limitReached (viewer : Viewer) : Bool :=
  viewer.maxSteps.any fun limit => limit ≤ (viewer.machine.state.steps : Int)

/-- Steps the machine once and tells whether there is nothing more to step. -/
def stepOnce (viewer : Viewer) : Attempt Bool :=
  if viewer.machine.finished then
    { viewer := { viewer with message := "Program already complete." }, answer := .ok true }
  else if viewer.limitReached then
    { viewer := { viewer with message := "Reached max steps; press R to reset." }
      answer := .ok true }
  else
    match viewer.machine.step with
    | ⟨machine, .error fault⟩ => { viewer := { viewer with machine }, answer := .error fault }
    | ⟨machine, .ok signal⟩ =>
        if signal = .halted ∨ machine.finished then
          { viewer := { viewer with machine, message := "Execution halted." }, answer := .ok true }
        else { viewer := { viewer with machine }, answer := .ok false }

def reset (viewer : Viewer) : Viewer :=
  { viewer with
    machine := viewer.machine.reset
    previousRegisters := []
    paused := true
    message := "Reset. Press P to run or SPACE to step." }

def togglePause (viewer : Viewer) : Viewer :=
  { viewer with
    paused := !viewer.paused
    message := if viewer.paused then "Running..." else "Paused." }

def handle (viewer : Viewer) : Event → Attempt Unit
  | .close => { viewer := { viewer with running := false }, answer := .ok () }
  | .quit => { viewer := { viewer with running := false }, answer := .ok () }
  | .space =>
      let stepped := stepOnce { viewer with paused := true }
      { viewer := stepped.viewer, answer := stepped.answer.map fun _ => () }
  | .pause => { viewer := viewer.togglePause, answer := .ok () }
  | .reset => { viewer := viewer.reset, answer := .ok () }
  | .other => { viewer, answer := .ok () }
  | .otherKey => { viewer, answer := .ok () }

def handleAll : List Event → Viewer → Attempt Unit
  | [], viewer => { viewer, answer := .ok () }
  | event :: rest, viewer =>
      match viewer.handle event with
      | { viewer, answer := .error fault, .. } => { viewer, answer := .error fault }
      | { viewer, answer := .ok (), .. } => handleAll rest viewer

/-- The step that a viewer makes by itself in a frame when it is not paused. -/
def stepUnpaused (viewer : Viewer) : Attempt Unit :=
  if viewer.paused then { viewer, answer := .ok () }
  else
    match viewer.stepOnce with
    | { viewer, answer := .error fault, .. } => { viewer, answer := .error fault }
    | { viewer, answer := .ok done, .. } =>
        { viewer := if done then { viewer with paused := true } else viewer, answer := .ok () }

def frame (viewer : Viewer) (events : List Event) : Attempt Unit :=
  match handleAll events viewer with
  | { viewer, answer := .error fault, .. } => { viewer, answer := .error fault }
  | { viewer, answer := .ok (), .. } =>
      match viewer.stepUnpaused with
      | { viewer, answer := .error fault, .. } => { viewer, answer := .error fault }
      | { viewer, answer := .ok (), .. } =>
          match viewer.draw with
          | { viewer, drawings, answer := .error fault } =>
              { viewer, drawings, answer := .error fault }
          | { viewer, drawings, answer := .ok () } =>
              { viewer, drawings := drawings ++ [.tick 10], answer := .ok () }

/-- Frame after frame while the viewer is running; the window is closed once the events run out. -/
def loop : List (List Event) → Viewer → List Drawing → Attempt Unit
  | [], viewer, drawings =>
      if viewer.running then
        let last := viewer.frame [.close]
        { last with drawings := drawings ++ last.drawings }
      else { viewer, drawings, answer := .ok () }
  | events :: rest, viewer, drawings =>
      if viewer.running then
        match viewer.frame events with
        | { viewer, drawings := drawn, answer := .error fault } =>
            { viewer, drawings := drawings ++ drawn, answer := .error fault }
        | { viewer, drawings := drawn, answer := .ok () } =>
            loop rest viewer (drawings ++ drawn)
      else { viewer, drawings, answer := .ok () }

/-- Runs the viewer. However that ends, the sink of the machine is closed and then the window, unless
closing the sink meets a fault. -/
def run (viewer : Viewer) (events : List (List Event)) : Attempt Unit :=
  let ended := loop events viewer []
  let viewer := { ended.viewer with machine := ended.viewer.machine.closeSink }
  match ended.viewer.machine.closingFault? with
  | some fault => { ended with viewer, answer := .error fault }
  | none => { ended with viewer, drawings := ended.drawings ++ [.stop] }

end Viewer

end QueueMachine.Window
