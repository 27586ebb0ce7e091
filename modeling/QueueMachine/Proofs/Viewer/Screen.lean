import QueueMachine.Proofs.Viewer.Excerpt
import QueueMachine.Proofs.Viewer.Terminal

set_option autoImplicit false

/-!
What the terminal viewer puts on the screen. The content is a heading, some instructions around the
program counter and what there is to tell of the state, and it is cut off above the message. The
heading and the instructions have room even on the lowest screen that has one for an instruction at
all, so that the instruction at the program counter is never cut off. All lines stand on rows of
their own, which keeps them apart on every terminal where each character takes one cell.
-/

namespace QueueMachine.Terminal

/-- A line on a row of the screen, cut to the width of the screen less one. -/
def Screen.put (screen : Screen) (row : Int) (line : Line) : PlacedLine :=
  ⟨row, 0, String.ofList (line.text.toList.take (screen.width - 1).toNat), line.highlighted⟩

namespace Viewer

/-- The line of an instruction, which is highlighted at the program counter. -/
def instructionLine (pc : Int) (instruction : Instruction) (index : Nat) : Line :=
  let atCursor : Bool := (index : Int) = pc
  let marker := if atCursor then "→" else " "
  { text := marker ++ threeDigits index ++ " " ++ instruction.describe
    highlighted := atCursor }

def instructionRows
    (pc : Int)
    (instructions : List Instruction)
    (first count : Nat) : List Line :=
  (excerpt instructions first count).map fun (instruction, index) =>
    instructionLine pc instruction index

end Viewer

end QueueMachine.Terminal
