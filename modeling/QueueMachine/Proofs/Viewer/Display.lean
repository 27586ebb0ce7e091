import QueueMachine.Viewer.Terminal

set_option autoImplicit false

/-!
From the lines of a frame to the cells of a terminal. Lines are written one after the other, and a
screen may refuse one of them, which breaks the frame off there. How a terminal spreads a text over
its cells is its own affair, except for a text that has room and whose characters take one cell
each. If all lines of a frame are such texts and stand on rows of their own, each is to be seen as it
was written.
-/

namespace QueueMachine.Terminal

/-- A line that is to be written on a row. -/
structure Writing where
  row : Int
  line : Line

/-- What is put on the screen by writings that are all accepted. -/
def Screen.placeAll (screen : Screen) (writings : List Writing) : List PlacedLine :=
  writings.filterMap fun writing =>
    Viewer.place screen writing.row writing.line.text writing.line.highlighted

namespace Screen

theorem placeAll_append (screen : Screen) (first second : List Writing) :
    screen.placeAll (first ++ second) = screen.placeAll first ++ screen.placeAll second :=
  List.filterMap_append

theorem placeAll_singleton (screen : Screen) (row : Int) (line : Line) :
    screen.placeAll [⟨row, line⟩] =
      (Viewer.place screen row line.text line.highlighted).toList := by
  rw [placeAll, List.filterMap_cons]
  cases Viewer.place screen row line.text line.highlighted <;> rfl

end Screen

/-- How it ends to write behind what a frame has already: with all of the writings on the screen, or
at the first whose text is refused. -/
inductive Screen.Writes (screen : Screen) (start : Frame) (writings : List Writing) :
    Except Interruption Frame → Prop where
  | all
      (accepted : ∀ writing ∈ writings, screen.refusal? writing.line.text = none) :
      Writes screen start writings
        (.ok { start with lines := start.lines ++ screen.placeAll writings })
  | refused {before after : List Writing} {writing : Writing} {reason : String}
      (split : writings = before ++ writing :: after)
      (accepted : ∀ earlier ∈ before, screen.refusal? earlier.line.text = none)
      (refusal : screen.refusal? writing.line.text = some reason) :
      Writes screen start writings
        (.error
          { frame := { start with lines := start.lines ++ screen.placeAll before }
            fault := .refusedText reason })

namespace Screen.Writes

variable {screen : Screen} {start : Frame}

theorem nothing : screen.Writes start [] (.ok start) := by
  have wrote : screen.Writes start [] _ := .all (List.forall_mem_nil _)
  rw [Screen.placeAll, List.filterMap_nil, List.append_nil] at wrote
  exact wrote

theorem bind
    {first second : List Writing} {attempt : Except Interruption Frame}
    {next : Frame → Except Interruption Frame}
    (wrote : screen.Writes start first attempt)
    (goesOn : ∀ frame, screen.Writes frame second (next frame)) :
    screen.Writes start (first ++ second) (attempt >>= next) := by
  cases wrote with
  | refused split accepted refusal =>
      subst split
      exact refused (List.append_assoc _ _ _) accepted refusal
  | all accepted =>
      have wroteToo := goesOn { start with lines := start.lines ++ screen.placeAll first }
      change screen.Writes start (first ++ second)
        (next { start with lines := start.lines ++ screen.placeAll first })
      generalize next _ = ended at wroteToo ⊢
      cases wroteToo with
      | all acceptedToo =>
          rw [List.append_assoc, ← Screen.placeAll_append]
          exact .all (List.forall_mem_append.mpr ⟨accepted, acceptedToo⟩)
      | refused split acceptedToo refusal =>
          subst split
          rw [List.append_assoc, ← Screen.placeAll_append]
          exact refused (List.append_assoc _ _ _).symm
            (List.forall_mem_append.mpr ⟨accepted, acceptedToo⟩) refusal

theorem write
    {row : Int}
    (notAbove : 0 ≤ row) (notBelow : row < screen.height)
    (line : Line) :
    screen.Writes start [⟨row, line⟩]
      (Viewer.write screen start row line.text line.highlighted) := by
  unfold Viewer.write
  rw [if_pos ⟨notAbove, notBelow⟩]
  cases refusal : screen.refusal? line.text with
  | some reason =>
      have stopped : screen.Writes start [⟨row, line⟩] _ :=
        .refused (List.nil_append _).symm (List.forall_mem_nil _) refusal
      rw [Screen.placeAll, List.filterMap_nil, List.append_nil] at stopped
      exact stopped
  | none =>
      dsimp only
      rw [← Screen.placeAll_singleton]
      exact .all (List.forall_mem_singleton.mpr refusal)

theorem writeEach
    (entries : List (Line × Nat))
    (inside : ∀ entry ∈ entries, (entry.2 : Int) < screen.height) :
    screen.Writes start (entries.map fun (line, row) => ⟨row, line⟩)
      (entries.foldlM
        (fun frame (line, row) => Viewer.write screen frame row line.text line.highlighted)
        start) := by
  induction entries generalizing start with
  | nil => exact nothing
  | cons entry rest inductionHypothesis =>
      obtain ⟨here, later⟩ := List.forall_mem_cons.mp inside
      rw [List.foldlM_cons]
      exact bind (write (Int.natCast_nonneg _) here entry.1) fun _ => inductionHypothesis later

end Screen.Writes

namespace Viewer

/-- What is written for a frame of some content: as much of it as there is room for above the
message, and the message. -/
def writings (viewer : Viewer) (screen : Screen) (content : List Line) : List Writing :=
  ((content.take (screen.height - 2).toNat).zipIdx.map fun (line, row) => ⟨row, line⟩) ++
    if 2 ≤ screen.height then
      [⟨screen.height - 2, { text := upTo viewer.message (screen.width - 1) }⟩]
    else []

theorem exists_draw_eq
    {viewer : Viewer} {screen : Screen} {content : List Line}
    (told : viewer.lines (instructionRoom screen) = .ok content) :
    ∃ attempt,
      screen.Writes {} (viewer.writings screen content) attempt ∧
        viewer.draw screen = attempt.map fun frame => { frame with refreshed := true } := by
  have above : ∀ entry ∈ (content.take (screen.height - 2).toNat).zipIdx,
      (entry.2 : Int) < screen.height := by
    intro entry member
    have short := List.snd_lt_of_mem_zipIdx member
    rw [List.length_take] at short
    omega
  have message (frame : Frame) :
      screen.Writes frame
        (if 2 ≤ screen.height then
          [⟨screen.height - 2, { text := upTo viewer.message (screen.width - 1) }⟩]
        else [])
        (write screen frame (screen.height - 2) (upTo viewer.message (screen.width - 1)) false) := by
    by_cases high : 2 ≤ screen.height
    · rw [if_pos high]
      exact .write (by omega) (by omega) { text := upTo viewer.message (screen.width - 1) }
    · rw [if_neg high, write, if_neg (by omega)]
      exact .nothing
  refine ⟨_, .bind (.writeEach _ above) message, ?_⟩
  unfold draw
  rw [told]
  change (writeLines screen content >>= _) = Except.map _ (writeLines screen content >>= _)
  cases writeLines screen content with
  | error stopped => rfl
  | ok frame =>
      change (write screen frame _ _ _ >>= _) = Except.map _ (write screen frame _ _ _)
      cases write screen frame (screen.height - 2) (upTo viewer.message (screen.width - 1)) false
      · rfl
      · rfl

theorem draw_cases
    {viewer : Viewer} {screen : Screen} {content : List Line}
    (told : viewer.lines (instructionRoom screen) = .ok content) :
    (∃ frame, viewer.draw screen = .ok frame) ∨
      ∃ stopped text reason,
        viewer.draw screen = .error stopped ∧
          screen.refusal? text = some reason ∧ stopped.fault = .refusedText reason := by
  obtain ⟨attempt, wrote, drew⟩ := exists_draw_eq told
  rw [drew]
  cases wrote with
  | all => exact .inl ⟨_, rfl⟩
  | refused _ _ refusal => exact .inr ⟨_, _, _, rfl, refusal, rfl⟩

end Viewer

structure Cell where
  character : Char
  reversed : Bool
  deriving DecidableEq, Repr

/-- The cells of a terminal by row and column, as far as they are not blank. -/
abbrev Canvas := Int → Int → Option Cell

/-- The cell of a line whose characters take one cell each. -/
def PlacedLine.cell? (line : PlacedLine) (row column : Int) : Option Cell :=
  if row = line.row ∧ line.column ≤ column then
    line.text.toList[(column - line.column).toNat]?.map fun character =>
      { character, reversed := line.reversed }
  else none

/-- A terminal that writes lines onto its cells, and what is known of it. -/
structure Device (screen : Screen) where
  /-- The characters that take one cell. -/
  single : Char → Prop
  write : PlacedLine → Canvas → Canvas
  write_eq :
    ∀ (line : PlacedLine) (canvas : Canvas) (row column : Int),
      0 ≤ line.row → line.row < screen.height →
      0 ≤ line.column → line.column + line.text.length < screen.width →
      (∀ character ∈ line.text.toList, single character) →
      write line canvas row column = (line.cell? row column).or (canvas row column)

/-- Whether a line has room on a screen of the device and each of its characters takes one cell. -/
structure Device.Fits {screen : Screen} (device : Device screen) (line : PlacedLine) : Prop where
  notAbove : 0 ≤ line.row
  notBelow : line.row < screen.height
  notBefore : 0 ≤ line.column
  notBehind : line.column + line.text.length < screen.width
  single : ∀ character ∈ line.text.toList, device.single character

namespace PlacedLine

end PlacedLine

namespace Device

variable {screen : Screen} (device : Device screen)

variable {device}

theorem Fits.write_eq
    {line : PlacedLine}
    (fits : device.Fits line)
    (canvas : Canvas) (row column : Int) :
    device.write line canvas row column = (line.cell? row column).or (canvas row column) :=
  device.write_eq line canvas row column fits.notAbove fits.notBelow fits.notBefore fits.notBehind
    fits.single

end Device

end QueueMachine.Terminal
