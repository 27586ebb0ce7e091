import Mathlib.Data.List.Forall2
import QueueMachine.Proofs.Viewer.Excerpt
import QueueMachine.Proofs.Viewer.Window

set_option autoImplicit false

/-!
Sections of the window. A section shows an excerpt of its rows: from the first one as long as the
highlighted row is among those that fit, and else with the highlighted row in the middle. So every
row that is drawn lies in the section, and the highlighted row is drawn if there is one. Of all that
is drawn in the window only the row of the current instruction has the color of the cursor.
-/

namespace QueueMachine.Window

def Drawing.isOn (color : Color) : Drawing → Bool
  | .text _ _ _ _ background => background = some color
  | _ => false

def visibleRows (area : Area) : Int :=
  max 1 ((area.height - 40) / lineHeight)

/-- The index of the row at the top of a section. -/
def topRow (area : Area) (highlight : Int) : Int :=
  if visibleRows area ≤ highlight then highlight - visibleRows area / 2 else 0

def panel (title : String) (area : Area) : List Drawing :=
  [.box sectionColor area 5, .box titleBarColor { area with height := 30 } 5,
    .text title (area.x + 10) (area.y + 5) titleColor none]

def rowBackground (highlight : Int) (changed : List Int) (index : Nat) : Option Color :=
  if (index : Int) = highlight then some cursorColor
  else if changed.contains (index : Int) then some changeColor
  else none

/-- A row of a section whose top row is given. -/
def rowText
    (area : Area)
    (top highlight : Int)
    (changed : List Int)
    (entry : String × Nat) : Drawing :=
  .text entry.1 (area.x + 10) (area.y + 40 + (entry.2 - top) * lineHeight) fontColor
    (rowBackground highlight changed entry.2)

def sectionRows
    (rows : List String)
    (area : Area)
    (highlight : Int)
    (changed : List Int) : List Drawing :=
  (excerpt rows (topRow area highlight).toNat (visibleRows area).toNat).map
    (rowText area (topRow area highlight) highlight changed)

theorem topRow_nonneg (area : Area) (highlight : Int) : 0 ≤ topRow area highlight := by
  have room : 1 ≤ visibleRows area := Int.le_max_left _ _
  unfold topRow
  split
  · omega
  · exact Int.le_refl 0

theorem drawSection_eq
    (title : String) (rows : List String) (area : Area) (highlight : Int) (changed : List Int) :
    drawSection title rows area highlight changed =
      panel title area ++ sectionRows rows area highlight changed := by
  rw [sectionRows,
    ← filter_zipIdx_eq_excerpt rows (topRow_nonneg area highlight) (visibleRows area)]
  rfl

theorem rowBackground_eq_cursorColor_iff (highlight : Int) (changed : List Int) (index : Nat) :
    rowBackground highlight changed index = some cursorColor ↔ (index : Int) = highlight := by
  have different : changeColor ≠ cursorColor := by decide
  unfold rowBackground
  split
  · simp [*]
  · split <;> simp [*]

theorem rowBackground_eq_changeColor_iff (highlight : Int) (changed : List Int) (index : Nat) :
    rowBackground highlight changed index = some changeColor ↔
      (index : Int) ∈ changed ∧ (index : Int) ≠ highlight := by
  have different : cursorColor ≠ changeColor := by decide
  unfold rowBackground
  split
  · simp [*]
  · split <;> simp_all

/-- Whether a drawing shows a row of a section whose top row is given. The row lies below the bar
with the title and above the lower edge of the section, its background has the color of the cursor
if it is the highlighted row, and that of a change if it is another row that has changed. -/
def ShowsRow
    (area : Area)
    (top : Nat)
    (highlight : Int)
    (changed : List Int)
    (entry : String × Nat)
    (drawing : Drawing) : Prop :=
  ∃ y background,
    drawing = .text entry.1 (area.x + 10) y fontColor background ∧
      y = area.y + 40 + (entry.2 - top) * 22 ∧
      area.y + 30 ≤ y ∧
      y + 22 ≤ area.y + area.height ∧
      (background = some cursorColor ↔ (entry.2 : Int) = highlight) ∧
      (background = some changeColor ↔ (entry.2 : Int) ∈ changed ∧ (entry.2 : Int) ≠ highlight)

theorem visibleRows_of_tall
    {area : Area}
    (tall : 62 ≤ area.height) :
    visibleRows area = (area.height - 40) / 22 := by
  unfold visibleRows lineHeight
  omega

/-- A row that fits lies between the bar with the title and the lower edge. -/
theorem row_within_section
    {area : Area} {top index : Int}
    (tall : 62 ≤ area.height)
    (notAbove : top ≤ index)
    (notBelow : index < top + visibleRows area) :
    area.y + 30 ≤ area.y + 40 + (index - top) * 22 ∧
      area.y + 40 + (index - top) * 22 + 22 ≤ area.y + area.height := by
  rw [visibleRows_of_tall tall] at notBelow
  omega

theorem showsRow_rowText
    {area : Area}
    (tall : 62 ≤ area.height)
    {rows : List String} {highlight : Int} {entry : String × Nat}
    (changed : List Int)
    (member : entry ∈ excerpt rows (topRow area highlight).toNat (visibleRows area).toNat) :
    ShowsRow area (topRow area highlight).toNat highlight changed entry
      (rowText area (topRow area highlight) highlight changed entry) := by
  obtain ⟨row, index⟩ := entry
  obtain ⟨-, notAbove, notBelow⟩ := (mem_excerpt_iff _ _ _ _ _).mp member
  have top := topRow_nonneg area highlight
  obtain ⟨belowBar, aboveEdge⟩ := row_within_section tall
    (by omega : topRow area highlight ≤ (index : Int)) (by omega)
  refine ⟨_, _, rfl, ?_, belowBar, aboveEdge, rowBackground_eq_cursorColor_iff _ _ _,
    rowBackground_eq_changeColor_iff _ _ _⟩
  rw [Int.toNat_of_nonneg top]
  rfl

theorem topRow_le_highlight
    (area : Area) {highlight : Int}
    (nonnegative : 0 ≤ highlight) :
    topRow area highlight ≤ highlight ∧ highlight < topRow area highlight + visibleRows area := by
  have room : 1 ≤ visibleRows area := Int.le_max_left _ _
  unfold topRow
  split <;> omega

theorem filter_isOn_sectionRows
    (rows : List String) (area : Area) (highlight : Int) (changed : List Int) :
    (sectionRows rows area highlight changed).filter (Drawing.isOn cursorColor) =
      ((excerpt rows (topRow area highlight).toNat (visibleRows area).toNat).filter fun entry =>
        (entry.2 : Int) = highlight).map
          (rowText area (topRow area highlight) highlight changed) := by
  rw [sectionRows, List.filter_map]
  congr 1
  apply List.filter_congr
  rintro ⟨row, index⟩ -
  exact decide_eq_decide.mpr (rowBackground_eq_cursorColor_iff highlight changed index)

theorem filter_isOn_sectionRows_eq_singleton
    {rows : List String} {highlight : Int} {row : String}
    (nonnegative : 0 ≤ highlight)
    (standing : rows[highlight.toNat]? = some row)
    (area : Area) (changed : List Int) :
    (sectionRows rows area highlight changed).filter (Drawing.isOn cursorColor) =
      [.text row (area.x + 10) (area.y + 40 + (highlight - topRow area highlight) * 22) fontColor
        (some cursorColor)] := by
  have top := topRow_nonneg area highlight
  obtain ⟨notAbove, notBelow⟩ := topRow_le_highlight area nonnegative
  have background : rowBackground highlight changed highlight.toNat = some cursorColor :=
    (rowBackground_eq_cursorColor_iff _ _ _).mpr (Int.toNat_of_nonneg nonnegative)
  rw [filter_isOn_sectionRows, filter_excerpt_eq_singleton nonnegative standing (by omega)
    (by omega), List.map_singleton, rowText, background]
  dsimp only
  rw [Int.toNat_of_nonneg nonnegative]
  rfl

theorem filter_isOn_sectionRows_eq_nil
    {rows : List String} {highlight : Int}
    (missing : ¬(0 ≤ highlight ∧ highlight < rows.length))
    (area : Area) (changed : List Int) :
    (sectionRows rows area highlight changed).filter (Drawing.isOn cursorColor) = [] := by
  rw [filter_isOn_sectionRows, List.map_eq_nil_iff, List.filter_eq_nil_iff]
  rintro ⟨row, index⟩ member
  obtain ⟨standing, -⟩ := (mem_excerpt_iff _ _ _ _ _).mp member
  have inside := (List.getElem?_eq_some_iff.mp standing).1
  simp only [decide_eq_true_eq]
  omega

theorem filter_isOn_drawSection
    (title : String) (rows : List String) (area : Area) (highlight : Int) (changed : List Int) :
    (drawSection title rows area highlight changed).filter (Drawing.isOn cursorColor) =
      (sectionRows rows area highlight changed).filter (Drawing.isOn cursorColor) := by
  rw [drawSection_eq, List.filter_append]
  rfl

namespace Viewer

theorem filter_isOn_drawSection_unlit
    (title : String) (rows : List String) (area : Area) (changed : List Int) :
    (drawSection title rows area (-1) changed).filter (Drawing.isOn cursorColor) = [] := by
  rw [filter_isOn_drawSection]
  exact filter_isOn_sectionRows_eq_nil (by omega) area changed

def instructionArea : Area := ⟨margin, margin, 520, screenHeight - 2 * margin - 60⟩

theorem filter_isOn_drawUpper (viewer : Viewer) :
    viewer.drawUpper.filter (Drawing.isOn cursorColor) =
      (sectionRows
        (if (instructionRows viewer.machine).1.isEmpty then ["<no instructions>"]
          else (instructionRows viewer.machine).1)
        instructionArea (instructionRows viewer.machine).2 []).filter
          (Drawing.isOn cursorColor) := by
  unfold drawUpper
  simp only [List.filter_append, filter_isOn_drawSection_unlit, List.append_nil]
  rw [filter_isOn_drawSection]
  rfl

theorem filter_isOn_drawLower (viewer : Viewer) (labels : List String) :
    (viewer.drawLower labels).filter (Drawing.isOn cursorColor) = [] := by
  unfold drawLower
  simp only [List.filter_append, filter_isOn_drawSection_unlit, List.nil_append]
  rfl

/-- Nothing but a row of the instructions can have the color of the cursor, and these are drawn even
if a label cannot be written. -/
theorem filter_isOn_draw (viewer : Viewer) :
    viewer.draw.drawings.filter (Drawing.isOn cursorColor) =
      viewer.drawUpper.filter (Drawing.isOn cursorColor) := by
  unfold draw
  cases labelRows viewer.machine.state.labels with
  | error fault => rfl
  | ok labels =>
      dsimp only
      rw [List.filter_append, filter_isOn_drawLower, List.append_nil]
      rfl

theorem getElem?_instructionRows
    {machine : Machine} {index : Nat} {instruction : Instruction}
    (standing : machine.instructions.toList[index]? = some instruction) :
    (instructionRows machine).1[index]? =
      some (Terminal.Viewer.threeDigits index ++ ": " ++ instruction.describe) := by
  unfold instructionRows
  rw [List.getElem?_map, List.getElem?_zipIdx, standing, Nat.zero_add]
  rfl

theorem instructionRows_snd
    {machine : Machine}
    (inside : machine.state.pc < machine.instructions.size) :
    (instructionRows machine).2 = machine.state.pc := by
  unfold instructionRows
  dsimp only
  rw [List.length_map, List.length_zipIdx, Array.length_toList, if_pos inside]

theorem filter_isOn_draw_eq_singleton
    {viewer : Viewer} {instruction : Instruction}
    (nonnegative : 0 ≤ viewer.machine.state.pc)
    (standing : viewer.machine.instructions.toList[viewer.machine.state.pc.toNat]? =
      some instruction) :
    ∃ y,
      viewer.draw.drawings.filter (Drawing.isOn cursorColor) =
          [.text
            (Terminal.Viewer.threeDigits viewer.machine.state.pc.toNat ++ ": " ++
              instruction.describe)
            (margin + 10) y fontColor (some cursorColor)] ∧
        instructionArea.y + 30 ≤ y ∧
        y + 22 ≤ instructionArea.y + instructionArea.height := by
  have row := getElem?_instructionRows standing
  have inside : viewer.machine.state.pc < viewer.machine.instructions.size := by
    have inList := (List.getElem?_eq_some_iff.mp standing).1
    rw [Array.length_toList] at inList
    omega
  have filled : (instructionRows viewer.machine).1.isEmpty = false := by
    cases rows : (instructionRows viewer.machine).1 with
    | nil =>
        rw [rows] at row
        cases row
    | cons first rest => rfl
  have highlight := instructionRows_snd inside
  obtain ⟨notAbove, notBelow⟩ := topRow_le_highlight instructionArea nonnegative
  refine ⟨_, ?_, row_within_section (by decide) notAbove notBelow⟩
  rw [filter_isOn_draw, filter_isOn_drawUpper, filled, highlight, if_neg Bool.false_ne_true]
  exact filter_isOn_sectionRows_eq_singleton nonnegative row instructionArea []

end Viewer

/-- A section that is tall enough for a row shows consecutive rows in order, as many as fit at most,
each inside the section. The highlighted row is one of them if it exists, and the only one with the
color of the cursor; a row has the color of a change if it has changed and is not highlighted. So
the window always shows the current instruction of a compiled program, however its machine has been
used, and nothing else in the window has the color of the cursor. -/
theorem highlight_in_view :
    (∀ (title : String) (rows : List String) (area : Area) (highlight : Int) (changed : List Int),
      62 ≤ area.height →
      let room := (area.height - 40) / 22
      ∃ (first : Nat) (drawn : List Drawing),
        drawSection title rows area highlight changed =
            [.box sectionColor area 5, .box titleBarColor { area with height := 30 } 5,
              .text title (area.x + 10) (area.y + 5) titleColor none] ++ drawn ∧
          List.Forall₂ (ShowsRow area first highlight changed)
            (excerpt rows first room.toNat) drawn ∧
          (drawn.length : Int) ≤ room ∧
          (highlight < room → first = 0) ∧
          (∀ row, 0 ≤ highlight → rows[highlight.toNat]? = some row →
            drawn.filter (Drawing.isOn cursorColor) =
              [.text row (area.x + 10) (area.y + 40 + (highlight - first) * 22) fontColor
                (some cursorColor)]) ∧
          (¬(0 ≤ highlight ∧ highlight < rows.length) →
            drawn.filter (Drawing.isOn cursorColor) = [])) ∧
      ∀ (source sourceName : String) (sink : Option Sink) (calls : List Machine.Call)
        (viewer : Viewer),
        (Machine.ofProgram (.ofSource source sourceName) sink).callAll? calls =
          some viewer.machine →
        let program := Program.ofSource source sourceName
        let pc := viewer.machine.state.pc
        let area : Area := ⟨margin, margin, 520, screenHeight - 2 * margin - 60⟩
        (program.size < Numeral.placeValue Numeral.maxDigits → viewer.draw.answer = .ok ()) ∧
          (pc < program.size →
            ∃ instruction y, program.instructions[pc.toNat]? = some instruction ∧
              viewer.draw.drawings.filter (Drawing.isOn cursorColor) =
                [.text (Terminal.Viewer.threeDigits pc.toNat ++ ": " ++ instruction.describe)
                  (area.x + 10) y fontColor (some cursorColor)] ∧
              area.y + 30 ≤ y ∧
              y + 22 ≤ area.y + area.height) := by
  constructor
  · intro title rows area highlight changed tall room
    have top := topRow_nonneg area highlight
    have fitting : visibleRows area = room := visibleRows_of_tall tall
    refine ⟨(topRow area highlight).toNat, _, drawSection_eq title rows area highlight changed,
      ?_, ?_, ?_, ?_, ?_⟩
    · rw [sectionRows, ← fitting, List.forall₂_map_right_iff, List.forall₂_same]
      exact fun entry member => showsRow_rowText tall changed member
    · have shown := length_excerpt_le rows (topRow area highlight).toNat (visibleRows area).toNat
      rw [sectionRows, List.length_map]
      omega
    · intro inside
      rw [topRow, fitting, if_neg (by omega), Int.toNat_zero]
    · intro row nonnegative standing
      rw [Int.toNat_of_nonneg top]
      exact filter_isOn_sectionRows_eq_singleton nonnegative standing area changed
    · exact fun missing => filter_isOn_sectionRows_eq_nil missing area changed
  · intro source sourceName sink calls viewer reached program pc area
    have inProgram : viewer.machine.InProgram program :=
      (Machine.inProgram_ofProgram sink).callAll? reached
    refine ⟨fun bounded => (viewer.draw_of_inProgram inProgram bounded).1, fun inside => ?_⟩
    have nonnegative := inProgram.pc_nonneg
    have length := program.length_instructions
    have standing : pc.toNat < program.instructions.length := by omega
    have found := List.getElem?_eq_getElem standing
    obtain ⟨y, drawn, within⟩ := Viewer.filter_isOn_draw_eq_singleton nonnegative
      (by rw [inProgram.instructions, List.toList_toArray]; exact found)
    exact ⟨_, y, found, drawn, within⟩

theorem highlight_in_view_scrolled :
    let area : Area := ⟨0, 0, 100, 84⟩
    let program := Program.ofSource "7 P" standardInputName
    62 ≤ area.height ∧
      (∃ (first : Nat) (drawn : List Drawing),
        drawSection "Queue" ["7", "8", "9", "10"] area 2 [2, 3] =
            [.box sectionColor area 5, .box titleBarColor { area with height := 30 } 5,
              .text "Queue" 10 5 titleColor none] ++ drawn ∧
          drawn.filter (Drawing.isOn cursorColor) =
            [.text "9" 10 (40 + (2 - first) * 22) fontColor (some cursorColor)]) ∧
      ∃ machine y, (Machine.ofProgram program none).callAll? [.step] = some machine ∧
        machine.state.pc = 1 ∧
        program.size = 2 ∧
        (Viewer.make machine none).draw.drawings.filter (Drawing.isOn cursorColor) =
          [.text "001: PRINT" 30 y fontColor (some cursorColor)] := by
  intro area program
  obtain ⟨onSections, onWindows⟩ := highlight_in_view
  obtain ⟨first, drawn, whole, -, -, -, lit, -⟩ :=
    onSections "Queue" ["7", "8", "9", "10"] area 2 [2, 3] (by decide)
  obtain ⟨machine, reached, place, length, fetched⟩ :
      ∃ machine, (Machine.ofProgram program none).callAll? [.step] = some machine ∧
        machine.state.pc = 1 ∧
        program.size = 2 ∧
        program.instructions[1]? = some ⟨.print .number, []⟩ :=
    ⟨_, rfl, by decide +kernel, by decide +kernel, by decide +kernel⟩
  have inside := (onWindows "7 P" standardInputName none [.step] (Viewer.make machine none) reached).2
  change machine.state.pc < program.size → _ at inside
  dsimp only [Viewer.make] at inside
  rw [place] at inside
  obtain ⟨instruction, y, standing, shown, -⟩ := inside (by omega)
  obtain rfl : ⟨.print .number, []⟩ = instruction := Option.some.inj (fetched.symm.trans standing)
  exact ⟨by decide, ⟨first, drawn, whole, lit "9" (by decide) rfl⟩, machine, y, reached, place,
    length, shown⟩

end QueueMachine.Window
