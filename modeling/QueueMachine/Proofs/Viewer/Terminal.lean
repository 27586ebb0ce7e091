import Mathlib.Data.List.Forall2
import QueueMachine.Proofs.Machine.Underway
import QueueMachine.Proofs.Viewer.Display

set_option autoImplicit false

/-!
The terminal viewer and its machine. The viewer keeps its own count of the steps and its own note on
whether the machine has halted. Whatever keys come, both stay true, the machine is the new machine
after that many steps, and the limit is kept; so no key meets a fault, and every frame can be drawn
unless the screen refuses a text.
-/

namespace QueueMachine.Terminal

namespace Viewer

/-- Nothing on the screen is a number that cannot be written. -/
theorem exists_lines_of_inProgram
    (viewer : Viewer) {program : Program}
    (inProgram : viewer.machine.InProgram program)
    (bounded : program.size < Numeral.placeValue Numeral.maxDigits)
    (window : Int) :
    ∃ content, viewer.lines window = .ok content := by
  obtain ⟨pc, written⟩ := inProgram.exists_write_pc bounded
  obtain ⟨labels, named⟩ :=
    inProgram.exists_mapM_labels bounded fun name index => labelName name ++ "@" ++ index
  unfold lines labelsText
  dsimp only
  rw [written, named]
  exact ⟨_, rfl⟩

/-- What the viewer knows of its machine, which has the given program, under the given limit. -/
structure InStep (program : Program) (maxSteps : Option Int) (viewer : Viewer) : Prop where
  maxSteps_eq : viewer.maxSteps = maxSteps
  underway : viewer.machine.Underway program
  step_eq : viewer.step = viewer.machine.state.steps
  halted_eq : viewer.halted = viewer.machine.finished
  alone : viewer.autoRun = true → viewer.halted = false
  within : ∀ limit ∈ maxSteps, (viewer.step : Int) ≤ limit

theorem inStep_make
    {maxSteps : Option Int}
    (nonnegative : ∀ limit ∈ maxSteps, 0 ≤ limit)
    (program : Program) :
    (make (.ofProgram program none) maxSteps).InStep program maxSteps where
  maxSteps_eq := rfl
  underway := Machine.underway_ofProgram program
  step_eq := rfl
  halted_eq := rfl
  alone := nofun
  within := nonnegative

namespace InStep

theorem toggle
    {program : Program} {maxSteps : Option Int} {viewer : Viewer}
    (inStep : viewer.InStep program maxSteps) :
    viewer.toggle.InStep program maxSteps := by
  unfold Viewer.toggle
  split
  · exact { inStep with }
  · rename_i running
    exact { inStep with alone := fun _ => Bool.not_eq_true _ ▸ running }

theorem reset
    {program : Program} {maxSteps : Option Int} {viewer : Viewer}
    (inStep : viewer.InStep program maxSteps)
    (nonnegative : ∀ limit ∈ maxSteps, 0 ≤ limit) :
    viewer.reset.InStep program maxSteps := by
  have anew := inStep.underway.reset_eq
  constructor
  · exact inStep.maxSteps_eq
  · change viewer.machine.reset.Underway program
    rw [anew]
    exact Machine.underway_ofProgram program
  · rfl
  · rfl
  · exact nofun
  · exact nonnegative

variable {source sourceName : String} {maxSteps : Option Int}

theorem advance
    (bounded : (Program.ofSource source sourceName).size < Numeral.placeValue Numeral.maxDigits)
    {viewer : Viewer}
    (inStep : viewer.InStep (.ofSource source sourceName) maxSteps)
    (auto : Bool) :
    (viewer.advance auto).fault = none ∧
      (viewer.advance auto).viewer.InStep (.ofSource source sourceName) maxSteps := by
  unfold Viewer.advance
  by_cases halted : viewer.halted = true
  · rw [if_pos halted]
    exact ⟨rfl, { inStep with alone := nofun }⟩
  rw [if_neg halted]
  by_cases reached : viewer.limitReached = true
  · rw [if_pos reached]
    exact ⟨rfl, { inStep with alone := nofun }⟩
  rw [if_neg reached]
  have unfinished : viewer.machine.finished = false := by
    rw [← inStep.halted_eq]
    exact Bool.not_eq_true _ ▸ halted
  have room := Machine.succ_le_of_not_reached (Bool.not_eq_true _ ▸ reached)
  rw [inStep.maxSteps_eq] at room
  obtain ⟨next, signal, stepped, underway, counted, tells⟩ :=
    inStep.underway.step bounded unfinished
  have step_eq : viewer.step + 1 = next.state.steps := by rw [counted, inStep.step_eq]
  rw [stepped]
  dsimp only
  by_cases ended : signal = .halted ∨ next.finished = true
  · rw [if_pos ended]
    -- The signal alone would not do: the note is on the machine.
    have finished : next.finished = true := ended.elim tells id
    exact ⟨rfl, inStep.maxSteps_eq, underway, step_eq, finished.symm, nofun, room⟩
  · rw [if_neg ended]
    have goesOn : next.finished = false := Bool.not_eq_true _ ▸ fun done => ended (.inr done)
    have note : viewer.halted = next.finished := by
      rw [goesOn]
      exact Bool.not_eq_true _ ▸ halted
    have alone : viewer.autoRun = true → viewer.halted = false := fun _ => note.trans goesOn
    split
    · exact ⟨rfl, inStep.maxSteps_eq, underway, step_eq, note, alone, room⟩
    · exact ⟨rfl, inStep.maxSteps_eq, underway, step_eq, note, alone, room⟩

/-- No key that the viewer answers makes it lose step with its machine. -/
theorem respond?
    (bounded : (Program.ofSource source sourceName).size < Numeral.placeValue Numeral.maxDigits)
    {viewer : Viewer} {key : Key} {attempt : Attempt}
    (inStep : viewer.InStep (.ofSource source sourceName) maxSteps)
    (nonnegative : ∀ limit ∈ maxSteps, 0 ≤ limit)
    (answered : viewer.respond? key = some attempt) :
    attempt.fault = none ∧ attempt.viewer.InStep (.ofSource source sourceName) maxSteps := by
  cases key with
  | quit => cases answered
  | timeout =>
      obtain rfl := Option.some.inj answered
      split
      · exact inStep.advance bounded true
      · exact ⟨rfl, inStep⟩
  | step =>
      obtain rfl := Option.some.inj answered
      exact inStep.advance bounded false
  | toggle =>
      obtain rfl := Option.some.inj answered
      exact ⟨rfl, inStep.toggle⟩
  | reset =>
      obtain rfl := Option.some.inj answered
      exact ⟨rfl, inStep.reset nonnegative⟩
  | other code =>
      obtain rfl := Option.some.inj answered
      exact ⟨rfl, { inStep with }⟩

end InStep

/-- The viewer as it stands each time it draws, as long as nothing meets a fault. -/
def course : List Int → Viewer → List Viewer
  | [], viewer => [viewer]
  | code :: rest, viewer =>
      match viewer.respond? (.ofCode code) with
      | none => [viewer]
      | some attempt => viewer :: course rest attempt.viewer

/-- Whether a frame is what the viewer puts on the screen before it waits for a key. -/
def Shows (screen : Screen) (viewer : Viewer) (frame : Frame) : Prop :=
  ∃ drawn, viewer.draw screen = .ok drawn ∧ frame = { drawn with timeout := some viewer.timeout }

/-- How a session goes that draws the viewers of a course one by one. Either a frame shows each, and
the last of them is left, or the screen refuses a text, and the viewer that was to show it is left
with what was drawn until then. -/
inductive Drawn (screen : Screen) (course : List Viewer) :
    List Frame → Viewer → Option Fault → Prop where
  | all {frames : List Frame} {last : Viewer}
      (shown : List.Forall₂ (Shows screen) course frames)
      (final : course.getLast? = some last) :
      Drawn screen course frames last none
  | stopped {before after : List Viewer} {viewer : Viewer} {frames : List Frame} {frame : Frame}
      {text reason : String}
      (split : course = before ++ viewer :: after)
      (shown : List.Forall₂ (Shows screen) before frames)
      (brokeOff : viewer.draw screen = .error ⟨frame, .refusedText reason⟩)
      (refusal : screen.refusal? text = some reason) :
      Drawn screen course (frames ++ [frame]) viewer (some (.refusedText reason))

theorem Drawn.cons
    {screen : Screen} {viewer last : Viewer} {course : List Viewer} {frame : Frame}
    {frames : List Frame} {fault : Option Fault}
    (shows : Shows screen viewer frame)
    (drawn : Drawn screen course frames last fault) :
    Drawn screen (viewer :: course) (frame :: frames) last fault := by
  cases drawn with
  | all shown final =>
      refine .all (.cons shows shown) ?_
      rw [List.getLast?_cons, final]
      rfl
  | stopped split shown brokeOff refusal =>
      subst split
      exact .stopped rfl (.cons shows shown) brokeOff refusal

theorem Drawn.mem
    {screen : Screen} {course : List Viewer} {frames : List Frame} {last : Viewer}
    {fault : Option Fault}
    (drawn : Drawn screen course frames last fault) :
    last ∈ course := by
  cases drawn with
  | all shown final => exact List.mem_of_getLast? final
  | stopped split => exact split ▸ List.mem_append_right _ List.mem_cons_self

variable {source sourceName : String} {maxSteps : Option Int}

theorem inStep_of_mem_course
    (bounded : (Program.ofSource source sourceName).size < Numeral.placeValue Numeral.maxDigits)
    {keys : List Int} {start viewer : Viewer}
    (inStep : start.InStep (.ofSource source sourceName) maxSteps)
    (nonnegative : ∀ limit ∈ maxSteps, 0 ≤ limit)
    (member : viewer ∈ start.course keys) :
    viewer.InStep (.ofSource source sourceName) maxSteps := by
  induction keys generalizing start with
  | nil =>
      obtain rfl := List.mem_singleton.mp member
      exact inStep
  | cons code rest inductionHypothesis =>
      unfold course at member
      cases answered : start.respond? (.ofCode code) with
      | none =>
          rw [answered] at member
          obtain rfl := List.mem_singleton.mp member
          exact inStep
      | some attempt =>
          rw [answered] at member
          rcases List.mem_cons.mp member with rfl | later
          · exact inStep
          · exact inductionHypothesis (inStep.respond? bounded nonnegative answered).2 later

/-- Drawing one viewer either shows it, and what follows is up to the rest, or ends the session. -/
theorem drawn_drawThen
    (bounded : (Program.ofSource source sourceName).size < Numeral.placeValue Numeral.maxDigits)
    (screen : Screen) {viewer : Viewer}
    (inStep : viewer.InStep (.ofSource source sourceName) maxSteps)
    (frames : List Frame) (others : List Viewer) (goOn : List Frame → Session)
    (goesOn : ∀ frame, Shows screen viewer frame →
      ∃ shown last fault,
        goOn (frames ++ [frame]) = ⟨last, frames ++ frame :: shown, fault⟩ ∧
          Drawn screen (viewer :: others) (frame :: shown) last fault) :
    ∃ shown last fault,
      viewer.drawThen screen frames goOn = ⟨last, frames ++ shown, fault⟩ ∧
        Drawn screen (viewer :: others) shown last fault := by
  obtain ⟨content, told⟩ :=
    viewer.exists_lines_of_inProgram inStep.underway.inProgram bounded (instructionRoom screen)
  unfold drawThen
  rcases draw_cases told with ⟨drawn, drew⟩ | ⟨⟨frame, fault⟩, text, reason, broke, refusal, rfl⟩
  · rw [drew]
    obtain ⟨shown, last, fault, went, shows⟩ := goesOn _ ⟨drawn, drew, rfl⟩
    exact ⟨_, last, fault, went, shows⟩
  · rw [broke]
    exact ⟨[frame], viewer, _, rfl, .stopped rfl .nil broke refusal⟩

theorem drawn_last
    (bounded : (Program.ofSource source sourceName).size < Numeral.placeValue Numeral.maxDigits)
    (screen : Screen) {viewer : Viewer}
    (inStep : viewer.InStep (.ofSource source sourceName) maxSteps)
    (frames : List Frame) :
    ∃ shown last fault,
      viewer.drawThen screen frames (fun frames => { viewer, frames }) =
          ⟨last, frames ++ shown, fault⟩ ∧
        Drawn screen [viewer] shown last fault := by
  apply drawn_drawThen bounded screen inStep frames []
  intro frame shows
  exact ⟨[], viewer, none, rfl, .all (.cons shows .nil) rfl⟩

theorem drawn_loop
    (bounded : (Program.ofSource source sourceName).size < Numeral.placeValue Numeral.maxDigits)
    (screen : Screen) (keys : List Int) {start : Viewer}
    (inStep : start.InStep (.ofSource source sourceName) maxSteps)
    (nonnegative : ∀ limit ∈ maxSteps, 0 ≤ limit)
    (frames : List Frame) :
    ∃ shown last fault,
      loop screen keys start frames = ⟨last, frames ++ shown, fault⟩ ∧
        Drawn screen (start.course keys) shown last fault := by
  induction keys generalizing start frames with
  | nil => exact drawn_last bounded screen inStep frames
  | cons code rest inductionHypothesis =>
      rw [loop, course]
      cases answered : start.respond? (.ofCode code) with
      | none => exact drawn_last bounded screen inStep frames
      | some attempt =>
          obtain ⟨next, fault⟩ := attempt
          obtain ⟨noFault, nextInStep⟩ := inStep.respond? bounded nonnegative answered
          cases noFault
          apply drawn_drawThen bounded screen inStep frames (course rest next)
          intro frame shows
          obtain ⟨shown, last, fault, looped, drawn⟩ :=
            inductionHypothesis nextInStep (frames ++ [frame])
          refine ⟨shown, last, fault, ?_, .cons shows drawn⟩
          rw [List.append_assoc] at looped
          exact looped

/-- Each frame of a session on a new machine shows a viewer that is in step with it: the count and
the note on halting are those of the machine, it runs alone only while the machine has not halted,
the limit is kept, and the machine is the new one after as many steps as the viewer has counted.
Nothing but a text that the screen refuses breaks the session off, and nothing but the closing of the
sink comes behind its last frame. -/
theorem course_ofSource
    (source sourceName : String)
    (bounded : (Program.ofSource source sourceName).size < Numeral.placeValue Numeral.maxDigits)
    (maxSteps : Option Int)
    (nonnegative : ∀ limit ∈ maxSteps, 0 ≤ limit)
    (screen : Screen) (keys : List Int) :
    let fresh := Machine.ofProgram (.ofSource source sourceName) none
    let viewers := (make fresh maxSteps).course keys
    let session := (make fresh maxSteps).run screen keys
    (∃ last, Drawn screen viewers session.frames last session.fault ∧
        session.viewer = { last with machine := last.machine.closeSink }) ∧
      ∀ viewer ∈ viewers,
        viewer.step = viewer.machine.state.steps ∧
          viewer.halted = viewer.machine.finished ∧
          (viewer.autoRun = true → viewer.halted = false) ∧
          (∀ limit ∈ maxSteps, (viewer.step : Int) ≤ limit) ∧
          ∃ signals, signals.length = viewer.step ∧
            Machine.stepMany viewer.step fresh = ⟨viewer.machine, .ok signals⟩ := by
  intro fresh viewers session
  have start : (make fresh maxSteps).InStep (.ofSource source sourceName) maxSteps :=
    inStep_make nonnegative _
  have inStep : ∀ viewer ∈ viewers, viewer.InStep (.ofSource source sourceName) maxSteps :=
    fun _ member => inStep_of_mem_course bounded start nonnegative member
  obtain ⟨shown, last, fault, looped, drawn⟩ := drawn_loop bounded screen keys start nonnegative []
  have ran : session =
      { viewer := { last with machine := last.machine.closeSink }
        frames := shown
        fault := last.machine.closingFault?.or fault } := by
    change (make fresh maxSteps).run screen keys = _
    rw [run, looped]
    rfl
  refine ⟨⟨last, ?_, ?_⟩, ?_⟩
  · rw [ran, (inStep last drawn.mem).underway.closingFault?_eq_none, Option.none_or]
    exact drawn
  · rw [ran]
  intro viewer member
  have inStep := inStep viewer member
  obtain ⟨signals, length, reached⟩ := inStep.underway.exists_stepMany_eq bounded
  rw [← inStep.step_eq] at length reached
  exact ⟨inStep.step_eq, inStep.halted_eq, inStep.alone, inStep.within, signals, length, reached⟩

/-- A viewer that runs into its limit, is given a key it does not know, and starts again. -/
theorem course_ofSource_reset_at_limit :
    let program := Program.ofSource "7 P 8 P" standardInputName
    let fresh := Machine.ofProgram program none
    let keys : List Int := [110, 32, -1, -1, -1, 65, 114, 110, 113, 110]
    let viewers := (make fresh (some 3)).course keys
    let session := (make fresh (some 3)).run { height := 24, width := 80 } keys
    program.size < Numeral.placeValue Numeral.maxDigits ∧
      (0 : Int) ≤ 3 ∧
      viewers.map (fun viewer => (viewer.step, viewer.autoRun)) =
        [(0, false), (1, false), (1, true), (2, true), (3, true), (3, false), (3, false),
          (0, false), (1, false)] ∧
      session.fault = none ∧
      session.frames.length = 9 ∧
      session.viewer.machine = (Machine.stepMany 1 fresh).machine.closeSink ∧
      ∀ viewer ∈ viewers,
        ∃ signals, Machine.stepMany viewer.step fresh = ⟨viewer.machine, .ok signals⟩ := by
  intro program fresh keys viewers session
  have bounded : program.size < Numeral.placeValue Numeral.maxDigits :=
    Nat.lt_of_le_of_lt (Program.size_ofSource_le _ _) (by decide +kernel)
  obtain ⟨⟨last, drawn, ended⟩, inStep⟩ :=
    course_ofSource "7 P 8 P" standardInputName bounded (some 3) (by rintro limit ⟨⟩; decide)
      { height := 24, width := 80 } keys
  have steps : viewers.map (fun viewer => (viewer.step, viewer.autoRun)) =
      [(0, false), (1, false), (1, true), (2, true), (3, true), (3, false), (3, false),
        (0, false), (1, false)] := by
    decide +kernel
  have reached : ∀ viewer ∈ viewers,
      ∃ signals, Machine.stepMany viewer.step fresh = ⟨viewer.machine, .ok signals⟩ := by
    intro viewer member
    obtain ⟨-, -, -, -, signals, -, stepped⟩ := inStep viewer member
    exact ⟨signals, stepped⟩
  change Drawn _ viewers session.frames last session.fault at drawn
  generalize session.frames = frames, session.fault = fault at drawn ⊢
  cases drawn with
  | stopped _ _ _ refusal => cases refusal
  | all shown final =>
  have lastStep : last.step = 1 := by
    have lastEntry := congrArg List.getLast? steps
    rw [List.getLast?_map, final] at lastEntry
    exact congrArg Prod.fst (Option.some.inj lastEntry)
  refine ⟨bounded, by decide, steps, rfl, ?_, ?_, reached⟩
  · rw [← shown.length_eq, ← List.length_map, steps]
    rfl
  · obtain ⟨signals, stepped⟩ := reached last (List.mem_of_getLast? final)
    rw [lastStep] at stepped
    change session.viewer = _ at ended
    rw [ended, stepped]

end Viewer

end QueueMachine.Terminal
