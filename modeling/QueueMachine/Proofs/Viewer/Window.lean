import QueueMachine.Proofs.Machine.Underway
import QueueMachine.Viewer.Window

set_option autoImplicit false

/-!
The window viewer and its machine. Whatever events come, the machine is the new machine after as
many steps as it has counted, and the limit is kept, so that no event and no drawing meets a fault.
A viewer that is not paused when it draws has more to run, since the step before the drawing pauses
it otherwise. An event that ends the viewer takes effect behind the frame in which it comes.
-/

namespace QueueMachine.Window

def Event.quits : Event → Bool
  | .close => true
  | .quit => true
  | _ => false

namespace Viewer

def stopped (viewer : Viewer) : Viewer :=
  { viewer with running := false }

end Viewer

def Attempt.stopped {Answer : Type} (attempt : Attempt Answer) : Attempt Answer :=
  { attempt with viewer := attempt.viewer.stopped }

namespace Viewer

theorem stepOnce_stopped (viewer : Viewer) : viewer.stopped.stepOnce = viewer.stepOnce.stopped := by
  have sameFinish : viewer.stopped.machine.finished = viewer.machine.finished := rfl
  have sameLimit : viewer.stopped.limitReached = viewer.limitReached := rfl
  have sameStep : viewer.stopped.machine.step = viewer.machine.step := rfl
  rw [stepOnce, stepOnce, sameFinish, sameLimit, sameStep]
  by_cases finished : viewer.machine.finished = true
  · rw [if_pos finished, if_pos finished]
    rfl
  by_cases reached : viewer.limitReached = true
  · rw [if_neg finished, if_neg finished, if_pos reached, if_pos reached]
    rfl
  rw [if_neg finished, if_neg finished, if_neg reached, if_neg reached]
  match viewer.machine.step with
  | ⟨machine, .error fault⟩ => rfl
  | ⟨machine, .ok signal⟩ =>
      dsimp only
      split <;> rfl

theorem handle_stopped (viewer : Viewer) (event : Event) :
    viewer.stopped.handle event = (viewer.handle event).stopped := by
  cases event with
  | space =>
      have stepped := stepOnce_stopped { viewer with paused := true }
      exact congrArg
        (fun attempt => Attempt.mk attempt.viewer [] (attempt.answer.map fun _ => ())) stepped
  | _ => rfl

theorem handleAll_stopped (events : List Event) (viewer : Viewer) :
    handleAll events viewer.stopped = (handleAll events viewer).stopped := by
  induction events generalizing viewer with
  | nil => rfl
  | cons event rest inductionHypothesis =>
      rw [handleAll, handleAll, handle_stopped]
      match viewer.handle event with
      | ⟨next, _, .error fault⟩ => rfl
      | ⟨next, _, .ok ()⟩ => exact inductionHypothesis next

theorem handle_of_quits
    {event : Event}
    (quits : event.quits = true)
    (viewer : Viewer) :
    viewer.handle event = { viewer := viewer.stopped, answer := .ok () } := by
  cases event with
  | close => rfl
  | quit => rfl
  | _ => cases quits

/-- But for the wish to end, events are handled as if those that ask for it were not among them. -/
theorem stopped_handleAll_filter (events : List Event) (viewer : Viewer) :
    (handleAll (events.filter fun event => !event.quits) viewer).stopped =
      (handleAll events viewer).stopped := by
  induction events generalizing viewer with
  | nil => rfl
  | cons event rest inductionHypothesis =>
      cases quits : event.quits with
      | true =>
          have struck : (event :: rest).filter (fun event => !event.quits) =
              rest.filter fun event => !event.quits := by simp [quits]
          rw [struck, inductionHypothesis, handleAll, handle_of_quits quits]
          dsimp only
          rw [handleAll_stopped]
          rfl
      | false =>
          have left : (event :: rest).filter (fun event => !event.quits) =
              event :: rest.filter fun event => !event.quits := by simp [quits]
          rw [left, handleAll, handleAll]
          match viewer.handle event with
          | ⟨next, _, .error fault⟩ => rfl
          | ⟨next, _, .ok ()⟩ => exact inductionHypothesis next

/-- What holds of a viewer whose machine has the given program, under the given limit. -/
structure InStep (program : Program) (maxSteps : Option Int) (viewer : Viewer) : Prop where
  maxSteps_eq : viewer.maxSteps = maxSteps
  underway : viewer.machine.Underway program
  within : ∀ limit ∈ maxSteps, (viewer.machine.state.steps : Int) ≤ limit

theorem inStep_make
    {maxSteps : Option Int}
    (nonnegative : ∀ limit ∈ maxSteps, 0 ≤ limit)
    (program : Program) :
    (make (.ofProgram program none) maxSteps).InStep program maxSteps where
  maxSteps_eq := rfl
  underway := Machine.underway_ofProgram program
  within := nonnegative

theorem InStep.reset
    {program : Program} {maxSteps : Option Int} {viewer : Viewer}
    (inStep : viewer.InStep program maxSteps)
    (nonnegative : ∀ limit ∈ maxSteps, 0 ≤ limit) :
    viewer.reset.InStep program maxSteps := by
  have anew := inStep.underway.reset_eq
  constructor
  · exact inStep.maxSteps_eq
  · change viewer.machine.reset.Underway program
    rw [anew]
    exact Machine.underway_ofProgram program
  · exact nonnegative

variable {source sourceName : String} {maxSteps : Option Int}

/-- A step that finds nothing to do, or one step of the machine; only if there is more to be done
does it not tell that all is done. -/
theorem InStep.stepOnce
    (bounded : (Program.ofSource source sourceName).size < Numeral.placeValue Numeral.maxDigits)
    {viewer : Viewer}
    (inStep : viewer.InStep (.ofSource source sourceName) maxSteps) :
    ∃ next done, viewer.stepOnce = { viewer := next, answer := .ok done } ∧
      next.InStep (.ofSource source sourceName) maxSteps ∧
      next.running = viewer.running ∧
      (done = false → next.machine.finished = false) ∧
      (next.machine = viewer.machine ∨ next.machine = viewer.machine.step.machine) := by
  unfold Viewer.stepOnce
  by_cases finished : viewer.machine.finished = true
  · rw [if_pos finished]
    exact ⟨_, true, rfl, { inStep with }, rfl, nofun, .inl rfl⟩
  rw [if_neg finished]
  by_cases reached : viewer.limitReached = true
  · rw [if_pos reached]
    exact ⟨_, true, rfl, { inStep with }, rfl, nofun, .inl rfl⟩
  rw [if_neg reached]
  have room := Machine.succ_le_of_not_reached (Bool.not_eq_true _ ▸ reached)
  obtain ⟨next, signal, stepped, underway, counted, -⟩ :=
    inStep.underway.step bounded (Bool.not_eq_true _ ▸ finished)
  rw [inStep.maxSteps_eq, ← counted] at room
  rw [stepped]
  dsimp only
  by_cases ended : signal = .halted ∨ next.finished = true
  · rw [if_pos ended]
    exact ⟨_, true, rfl, ⟨inStep.maxSteps_eq, underway, room⟩, rfl, nofun, .inr rfl⟩
  · rw [if_neg ended]
    have goesOn : next.finished = false := Bool.not_eq_true _ ▸ fun done => ended (.inr done)
    exact ⟨_, false, rfl, ⟨inStep.maxSteps_eq, underway, room⟩, rfl, fun _ => goesOn, .inr rfl⟩

theorem InStep.handle
    (bounded : (Program.ofSource source sourceName).size < Numeral.placeValue Numeral.maxDigits)
    {viewer : Viewer}
    (inStep : viewer.InStep (.ofSource source sourceName) maxSteps)
    (nonnegative : ∀ limit ∈ maxSteps, 0 ≤ limit)
    (event : Event) :
    ∃ next, viewer.handle event = { viewer := next, answer := .ok () } ∧
      next.InStep (.ofSource source sourceName) maxSteps ∧
      next.running = (viewer.running && !event.quits) := by
  cases event with
  | close => exact ⟨_, rfl, { inStep with }, (Bool.and_false _).symm⟩
  | quit => exact ⟨_, rfl, { inStep with }, (Bool.and_false _).symm⟩
  | space =>
      have paused : ({ viewer with paused := true } : Viewer).InStep (.ofSource source sourceName)
        maxSteps := { inStep with }
      obtain ⟨next, done, stepped, kept, running, -⟩ := paused.stepOnce bounded
      refine ⟨next, ?_, kept, running.trans (Bool.and_true _).symm⟩
      unfold Viewer.handle
      rw [stepped]
      rfl
  | pause => exact ⟨_, rfl, { inStep with }, (Bool.and_true _).symm⟩
  | reset => exact ⟨_, rfl, inStep.reset nonnegative, (Bool.and_true _).symm⟩
  | other => exact ⟨_, rfl, inStep, (Bool.and_true _).symm⟩
  | otherKey => exact ⟨_, rfl, inStep, (Bool.and_true _).symm⟩

theorem InStep.handleAll
    (bounded : (Program.ofSource source sourceName).size < Numeral.placeValue Numeral.maxDigits)
    {viewer : Viewer}
    (inStep : viewer.InStep (.ofSource source sourceName) maxSteps)
    (nonnegative : ∀ limit ∈ maxSteps, 0 ≤ limit)
    (events : List Event) :
    ∃ next, Viewer.handleAll events viewer = { viewer := next, answer := .ok () } ∧
      next.InStep (.ofSource source sourceName) maxSteps ∧
      next.running = (viewer.running && !events.any Event.quits) := by
  induction events generalizing viewer with
  | nil => exact ⟨viewer, rfl, inStep, (Bool.and_true _).symm⟩
  | cons event rest inductionHypothesis =>
      obtain ⟨next, handled, kept, running⟩ := inStep.handle bounded nonnegative event
      obtain ⟨last, others, lastKept, lastRunning⟩ := inductionHypothesis kept
      refine ⟨last, ?_, lastKept, ?_⟩
      · rw [Viewer.handleAll, handled]
        exact others
      · rw [lastRunning, running, List.any_cons, Bool.not_or, Bool.and_assoc]

theorem InStep.stepUnpaused
    (bounded : (Program.ofSource source sourceName).size < Numeral.placeValue Numeral.maxDigits)
    {viewer : Viewer}
    (inStep : viewer.InStep (.ofSource source sourceName) maxSteps) :
    ∃ next, viewer.stepUnpaused = { viewer := next, answer := .ok () } ∧
      next.InStep (.ofSource source sourceName) maxSteps ∧
      next.running = viewer.running ∧
      (next.paused = false → next.machine.finished = false) ∧
      (next.machine = viewer.machine ∨
        viewer.paused = false ∧ next.machine = viewer.machine.step.machine) := by
  unfold Viewer.stepUnpaused
  cases paused : viewer.paused with
  | true =>
      refine ⟨viewer, rfl, inStep, rfl, fun unpaused => ?_, .inl rfl⟩
      rw [paused] at unpaused
      cases unpaused
  | false =>
      obtain ⟨next, done, stepped, kept, running, unfinished, moved⟩ := inStep.stepOnce bounded
      have moves := moved.imp_right (And.intro (Eq.refl false))
      rw [stepped]
      cases done with
      | true => exact ⟨{ next with paused := true }, rfl, { kept with }, running, nofun, moves⟩
      | false => exact ⟨next, rfl, kept, running, fun _ => unfinished rfl, moves⟩

def statusLine (viewer : Viewer) : Drawing :=
  .text
    (s!"Status: {viewer.status} | Steps: {viewer.machine.state.steps} | "
      ++ "[SPACE] step [P] run/pause [R] reset [Q] quit")
    margin (messageRow + lineHeight) statusColor none

theorem draw_of_inProgram
    (viewer : Viewer) {program : Program}
    (inProgram : viewer.machine.InProgram program)
    (bounded : program.size < Numeral.placeValue Numeral.maxDigits) :
    viewer.draw.answer = .ok () ∧
      viewer.statusLine ∈ viewer.draw.drawings ∧
      viewer.draw.viewer =
        { viewer with previousRegisters := viewer.machine.state.registers.assignments } := by
  obtain ⟨rows, named⟩ := inProgram.exists_mapM_labels bounded
    fun name index => Terminal.Viewer.labelName name ++ " -> " ++ index
  obtain ⟨labels, written⟩ : ∃ labels, labelRows viewer.machine.state.labels = .ok labels := by
    unfold labelRows
    rw [named]
    exact ⟨_, rfl⟩
  unfold Viewer.draw
  rw [written]
  refine ⟨rfl, ?_, rfl⟩
  simp [drawLower, statusLine]

theorem InStep.draw
    (bounded : (Program.ofSource source sourceName).size < Numeral.placeValue Numeral.maxDigits)
    {viewer : Viewer}
    (inStep : viewer.InStep (.ofSource source sourceName) maxSteps) :
    viewer.draw.answer = .ok () ∧
      viewer.statusLine ∈ viewer.draw.drawings ∧
      viewer.draw.viewer =
        { viewer with previousRegisters := viewer.machine.state.registers.assignments } :=
  viewer.draw_of_inProgram inStep.underway.inProgram bounded

/-- The viewer as it is drawn in a frame: after the events, and the step that follows them. -/
def ready (viewer : Viewer) (events : List Event) : Viewer :=
  (handleAll events viewer).viewer.stepUnpaused.viewer

def frameDrawings (viewer : Viewer) : List Drawing :=
  viewer.draw.drawings ++ [.tick 10]

/-- What holds of a viewer when it is drawn. -/
structure Presentable (program : Program) (maxSteps : Option Int) (viewer : Viewer) : Prop
    extends viewer.InStep program maxSteps where
  unfinished : viewer.paused = false → viewer.machine.finished = false

theorem InStep.exists_ready
    (bounded : (Program.ofSource source sourceName).size < Numeral.placeValue Numeral.maxDigits)
    {viewer : Viewer}
    (inStep : viewer.InStep (.ofSource source sourceName) maxSteps)
    (nonnegative : ∀ limit ∈ maxSteps, 0 ≤ limit)
    (events : List Event) :
    ∃ handled, Viewer.handleAll events viewer = { viewer := handled, answer := .ok () } ∧
      handled.stepUnpaused = { viewer := viewer.ready events, answer := .ok () } ∧
      (viewer.ready events).Presentable (.ofSource source sourceName) maxSteps ∧
      (viewer.ready events).running = (viewer.running && !events.any Event.quits) ∧
      ((viewer.ready events).machine = handled.machine ∨
        handled.paused = false ∧
          (viewer.ready events).machine = handled.machine.step.machine) := by
  obtain ⟨handled, all, kept, running⟩ := inStep.handleAll bounded nonnegative events
  obtain ⟨next, stepped, nextKept, sameRunning, unfinished, moved⟩ := kept.stepUnpaused bounded
  have isReady : viewer.ready events = next := by
    rw [ready, all]
    exact congrArg Attempt.viewer stepped
  rw [isReady]
  exact ⟨handled, all, stepped, ⟨nextKept, unfinished⟩, sameRunning.trans running, moved⟩

/-- A frame draws the viewer that is ready, and keeps the registers for the next. -/
theorem InStep.frame
    (bounded : (Program.ofSource source sourceName).size < Numeral.placeValue Numeral.maxDigits)
    {viewer : Viewer}
    (inStep : viewer.InStep (.ofSource source sourceName) maxSteps)
    (nonnegative : ∀ limit ∈ maxSteps, 0 ≤ limit)
    (events : List Event) :
    viewer.frame events =
      { viewer :=
          { viewer.ready events with
            previousRegisters := (viewer.ready events).machine.state.registers.assignments }
        drawings := (viewer.ready events).frameDrawings
        answer := .ok () } := by
  obtain ⟨handled, all, stepped, presentable, -⟩ := inStep.exists_ready bounded nonnegative events
  obtain ⟨answered, -, drawn⟩ := presentable.draw bounded
  unfold Viewer.frame frameDrawings
  rw [all]
  dsimp only
  rw [stepped, ← drawn]
  dsimp only
  match drew : (viewer.ready events).draw with
  | ⟨after, drawings, .error fault⟩ =>
      rw [drew] at answered
      cases answered
  | ⟨after, drawings, .ok ()⟩ => rfl

theorem InStep.presentable_ready
    (bounded : (Program.ofSource source sourceName).size < Numeral.placeValue Numeral.maxDigits)
    {viewer : Viewer}
    (inStep : viewer.InStep (.ofSource source sourceName) maxSteps)
    (nonnegative : ∀ limit ∈ maxSteps, 0 ≤ limit)
    (events : List Event) :
    (viewer.ready events).Presentable (.ofSource source sourceName) maxSteps := by
  obtain ⟨-, -, -, presentable, -⟩ := inStep.exists_ready bounded nonnegative events
  exact presentable

theorem InStep.viewer_frame
    (bounded : (Program.ofSource source sourceName).size < Numeral.placeValue Numeral.maxDigits)
    {viewer : Viewer}
    (inStep : viewer.InStep (.ofSource source sourceName) maxSteps)
    (nonnegative : ∀ limit ∈ maxSteps, 0 ≤ limit)
    (events : List Event) :
    (viewer.frame events).viewer.InStep (.ofSource source sourceName) maxSteps ∧
      (viewer.frame events).viewer.running = (viewer.running && !events.any Event.quits) := by
  obtain ⟨-, -, -, presentable, running, -⟩ := inStep.exists_ready bounded nonnegative events
  rw [inStep.frame bounded nonnegative events]
  exact ⟨{ presentable with }, running⟩

/-- The viewer as it stands each time it draws, as long as nothing meets a fault. -/
def shown : List (List Event) → Viewer → List Viewer
  | [], viewer => if viewer.running then [viewer.ready [.close]] else []
  | events :: rest, viewer =>
      if viewer.running then viewer.ready events :: shown rest (viewer.frame events).viewer else []

theorem presentable_of_mem_shown
    (bounded : (Program.ofSource source sourceName).size < Numeral.placeValue Numeral.maxDigits)
    {batches : List (List Event)} {start viewer : Viewer}
    (inStep : start.InStep (.ofSource source sourceName) maxSteps)
    (nonnegative : ∀ limit ∈ maxSteps, 0 ≤ limit)
    (member : viewer ∈ start.shown batches) :
    viewer.Presentable (.ofSource source sourceName) maxSteps := by
  induction batches generalizing start with
  | nil =>
      unfold shown at member
      split at member
      · obtain rfl := List.mem_singleton.mp member
        exact inStep.presentable_ready bounded nonnegative _
      · cases member
  | cons events rest inductionHypothesis =>
      unfold shown at member
      split at member
      · rcases List.mem_cons.mp member with rfl | later
        · exact inStep.presentable_ready bounded nonnegative events
        · exact inductionHypothesis (inStep.viewer_frame bounded nonnegative events).1 later
      · cases member

theorem loop_eq
    (bounded : (Program.ofSource source sourceName).size < Numeral.placeValue Numeral.maxDigits)
    {start : Viewer}
    (inStep : start.InStep (.ofSource source sourceName) maxSteps)
    (nonnegative : ∀ limit ∈ maxSteps, 0 ≤ limit)
    (batches : List (List Event)) (drawings : List Drawing) :
    ∃ ended,
      loop batches start drawings =
          { viewer := ended
            drawings := drawings ++ (start.shown batches).flatMap frameDrawings
            answer := .ok () } ∧
        ended.machine = ((start.shown batches).getLast?.getD start).machine := by
  induction batches generalizing start drawings with
  | nil =>
      unfold loop shown
      cases start.running with
      | false => exact ⟨start, by simp, rfl⟩
      | true =>
          rw [inStep.frame bounded nonnegative [.close], if_pos rfl, if_pos rfl,
            List.flatMap_singleton]
          exact ⟨_, rfl, rfl⟩
  | cons events rest inductionHypothesis =>
      unfold loop shown
      cases start.running with
      | false => exact ⟨start, by simp, rfl⟩
      | true =>
          have next := (inStep.viewer_frame bounded nonnegative events).1
          rw [inStep.frame bounded nonnegative events] at next ⊢
          obtain ⟨ended, looped, final⟩ :=
            inductionHypothesis next (drawings ++ (start.ready events).frameDrawings)
          refine ⟨ended, ?_, ?_⟩
          · simp only [if_true, looped, List.flatMap_cons, List.append_assoc]
          · rw [final, if_pos rfl, List.getLast?_cons]
            cases (shown rest _).getLast? <;> rfl

/-- The frame in which the viewer is first asked to end is the last. -/
theorem shown_eq_of_quits
    (bounded : (Program.ofSource source sourceName).size < Numeral.placeValue Numeral.maxDigits)
    {start : Viewer} {batches before rest : List (List Event)} {batch : List Event}
    (inStep : start.InStep (.ofSource source sourceName) maxSteps)
    (nonnegative : ∀ limit ∈ maxSteps, 0 ≤ limit)
    (running : start.running = true)
    (split : batches ++ [[.close]] = before ++ batch :: rest)
    (goesOn : ∀ events ∈ before, events.any Event.quits = false)
    (quits : batch.any Event.quits = true) :
    let reached := before.foldl (fun viewer events => (viewer.frame events).viewer) start
    reached.InStep (.ofSource source sourceName) maxSteps ∧
      ∃ earlier, earlier.length = before.length ∧
        start.shown batches = earlier ++ [reached.ready batch] := by
  -- The induction is on the batches before the one that quits, through which the viewer keeps
  -- running.
  induction before generalizing start batches with
  | nil =>
      refine ⟨inStep, [], rfl, ?_⟩
      cases batches with
      | nil =>
          cases split
          rw [shown, if_pos running]
          rfl
      | cons events others =>
          -- The viewer does not run any more, so nothing is shown of the batches behind.
          cases split
          have ended := (inStep.viewer_frame bounded nonnegative batch).2
          rw [quits, Bool.not_true, Bool.and_false] at ended
          rw [shown, if_pos running]
          cases others <;> rw [shown, if_neg (by simp [ended])] <;> rfl
  | cons events before inductionHypothesis =>
      cases batches with
      | nil => simp at split
      | cons first others =>
          obtain ⟨rfl, behind⟩ := List.cons.inj split
          obtain ⟨next, nextRunning⟩ := inStep.viewer_frame bounded nonnegative first
          rw [running, goesOn first List.mem_cons_self] at nextRunning
          obtain ⟨kept, earlier, length, all⟩ := inductionHypothesis next nextRunning behind
            fun events member => goesOn events (List.mem_cons_of_mem first member)
          refine ⟨kept, start.ready first :: earlier, congrArg (· + 1) length, ?_⟩
          rw [shown, if_pos running, all]
          rfl

theorem Presentable.status_eq_running_iff
    {program : Program} {viewer : Viewer}
    (presentable : viewer.Presentable program maxSteps) :
    viewer.status = "RUNNING" ↔ viewer.paused = false := by
  unfold status
  cases paused : viewer.paused with
  | true => cases viewer.machine.finished <;> simp
  | false => simp [presentable.unfinished paused]

/-- Each time a viewer of a new machine draws, the machine is the new one after as many steps as it
has counted, the limit is kept, and the window says that the machine runs only if the viewer is not
paused, which is only so while there is more to run. The session meets no fault. The first batch
with an event that asks for the end is the last: what else is in it is still handled, the viewer may
make a step by itself and draws once more, and then the sink is closed. -/
theorem shown_ofSource
    (source sourceName : String)
    (bounded : (Program.ofSource source sourceName).size < Numeral.placeValue Numeral.maxDigits)
    (maxSteps : Option Int)
    (nonnegative : ∀ limit ∈ maxSteps, 0 ≤ limit)
    (batches : List (List Event)) :
    let fresh := Machine.ofProgram (.ofSource source sourceName) none
    let start := make fresh maxSteps
    let viewers := start.shown batches
    let session := start.run batches
    session.answer = .ok () ∧
      session.drawings = viewers.flatMap frameDrawings ++ [.stop] ∧
      (∀ viewer ∈ viewers,
        (∃ signals, signals.length = viewer.machine.state.steps ∧
          Machine.stepMany viewer.machine.state.steps fresh = ⟨viewer.machine, .ok signals⟩) ∧
        (∀ limit ∈ maxSteps, (viewer.machine.state.steps : Int) ≤ limit) ∧
        (viewer.paused = false → viewer.machine.finished = false) ∧
        viewer.statusLine ∈ viewer.draw.drawings ∧
        (viewer.status = "RUNNING" ↔ viewer.paused = false)) ∧
      ∀ (before : List (List Event)) (batch : List Event) (rest : List (List Event)),
        batches ++ [[.close]] = before ++ batch :: rest →
        (∀ events ∈ before, events.any Event.quits = false) →
        batch.any Event.quits = true →
        let reached := before.foldl (fun viewer events => (viewer.frame events).viewer) start
        let handled := handleAll (batch.filter fun event => !event.quits) reached
        ∃ (earlier : List Viewer) (last : Viewer),
          viewers = earlier ++ [last] ∧
            earlier.length = before.length ∧
            handled.answer = .ok () ∧
            (last.machine = handled.viewer.machine ∨
              handled.viewer.paused = false ∧
                last.machine = handled.viewer.machine.step.machine) ∧
            last.machine.sink.closed = false ∧
            session.viewer.machine = last.machine.closeSink ∧
            session.viewer.machine.sink.closed = true := by
  intro fresh start viewers session
  have inStep : start.InStep (.ofSource source sourceName) maxSteps := inStep_make nonnegative _
  obtain ⟨ended, looped, final⟩ := loop_eq bounded inStep nonnegative batches []
  have underway : ended.machine.Underway (.ofSource source sourceName) := by
    rw [final]
    cases drawnLast : (start.shown batches).getLast? with
    | none => exact inStep.underway
    | some last =>
        exact (presentable_of_mem_shown bounded inStep nonnegative
          (List.mem_of_getLast? drawnLast)).underway
  have ran : session =
      { viewer := { ended with machine := ended.machine.closeSink }
        drawings := viewers.flatMap frameDrawings ++ [.stop]
        answer := .ok () } := by
    change start.run batches = _
    rw [run, looped]
    dsimp only
    rw [underway.closingFault?_eq_none]
    rfl
  rw [ran]
  refine ⟨rfl, rfl, ?_, ?_⟩
  · intro viewer member
    have presentable := presentable_of_mem_shown bounded inStep nonnegative member
    exact ⟨presentable.underway.exists_stepMany_eq bounded, presentable.within,
      presentable.unfinished, (presentable.draw bounded).2.1, presentable.status_eq_running_iff⟩
  · intro before batch rest split goesOn quits reached handled
    obtain ⟨reachedInStep, earlier, length, all⟩ :=
      shown_eq_of_quits bounded inStep nonnegative rfl split goesOn quits
    obtain ⟨settled, every, -, presentable, -, moved⟩ :=
      reachedInStep.exists_ready bounded nonnegative batch
    obtain ⟨next, others, -⟩ :=
      reachedInStep.handleAll bounded nonnegative (batch.filter fun event => !event.quits)
    -- The viewer that handles the whole batch differs in the wish to end, which no step reads.
    have struck := stopped_handleAll_filter batch reached
    rw [every] at struck
    have sameMachine : handled.viewer.machine = settled.machine :=
      congrArg (fun attempt => attempt.viewer.machine) struck
    have samePause : handled.viewer.paused = settled.paused :=
      congrArg (fun attempt => attempt.viewer.paused) struck
    have left : ended.machine = (reached.ready batch).machine := by
      rw [final, all, List.getLast?_concat]
      rfl
    obtain ⟨isOpen, closed⟩ := presentable.underway.closed_sink_closeSink
    rw [← sameMachine, ← samePause] at moved
    rw [← left] at isOpen closed
    refine ⟨earlier, reached.ready batch, all, length, congrArg Attempt.answer others, moved, ?_,
      ?_, closed⟩
    · rwa [← left]
    · exact congrArg Machine.closeSink left

/-- A viewer that steps, starts again and runs, and is asked to end between two other events. -/
theorem shown_ofSource_quit_amid_batch :
    let program := Program.ofSource "7 P 8 P 9 P" standardInputName
    let fresh := Machine.ofProgram program none
    let start := make fresh (some 5)
    let batches : List (List Event) :=
      [[.pause], [.space, .reset, .space, .pause], [.space, .quit, .space, .pause], [.reset]]
    let viewers := start.shown batches
    let session := start.run batches
    program.size < Numeral.placeValue Numeral.maxDigits ∧
      (0 : Int) ≤ 5 ∧
      viewers.map (fun viewer => (viewer.machine.state.steps, viewer.paused)) =
        [(1, false), (2, false), (5, false)] ∧
      session.answer = .ok () ∧
      session.drawings = viewers.flatMap frameDrawings ++ [.stop] ∧
      (∀ viewer ∈ viewers,
        ∃ signals, Machine.stepMany viewer.machine.state.steps fresh =
          ⟨viewer.machine, .ok signals⟩) ∧
      ∃ earlier last, viewers = earlier ++ [last] ∧
        earlier.length = 2 ∧
        last.machine.sink.closed = false ∧
        session.viewer.machine = last.machine.closeSink ∧
        session.viewer.machine.sink.closed = true := by
  intro program fresh start batches viewers session
  have bounded : program.size < Numeral.placeValue Numeral.maxDigits :=
    Nat.lt_of_le_of_lt (Program.size_ofSource_le _ _) (by decide +kernel)
  obtain ⟨answered, drawings, inStep, ends⟩ :=
    shown_ofSource "7 P 8 P 9 P" standardInputName bounded (some 5) (by rintro limit ⟨⟩; decide)
      batches
  obtain ⟨earlier, last, all, length, -, -, isOpen, left, closed⟩ :=
    ends [[.pause], [.space, .reset, .space, .pause]] [.space, .quit, .space, .pause]
      [[.reset], [.close]] rfl (by decide) (by decide)
  refine ⟨bounded, by decide, by decide +kernel, answered, drawings, ?_, earlier, last, all, length,
    isOpen, left, closed⟩
  intro viewer member
  obtain ⟨⟨signals, -, reached⟩, -⟩ := inStep viewer member
  exact ⟨signals, reached⟩

end Viewer

end QueueMachine.Window
