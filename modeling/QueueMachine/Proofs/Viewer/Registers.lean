import Mathlib.Data.List.Forall2
import QueueMachine.Proofs.RegisterBank
import QueueMachine.Proofs.Viewer.Window

set_option autoImplicit false

/-!
The registers in the window. The viewer keeps the registers as they were when it last drew, and
forgets them when it is reset. Any number of steps and resets can come between two frames, so what a
frame marks as changed is said here in terms of the frames alone: a frame compares with the one
before it, unless a reset is among its events.
-/

namespace QueueMachine

namespace Window

theorem registerRows_fst (bank : RegisterBank) (previous : List (String × Int)) :
    (registerRows bank.assignments previous).1 =
      if bank.occupied = [] then ["<all unset>"]
      else bank.occupied.map fun register =>
        register.name ++ ": " ++ Numeral.format ((bank.get register).getD 0) := by
  unfold registerRows
  rw [bank.mergeSort_assignments, bank.assignments_eq_map]
  dsimp only
  rw [List.map_map]
  cases bank.occupied with
  | nil => rfl
  | cons register rest => rfl

theorem mem_registerRows_snd (bank earlier : RegisterBank) (row : Nat) :
    row ∈ (registerRows bank.assignments earlier.assignments).2 ↔
      ∃ register, bank.occupied[row]? = some register ∧
        bank.get register ≠ earlier.get register := by
  unfold registerRows
  rw [bank.mergeSort_assignments, bank.assignments_eq_map]
  dsimp only
  rw [List.mem_filterMap]
  constructor
  · rintro ⟨⟨⟨name, value⟩, index⟩, member, marked⟩
    have standing := List.mem_zipIdx_iff_getElem?.mp member
    rw [List.getElem?_map] at standing
    obtain ⟨register, occupied, same⟩ := Option.map_eq_some_iff.mp standing
    obtain ⟨rfl, rfl⟩ := Prod.mk.inj same
    dsimp only at marked occupied
    split at marked
    · cases marked
    next differs =>
      obtain rfl := Option.some.inj marked
      rw [earlier.lookup_assignments,
        RegisterBank.some_getD_of_mem_occupied (List.mem_of_getElem? occupied)] at differs
      exact ⟨register, occupied, Ne.symm differs⟩
  · rintro ⟨register, occupied, differs⟩
    refine ⟨((register.name, (bank.get register).getD 0), row), ?_, ?_⟩
    · rw [List.mem_zipIdx_iff_getElem?, List.getElem?_map, occupied]
      rfl
    · dsimp only
      rw [earlier.lookup_assignments,
        RegisterBank.some_getD_of_mem_occupied (List.mem_of_getElem? occupied), if_neg differs.symm]

/-- A frame of a session: the events with which it begins, and the viewer as it stands when it is
drawn. -/
structure Frame where
  events : List Event
  viewer : Viewer

namespace Frame

def registers (frame : Frame) : RegisterBank :=
  frame.viewer.machine.state.registers

/-- What is drawn in a frame, and the wait behind it unless the drawing meets a fault. -/
def drawings (frame : Frame) : List Drawing :=
  frame.viewer.draw.drawings ++
    match frame.viewer.draw.answer with
    | .ok () => [.tick 10]
    | .error _ => []

theorem exists_drawings_eq (frame : Frame) :
    ∃ above below,
      frame.drawings =
        above ++
          drawSection "Registers"
            (registerRows frame.registers.assignments frame.viewer.previousRegisters).1
            ⟨Viewer.rightColumn, Viewer.upperRow, Viewer.halfWidth, 260⟩ (-1)
            ((registerRows frame.registers.assignments frame.viewer.previousRegisters).2.map
              Int.ofNat) ++
          below := by
  obtain ⟨above, upper⟩ : ∃ above, frame.viewer.drawUpper = above ++ _ := ⟨_, rfl⟩
  unfold drawings Viewer.draw
  cases labelRows frame.viewer.machine.state.labels with
  | error fault =>
      refine ⟨.fill backgroundColor :: above, [], ?_⟩
      dsimp only
      rw [upper]
      rfl
  | ok labels =>
      refine ⟨.fill backgroundColor :: above, frame.viewer.drawLower labels ++ [.tick 10], ?_⟩
      dsimp only
      rw [upper, List.append_assoc]
      rfl

end Frame

namespace Viewer

/-- The frame that is drawn after the given events, unless something meets a fault before. -/
def frame? (viewer : Viewer) (events : List Event) : Option Frame :=
  match handleAll events viewer with
  | { answer := .error _, .. } => none
  | { viewer, answer := .ok (), .. } =>
      match viewer.stepUnpaused with
      | { answer := .error _, .. } => none
      | { viewer, answer := .ok (), .. } => some { events, viewer }

/-- The frames of a session, until the viewer stops or something meets a fault. -/
def frames : List (List Event) → Viewer → List Frame
  | [], _ => []
  | events :: rest, viewer =>
      if viewer.running then
        match viewer.frame? events with
        | none => []
        | some frame =>
            frame ::
              match frame.viewer.draw with
              | { answer := .error _, .. } => []
              | { viewer, answer := .ok (), .. } => frames rest viewer
      else []

theorem frame_of_frame?_eq_none
    {viewer : Viewer} {events : List Event}
    (missing : viewer.frame? events = none) :
    ∃ next fault, viewer.frame events = { viewer := next, answer := .error fault } := by
  unfold frame? at missing
  unfold Viewer.frame
  match handled : handleAll events viewer with
  | ⟨next, _, .error fault⟩ => exact ⟨next, fault, rfl⟩
  | ⟨next, _, .ok ()⟩ =>
      rw [handled] at missing
      dsimp only at missing ⊢
      match stepped : next.stepUnpaused with
      | ⟨last, _, .error fault⟩ => exact ⟨last, fault, rfl⟩
      | ⟨last, _, .ok ()⟩ =>
          rw [stepped] at missing
          cases missing

theorem exists_of_frame?_eq_some
    {viewer : Viewer} {events : List Event} {frame : Frame}
    (found : viewer.frame? events = some frame) :
    ∃ handled first second,
      handleAll events viewer = { viewer := handled, drawings := first, answer := .ok () } ∧
        handled.stepUnpaused =
          { viewer := frame.viewer, drawings := second, answer := .ok () } ∧
        frame.events = events := by
  unfold frame? at found
  match handled : handleAll events viewer with
  | ⟨next, _, .error fault⟩ =>
      rw [handled] at found
      cases found
  | ⟨next, first, .ok ()⟩ =>
      rw [handled] at found
      dsimp only at found
      match stepped : next.stepUnpaused with
      | ⟨last, _, .error fault⟩ =>
          rw [stepped] at found
          cases found
      | ⟨last, second, .ok ()⟩ =>
          rw [stepped] at found
          obtain rfl := Option.some.inj found
          exact ⟨next, first, second, rfl, stepped, rfl⟩

theorem frame_of_frame?_eq_some
    {viewer : Viewer} {events : List Event} {frame : Frame}
    (found : viewer.frame? events = some frame) :
    viewer.frame events = { frame.viewer.draw with drawings := frame.drawings } := by
  obtain ⟨handled, first, second, all, stepped, -⟩ := exists_of_frame?_eq_some found
  unfold Viewer.frame Frame.drawings
  rw [all]
  dsimp only
  rw [stepped]
  dsimp only
  match frame.viewer.draw with
  | ⟨after, drawings, .error fault⟩ => simp
  | ⟨after, drawings, .ok ()⟩ => rfl

theorem previousRegisters_stepOnce (viewer : Viewer) :
    viewer.stepOnce.viewer.previousRegisters = viewer.previousRegisters := by
  unfold stepOnce
  split
  · rfl
  split
  · rfl
  match viewer.machine.step with
  | ⟨machine, .error fault⟩ => rfl
  | ⟨machine, .ok signal⟩ =>
      dsimp only
      split <;> rfl

theorem previousRegisters_stepUnpaused (viewer : Viewer) :
    viewer.stepUnpaused.viewer.previousRegisters = viewer.previousRegisters := by
  have kept := viewer.previousRegisters_stepOnce
  unfold stepUnpaused
  split
  · rfl
  match stepped : viewer.stepOnce with
  | ⟨next, _, .error fault⟩ =>
      rw [stepped] at kept
      exact kept
  | ⟨next, _, .ok done⟩ =>
      rw [stepped] at kept
      cases done <;> exact kept

theorem previousRegisters_handle (viewer : Viewer) (event : Event) :
    (viewer.handle event).viewer.previousRegisters =
      if event = .reset then [] else viewer.previousRegisters := by
  cases event with
  | space => exact previousRegisters_stepOnce _
  | _ => rfl

/-- A reset among the events makes the viewer forget the registers, and nothing else does. -/
theorem previousRegisters_handleAll
    {events : List Event} {viewer next : Viewer} {drawings : List Drawing}
    (handled : handleAll events viewer = { viewer := next, drawings, answer := .ok () }) :
    next.previousRegisters = if .reset ∈ events then [] else viewer.previousRegisters := by
  induction events generalizing viewer with
  | nil =>
      cases handled
      rfl
  | cons event rest inductionHypothesis =>
      have first := viewer.previousRegisters_handle event
      unfold handleAll at handled
      rcases met : viewer.handle event with ⟨second, _, fault | done⟩
      · rw [met] at handled
        cases handled
      · rw [met] at handled first
        rw [inductionHypothesis handled, first]
        by_cases resets : event = .reset
        · simp [resets]
        · simp [resets, eq_comm]

theorem previousRegisters_of_frame?_eq_some
    {viewer : Viewer} {events : List Event} {frame : Frame}
    (found : viewer.frame? events = some frame) :
    frame.viewer.previousRegisters =
      if .reset ∈ frame.events then [] else viewer.previousRegisters := by
  obtain ⟨handled, first, second, all, stepped, same⟩ := exists_of_frame?_eq_some found
  have kept := handled.previousRegisters_stepUnpaused
  rw [stepped] at kept
  rw [kept, same]
  exact previousRegisters_handleAll all

theorem previousRegisters_draw
    {viewer : Viewer}
    (answered : viewer.draw.answer = .ok ()) :
    viewer.draw.viewer.previousRegisters = viewer.machine.state.registers.assignments := by
  unfold draw at answered ⊢
  match written : labelRows viewer.machine.state.labels with
  | .error fault =>
      rw [written] at answered
      cases answered
  | .ok labels => rfl

theorem exists_of_frames_eq_cons
    {batches : List (List Event)} {viewer : Viewer} {frame : Frame} {others : List Frame}
    (begins : viewer.frames batches = frame :: others) :
    ∃ events rest, batches = events :: rest ∧
      viewer.frame? events = some frame ∧
      (others = [] ∨
        frame.viewer.draw.answer = .ok () ∧ others = frame.viewer.draw.viewer.frames rest) := by
  cases batches with
  | nil => cases begins
  | cons events rest =>
      unfold frames at begins
      split at begins
      · cases found : viewer.frame? events with
        | none =>
            rw [found] at begins
            cases begins
        | some first =>
            rw [found] at begins
            obtain ⟨rfl, behind⟩ := List.cons.inj begins
            refine ⟨events, rest, rfl, found, ?_⟩
            match drew : first.viewer.draw with
            | ⟨_, _, .error fault⟩ =>
                rw [drew] at behind
                exact .inl behind.symm
            | ⟨next, _, .ok ()⟩ =>
                rw [drew] at behind
                exact .inr ⟨rfl, behind.symm⟩
      · cases begins

theorem map_events_frames_prefix (batches : List (List Event)) (viewer : Viewer) :
    (viewer.frames batches).map Frame.events <+: batches := by
  induction batches generalizing viewer with
  | nil => exact List.nil_prefix
  | cons events rest inductionHypothesis =>
      cases all : viewer.frames (events :: rest) with
      | nil => exact List.nil_prefix
      | cons frame others =>
          obtain ⟨_, _, same, found, behind⟩ := exists_of_frames_eq_cons all
          obtain ⟨rfl, rfl⟩ := List.cons.inj same
          obtain ⟨-, -, -, -, -, begun⟩ := exists_of_frame?_eq_some found
          rw [List.map_cons, begun, List.cons_prefix_cons]
          refine ⟨rfl, ?_⟩
          rcases behind with none | ⟨-, later⟩
          · rw [none]
            exact List.nil_prefix
          · rw [later]
            exact inductionHypothesis _

/-- The registers with which a frame is compared: none if it begins with a reset, and else those of
the frame before it, or those that the viewer has kept if there is no such frame. -/
theorem previousRegisters_of_frames_eq
    {batches : List (List Event)} {viewer : Viewer} {before after : List Frame} {frame : Frame}
    {held : RegisterBank}
    (kept : viewer.previousRegisters = held.assignments)
    (split : viewer.frames batches = before ++ frame :: after) :
    frame.viewer.previousRegisters =
      (if .reset ∈ frame.events then RegisterBank.empty
        else (before.getLast?.map Frame.registers).getD held).assignments := by
  induction before generalizing batches viewer held with
  | nil =>
      obtain ⟨events, rest, -, found, -⟩ := exists_of_frames_eq_cons split
      rw [previousRegisters_of_frame?_eq_some found, kept]
      split
      · exact RegisterBank.assignments_empty.symm
      · rfl
  | cons first before inductionHypothesis =>
      obtain ⟨events, rest, -, found, none | ⟨answered, later⟩⟩ := exists_of_frames_eq_cons split
      · simp at none
      · rw [inductionHypothesis (previousRegisters_draw answered) later.symm, List.getLast?_cons]
        cases before.getLast? <;> rfl

theorem frames_of_not_running
    {viewer : Viewer}
    (stopped : ¬viewer.running = true)
    (batches : List (List Event)) :
    viewer.frames batches = [] := by
  cases batches with
  | nil => rfl
  | cons events rest =>
      unfold frames
      exact if_neg stopped

theorem flatMap_drawings_frames_cons
    {viewer : Viewer}
    (running : viewer.running = true)
    (events : List Event) (rest : List (List Event)) :
    (viewer.frames (events :: rest)).flatMap Frame.drawings =
      (viewer.frame events).drawings ++
        match (viewer.frame events).answer with
        | .ok () => ((viewer.frame events).viewer.frames rest).flatMap Frame.drawings
        | .error _ => [] := by
  conv_lhs => unfold frames
  rw [if_pos running]
  cases found : viewer.frame? events with
  | none =>
      obtain ⟨next, fault, framed⟩ := frame_of_frame?_eq_none found
      rw [framed]
      rfl
  | some frame =>
      rw [frame_of_frame?_eq_some found]
      dsimp only
      rw [List.flatMap_cons]
      match frame.viewer.draw with
      | ⟨_, _, .error fault⟩ => rfl
      | ⟨next, _, .ok ()⟩ => rfl

theorem drawings_loop (batches : List (List Event)) (viewer : Viewer) (drawings : List Drawing) :
    (loop batches viewer drawings).drawings =
      drawings ++ (viewer.frames (batches ++ [[.close]])).flatMap Frame.drawings := by
  induction batches generalizing viewer drawings with
  | nil =>
      unfold loop
      by_cases running : viewer.running = true
      · rw [if_pos running, List.nil_append, flatMap_drawings_frames_cons running]
        rcases viewer.frame [.close] with ⟨next, drawn, fault | done⟩ <;>
          exact congrArg (drawings ++ ·) (List.append_nil drawn).symm
      · rw [if_neg running, frames_of_not_running running]
        exact (List.append_nil drawings).symm
  | cons events rest inductionHypothesis =>
      unfold loop
      by_cases running : viewer.running = true
      · rw [if_pos running, List.cons_append, flatMap_drawings_frames_cons running]
        rcases viewer.frame events with ⟨next, drawn, fault | done⟩
        · exact congrArg (drawings ++ ·) (List.append_nil drawn).symm
        · dsimp only
          rw [inductionHypothesis, List.append_assoc]
      · rw [if_neg running, frames_of_not_running running]
        exact (List.append_nil drawings).symm

/-- In every frame of a session the section of the registers has a row for each register that is set,
in alphabetical order, or one row that says that there is none. The rows that count as changed are
those of the registers that hold something else than in the frame before. Before the first frame,
and before one that begins with a reset, all registers count as unset. -/
theorem frames_ofSource
    (source sourceName : String)
    (sink : Option Sink)
    (maxSteps : Option Int)
    (batches : List (List Event)) :
    let start := make (.ofProgram (.ofSource source sourceName) sink) maxSteps
    let frames := start.frames (batches ++ [[.close]])
    (∃ ending,
        (start.run batches).drawings = frames.flatMap Frame.drawings ++ ending ∧
          (ending = [.stop] ∨ ending = [] ∧ (start.run batches).answer ≠ .ok ())) ∧
      frames.map Frame.events <+: batches ++ [[.close]] ∧
      ∀ (before : List Frame) (frame : Frame) (after : List Frame),
        frames = before ++ frame :: after →
        let bank := frame.registers
        let earlier :=
          if .reset ∈ frame.events then RegisterBank.empty
          else (before.getLast?.map Frame.registers).getD .empty
        let data := registerRows bank.assignments frame.viewer.previousRegisters
        (∃ above below,
            frame.drawings =
              above ++
                drawSection "Registers" data.1 ⟨rightColumn, upperRow, halfWidth, 260⟩ (-1)
                  (data.2.map Int.ofNat) ++
                below) ∧
          (bank.occupied = [] → data = (["<all unset>"], [])) ∧
          (bank.occupied ≠ [] →
            List.Forall₂
              (fun register row =>
                ∃ value, bank.get register = some value ∧
                  row = register.name ++ ": " ++ Numeral.format value)
              bank.occupied data.1) ∧
          ∀ row : Nat,
            row ∈ data.2 ↔
              ∃ register, bank.occupied[row]? = some register ∧
                bank.get register ≠ earlier.get register := by
  intro start frames
  refine ⟨?_, map_events_frames_prefix _ _, ?_⟩
  · have drawn := drawings_loop batches start []
    rw [List.nil_append] at drawn
    unfold run
    dsimp only
    split
    · exact ⟨[], drawn.trans (List.append_nil _).symm, .inr ⟨rfl, nofun⟩⟩
    · exact ⟨[.stop], congrArg (· ++ [.stop]) drawn, .inl rfl⟩
  intro before frame after split bank earlier data
  have nothing : start.previousRegisters = RegisterBank.empty.assignments :=
    RegisterBank.assignments_empty.symm
  have compared : frame.viewer.previousRegisters = earlier.assignments :=
    previousRegisters_of_frames_eq nothing split
  have marked := mem_registerRows_snd bank earlier
  rw [← compared] at marked
  refine ⟨frame.exists_drawings_eq, ?_, ?_, marked⟩
  · intro none
    apply Prod.ext
    · exact (registerRows_fst bank _).trans (if_pos none)
    · apply List.eq_nil_iff_forall_not_mem.mpr
      intro row isMarked
      obtain ⟨register, standing, -⟩ := (marked row).mp isMarked
      rw [none] at standing
      cases standing
  · intro some
    have rows : data.1 = _ := (registerRows_fst bank _).trans (if_neg some)
    rw [rows, List.forall₂_map_right_iff, List.forall₂_same]
    intro register member
    exact ⟨_, (RegisterBank.some_getD_of_mem_occupied member).symm, rfl⟩

theorem frames_ofSource_after_reset :
    let start := make (.ofProgram (.ofSource "7 >a 8 >b" standardInputName) none) none
    let batches : List (List Event) :=
      [[.space, .space], [.space, .space], [.reset, .space, .space]]
    let a : Register := ⟨0, by decide⟩
    let b : Register := ⟨1, by decide⟩
    let bank := RegisterBank.empty.set a 7
    ∃ (before : List Frame) (frame : Frame) (after : List Frame),
      start.frames (batches ++ [[.close]]) = before ++ frame :: after ∧
        before.map Frame.registers = [bank, bank.set b 8] ∧
        frame.registers = bank ∧
        let data := registerRows bank.assignments frame.viewer.previousRegisters
        (∃ above below,
            frame.drawings =
              above ++
                drawSection "Registers" data.1 ⟨rightColumn, upperRow, halfWidth, 260⟩ (-1)
                  (data.2.map Int.ofNat) ++
                below) ∧
          data.1 = ["a: 7"] ∧
          0 ∈ data.2 := by
  intro start batches a b bank
  obtain ⟨-, -, each⟩ := frames_ofSource "7 >a 8 >b" standardInputName none none batches
  have all :
      (start.frames (batches ++ [[.close]])).map (fun frame => (frame.events, frame.registers)) =
        [([.space, .space], bank), ([.space, .space], bank.set b 8),
          ([.reset, .space, .space], bank), ([.close], bank)] := by
    decide +kernel
  obtain ⟨first, _, whole, firstIs, all⟩ := List.map_eq_cons_iff.mp all
  obtain ⟨second, _, rfl, secondIs, all⟩ := List.map_eq_cons_iff.mp all
  obtain ⟨third, after, rfl, thirdIs, -⟩ := List.map_eq_cons_iff.mp all
  obtain ⟨-, firstHolds⟩ := Prod.mk.inj firstIs
  obtain ⟨-, secondHolds⟩ := Prod.mk.inj secondIs
  obtain ⟨resets, thirdHolds⟩ := Prod.mk.inj thirdIs
  obtain ⟨drawn, -, listed, marked⟩ := each [first, second] third after whole
  rw [thirdHolds] at drawn listed
  rw [thirdHolds, resets, if_pos (by decide)] at marked
  have occupied : bank.occupied = [a] := by decide
  rw [occupied] at listed
  have row : (registerRows bank.assignments third.viewer.previousRegisters).1 = ["a: 7"] := by
    obtain ⟨text, _, ⟨value, held, rfl⟩, none, rows⟩ :=
      List.forall₂_cons_left_iff.mp (listed (List.cons_ne_nil a []))
    obtain rfl := List.forall₂_nil_left_iff.mp none
    obtain rfl : value = 7 := Option.some.inj held.symm
    rw [rows]
    decide +kernel
  refine ⟨[first, second], third, after, whole, by simp [firstHolds, secondHolds], thirdHolds,
    drawn, row, ?_⟩
  exact (marked 0).mpr ⟨a, by rw [occupied]; rfl, by decide⟩

end Viewer

end Window

end QueueMachine
