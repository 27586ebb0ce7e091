import QueueMachine.Proofs.Machine.Step

set_option autoImplicit false

/-!
Runs as steps. Whatever the machine, a run takes some steps and closes the sink; without a trace it
takes as many as it may, since the steps that are left when the machine is finished change nothing.
Closing the sink changes nothing that a step reads, and a buffer takes text when it is closed, so it
makes no difference to a machine with a buffer whether its sink is closed before its steps or after.
-/

namespace QueueMachine

theorem Buffer.write_close (buffer : Buffer) (text : String) :
    buffer.close.write text = (buffer.write text).close := by
  obtain ⟨written, closed, closeCount⟩ := buffer
  cases closed <;> rfl

namespace Machine

def Outcome.fault? {Answer : Type} (outcome : Outcome Answer) : Option Fault :=
  match outcome.answer with
  | .ok _ => none
  | .error fault => some fault

theorem stepMany_of_finished
    {machine : Machine}
    (finished : machine.finished = true)
    (count : Nat) :
    stepMany count machine = ⟨machine, .ok (List.replicate count .halted)⟩ := by
  induction count with
  | zero => rfl
  | succ count inductionHypothesis =>
      rw [stepMany_succ_of_ok (step_of_finished finished), inductionHypothesis]
      rfl

theorem fault?_stepMany_succ_of_ok
    {machine next : Machine} {signal : Signal}
    (stepped : machine.step = ⟨next, .ok signal⟩)
    (count : Nat) :
    (stepMany (count + 1) machine).fault? = (stepMany count next).fault? := by
  rw [stepMany_succ_of_ok stepped, Outcome.fault?, Outcome.fault?]
  cases (stepMany count next).answer <;> rfl

theorem loop_of_finished
    {machine : Machine}
    (finished : machine.finished = true)
    (traced : Bool) (bound : Nat) (trace : String) :
    loop traced bound machine trace = ⟨machine, none, trace⟩ := by
  cases bound with
  | zero => rfl
  | succ bound => rw [loop, if_pos finished]

theorem loop_succ_of_silent
    {traced : Bool} {machine : Machine} {fault : Fault}
    (unfinished : machine.finished = false)
    (silent : machine.announce traced = .error fault)
    (bound : Nat) (trace : String) :
    loop traced (bound + 1) machine trace = ⟨machine, some fault, trace⟩ := by
  rw [loop, if_neg (Bool.not_eq_true _ ▸ unfinished), silent]

theorem loop_succ_of_error
    {traced : Bool} {machine next : Machine} {block : String} {fault : Fault}
    (unfinished : machine.finished = false)
    (told : machine.announce traced = .ok block)
    (failed : machine.step = ⟨next, .error fault⟩)
    (bound : Nat) (trace : String) :
    loop traced (bound + 1) machine trace = ⟨next, some fault, trace ++ block⟩ := by
  rw [loop, if_neg (Bool.not_eq_true _ ▸ unfinished), told, failed]

theorem loop_succ_of_ok
    {traced : Bool} {machine next : Machine} {block : String} {signal : Signal}
    (unfinished : machine.finished = false)
    (told : machine.announce traced = .ok block)
    (stepped : machine.step = ⟨next, .ok signal⟩)
    (bound : Nat) (trace : String) :
    loop traced (bound + 1) machine trace = loop traced bound next (trace ++ block) := by
  rw [loop, if_neg (Bool.not_eq_true _ ▸ unfinished), told, stepped]

/-- A run without a trace is as many steps as it may take. -/
theorem loop_false_eq (bound : Nat) (machine : Machine) (trace : String) :
    loop false bound machine trace =
      ⟨(stepMany bound machine).machine, (stepMany bound machine).fault?, trace⟩ := by
  induction bound generalizing machine with
  | zero => rfl
  | succ bound inductionHypothesis =>
      cases status : machine.finished with
      | true =>
          rw [loop_of_finished status, stepMany_of_finished status]
          rfl
      | false =>
          match stepped : machine.step with
          | ⟨next, .error fault⟩ =>
              rw [loop_succ_of_error status rfl stepped, stepMany_succ_of_error stepped,
                String.append_empty]
              rfl
          | ⟨next, .ok signal⟩ =>
              rw [loop_succ_of_ok status rfl stepped, String.append_empty, inductionHypothesis,
                fault?_stepMany_succ_of_ok stepped, stepMany_succ_of_ok stepped]

theorem exists_machine_loop_eq
    (traced : Bool) (bound : Nat) (machine : Machine) (trace : String) :
    ∃ count ≤ bound,
      (loop traced bound machine trace).machine = (stepMany count machine).machine := by
  induction bound generalizing machine trace with
  | zero => exact ⟨0, Nat.le_refl 0, rfl⟩
  | succ bound inductionHypothesis =>
      cases status : machine.finished with
      | true => exact ⟨0, Nat.zero_le _, by rw [loop_of_finished status]; rfl⟩
      | false =>
          cases told : machine.announce traced with
          | error fault => exact ⟨0, Nat.zero_le _, by rw [loop_succ_of_silent status told]; rfl⟩
          | ok block =>
              match stepped : machine.step with
              | ⟨next, .error fault⟩ =>
                  refine ⟨1, Nat.le_add_left 1 bound, ?_⟩
                  rw [loop_succ_of_error status told stepped, stepMany_succ_of_error stepped]
              | ⟨next, .ok signal⟩ =>
                  obtain ⟨count, within, reached⟩ := inductionHypothesis next (trace ++ block)
                  refine ⟨count + 1, Nat.succ_le_succ within, ?_⟩
                  rw [loop_succ_of_ok status told stepped, stepMany_succ_of_ok stepped, reached]

theorem run_false_eq (machine : Machine) (bound : Nat) :
    machine.run false bound =
      ⟨(stepMany bound machine).machine.closeSink,
        (stepMany bound machine).machine.closingFault?.or (stepMany bound machine).fault?, ""⟩ := by
  rw [run, loop_false_eq]
  rfl

theorem isOpen_stepMany (count : Nat) (machine : Machine) :
    (stepMany count machine).machine.sink.isOpen = machine.sink.isOpen := by
  obtain ⟨text, state, changed⟩ := exists_stepMany_eq count machine
  rw [changed]
  exact machine.sink.isOpen_accept text

theorem closingFault?_of_isOpen
    {machine : Machine}
    (isOpen : machine.sink.isOpen = true) :
    machine.closingFault? = none := by
  rw [closingFault?, Sink.closingFault?_of_isOpen isOpen, ite_self]

theorem closingFault?_cases (machine : Machine) :
    machine.closingFault? = none ∨
      machine.sink.isOpen = false ∧ machine.closingFault? = some .closedStream := by
  unfold closingFault?
  split
  · exact .inl rfl
  · exact machine.sink.closingFault?_cases

theorem run_false_of_isOpen
    {machine : Machine}
    (isOpen : machine.sink.isOpen = true)
    (bound : Nat) :
    machine.run false bound =
      ⟨(stepMany bound machine).machine.closeSink, (stepMany bound machine).fault?, ""⟩ := by
  rw [run_false_eq, closingFault?_of_isOpen ((isOpen_stepMany bound machine).trans isOpen),
    Option.none_or]

theorem Run.fault_closeSink_of_closedStream
    {ended : Run}
    (refused : ended.fault = some .closedStream) :
    ended.closeSink.fault = some .closedStream := by
  rw [Run.closeSink]
  rcases ended.machine.closingFault?_cases with well | ⟨-, failed⟩
  · rw [well, refused, Option.none_or]
  · rw [failed, Option.some_or]

theorem Run.closeSink_of_isOpen
    {ended : Run}
    (isOpen : ended.machine.sink.isOpen = true) :
    ended.closeSink = { ended with machine := ended.machine.closeSink } := by
  rw [Run.closeSink, closingFault?_of_isOpen isOpen, Option.none_or]

theorem closeSink_of_sinkClosed
    {machine : Machine}
    (done : machine.sinkClosed = true) :
    machine.closeSink = machine := by
  rw [closeSink, if_pos done]

theorem closingFault?_of_sinkClosed
    {machine : Machine}
    (done : machine.sinkClosed = true) :
    machine.closingFault? = none := by
  rw [closingFault?, if_pos done]

theorem closeSink_of_not_sinkClosed
    {machine : Machine}
    (undone : machine.sinkClosed = false) :
    machine.closeSink = { machine with sinkClosed := true, sink := machine.sink.close } := by
  rw [closeSink, if_neg (Bool.not_eq_true _ ▸ undone)]

@[simp]
theorem state_closeSink (machine : Machine) : machine.closeSink.state = machine.state := by
  unfold closeSink
  split <;> rfl

@[simp]
theorem sinkClosed_closeSink (machine : Machine) : machine.closeSink.sinkClosed = true := by
  unfold closeSink
  split
  · assumption
  · rfl

theorem finished_closeSink (machine : Machine) : machine.closeSink.finished = machine.finished := by
  unfold closeSink
  split <;> rfl

theorem fetch_closeSink (machine : Machine) : machine.closeSink.fetch = machine.fetch := by
  unfold closeSink
  split <;> rfl

theorem output?_closeSink (machine : Machine) : machine.closeSink.output? = machine.output? := by
  unfold closeSink
  split
  · rfl
  · exact machine.sink.value?_close

theorem conclude_closeSink
    {machine : Machine}
    (buffered : machine.sink.ownsStream? = none)
    (effect : Effect) :
    machine.closeSink.conclude effect =
      ⟨(machine.conclude effect).machine.closeSink, (machine.conclude effect).answer⟩ := by
  obtain ⟨instructions, compiledLabels, ownsSink, sink, state, sinkClosed⟩ := machine
  cases sink with
  | stream target => cases buffered
  | buffer target =>
      cases sinkClosed with
      | true =>
        cases effect <;> rfl
      | false =>
          cases effect with
          | output text next =>
              simp only [closeSink, conclude, Sink.close, Sink.write, Buffer.write_close,
                Bool.false_eq_true, if_false]
          | _ => rfl

/-- Closing a buffer before a step is closing it after the step. -/
theorem step_closeSink
    {machine : Machine}
    (buffered : machine.sink.ownsStream? = none) :
    machine.closeSink.step = ⟨machine.step.machine.closeSink, machine.step.answer⟩ := by
  rw [step, step, finished_closeSink, fetch_closeSink, state_closeSink]
  split
  · rfl
  · split
    · rfl
    · exact conclude_closeSink buffered _

theorem ownsStream?_step (machine : Machine) :
    machine.step.machine.sink.ownsStream? = machine.sink.ownsStream? := by
  obtain ⟨text, state, stepped⟩ := machine.exists_step_eq
  rw [stepped]
  exact machine.sink.ownsStream?_accept text

theorem stepMany_closeSink
    {machine : Machine}
    (buffered : machine.sink.ownsStream? = none)
    (count : Nat) :
    stepMany count machine.closeSink =
      ⟨(stepMany count machine).machine.closeSink, (stepMany count machine).answer⟩ := by
  induction count generalizing machine with
  | zero => rfl
  | succ count inductionHypothesis =>
      have closedFirst := step_closeSink buffered
      have stillBuffered := machine.ownsStream?_step
      match stepped : machine.step with
      | ⟨next, .error fault⟩ =>
          rw [stepped] at closedFirst
          rw [stepMany_succ_of_error closedFirst, stepMany_succ_of_error stepped]
      | ⟨next, .ok signal⟩ =>
          rw [stepped] at closedFirst stillBuffered
          rw [stepMany_succ_of_ok closedFirst, stepMany_succ_of_ok stepped,
            inductionHypothesis (stillBuffered.trans buffered)]

end Machine

end QueueMachine
