import QueueMachine.Proofs.Machine.Calls
import QueueMachine.Proofs.Machine.Listed

set_option autoImplicit false

/-!
Resets. A call can change the state of a machine, its sink and its note on the sink; it does not
reach the instructions, the labels they start with and the ownership of the sink. A reset makes all
the rest anew from these, so that nothing of what was called before is left but what stands in a
sink from outside.
-/

namespace QueueMachine

namespace Machine

/-- What a machine is made for: a program, or bare instructions whose marks give the labels. -/
inductive Code where
  | compiled (program : Program)
  | bare (instructions : List Instruction)

namespace Code

def instructions : Code → List Instruction
  | .compiled program => program.instructions
  | .bare instructions => instructions

/-- The labels that a run starts with. Bare instructions may have none that can be read. -/
def labels : Code → Except Fault LabelTable
  | .compiled program => .ok program.labels
  | .bare instructions => LabelTable.ofInstructions instructions

def machine (sink : Option Sink) : Code → Except Fault Machine
  | .compiled program => .ok (ofProgram program sink)
  | .bare instructions => ofInstructions instructions sink

theorem machine_eq (code : Code) (sink : Option Sink) :
    code.machine sink = code.labels.map (make code.instructions · sink) := by
  cases code with
  | compiled program => rfl
  | bare instructions => exact ofInstructions_eq instructions sink

theorem machine_eq_ok_iff (code : Code) (sink : Option Sink) (machine : Machine) :
    code.machine sink = .ok machine ↔
      ∃ labels, code.labels = .ok labels ∧ machine = make code.instructions labels sink := by
  rw [machine_eq]
  cases code.labels with
  | error fault => simp [Except.map]
  | ok labels => simp [Except.map, eq_comm]

end Code

theorem exists_callAll?_eq
    {machine ended : Machine} {calls : List Call}
    (reached : machine.callAll? calls = some ended) :
    ∃ sink state sinkClosed, ended = { machine with sink, state, sinkClosed } := by
  refine @callAll?_of_kept
    (fun reached => ∃ sink state sinkClosed, reached = { machine with sink, state, sinkClosed })
    ?_ ?_ ?_ calls machine ended ⟨_, _, _, rfl⟩ reached
  · rintro _ ⟨sink, state, sinkClosed, rfl⟩
    obtain ⟨text, next, stepped⟩ := exists_step_eq { machine with sink, state, sinkClosed }
    exact ⟨_, _, _, stepped⟩
  · rintro _ ⟨sink, state, sinkClosed, rfl⟩
    unfold closeSink
    split
    · exact ⟨_, _, _, rfl⟩
    · exact ⟨_, _, _, rfl⟩
  · rintro _ ⟨sink, state, sinkClosed, rfl⟩
    exact ⟨_, _, _, rfl⟩

/-- Nothing but the sink can tell a machine that was reset from a new one, and it tells only if it
came from outside. -/
theorem reset_eq_make
    {instructions : List Instruction} {labels : LabelTable} {given : Option Sink}
    {calls : List Call} {ended : Machine}
    (reached : (make instructions labels given).callAll? calls = some ended) :
    ended.reset = make instructions labels (given.map fun _ => ended.sink) := by
  obtain ⟨sink, state, sinkClosed, rfl⟩ := exists_callAll?_eq reached
  cases given <;> rfl

theorem outcomes?_reset_cons (machine : Machine) (later : List Call) :
    machine.outcomes? (.reset :: later) =
      (machine.reset.outcomes? later).map (⟨machine.reset, .ok .nothing⟩ :: ·) := by
  change (machine.reset.outcomes? later).bind
    (fun others => some (⟨machine.reset, .ok .nothing⟩ :: others)) = _
  cases machine.reset.outcomes? later <;> rfl

/-- However a machine was used, a reset leaves the one that would be made now: in the state in which
every run starts, with the labels as compiled, and with a new and open buffer, or with the sink from
outside as it stands. Whatever is called then has the outcomes that it has on the new machine. -/
theorem reset_of_callAll?
    (code : Code) (given : Option Sink) (fresh : Machine)
    (made : code.machine given = .ok fresh)
    (calls : List Call) (ended : Machine)
    (reached : fresh.callAll? calls = some ended) :
    (∃ labels, code.labels = .ok labels ∧
        ended.reset.state =
          { queue := .empty, registers := .empty, labels, pc := 0, steps := 0, halted := false } ∧
        ended.reset.sinkClosed = false) ∧
      (given = none →
        ended.reset = fresh ∧
          ended.reset.output? = some "" ∧
          ended.reset.sink = .buffer { text := "", closed := false, closeCount := 0 } ∧
          ∀ later, ended.outcomes? (.reset :: later) =
            (fresh.outcomes? later).map (⟨fresh, .ok .nothing⟩ :: ·)) ∧
      ∀ sink, given = some sink →
        ended.reset.sink = ended.sink ∧
          ∃ renewed, code.machine (some ended.sink) = .ok renewed ∧
            ended.reset = renewed ∧
            ∀ later, ended.outcomes? (.reset :: later) =
              (renewed.outcomes? later).map (⟨renewed, .ok .nothing⟩ :: ·) := by
  obtain ⟨labels, known, rfl⟩ := (code.machine_eq_ok_iff given fresh).mp made
  have anew := reset_eq_make reached
  refine ⟨⟨labels, known, by rw [anew]; rfl, rfl⟩, ?_, ?_⟩
  · rintro rfl
    refine ⟨anew, by rw [anew]; rfl, by rw [anew]; rfl, fun later => ?_⟩
    rw [outcomes?_reset_cons, anew]
    rfl
  · rintro sink rfl
    refine ⟨by rw [anew]; rfl, ended.reset, ?_, rfl, ended.outcomes?_reset_cons⟩
    exact (code.machine_eq_ok_iff _ _).mpr ⟨labels, known, anew⟩

/-- A run that binds a label anew, loses the head of the queue to a fault and closes the sink. -/
theorem reset_of_callAll?_after_fault :
    let code : Code := .bare
      [⟨.mark, ["0", "a"]⟩, ⟨.input, ["7"]⟩, ⟨.input, ["8"]⟩, ⟨.print .number, []⟩,
        ⟨.store, ["outside"]⟩, ⟨.mark, ["5", "a"]⟩]
    let calls : List Call := [.run { limit := some 9, patience := 0 }]
    ∃ fresh, code.machine none = .ok fresh ∧
      ∃ ended, fresh.callAll? calls = some ended ∧
        ended.state.labels.resolve? "a" = some 0 ∧
        ended.state.steps = 4 ∧
        ended.state.queue.toList = [] ∧
        ended.sink = .buffer { text := "7\n", closed := true, closeCount := 1 } ∧
        ended.reset = fresh ∧
        ended.reset.state.labels.resolve? "a" = some 5 ∧
        ended.reset.output? = some "" := by
  intro code calls
  obtain ⟨fresh, made, ended, reached, labels, steps, queue, sink, compiled⟩ :
      ∃ fresh, code.machine none = .ok fresh ∧ ∃ ended, fresh.callAll? calls = some ended ∧
        ended.state.labels.resolve? "a" = some 0 ∧ ended.state.steps = 4 ∧
        ended.state.queue.toList = [] ∧
        ended.sink = .buffer { text := "7\n", closed := true, closeCount := 1 } ∧
        fresh.state.labels.resolve? "a" = some 5 :=
    ⟨make code.instructions (.ofList [("a", 5)]) none, rfl, _, rfl, by decide +kernel,
      by decide +kernel, by decide +kernel, by decide +kernel, by decide +kernel⟩
  obtain ⟨-, own, -⟩ := reset_of_callAll? code none fresh made calls ended reached
  obtain ⟨anew, output, -⟩ := own rfl
  exact ⟨fresh, made, ended, reached, labels, steps, queue, sink, anew, anew ▸ compiled, output⟩

end Machine

end QueueMachine
