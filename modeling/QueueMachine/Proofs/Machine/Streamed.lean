import Mathlib.Data.List.Forall2
import QueueMachine.Proofs.Machine.Calls

set_option autoImplicit false

/-!
The same calls on a machine with a buffer and on a machine with a stream. What a machine does depends
on its sink in one way only: a text that the sink refuses is a fault. A buffer refuses none, and a
stream none until it is closed, so the two machines stay in the same state and put out the same text
for as long as nothing is put out to a closed stream.
-/

namespace QueueMachine

namespace State

theorem printed_ne_empty (style : PrintStyle) (value : Int) : printed style value ≠ "" := by
  cases style with
  | number =>
      intro empty
      have noBreak : (Numeral.format value ++ "\n").toList = [] := congrArg String.toList empty
      simp at noBreak
  | character =>
      intro empty
      have noCharacter := congrArg String.toList empty
      simp [printed] at noCharacter

theorem ne_empty_of_execute_eq_output
    {state next : State} {instruction : Instruction} {text : String}
    (effect : state.execute instruction = .output text next) :
    text ≠ "" := by
  have attempted : ∀ (before : State) (change : Except Fault State),
      before.attempt change ≠ .output text next := by
    intro before change
    cases change <;> exact Effect.noConfusion
  unfold execute at effect
  split at effect
  case h_1 => cases effect
  case h_2 =>
    split at effect
    · cases effect
    · exact absurd effect (attempted _ _)
  case h_4 =>
    split at effect
    · cases effect
    · cases effect
      exact printed_ne_empty _ _
  case h_5 =>
    split at effect
    · cases effect
    · cases effect
    · cases effect
      exact printed_ne_empty _ _
  case h_10 => cases effect
  all_goals exact absurd effect (attempted _ _)

end State

namespace Sink

/-- Whether an activity with a sink puts out a text and nothing else: it has the given result with
each sink that takes the text, and meets the fault of the closed stream with all others. -/
structure PutsOut {Result : Type}
    (activity : Sink → Result)
    (fault? : Result → Option Fault)
    (text : String)
    (result : Sink → Result) : Prop where
  taken : ∀ sink : Sink, sink.isOpen = true ∨ text = "" → activity sink = result sink
  refused : ∀ sink : Sink, sink.isOpen = false → text ≠ "" →
    fault? (activity sink) = some .closedStream

theorem PutsOut.of_silent
    {Result : Type} {activity result : Sink → Result}
    (same : ∀ sink, activity sink = result sink)
    (fault? : Result → Option Fault) :
    PutsOut activity fault? "" result where
  taken sink _ := same sink
  refused _ _ nonempty := absurd rfl nonempty

/-- A sink over a stream and a buffer with the same text, both closed or neither. The stream itself is
closed with its sink if the sink owns it. -/
inductive Mirrors (ownsStream : Bool) : Sink → Sink → Prop where
  | intro (text : String) (closed : Bool) (flushes closes closeCount : Nat) :
      Mirrors ownsStream
        (.stream ⟨⟨text, closed && ownsStream, flushes, closes⟩, ownsStream, closed⟩)
        (.buffer ⟨text, closed, closeCount⟩)

namespace Mirrors

variable {ownsStream : Bool} {stream buffer : Sink}

theorem value?_eq (mirrors : Mirrors ownsStream stream buffer) :
    buffer.value? = some stream.written := by
  cases mirrors
  rfl

theorem isOpen_buffer (mirrors : Mirrors ownsStream stream buffer) : buffer.isOpen = true := by
  cases mirrors
  rfl

theorem isOpen_stream (mirrors : Mirrors ownsStream stream buffer) :
    stream.isOpen = !(buffer.closed && ownsStream) := by
  cases mirrors
  rfl

theorem closingFault?_stream (mirrors : Mirrors ownsStream stream buffer) :
    stream.closingFault? = none := by
  cases mirrors with
  | intro text closed flushes closes closeCount => cases closed <;> rfl

theorem accept
    (mirrors : Mirrors ownsStream stream buffer)
    (text : String) :
    Mirrors ownsStream (stream.accept text) (buffer.accept text) := by
  cases mirrors with
  | intro written closed flushes closes closeCount =>
      exact .intro (written ++ text) closed flushes closes closeCount

theorem close (mirrors : Mirrors ownsStream stream buffer) :
    Mirrors ownsStream stream.close buffer.close := by
  cases mirrors with
  | intro text closed flushes closes closeCount =>
      cases closed with
      | true => exact .intro text true flushes closes closeCount
      | false =>
          cases ownsStream with
          | true => exact .intro text true (flushes + 1) (closes + 1) (closeCount + 1)
          | false => exact .intro text true (flushes + 1) closes (closeCount + 1)

end Mirrors

end Sink

namespace Machine

theorem Outcome.exists_eq_of_fault?_eq_some
    {Answer : Type} {outcome : Outcome Answer} {fault : Fault}
    (failed : outcome.fault? = some fault) :
    ∃ machine, outcome = ⟨machine, .error fault⟩ := by
  obtain ⟨machine, answer⟩ := outcome
  cases answer with
  | ok answer => cases failed
  | error met =>
      cases failed
      exact ⟨machine, rfl⟩

theorem exists_step_putsOut (machine : Machine) :
    ∃ text state answer,
      Sink.PutsOut (fun sink => ({ machine with sink } : Machine).step) Outcome.fault? text
        fun sink => ⟨{ machine with sink := sink.accept text, state }, answer⟩ := by
  cases status : machine.finished with
  | true =>
      refine ⟨"", machine.state, .ok .halted, .of_silent (fun sink => ?_) _⟩
      rw [Sink.accept_empty]
      exact step_of_finished status
  | false =>
      cases fetched : machine.fetch with
      | error fault =>
          refine ⟨"", machine.state, .error fault, .of_silent (fun sink => ?_) _⟩
          rw [Sink.accept_empty]
          exact step_of_fetch_eq_error status fetched
      | ok instruction =>
          have stepped (sink : Sink) : ({ machine with sink } : Machine).step =
              ({ machine with sink } : Machine).conclude (machine.state.execute instruction) :=
            step_of_fetch status fetched
          simp only [stepped]
          cases effect : machine.state.execute instruction with
          | proceed next =>
              refine ⟨"", next.advance, .ok .running, .of_silent (fun sink => ?_) _⟩
              rw [Sink.accept_empty, conclude]
          | halt next =>
              refine ⟨"", { next.advance with halted := true }, .ok .halted,
                .of_silent (fun sink => ?_) _⟩
              rw [Sink.accept_empty, conclude]
          | fault fault next =>
              refine ⟨"", next, .error fault, .of_silent (fun sink => ?_) _⟩
              rw [Sink.accept_empty, conclude]
          | output text next =>
              refine ⟨text, next.advance, .ok .running, fun sink taken => ?_, fun sink shut _ => ?_⟩
              · rcases taken with isOpen | empty
                · rw [conclude, Sink.write_of_isOpen isOpen]
                · exact absurd empty (State.ne_empty_of_execute_eq_output effect)
              · rw [conclude, Sink.write_of_not_isOpen shut]
                rfl

theorem exists_loop_putsOut (traced : Bool) (bound : Nat) (machine : Machine) (trace : String) :
    ∃ text state fault told,
      Sink.PutsOut (fun sink => loop traced bound { machine with sink } trace) Run.fault text
        fun sink => ⟨{ machine with sink := sink.accept text, state }, fault, told⟩ := by
  induction bound generalizing machine trace with
  | zero =>
      refine ⟨"", machine.state, none, trace, .of_silent (fun sink => ?_) _⟩
      rw [Sink.accept_empty, loop]
  | succ bound inductionHypothesis =>
      cases status : machine.finished with
      | true =>
          refine ⟨"", machine.state, none, trace, .of_silent (fun sink => ?_) _⟩
          rw [Sink.accept_empty]
          have finished : ({ machine with sink } : Machine).finished = true := status
          exact loop_of_finished finished traced _ trace
      | false =>
          have unfinished (sink : Sink) : ({ machine with sink } : Machine).finished = false := status
          cases told : machine.announce traced with
          | error fault =>
              refine ⟨"", machine.state, some fault, trace, .of_silent (fun sink => ?_) _⟩
              have silent : ({ machine with sink } : Machine).announce traced = .error fault := told
              rw [Sink.accept_empty]
              exact loop_succ_of_silent (unfinished sink) silent bound trace
          | ok block =>
              have announced (sink : Sink) :
                  ({ machine with sink } : Machine).announce traced = .ok block := told
              obtain ⟨text, state, answer, first⟩ := machine.exists_step_putsOut
              have refused (sink : Sink) (shut : sink.isOpen = false) (nonempty : text ≠ "") :
                  (loop traced (bound + 1) { machine with sink } trace).fault =
                    some .closedStream := by
                obtain ⟨next, failed⟩ :=
                  Outcome.exists_eq_of_fault?_eq_some (first.refused sink shut nonempty)
                rw [loop_succ_of_error (unfinished sink) (announced sink) failed]
              cases answer with
              | error fault =>
                  refine ⟨text, state, some fault, trace ++ block, fun sink taken => ?_, refused⟩
                  exact loop_succ_of_error (unfinished sink) (announced sink)
                    (first.taken sink taken) bound trace
              | ok signal =>
                  obtain ⟨more, ended, fault, whole, rest⟩ :=
                    inductionHypothesis { machine with state } (trace ++ block)
                  have stepped (sink : Sink) (taken : sink.isOpen = true ∨ text = "") :
                      loop traced (bound + 1) { machine with sink } trace =
                        loop traced bound { machine with sink := sink.accept text, state }
                          (trace ++ block) :=
                    loop_succ_of_ok (unfinished sink) (announced sink) (first.taken sink taken)
                      bound trace
                  refine ⟨text ++ more, ended, fault, whole, fun sink taken => ?_,
                    fun sink shut nonempty => ?_⟩
                  · have both : (sink.isOpen = true ∨ text = "") ∧
                        ((sink.accept text).isOpen = true ∨ more = "") := by
                      rw [Sink.isOpen_accept, ← or_and_left]
                      exact taken.imp_right String.append_eq_empty_iff.mp
                    rw [stepped sink both.1, ← Sink.accept_accept]
                    exact rest.taken (sink.accept text) both.2
                  · by_cases empty : text = ""
                    · subst empty
                      rw [String.empty_append] at nonempty
                      rw [stepped sink (.inr rfl), Sink.accept_empty]
                      exact rest.refused sink shut nonempty
                    · exact refused sink shut empty

end Machine

def RunSettings.bound (settings : RunSettings) : Nat :=
  match settings.limit with
  | some limit => limit.toNat
  | none => settings.patience

namespace Machine

def Run.outcome (ended : Run) : Outcome Reply where
  machine := ended.machine
  answer :=
    match ended.fault with
    | some fault => .error fault
    | none => .ok (.output ended.machine.output?)

theorem Run.fault?_outcome (ended : Run) : ended.outcome.fault? = ended.fault := by
  rw [outcome, Outcome.fault?]
  cases ended.fault <;> rfl

theorem call?_run_eq (machine : Machine) (settings : RunSettings) :
    machine.call? (.run settings) =
      let ended := loop settings.traced settings.bound machine ""
      if settings.limit.isSome || ended.fault.isSome || ended.machine.finished then
        some ended.closeSink.outcome
      else none := by
  change (machine.runWith? settings).map Run.outcome = _
  unfold runWith? runWithin? RunSettings.bound runToEnd?
  cases settings.limit with
  | some limit => rfl
  | none =>
      dsimp only
      rw [apply_ite (Option.map Run.outcome)]
      rfl

theorem rel_bind
    {First Second Third Fourth : Type}
    {before : First → Second → Prop} {after : Third → Fourth → Prop}
    {first : Option First} {second : Option Second}
    {third : First → Option Third} {fourth : Second → Option Fourth}
    (related : Option.Rel before first second)
    (continued : ∀ one two, first = some one → second = some two → before one two →
      Option.Rel after (third one) (fourth two)) :
    Option.Rel after (first >>= third) (second >>= fourth) := by
  cases related with
  | none => exact .none
  | some holds => exact continued _ _ rfl rfl holds

theorem written_closeSink (machine : Machine) :
    machine.closeSink.sink.written = machine.sink.written := by
  unfold closeSink
  split
  · rfl
  · exact machine.sink.written_close

def Prints (machine : Machine) : Call → Prop
  | .step => machine.step.machine.sink.written ≠ machine.sink.written
  | .run settings =>
      (machine.run settings.traced settings.bound).machine.sink.written ≠ machine.sink.written
  | .closeSink => False
  | .reset => False

/-- Whether one of the calls puts out text when the sink is closed already. -/
def PrintsLate : Machine → List Call → Prop
  | _, [] => False
  | machine, call :: rest =>
      (machine.sink.closed = true ∧ machine.Prints call) ∨
        ∃ outcome, machine.call? call = some outcome ∧ PrintsLate outcome.machine rest

/-- Whether two machines differ in nothing but their sinks, a stream and a buffer from outside. -/
inductive Mirrors (ownsStream : Bool) : Machine → Machine → Prop where
  | intro {machine : Machine} {stream buffer : Sink} :
      machine.ownsSink = false →
      stream.Mirrors ownsStream buffer →
      Mirrors ownsStream { machine with sink := stream } { machine with sink := buffer }

/-- Whether a call had the same effect on a machine with a stream and on one with a buffer. -/
structure Outcome.Mirrors
    (ownsStream : Bool)
    (streamed buffered : Outcome Reply) : Prop where
  fault? : streamed.fault? = buffered.fault?
  machine : streamed.machine.Mirrors ownsStream buffered.machine

namespace Mirrors

variable {ownsStream : Bool} {streamed buffered : Machine}

theorem state_eq (mirrors : Mirrors ownsStream streamed buffered) :
    streamed.state = buffered.state := by
  cases mirrors
  rfl

theorem output?_eq (mirrors : Mirrors ownsStream streamed buffered) :
    buffered.output? = some streamed.sink.written := by
  cases mirrors with
  | intro borrowed alike => exact alike.value?_eq

theorem isOpen_eq (mirrors : Mirrors ownsStream streamed buffered) :
    streamed.sink.isOpen = !(buffered.sink.closed && ownsStream) := by
  cases mirrors with
  | intro borrowed alike => exact alike.isOpen_stream

theorem closeSink (mirrors : Mirrors ownsStream streamed buffered) :
    Mirrors ownsStream streamed.closeSink buffered.closeSink := by
  cases mirrors with
  | @intro machine stream buffer borrowed alike =>
      obtain ⟨instructions, compiledLabels, ownsSink, sink, state, sinkClosed⟩ := machine
      cases sinkClosed with
      | true => exact .intro borrowed alike
      | false =>
          exact @Mirrors.intro ownsStream
            ⟨instructions, compiledLabels, ownsSink, sink, state, true⟩ _ _ borrowed alike.close

theorem reset (mirrors : Mirrors ownsStream streamed buffered) :
    Mirrors ownsStream streamed.reset buffered.reset := by
  cases mirrors with
  | @intro machine stream buffer borrowed alike =>
      obtain ⟨instructions, compiledLabels, ownsSink, sink, state, sinkClosed⟩ := machine
      cases borrowed
      exact @Mirrors.intro ownsStream
        ⟨instructions, compiledLabels, false, sink, .initial compiledLabels, false⟩ _ _ rfl alike

theorem step_cases (mirrors : Mirrors ownsStream streamed buffered) :
    (streamed.sink.isOpen = true ∨ ¬buffered.Prints .step →
      streamed.step.answer = buffered.step.answer ∧
        Mirrors ownsStream streamed.step.machine buffered.step.machine) ∧
      (streamed.sink.isOpen = false → buffered.Prints .step →
        streamed.step.fault? = some .closedStream) := by
  cases mirrors with
  | @intro machine stream buffer borrowed alike =>
      obtain ⟨text, state, answer, putsOut⟩ := machine.exists_step_putsOut
      have unhindered := putsOut.taken buffer (.inl alike.isOpen_buffer)
      have prints : ({ machine with sink := buffer } : Machine).Prints .step ↔ text ≠ "" := by
        rw [Prints, unhindered, Sink.written_accept, ne_eq, String.append_eq_left_iff]
      rw [prints, not_not, unhindered]
      constructor
      · intro taken
        rw [putsOut.taken stream taken]
        exact ⟨rfl, @Mirrors.intro ownsStream { machine with state } _ _ borrowed (alike.accept text)⟩
      · exact putsOut.refused stream

theorem closingFault?_eq_none (mirrors : Mirrors ownsStream streamed buffered) :
    streamed.closingFault? = none ∧ buffered.closingFault? = none := by
  cases mirrors with
  | intro borrowed alike =>
      unfold Machine.closingFault?
      rw [alike.closingFault?_stream, Sink.closingFault?_of_isOpen alike.isOpen_buffer]
      exact ⟨ite_self _, ite_self _⟩

theorem loop_cases
    (mirrors : Mirrors ownsStream streamed buffered)
    (settings : RunSettings) :
    let onStream := loop settings.traced settings.bound streamed ""
    let onBuffer := loop settings.traced settings.bound buffered ""
    (streamed.sink.isOpen = true ∨ ¬buffered.Prints (.run settings) →
      onStream.fault = onBuffer.fault ∧ Mirrors ownsStream onStream.machine onBuffer.machine) ∧
      (streamed.sink.isOpen = false → buffered.Prints (.run settings) →
        onStream.fault = some .closedStream) := by
  cases mirrors with
  | @intro machine stream buffer borrowed alike =>
      obtain ⟨text, state, fault, told, putsOut⟩ :=
        exists_loop_putsOut settings.traced settings.bound machine ""
      have unhindered := putsOut.taken buffer (.inl alike.isOpen_buffer)
      have prints : ({ machine with sink := buffer } : Machine).Prints (.run settings) ↔
          text ≠ "" := by
        rw [Prints, run, unhindered, Run.closeSink, written_closeSink, Sink.written_accept, ne_eq,
          String.append_eq_left_iff]
      rw [prints, not_not, unhindered]
      constructor
      · intro taken
        rw [putsOut.taken stream taken]
        exact ⟨rfl, @Mirrors.intro ownsStream { machine with state } _ _ borrowed (alike.accept text)⟩
      · exact putsOut.refused stream

/-- A run on a stream that takes the text is the run on the buffer, and otherwise meets a fault. -/
theorem run_cases
    (mirrors : Mirrors ownsStream streamed buffered)
    (settings : RunSettings) :
    let onStream := streamed.run settings.traced settings.bound
    let onBuffer := buffered.run settings.traced settings.bound
    (streamed.sink.isOpen = true ∨ ¬buffered.Prints (.run settings) →
      onStream.fault = onBuffer.fault ∧ Mirrors ownsStream onStream.machine onBuffer.machine) ∧
      (streamed.sink.isOpen = false → buffered.Prints (.run settings) →
        onStream.fault = some .closedStream) := by
  obtain ⟨alike, refused⟩ := mirrors.loop_cases settings
  constructor
  · intro taken
    obtain ⟨sameFault, ended⟩ := alike taken
    obtain ⟨streamCloses, bufferCloses⟩ := ended.closingFault?_eq_none
    refine ⟨?_, ended.closeSink⟩
    rw [run, run, Run.closeSink, Run.closeSink, streamCloses, bufferCloses, sameFault]
  · exact fun shut prints => Run.fault_closeSink_of_closedStream (refused shut prints)

theorem finished_eq (mirrors : Mirrors ownsStream streamed buffered) :
    streamed.finished = buffered.finished := by
  cases mirrors
  rfl

/-- A call has the same effect on both machines, unless it puts out text to a closed stream. -/
theorem call?
    (mirrors : Mirrors ownsStream streamed buffered)
    {call : Call}
    (taken : streamed.sink.isOpen = true ∨ ¬buffered.Prints call) :
    Option.Rel (Outcome.Mirrors ownsStream) (streamed.call? call) (buffered.call? call) := by
  cases call with
  | step =>
      obtain ⟨sameAnswer, next⟩ := mirrors.step_cases.1 taken
      refine .some ⟨?_, next⟩
      rw [Outcome.fault?, Outcome.fault?, sameAnswer]
  | run settings =>
      obtain ⟨sameFault, ended⟩ := (mirrors.loop_cases settings).1 taken
      obtain ⟨sameInTheEnd, next⟩ := (mirrors.run_cases settings).1 taken
      rw [call?_run_eq, call?_run_eq]
      dsimp only
      rw [sameFault, ended.finished_eq]
      split
      · refine .some ⟨?_, next⟩
        rw [Run.fault?_outcome, Run.fault?_outcome]
        exact sameInTheEnd
      · exact .none
  | closeSink =>
      obtain ⟨streamCloses, bufferCloses⟩ := mirrors.closingFault?_eq_none
      refine .some ⟨?_, mirrors.closeSink⟩
      rw [streamCloses, bufferCloses]
      rfl
  | reset => exact .some ⟨rfl, mirrors.reset⟩

theorem call?_refused
    (mirrors : Mirrors ownsStream streamed buffered)
    {call : Call}
    (shut : streamed.sink.isOpen = false)
    (prints : buffered.Prints call) :
    ∃ outcome, streamed.call? call = some outcome ∧ outcome.fault? = some .closedStream := by
  cases call with
  | step =>
      obtain ⟨next, failed⟩ :=
        Outcome.exists_eq_of_fault?_eq_some (mirrors.step_cases.2 shut prints)
      exact ⟨_, rfl, by rw [failed]; rfl⟩
  | run settings =>
      have failed := (mirrors.loop_cases settings).2 shut prints
      refine ⟨_, (call?_run_eq streamed settings).trans (if_pos ?_), ?_⟩
      · rw [failed, Option.isSome_some, Bool.or_true, Bool.true_or]
      · rw [Run.fault?_outcome]
        exact Run.fault_closeSink_of_closedStream failed
  | closeSink => exact prints.elim
  | reset => exact prints.elim

end Mirrors

/-- Whether two calls leave the same state, meet the same fault if any, and leave as text in the
stream what can be read back from the buffer. -/
structure Outcome.Agree (streamed buffered : Outcome Reply) : Prop where
  state : streamed.machine.state = buffered.machine.state
  fault? : streamed.fault? = buffered.fault?
  written : buffered.machine.output? = some streamed.machine.sink.written

theorem Outcome.Mirrors.agree
    {ownsStream : Bool} {streamed buffered : Outcome Reply}
    (mirrors : Outcome.Mirrors ownsStream streamed buffered) :
    streamed.Agree buffered where
  state := mirrors.machine.state_eq
  fault? := mirrors.fault?
  written := mirrors.machine.output?_eq

namespace Mirrors

variable {ownsStream : Bool} {streamed buffered : Machine}

/-- The stream takes what the next call puts out, unless it was closed with its sink. -/
theorem taken_of_not_printsLate
    (mirrors : Mirrors ownsStream streamed buffered)
    {call : Call} {rest : List Call}
    (punctual : ownsStream = false ∨ ¬buffered.PrintsLate (call :: rest)) :
    streamed.sink.isOpen = true ∨ ¬buffered.Prints call := by
  rw [mirrors.isOpen_eq]
  rcases punctual with rfl | punctual
  · exact .inl (congrArg not (Bool.and_false _))
  · cases closed : buffered.sink.closed with
    | true => exact .inr fun prints => punctual (.inl ⟨closed, prints⟩)
    | false => exact .inl rfl

theorem outcomes?
    (mirrors : Mirrors ownsStream streamed buffered)
    {calls : List Call}
    (punctual : ownsStream = false ∨ ¬buffered.PrintsLate calls) :
    Option.Rel (List.Forall₂ Outcome.Agree)
      (streamed.outcomes? calls) (buffered.outcomes? calls) := by
  induction calls generalizing streamed buffered with
  | nil => exact .some .nil
  | cons call rest inductionHypothesis =>
      unfold Machine.outcomes?
      apply rel_bind (mirrors.call? (mirrors.taken_of_not_printsLate punctual))
      intro outcome expected _ onBuffer first
      have onTime : ownsStream = false ∨ ¬expected.machine.PrintsLate rest :=
        punctual.imp_right fun onTime late => onTime (.inr ⟨expected, onBuffer, late⟩)
      apply rel_bind (inductionHypothesis first.machine onTime)
      intro others expectedOthers _ _ later
      exact .some (.cons first.agree later)

theorem exists_callAll?
    (mirrors : Mirrors ownsStream streamed buffered)
    {calls : List Call} {reached : Machine}
    (punctual : ownsStream = false ∨ ¬buffered.PrintsLate calls)
    (called : buffered.callAll? calls = some reached) :
    ∃ met, streamed.callAll? calls = some met ∧ Mirrors ownsStream met reached := by
  induction calls generalizing streamed buffered with
  | nil =>
      cases called
      exact ⟨streamed, rfl, mirrors⟩
  | cons call rest inductionHypothesis =>
      obtain ⟨expected, onBuffer, later⟩ :=
        (callAll?_cons_eq_some_iff buffered call rest reached).mp called
      have first := mirrors.call? (mirrors.taken_of_not_printsLate punctual)
      rw [onBuffer] at first
      cases onStream : streamed.call? call with
      | none =>
          rw [onStream] at first
          cases first
      | some outcome =>
          rw [onStream, Option.rel_some_some] at first
          obtain ⟨met, calledToo, alike⟩ := inductionHypothesis first.machine
            (punctual.imp_right fun onTime late => onTime (.inr ⟨expected, onBuffer, late⟩)) later
          exact ⟨met, (callAll?_cons_eq_some_iff _ _ _ _).mpr ⟨outcome, onStream, calledToo⟩, alike⟩

end Mirrors

theorem mirrors_make
    (instructions : List Instruction) (labels : LabelTable) (text : String) (ownsStream : Bool) :
    Mirrors ownsStream
      (make instructions labels (some (.stream { stream := { text }, ownsStream })))
      (make instructions labels (some (.buffer { text }))) :=
  @Mirrors.intro ownsStream (make instructions labels (some (.buffer { text }))) _ _ rfl
    (.intro text false 0 0 0)

/-- Calls on a machine with a stream and on one with a buffer agree one by one if the stream is not
closed with its sink. If it is, they agree as long as none puts out text when the sink is closed, and
the first that does so meets the fault of the closed stream. -/
theorem outcomes?_streamed
    (instructions : List Instruction) (labels : LabelTable) (text : String) (calls : List Call) :
    let buffered := make instructions labels (some (.buffer { text }))
    let streamed := fun ownsStream =>
      make instructions labels (some (.stream { stream := { text }, ownsStream }))
    Option.Rel (List.Forall₂ Outcome.Agree)
        ((streamed false).outcomes? calls) (buffered.outcomes? calls) ∧
      (¬buffered.PrintsLate calls →
        Option.Rel (List.Forall₂ Outcome.Agree)
            ((streamed true).outcomes? calls) (buffered.outcomes? calls) ∧
          ∀ reached call,
            buffered.callAll? calls = some reached →
            reached.sink.closed = true →
            reached.Prints call →
            ∃ met outcome, (streamed true).callAll? calls = some met ∧
              met.call? call = some outcome ∧ outcome.fault? = some .closedStream) := by
  intro buffered streamed
  have mirrors (ownsStream : Bool) : Mirrors ownsStream (streamed ownsStream) buffered :=
    mirrors_make instructions labels text ownsStream
  have agree (ownsStream : Bool) (punctual : ownsStream = false ∨ ¬buffered.PrintsLate calls) :
      Option.Rel (List.Forall₂ Outcome.Agree)
        ((streamed ownsStream).outcomes? calls) (buffered.outcomes? calls) :=
    (mirrors ownsStream).outcomes? punctual
  refine ⟨agree false (.inl rfl), fun punctual => ⟨agree true (.inr punctual), ?_⟩⟩
  intro reached call called closed prints
  obtain ⟨met, calledToo, alike⟩ := (mirrors true).exists_callAll? (.inr punctual) called
  have shut : met.sink.isOpen = false := by
    rw [alike.isOpen_eq, closed]
    rfl
  obtain ⟨outcome, refused⟩ := alike.call?_refused shut prints
  exact ⟨met, outcome, calledToo, refused⟩

/-- A run that closes its stream, a reset, and a second run that has the text refused. -/
theorem outcomes?_streamed_second_run :
    let instructions : List Instruction := [⟨.input, ["1"]⟩, ⟨.print .number, []⟩]
    let buffered := make instructions .empty (some (.buffer {}))
    let streamed := fun ownsStream => make instructions .empty (some (.stream { ownsStream }))
    let run : Call := .run { limit := some 9, patience := 0 }
    let reached := (buffered.run false 9).machine.reset
    buffered.callAll? [run, .reset] = some reached ∧
      reached.sink.closed = true ∧
      reached.Prints run ∧
      ¬buffered.PrintsLate [run, .reset] ∧
      (∃ first second expected others,
        (streamed true).outcomes? [run, .reset] = some [first, second] ∧
          buffered.outcomes? [run, .reset] = some [expected, others] ∧
          first.Agree expected) ∧
      ∃ met outcome, (streamed true).callAll? [run, .reset] = some met ∧
        met.call? run = some outcome ∧ outcome.fault? = some .closedStream := by
  intro instructions buffered streamed run reached
  have called : buffered.callAll? [run, .reset] = some reached := rfl
  have closed : reached.sink.closed = true := by decide +kernel
  have prints : reached.Prints run :=
    show (reached.run false 9).machine.sink.written ≠ reached.sink.written by decide +kernel
  have punctual : ¬buffered.PrintsLate [run, .reset] := by
    rintro (⟨isClosed, -⟩ | ⟨outcome, -, ⟨-, printsReset⟩ | ⟨_, _, never⟩⟩)
    · cases isClosed
    · exact printsReset
    · exact never
  obtain ⟨-, late⟩ := outcomes?_streamed instructions .empty "" [run, .reset]
  obtain ⟨agree, refused⟩ := late punctual
  refine ⟨called, closed, prints, punctual, ⟨_, _, _, _, rfl, rfl, ?_⟩,
    refused reached run called closed prints⟩
  cases agree with
  | some alike =>
      cases alike with
      | cons first _ => exact first

end Machine

end QueueMachine
