import QueueMachine.Execution
import QueueMachine.Proofs.Machine.Run

set_option autoImplicit false

/-!
Calls on a machine, in any order, whether they meet faults or not, and what becomes of its sink. A
machine notes that it has closed its sink, and forgets it when it is reset; the sink remembers for
itself. A sink that was lent to the machine is therefore closed once at most, however often the
machine is run and reset, and its stream is flushed at no other time. A machine with a sink of its
own gets a new one when it is reset, so that its note and its sink always agree.
-/

namespace QueueMachine

namespace Machine

inductive Call where
  | step
  | run (settings : RunSettings)
  | closeSink
  | reset

namespace Call

def isRun : Call → Bool
  | .run _ => true
  | _ => false

def closes : Call → Bool
  | .run _ => true
  | .closeSink => true
  | _ => false

end Call

inductive Reply where
  | signal (signal : Signal)
  | output (text : Option String)
  | nothing

/-- A call on a machine. There is no outcome if a run without a limit uses up its patience. -/
def call? (machine : Machine) : Call → Option (Outcome Reply)
  | .step => some ⟨machine.step.machine, machine.step.answer.map .signal⟩
  | .run settings =>
      (machine.runWith? settings).map fun ended =>
        { machine := ended.machine
          answer :=
            match ended.fault with
            | some fault => .error fault
            | none => .ok (.output ended.machine.output?) }
  | .closeSink =>
      some
        { machine := machine.closeSink
          answer :=
            match machine.closingFault? with
            | some fault => .error fault
            | none => .ok .nothing }
  | .reset => some ⟨machine.reset, .ok .nothing⟩

def callAll? (machine : Machine) (calls : List Call) : Option Machine :=
  calls.foldlM (fun machine call => (machine.call? call).map Outcome.machine) machine

/-- The outcomes of some calls, one after another, whatever faults they met. There are none if one of
the calls has none. -/
def outcomes? : Machine → List Call → Option (List (Outcome Reply))
  | _, [] => some []
  | machine, call :: rest => do
      let outcome ← machine.call? call
      let others ← outcomes? outcome.machine rest
      return outcome :: others

theorem exists_run_of_runWith?
    {machine : Machine} {settings : RunSettings} {ended : Run}
    (runs : machine.runWith? settings = some ended) :
    ∃ bound, ended = machine.run settings.traced bound := by
  unfold runWith? runWithin? at runs
  split at runs
  · exact ⟨_, (Option.some.inj runs).symm⟩
  · rw [runToEnd?] at runs
    split at runs
    · exact ⟨_, (Option.some.inj runs).symm⟩
    · cases runs

/-- All that a call can do to a machine: a step, some steps and the closing of the sink, or a
reset. -/
theorem call?_cases
    {machine : Machine} {call : Call} {next : Outcome Reply}
    (called : machine.call? call = some next) :
    (call = .step ∧ next.machine = machine.step.machine) ∨
      (call.closes = true ∧ ∃ count, next.machine = (stepMany count machine).machine.closeSink) ∨
      (call = .reset ∧ next.machine = machine.reset) := by
  cases call with
  | step =>
      cases called
      exact .inl ⟨rfl, rfl⟩
  | run settings =>
      obtain ⟨ended, runs, rfl⟩ := Option.map_eq_some_iff.mp called
      obtain ⟨bound, rfl⟩ := exists_run_of_runWith? runs
      obtain ⟨count, -, reached⟩ := exists_machine_loop_eq settings.traced bound machine ""
      exact .inr (.inl ⟨rfl, count, congrArg Machine.closeSink reached⟩)
  | closeSink =>
      cases called
      exact .inr (.inl ⟨rfl, 0, rfl⟩)
  | reset =>
      cases called
      exact .inr (.inr ⟨rfl, rfl⟩)

theorem callAll?_cons_eq_some_iff
    (machine : Machine) (call : Call) (rest : List Call) (ended : Machine) :
    machine.callAll? (call :: rest) = some ended ↔
      ∃ next, machine.call? call = some next ∧ next.machine.callAll? rest = some ended := by
  rw [callAll?, List.foldlM_cons]
  cases machine.call? call with
  | none => simp
  | some next => simp [callAll?]

/-- What a step, the closing of the sink and a reset keep, every call keeps. -/
theorem call?_of_kept
    {invariant : Machine → Prop}
    (step : ∀ machine, invariant machine → invariant machine.step.machine)
    (closeSink : ∀ machine, invariant machine → invariant machine.closeSink)
    (reset : ∀ machine, invariant machine → invariant machine.reset)
    {machine : Machine} {call : Call} {next : Outcome Reply}
    (start : invariant machine)
    (called : machine.call? call = some next) :
    invariant next.machine := by
  rcases call?_cases called with ⟨-, stepped⟩ | ⟨-, count, closed⟩ | ⟨-, cleared⟩
  · rw [stepped]
    exact step machine start
  · rw [closed]
    exact closeSink _ (machine_stepMany_of_step step count start)
  · rw [cleared]
    exact reset machine start

theorem callAll?_of_kept
    {invariant : Machine → Prop}
    (step : ∀ machine, invariant machine → invariant machine.step.machine)
    (closeSink : ∀ machine, invariant machine → invariant machine.closeSink)
    (reset : ∀ machine, invariant machine → invariant machine.reset)
    (calls : List Call) {machine ended : Machine}
    (start : invariant machine)
    (reached : machine.callAll? calls = some ended) :
    invariant ended := by
  induction calls generalizing machine with
  | nil =>
      cases reached
      exact start
  | cons call rest inductionHypothesis =>
      obtain ⟨next, called, later⟩ :=
        (callAll?_cons_eq_some_iff machine call rest ended).mp reached
      exact inductionHypothesis (call?_of_kept step closeSink reset start called) later

theorem exists_settings_of_call?_eq_none
    {machine : Machine} {call : Call}
    (endless : machine.call? call = none) :
    ∃ settings, call = .run settings ∧ settings.limit = none := by
  cases call with
  | run settings =>
      refine ⟨settings, rfl, ?_⟩
      have unanswered : machine.runWith? settings = none := Option.map_eq_none_iff.mp endless
      unfold runWith? runWithin? at unanswered
      split at unanswered
      · cases unanswered
      · assumption
  | _ => cases endless

/-- Whether a run or a closing was called, and no reset after it. -/
def ClosedSinceReset (calls : List Call) : Prop :=
  ∃ before call after, calls = before ++ call :: after ∧ call.closes = true ∧ .reset ∉ after

theorem not_closedSinceReset_nil : ¬ClosedSinceReset [] := by
  rintro ⟨before, call, after, split, -⟩
  cases before <;> cases split

theorem closedSinceReset_cons_iff (first : Call) (rest : List Call) :
    ClosedSinceReset (first :: rest) ↔
      (first.closes = true ∧ .reset ∉ rest) ∨ ClosedSinceReset rest := by
  constructor
  · rintro ⟨before, call, after, split, closes, lasting⟩
    cases before with
    | nil =>
        cases split
        exact .inl ⟨closes, lasting⟩
    | cons _ before =>
        cases split
        exact .inr ⟨before, call, after, rfl, closes, lasting⟩
  · rintro (⟨closes, lasting⟩ | ⟨before, call, after, rfl, closes, lasting⟩)
    · exact ⟨[], first, rest, rfl, closes, lasting⟩
    · exact ⟨first :: before, call, after, rfl, closes, lasting⟩

theorem sinkClosed_of_call?
    {machine : Machine} {call : Call} {next : Outcome Reply}
    (called : machine.call? call = some next) :
    next.machine.sinkClosed = true ↔
      call.closes = true ∨ (machine.sinkClosed = true ∧ call ≠ .reset) := by
  rcases call?_cases called with ⟨rfl, stepped⟩ | ⟨closes, count, closed⟩ | ⟨rfl, cleared⟩
  · obtain ⟨text, state, changed⟩ := machine.exists_step_eq
    rw [stepped, changed]
    simp [Call.closes]
  · rw [closed]
    simp [closes]
  · rw [cleared]
    simp [Machine.reset, Call.closes]

/-- The machine's note that it has closed its sink follows from the calls alone. -/
theorem sinkClosed_callAll?
    (calls : List Call) {machine ended : Machine}
    (reached : machine.callAll? calls = some ended) :
    ended.sinkClosed = true ↔
      ClosedSinceReset calls ∨ (machine.sinkClosed = true ∧ .reset ∉ calls) := by
  induction calls generalizing machine with
  | nil =>
      cases reached
      simp [not_closedSinceReset_nil]
  | cons first rest inductionHypothesis =>
      obtain ⟨next, called, later⟩ :=
        (callAll?_cons_eq_some_iff machine first rest ended).mp reached
      rw [inductionHypothesis later, sinkClosed_of_call? called, closedSinceReset_cons_iff,
        List.mem_cons]
      grind

/-- A machine with a sink of its own knows whether that is closed. -/
structure KeepsOwnSink (machine : Machine) : Prop where
  ownsSink : machine.ownsSink = true
  closed : machine.sink.closed = machine.sinkClosed

theorem KeepsOwnSink.step
    {machine : Machine}
    (own : machine.KeepsOwnSink) :
    machine.step.machine.KeepsOwnSink := by
  obtain ⟨text, state, changed⟩ := machine.exists_step_eq
  rw [changed]
  exact ⟨own.ownsSink, (machine.sink.closed_accept text).trans own.closed⟩

theorem KeepsOwnSink.closeSink
    {machine : Machine}
    (own : machine.KeepsOwnSink) :
    machine.closeSink.KeepsOwnSink := by
  cases noted : machine.sinkClosed with
  | true => rwa [closeSink_of_sinkClosed noted]
  | false =>
      rw [closeSink_of_not_sinkClosed noted]
      exact ⟨own.ownsSink, machine.sink.closed_close⟩

theorem KeepsOwnSink.reset
    {machine : Machine}
    (own : machine.KeepsOwnSink) :
    machine.reset.KeepsOwnSink :=
  ⟨own.ownsSink, congrArg Sink.closed (if_pos own.ownsSink)⟩

theorem KeepsOwnSink.callAll?
    {machine ended : Machine} {calls : List Call}
    (own : machine.KeepsOwnSink)
    (reached : machine.callAll? calls = some ended) :
    ended.KeepsOwnSink :=
  @callAll?_of_kept KeepsOwnSink (fun _ => .step) (fun _ => .closeSink) (fun _ => .reset)
    calls machine ended own reached

/-- Whether a property of the sink holds, for a machine that was given its sink from outside. -/
structure Borrows (property : Sink → Prop) (machine : Machine) : Prop where
  ownsSink : machine.ownsSink = false
  sink : property machine.sink

theorem sink_reset_of_borrowed
    {machine : Machine}
    (borrowed : machine.ownsSink = false) :
    machine.reset.sink = machine.sink :=
  if_neg (Bool.not_eq_true _ ▸ borrowed)

section Borrowed

variable {property : Sink → Prop} (kept : Sink.Kept property)

include kept

theorem Borrows.step
    {machine : Machine}
    (borrows : machine.Borrows property) :
    machine.step.machine.Borrows property := by
  obtain ⟨text, state, changed⟩ := machine.exists_step_eq
  rw [changed]
  exact ⟨borrows.ownsSink, kept.accept text borrows.sink⟩

theorem Borrows.closeSink
    {machine : Machine}
    (borrows : machine.Borrows property) :
    machine.closeSink.Borrows property := by
  cases noted : machine.sinkClosed with
  | true => rwa [closeSink_of_sinkClosed noted]
  | false =>
      rw [closeSink_of_not_sinkClosed noted]
      exact ⟨borrows.ownsSink, kept.close borrows.sink⟩

omit kept in
theorem Borrows.reset
    {machine : Machine}
    (borrows : machine.Borrows property) :
    machine.reset.Borrows property :=
  ⟨borrows.ownsSink, by rw [sink_reset_of_borrowed borrows.ownsSink]; exact borrows.sink⟩

theorem Borrows.call?
    {machine : Machine} {call : Call} {next : Outcome Reply}
    (borrows : machine.Borrows property)
    (called : machine.call? call = some next) :
    next.machine.Borrows property :=
  @call?_of_kept (Borrows property) (fun _ => .step kept) (fun _ => .closeSink kept)
    (fun _ => .reset) machine call next borrows called

theorem Borrows.callAll?
    {machine ended : Machine} {calls : List Call}
    (borrows : machine.Borrows property)
    (reached : machine.callAll? calls = some ended) :
    ended.Borrows property :=
  @callAll?_of_kept (Borrows property) (fun _ => .step kept) (fun _ => .closeSink kept)
    (fun _ => .reset) calls machine ended borrows reached

end Borrowed

/-- Whether the machine is right if it notes that it has closed its sink. It may forget that it has,
but not think so in error. -/
def TrustsNote (machine : Machine) : Prop :=
  machine.sinkClosed = true → machine.sink.closed = true

theorem TrustsNote.closed_closeSink
    {machine : Machine}
    (trusts : machine.TrustsNote) :
    machine.closeSink.sink.closed = true := by
  cases noted : machine.sinkClosed with
  | true =>
      rw [closeSink_of_sinkClosed noted]
      exact trusts noted
  | false =>
      rw [closeSink_of_not_sinkClosed noted]
      exact machine.sink.closed_close

theorem TrustsNote.step
    {machine : Machine}
    (trusts : machine.TrustsNote) :
    machine.step.machine.TrustsNote := by
  obtain ⟨text, state, changed⟩ := machine.exists_step_eq
  rw [changed]
  exact fun noted => (machine.sink.closed_accept text).trans (trusts noted)

theorem TrustsNote.callAll?
    {machine ended : Machine} {calls : List Call}
    (trusts : machine.TrustsNote)
    (reached : machine.callAll? calls = some ended) :
    ended.TrustsNote := by
  refine @callAll?_of_kept TrustsNote (fun _ => .step) ?_ ?_ calls machine ended trusts reached
  · exact fun _ before _ => before.closed_closeSink
  · intro reached _ noted
    cases noted

theorem TrustsNote.closed_of_isRun
    {machine : Machine} {call : Call} {next : Outcome Reply}
    (trusts : machine.TrustsNote)
    (isRun : call.isRun = true)
    (called : machine.call? call = some next) :
    next.machine.sink.closed = true := by
  rcases call?_cases called with ⟨rfl, -⟩ | ⟨-, count, closed⟩ | ⟨rfl, -⟩
  · cases isRun
  · rw [closed]
    have trustsThen : (stepMany count machine).machine.TrustsNote :=
      @machine_stepMany_of_step TrustsNote (fun _ => .step) count machine trusts
    exact trustsThen.closed_closeSink
  · cases isRun

theorem sink_closeSink_of_closed
    {machine : Machine}
    (closed : machine.sink.closed = true) :
    machine.closeSink.sink = machine.sink := by
  cases noted : machine.sinkClosed with
  | true => rw [closeSink_of_sinkClosed noted]
  | false =>
      rw [closeSink_of_not_sinkClosed noted]
      exact Sink.close_of_closed closed

theorem Borrows.closingFault?_stepMany
    {machine : Machine}
    (borrows : machine.Borrows Sink.Tallies)
    (count : Nat) :
    (stepMany count machine).machine.closingFault? = none := by
  obtain ⟨text, state, changed⟩ := exists_stepMany_eq count machine
  have tallies : (stepMany count machine).machine.sink.Tallies := by
    rw [changed]
    exact borrows.sink.accept text
  rw [closingFault?, tallies.closingFault?_eq_none, ite_self]

/-- Where a call flushes the stream, it does so by closing the sink after some steps, and the stream
is open then. -/
theorem Borrows.isOpen_of_flushes_ne
    {machine : Machine} {call : Call} {next : Outcome Reply}
    (borrows : machine.Borrows Sink.Tallies)
    (called : machine.call? call = some next)
    (flushed : next.machine.sink.flushes ≠ machine.sink.flushes) :
    ∃ count, next.machine = (stepMany count machine).machine.closeSink ∧
      (stepMany count machine).machine.sink.flushes = machine.sink.flushes ∧
      (stepMany count machine).machine.sink.isOpen = true := by
  rcases call?_cases called with ⟨-, stepped⟩ | ⟨-, count, closed⟩ | ⟨-, cleared⟩
  · obtain ⟨text, state, changed⟩ := machine.exists_step_eq
    rw [stepped, changed] at flushed
    exact absurd (machine.sink.flushes_accept text) flushed
  · obtain ⟨text, state, changed⟩ := exists_stepMany_eq count machine
    have flushesThen : (stepMany count machine).machine.sink.flushes = machine.sink.flushes := by
      rw [changed]
      exact machine.sink.flushes_accept text
    refine ⟨count, closed, flushesThen, ?_⟩
    cases status : (stepMany count machine).machine.sink.isOpen with
    | true => rfl
    | false =>
        -- a sink that has closed its stream is closed itself, and is not closed again
        have talliesThen : (stepMany count machine).machine.sink.Tallies := by
          rw [changed]
          exact borrows.sink.accept text
        rw [closed, sink_closeSink_of_closed (talliesThen.closed_of_not_isOpen status)] at flushed
        exact absurd flushesThen flushed
  · rw [cleared, sink_reset_of_borrowed borrows.ownsSink] at flushed
    exact absurd rfl flushed

/-- However a machine is used, a sink from outside stays closed once it is closed, and so does its
stream, and every run closes the sink. If nobody but the machine touches a new sink, it is closed
once at most, with one flush of its stream, which is closed only if the sink owns it, and no closing
ever finds the stream closed before its sink. A machine's own sink is closed if and only if a run or
a closing was called since the last reset. -/
theorem sink_callAll?
    (instructions : List Instruction) (labels : LabelTable) (calls : List Call) :
    (∀ given ended, (make instructions labels (some given)).callAll? calls = some ended →
      ended.sink.ownsStream? = given.ownsStream? ∧
        (given.Regular →
          (∀ target, ended.sink = .buffer target → target.closeCount = target.closed.toNat) ∧
            ∀ target, ended.sink = .stream target →
              target.stream.flushes = target.closed.toNat ∧
                target.stream.closes = (target.closed && target.ownsStream).toNat ∧
                target.stream.closed = (target.closed && target.ownsStream)) ∧
        (given.Regular → ∀ count, (stepMany count ended).machine.closingFault? = none) ∧
        ∀ call,
          (ended.call? call = none → ∃ settings, call = .run settings ∧ settings.limit = none) ∧
            ∀ next, ended.call? call = some next →
              (ended.sink.closed = true → next.machine.sink.closed = true) ∧
                (ended.sink.isOpen = false → next.machine.sink.isOpen = false) ∧
                (call.isRun = true → next.machine.sink.closed = true) ∧
                (given.Regular → next.machine.sink.flushes ≠ ended.sink.flushes →
                  ∃ count, next.machine = (stepMany count ended).machine.closeSink ∧
                    (stepMany count ended).machine.sink.flushes = ended.sink.flushes ∧
                    (stepMany count ended).machine.sink.isOpen = true)) ∧
      ∀ ended, (make instructions labels none).callAll? calls = some ended →
        (ended.sink.closed = true ↔ ClosedSinceReset calls) := by
  constructor
  · intro given ended reached
    have sameStream :=
      (Borrows.mk rfl rfl : Borrows (·.ownsStream? = given.ownsStream?) _).callAll?
        (Sink.kept_ownsStream? _) reached
    have tallies (regular : given.Regular) : ended.Borrows Sink.Tallies :=
      (Borrows.mk rfl regular.tallies).callAll? Sink.kept_tallies reached
    have trusts : ended.TrustsNote := TrustsNote.callAll? (fun noted => by cases noted) reached
    refine ⟨sameStream.sink, fun regular => ⟨?_, ?_⟩, fun regular =>
      (tallies regular).closingFault?_stepMany, fun call =>
      ⟨exists_settings_of_call?_eq_none, fun next called => ⟨?_, ?_, ?_, ?_⟩⟩⟩
    · intro target isBuffer
      have counted := (tallies regular).sink
      rwa [isBuffer] at counted
    · intro target isStream
      have counted := (tallies regular).sink
      rw [isStream] at counted
      exact ⟨counted.1, counted.2.2, counted.2.1⟩
    · intro closed
      exact (Borrows.call? Sink.kept_closed ⟨sameStream.ownsSink, closed⟩ called).sink
    · intro shut
      exact (Borrows.call? Sink.kept_not_isOpen ⟨sameStream.ownsSink, shut⟩ called).sink
    · exact fun isRun => trusts.closed_of_isRun isRun called
    · exact fun regular flushed => (tallies regular).isOpen_of_flushes_ne called flushed
  · intro ended reached
    have own : ended.KeepsOwnSink := KeepsOwnSink.callAll? ⟨rfl, rfl⟩ reached
    rw [own.closed, sinkClosed_callAll? calls reached]
    exact or_iff_left fun noted => by cases noted.1

/-- A run that closes its stream on a fault, and a run after a reset that the stream refuses. -/
theorem sink_callAll?_run_after_reset :
    let instructions : List Instruction :=
      [⟨.input, ["1"]⟩, ⟨.print .number, []⟩, ⟨.load, ["outside"]⟩]
    let given : Sink := .stream { ownsStream := true }
    let again : Call := .run { limit := some 9, patience := 0 }
    let start := make instructions .empty (some given)
    let ended := (start.run false 9).machine.reset
    given.Regular ∧
      start.callAll? [again, .reset] = some ended ∧
      (start.run false 9).fault.isSome = true ∧
      ended.sinkClosed = false ∧
      ended.sink = .stream ⟨⟨"1\n", true, 1, 1⟩, true, true⟩ ∧
      (∃ next, ended.call? again = some next ∧
        next.fault? = some .closedStream ∧
        next.machine.sink.closed = true ∧
        next.machine.sink.isOpen = false) ∧
      ∃ own, (make instructions .empty none).callAll? [again, .reset, .step] = some own ∧
        own.sink.closed = false := by
  intro instructions given again start ended
  have reached : start.callAll? [again, .reset] = some ended := rfl
  have sink : ended.sink = .stream ⟨⟨"1\n", true, 1, 1⟩, true, true⟩ := by decide +kernel
  obtain ⟨-, -, -, later⟩ :=
    (sink_callAll? instructions .empty [again, .reset]).1 given ended reached
  obtain ⟨-, shut, closed, -⟩ := (later again).2 _ rfl
  refine ⟨.stream "" true, reached, by decide +kernel, rfl, sink,
    ⟨_, rfl, by decide +kernel, closed rfl, shut (by rw [sink]; rfl)⟩, _, rfl, ?_⟩
  have cleared : ¬ClosedSinceReset [again, .reset, .step] := by
    simp [closedSinceReset_cons_iff, not_closedSinceReset_nil, Call.closes]
  exact Bool.eq_false_iff.mpr fun ownClosed =>
    cleared (((sink_callAll? instructions .empty _).2 _ rfl).mp ownClosed)

end Machine

end QueueMachine
