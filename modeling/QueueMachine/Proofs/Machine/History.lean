import QueueMachine.Proofs.Machine.Bounded
import QueueMachine.Proofs.RegisterBank

set_option autoImplicit false

/-!
The history of the queue. The queue by itself is first in, first out: whatever is done to it, what was
in it and what was added, in order, is what was taken, in order, and what is left. Instructions use
the queue by adding to it and taking from it and in no other way, so the same holds of any number of
steps. What an instruction takes is stored, printed or combined to a new value; only an arithmetic
instruction that finds a single value takes it for nothing.
-/

namespace QueueMachine

namespace ValueQueue

/-- A use of the queue: a value is added behind all others, or the one at the head is taken. -/
inductive Use where
  | enqueue (value : Int)
  | dequeue (value : Int)
  deriving DecidableEq

def Use.enqueued? : Use → Option Int
  | .enqueue value => some value
  | .dequeue _ => none

def Use.dequeued? : Use → Option Int
  | .enqueue _ => none
  | .dequeue value => some value

def enqueued (uses : List Use) : List Int :=
  uses.filterMap Use.enqueued?

def dequeued (uses : List Use) : List Int :=
  uses.filterMap Use.dequeued?

@[simp]
theorem enqueued_nil : enqueued [] = [] := rfl

@[simp]
theorem dequeued_nil : dequeued [] = [] := rfl

@[simp]
theorem enqueued_cons_enqueue (value : Int) (rest : List Use) :
    enqueued (.enqueue value :: rest) = value :: enqueued rest := rfl

@[simp]
theorem enqueued_cons_dequeue (value : Int) (rest : List Use) :
    enqueued (.dequeue value :: rest) = enqueued rest := rfl

@[simp]
theorem dequeued_cons_enqueue (value : Int) (rest : List Use) :
    dequeued (.enqueue value :: rest) = dequeued rest := rfl

@[simp]
theorem dequeued_cons_dequeue (value : Int) (rest : List Use) :
    dequeued (.dequeue value :: rest) = value :: dequeued rest := rfl

/-- Whether some uses, one after another, turn one queue into another. -/
inductive Uses : ValueQueue → List Use → ValueQueue → Prop where
  | nil {queue : ValueQueue} : Uses queue [] queue
  | enqueue {queue last : ValueQueue} {value : Int} {rest : List Use} :
      Uses (queue.enqueue value) rest last →
      Uses queue (.enqueue value :: rest) last
  | dequeue {queue behind last : ValueQueue} {value : Int} {rest : List Use} :
      queue.dequeue? = some (value, behind) →
      Uses behind rest last →
      Uses queue (.dequeue value :: rest) last

/-- First in, first out. -/
theorem Uses.toList_append_enqueued
    {first last : ValueQueue} {uses : List Use}
    (used : Uses first uses last) :
    first.toList ++ enqueued uses = dequeued uses ++ last.toList := by
  induction used with
  | nil => simp
  | enqueue _ inductionHypothesis => simpa using inductionHypothesis
  | dequeue taken _ inductionHypothesis =>
      simpa [toList_of_dequeue?_eq_some taken] using inductionHypothesis

theorem Uses.append
    {first middle last : ValueQueue} {early late : List Use}
    (before : Uses first early middle)
    (after : Uses middle late last) :
    Uses first (early ++ late) last := by
  induction before with
  | nil => exact after
  | enqueue _ inductionHypothesis => exact .enqueue (inductionHypothesis after)
  | dequeue taken _ inductionHypothesis => exact .dequeue taken (inductionHypothesis after)

end ValueQueue

def State.uses (state : State) (instruction : Instruction) : List ValueQueue.Use :=
  match instruction.opcode with
  | .operate operator =>
      match state.queue.toList with
      | [] => []
      | [value] => [.dequeue value]
      | first :: second :: _ =>
          [.dequeue first, .dequeue second, .enqueue (evaluate operator first second)]
  | .store => (state.queue.toList.take 1).map .dequeue
  | .print _ => (state.queue.toList.take 1).map .dequeue
  | .load =>
      match state.loadOperand instruction with
      | .ok (some value) => [.enqueue value]
      | _ => []
  | .input =>
      match instruction.operand 0 >>= Numeral.parse with
      | .ok value => [.enqueue value]
      | .error _ => []
  | _ => []

namespace State

theorem uses_operate (state : State) (operator : Operator) :
    state.queue.Uses (state.uses ⟨.operate operator, []⟩) (state.operate operator).queue := by
  cases taken : state.queue.dequeue? with
  | none =>
      have nothing := (state.queue.dequeue?_eq_none_iff).mp taken
      simp only [uses, nothing, operate, taken]
      exact .nil
  | some head =>
      obtain ⟨first, behind⟩ := head
      have values := ValueQueue.toList_of_dequeue?_eq_some taken
      cases takenNext : behind.dequeue? with
      | none =>
          have nothing := (behind.dequeue?_eq_none_iff).mp takenNext
          simp only [uses, values, nothing, operate, taken, takenNext]
          exact .dequeue taken .nil
      | some next =>
          obtain ⟨second, rest⟩ := next
          have others := ValueQueue.toList_of_dequeue?_eq_some takenNext
          simp only [uses, values, others, operate, taken, takenNext]
          exact .dequeue taken (.dequeue takenNext (.enqueue .nil))

theorem take_toList_of_dequeue?_eq_none
    {state : State}
    (taken : state.queue.dequeue? = none) :
    state.queue.toList.take 1 = [] := by
  simp [(state.queue.dequeue?_eq_none_iff).mp taken]

theorem take_toList_of_dequeue?_eq_some
    {state : State} {value : Int} {rest : ValueQueue}
    (taken : state.queue.dequeue? = some (value, rest)) :
    state.queue.toList.take 1 = [value] := by
  simp [ValueQueue.toList_of_dequeue?_eq_some taken]

theorem uses_head (state : State) :
    state.queue.Uses ((state.queue.toList.take 1).map .dequeue)
      ((state.queue.dequeue?.map Prod.snd).getD state.queue) := by
  cases taken : state.queue.dequeue? with
  | none =>
      rw [take_toList_of_dequeue?_eq_none taken]
      exact .nil
  | some head =>
      rw [take_toList_of_dequeue?_eq_some taken]
      exact .dequeue taken .nil

/-- An instruction turns the queue into what its uses of the queue turn it into. -/
theorem uses_perform
    {instruction : Instruction} {operation : Operation}
    (denotes : instruction.Denotes operation)
    (state : State) :
    state.queue.Uses (state.uses instruction) (state.perform operation).state.queue := by
  cases denotes with
  | @push literal valid =>
      have read : Numeral.parse literal = .ok (Numeral.literalValue literal) :=
        Numeral.parse_of_isLiteral valid
      have parsed : ((⟨.input, [literal]⟩ : Instruction).operand 0 >>= Numeral.parse) =
          .ok (Numeral.literalValue literal) := read
      simp only [uses, parsed]
      exact .enqueue .nil
  | operate => exact state.uses_operate _
  | store =>
      have used := state.uses_head
      simp only [uses, perform]
      cases taken : state.queue.dequeue? <;> rw [taken] at used <;> exact used
  | print =>
      have used := state.uses_head
      simp only [uses, perform]
      cases taken : state.queue.dequeue? <;> rw [taken] at used <;> exact used
  | @load register =>
      simp only [uses, loadOperand_name, perform]
      cases state.registers.get register with
      | none => exact .nil
      | some value => exact .enqueue .nil
  | @printRegister style register =>
      simp only [uses, perform]
      cases state.registers.get register <;> exact .nil
  | mark _ => exact .nil
  | @jump label =>
      obtain ⟨pc, jumped, -⟩ := state.jump_eq label
      simp only [uses, perform, Effect.state, jumped]
      exact .nil
  | @jumpIfZero register label =>
      obtain ⟨pc, jumped, -⟩ := state.jump_eq label
      simp only [uses, perform, Effect.state, jumped]
      split <;> exact .nil
  | @jumpIf comparison left right label =>
      obtain ⟨pc, jumped, -⟩ := state.jump_eq label
      simp only [uses, perform, Effect.state, jumped]
      split <;> exact .nil
  | quit => exact .nil

end State

namespace Machine

/-- The instruction that the next step executes, if there is one. -/
def next? (machine : Machine) : Option Instruction :=
  if machine.finished then none else machine.fetch.toOption

def uses (machine : Machine) : List ValueQueue.Use :=
  match machine.next? with
  | some instruction => machine.state.uses instruction
  | none => []

/-- What a view shows of each of the machines that some steps start from, in order. -/
def history {Entry : Type} (view : Machine → List Entry) (machine : Machine) (count : Nat) :
    List Entry :=
  (List.range count).flatMap fun time => view (stepMany time machine).machine

theorem next?_of_finished
    {machine : Machine}
    (finished : machine.finished = true) :
    machine.next? = none := by
  simp [next?, finished]

theorem next?_eq_some_iff
    {machine : Machine} {instruction : Instruction} :
    machine.next? = some instruction ↔ machine.Executes instruction := by
  unfold next? Executes
  cases machine.finished <;> cases machine.fetch <;> simp [Except.toOption]

/-- What relates a machine, its view and the machine after one step, and goes on from one step to the
next, relates the machine, its history and the machine after any number of steps. -/
theorem Safe.history_of_step
    {Entry : Type} {view : Machine → List Entry}
    {related : Machine → List Entry → Machine → Prop}
    (still : ∀ machine, related machine [] machine)
    (onward : ∀ {first middle last early late},
      related first early middle → related middle late last → related first (early ++ late) last)
    (stepped : ∀ machine, machine.Safe → related machine (view machine) machine.step.machine)
    {machine : Machine}
    (safe : machine.Safe)
    (count : Nat) :
    related machine (machine.history view count) (Machine.stepMany count machine).machine := by
  induction count with
  | zero => exact still machine
  | succ count inductionHypothesis =>
      have last := stepped _ (safe.stepMany count).2
      rw [← safe.machine_stepMany_succ] at last
      simpa [history, List.range_succ] using onward inductionHypothesis last

theorem Safe.next_cases
    {machine : Machine}
    (safe : machine.Safe) :
    (machine.next? = none ∧ machine.step.machine = machine) ∨
      ∃ instruction operation,
        machine.Executes instruction ∧ instruction.Denotes operation ∧
          machine.next? = some instruction ∧ machine.step.machine = machine.after operation := by
  rcases safe.step_cases with
    ⟨finished, stepped⟩ | ⟨unfinished, instruction, operation, found, denotes, stepped⟩
  · exact .inl ⟨next?_of_finished finished, by rw [stepped]⟩
  · have executes : machine.Executes instruction :=
      ⟨unfinished, fetch_of_getElem?_eq_some safe.pc_nonneg found⟩
    exact .inr ⟨instruction, operation, executes, denotes, next?_eq_some_iff.mpr executes,
      by rw [stepped]⟩

theorem queue_after (machine : Machine) (operation : Operation) :
    (machine.after operation).state.queue = (machine.state.perform operation).state.queue := rfl

theorem Safe.uses_step
    {machine : Machine}
    (safe : machine.Safe) :
    machine.state.queue.Uses machine.uses machine.step.machine.state.queue := by
  rcases safe.next_cases with ⟨none, stepped⟩ | ⟨instruction, operation, -, denotes, next, stepped⟩
  · rw [uses, none, stepped]
    exact .nil
  · rw [uses, next, stepped, queue_after]
    exact State.uses_perform denotes machine.state

theorem Safe.uses_stepMany
    {machine : Machine}
    (safe : machine.Safe)
    (count : Nat) :
    machine.state.queue.Uses (machine.history uses count)
      (Machine.stepMany count machine).machine.state.queue :=
  @Safe.history_of_step _ uses (fun first used last => first.state.queue.Uses used last.state.queue)
    (fun _ => .nil) (fun before after => before.append after) (fun _ safe => safe.uses_step)
    machine safe count

/-- What the next step does with the values that it takes from the queue: a register holds the value
then, or the value is printed, or the result of an operator on two values is added, or the one value
that there was is gone. -/
inductive Consumes (machine : Machine) : List Int → Prop where
  | stored {register : Register} {value : Int} :
      machine.Executes ⟨.store, [register.name]⟩ →
      machine.step.machine.state.registers = machine.state.registers.set register value →
      Consumes machine [value]
  | printed {style : PrintStyle} {value : Int} :
      machine.Executes ⟨.print style, []⟩ →
      machine.step.machine.sink = machine.sink.accept (State.printed style value) →
      Consumes machine [value]
  | combined {operator : Operator} {first second : Int} {rest : List Int} :
      machine.Executes ⟨.operate operator, []⟩ →
      machine.state.queue.toList = first :: second :: rest →
      machine.step.machine.state.queue.toList = rest ++ [State.evaluate operator first second] →
      Consumes machine [first, second]
  | lost {operator : Operator} {value : Int} :
      machine.Executes ⟨.operate operator, []⟩ →
      machine.state.queue.toList = [value] →
      Consumes machine [value]

theorem Safe.consumes_step
    {machine : Machine}
    (safe : machine.Safe)
    (taking : ValueQueue.dequeued machine.uses ≠ []) :
    machine.Consumes (ValueQueue.dequeued machine.uses) := by
  rcases safe.next_cases with ⟨none, -⟩ | ⟨instruction, operation, executes, denotes, next, stepped⟩
  · simp [uses, none] at taking
  · have used : machine.uses = machine.state.uses instruction := by simp [uses, next]
    cases denotes with
    | @operate operator =>
        match values : machine.state.queue.toList with
        | [] => simp [used, State.uses, values] at taking
        | [value] =>
            simp only [used, State.uses, values]
            exact .lost executes values
        | first :: second :: rest =>
            have law := safe.uses_step.toList_append_enqueued
            simp only [used, State.uses, values, ValueQueue.enqueued_cons_dequeue,
              ValueQueue.enqueued_cons_enqueue, ValueQueue.enqueued_nil,
              ValueQueue.dequeued_cons_dequeue, ValueQueue.dequeued_cons_enqueue,
              ValueQueue.dequeued_nil, List.cons_append, List.nil_append, List.cons.injEq,
              true_and] at law ⊢
            exact .combined executes values law.symm
    | @store register =>
        cases taken : machine.state.queue.dequeue? with
        | none => simp [used, State.uses, State.take_toList_of_dequeue?_eq_none taken] at taking
        | some head =>
            obtain ⟨value, rest⟩ := head
            simp only [used, State.uses, State.take_toList_of_dequeue?_eq_some taken]
            refine .stored executes ?_
            rw [stepped]
            simp [Machine.after, State.after, State.perform, taken, Effect.state, State.advance]
    | @print style =>
        cases taken : machine.state.queue.dequeue? with
        | none => simp [used, State.uses, State.take_toList_of_dequeue?_eq_none taken] at taking
        | some head =>
            obtain ⟨value, rest⟩ := head
            simp only [used, State.uses, State.take_toList_of_dequeue?_eq_some taken]
            refine .printed executes ?_
            rw [stepped]
            simp [Machine.after, State.perform, taken, Effect.text]
    | @load register =>
        simp only [used, State.uses, State.loadOperand_name] at taking
        cases held : machine.state.registers.get register <;> simp [held] at taking
    | @push literal valid =>
        simp only [used, State.uses] at taking
        split at taking <;> simp at taking
    | _ => simp [used, State.uses] at taking

def withQueue (machine : Machine) (values : List Int) : Machine :=
  { machine with state := { machine.state with queue := .ofList values } }

/-- Whether the next step takes values from the queue and makes nothing of them: it leaves the same
machine whatever values stand in their place. -/
def Discards (machine : Machine) : Prop :=
  let taken := ValueQueue.dequeued machine.uses
  let rest := machine.state.queue.toList.drop taken.length
  taken ≠ [] ∧
    ∀ first second : List Int,
      first.length = taken.length →
      second.length = taken.length →
      (machine.withQueue (first ++ rest)).step.machine =
        (machine.withQueue (second ++ rest)).step.machine

theorem step_withQueue
    {machine : Machine} {instruction : Instruction} {operation : Operation}
    (isOpen : machine.sink.isOpen = true)
    (executes : machine.Executes instruction)
    (denotes : instruction.Denotes operation)
    (values : List Int) :
    (machine.withQueue values).step.machine = (machine.withQueue values).after operation := by
  have unfinished : (machine.withQueue values).finished = false := executes.1
  have fetched : (machine.withQueue values).fetch = .ok instruction := executes.2
  have stillOpen : (machine.withQueue values).sink.isOpen = true := isOpen
  rw [step_of_fetch unfinished fetched, State.execute_of_denotes denotes,
    conclude_perform stillOpen]

theorem step_withQueue_ne_of_store
    {machine : Machine} {register : Register}
    (isOpen : machine.sink.isOpen = true)
    (executes : machine.Executes ⟨.store, [register.name]⟩)
    (rest : List Int) :
    (machine.withQueue (0 :: rest)).step.machine ≠ (machine.withQueue (1 :: rest)).step.machine := by
  intro same
  rw [step_withQueue isOpen executes .store, step_withQueue isOpen executes .store] at same
  have held : (machine.state.registers.set register 0).get register =
      (machine.state.registers.set register 1).get register :=
    congrArg (fun after => after.state.registers.get register) same
  simp [RegisterBank.get_set] at held

theorem step_withQueue_ne_of_print
    {machine : Machine} {style : PrintStyle}
    (isOpen : machine.sink.isOpen = true)
    (executes : machine.Executes ⟨.print style, []⟩)
    (rest : List Int) :
    (machine.withQueue (0 :: rest)).step.machine ≠ (machine.withQueue (1 :: rest)).step.machine := by
  intro same
  rw [step_withQueue isOpen executes .print, step_withQueue isOpen executes .print] at same
  have written : (machine.sink.accept (State.printed style 0)).written =
      (machine.sink.accept (State.printed style 1)).written :=
    congrArg (fun after => after.sink.written) same
  rw [Sink.written_accept, Sink.written_accept, String.append_right_inj] at written
  cases style with
  | number => exact absurd written (by decide +kernel)
  | character => exact absurd written (by decide +kernel)

theorem step_withQueue_ne_of_operate
    {machine : Machine} {operator : Operator}
    (isOpen : machine.sink.isOpen = true)
    (executes : machine.Executes ⟨.operate operator, []⟩)
    (rest : List Int) :
    (machine.withQueue (0 :: 1 :: rest)).step.machine ≠
      (machine.withQueue (3 :: 2 :: rest)).step.machine := by
  intro same
  rw [step_withQueue isOpen executes .operate, step_withQueue isOpen executes .operate] at same
  have queues : ((ValueQueue.ofList rest).enqueue (State.evaluate operator 0 1)).toList =
      ((ValueQueue.ofList rest).enqueue (State.evaluate operator 3 2)).toList :=
    congrArg (fun after => after.state.queue.toList) same
  rw [ValueQueue.toList_enqueue, ValueQueue.toList_enqueue, List.append_cancel_left_eq] at queues
  cases operator <;> exact absurd queues (by decide)

/-- The only values that are taken for nothing are those that an arithmetic instruction finds alone
in the queue. -/
theorem Safe.discards_iff
    {machine : Machine}
    (safe : machine.Safe) :
    machine.Discards ↔
      (∃ operator, machine.Executes ⟨.operate operator, []⟩) ∧
        machine.state.queue.toList.length = 1 := by
  constructor
  · rintro ⟨taking, indifferent⟩
    have consumed := safe.consumes_step taking
    generalize ValueQueue.dequeued machine.uses = taken at consumed indifferent
    cases consumed with
    | stored executes _ =>
        exact absurd (indifferent [0] [1] rfl rfl)
          (step_withQueue_ne_of_store safe.isOpen executes _)
    | printed executes _ =>
        exact absurd (indifferent [0] [1] rfl rfl)
          (step_withQueue_ne_of_print safe.isOpen executes _)
    | combined executes _ _ =>
        exact absurd (indifferent [0, 1] [3, 2] rfl rfl)
          (step_withQueue_ne_of_operate safe.isOpen executes _)
    | lost executes alone => exact ⟨⟨_, executes⟩, by rw [alone]; rfl⟩
  · rintro ⟨⟨operator, executes⟩, single⟩
    obtain ⟨value, alone⟩ := List.length_eq_one_iff.mp single
    have taken : ValueQueue.dequeued machine.uses = [value] := by
      simp [uses, next?_eq_some_iff.mpr executes, State.uses, alone]
    refine ⟨by simp [taken], ?_⟩
    rw [taken, alone]
    intro first second firstSingle secondSingle
    obtain ⟨x, rfl⟩ := List.length_eq_one_iff.mp firstSingle
    obtain ⟨y, rfl⟩ := List.length_eq_one_iff.mp secondSingle
    rw [step_withQueue safe.isOpen executes .operate, step_withQueue safe.isOpen executes .operate]
    rfl

/-- After any number of steps of a compiled program, the values that were added to the queue are, in
order, those that were taken and those that are still there. The values that a step takes are
stored, printed or combined, or lost; the last is so if and only if an arithmetic instruction finds a
single value. -/
theorem enqueued_history_ofSource
    (source sourceName : String)
    (bounded : (Program.ofSource source sourceName).size < Numeral.placeValue Numeral.maxDigits)
    (buffer : Option Buffer)
    (count : Nat) :
    let start := ofProgram (.ofSource source sourceName) (buffer.map .buffer)
    let ended := stepMany count start
    let history := start.history uses count
    (∃ signals, signals.length = count ∧ ended.answer = .ok signals) ∧
      ValueQueue.Uses .empty history ended.machine.state.queue ∧
      ValueQueue.enqueued history =
        ValueQueue.dequeued history ++ ended.machine.state.queue.toList ∧
      ∀ time < count,
        let machine := (stepMany time start).machine
        let taken := ValueQueue.dequeued machine.uses
        (taken ≠ [] → machine.Consumes taken) ∧
          (machine.Discards ↔
            (∃ operator, machine.Executes ⟨.operate operator, []⟩) ∧
              machine.state.queue.toList.length = 1) := by
  intro start ended history
  have safe : start.Safe := (onCourse_ofProgram bounded (by cases buffer <;> rfl)).toSafe
  have used : ValueQueue.Uses .empty history ended.machine.state.queue := safe.uses_stepMany count
  refine ⟨(safe.stepMany count).1, used, used.toList_append_enqueued, ?_⟩
  intro time _ machine taken
  have reached : machine.Safe := (safe.stepMany time).2
  exact ⟨reached.consumes_step, reached.discards_iff⟩

/-- The third addition finds a single value, which is lost; of the next two, the first is stored and
the second is printed. -/
theorem enqueued_history_ofSource_lone_operand :
    let program := Program.ofSource "1 2 3 + + + 7 8 >a P <a" standardInputName
    let start := ofProgram program none
    let history := start.history uses 11
    program.size < Numeral.placeValue Numeral.maxDigits ∧
      ValueQueue.dequeued history = [1, 2, 3, 3, 6, 7, 8] ∧
      ValueQueue.enqueued history = [1, 2, 3, 3, 6, 7, 8, 7] ∧
      (stepMany 11 start).machine.state.queue.toList = [7] ∧
      (stepMany 5 start).machine.Discards ∧
      ¬ (stepMany 4 start).machine.Discards ∧
      (stepMany 8 start).machine.Consumes [7] ∧
      (stepMany 9 start).machine.Consumes [8] := by
  intro program start history
  have bounded : program.size < Numeral.placeValue Numeral.maxDigits :=
    Nat.lt_of_le_of_lt (Program.size_ofSource_le _ _) (by decide +kernel)
  obtain ⟨-, -, law, consumed⟩ := enqueued_history_ofSource _ _ bounded none 11
  have taken : ValueQueue.dequeued history = [1, 2, 3, 3, 6, 7, 8] := by decide +kernel
  have left : (stepMany 11 start).machine.state.queue.toList = [7] := by decide +kernel
  have added : ValueQueue.enqueued history =
      ValueQueue.dequeued history ++ (stepMany 11 start).machine.state.queue.toList := law
  have adds : (stepMany 5 start).machine.next? = some ⟨.operate .plus, []⟩ := by decide +kernel
  have single : (stepMany 5 start).machine.state.queue.toList.length = 1 := by decide +kernel
  have several : (stepMany 4 start).machine.state.queue.toList.length ≠ 1 := by decide +kernel
  have seven : ValueQueue.dequeued (stepMany 8 start).machine.uses = [7] := by decide +kernel
  have eight : ValueQueue.dequeued (stepMany 9 start).machine.uses = [8] := by decide +kernel
  refine ⟨bounded, taken, by rw [added, taken, left]; rfl, left, ?_, ?_, ?_, ?_⟩
  · exact (consumed 5 (by decide)).2.mpr ⟨⟨.plus, next?_eq_some_iff.mp adds⟩, single⟩
  · intro discards
    exact several ((consumed 4 (by decide)).2.mp discards).2
  · rw [← seven]
    exact (consumed 8 (by decide)).1 (by decide +kernel)
  · rw [← eight]
    exact (consumed 9 (by decide)).1 (by decide +kernel)

end Machine

end QueueMachine
