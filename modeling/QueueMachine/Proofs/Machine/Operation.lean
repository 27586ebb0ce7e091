import QueueMachine.Machine.State
import QueueMachine.Proofs.Command
import QueueMachine.Proofs.RegisterBank

set_option autoImplicit false

/-!
Operations: instructions with their operands read once and for all. Executing an instruction that
denotes an operation is performing that operation, which never meets a fault. Well-formed
instructions denote operations, as long as the index of a mark has no more digits than can be read.
-/

namespace QueueMachine

inductive Operation where
  | push (value : Int)
  | operate (operator : Operator)
  | store (register : Register)
  | load (register : Register)
  | print (style : PrintStyle)
  | printRegister (style : PrintStyle) (register : Register)
  | mark (label : String) (index : Nat)
  | jump (label : String)
  | jumpIfZero (register : Register) (label : String)
  | jumpIf (comparison : Comparison) (left right : Register) (label : String)
  | quit
  deriving DecidableEq

/-- Whether an instruction spells out an operation. -/
inductive Instruction.Denotes : Instruction → Operation → Prop where
  | push {literal : String} :
      Numeral.isLiteral literal = true →
      Denotes ⟨.input, [literal]⟩ (.push (Numeral.literalValue literal))
  | operate {operator : Operator} : Denotes ⟨.operate operator, []⟩ (.operate operator)
  | store {register : Register} : Denotes ⟨.store, [register.name]⟩ (.store register)
  | load {register : Register} : Denotes ⟨.load, [register.name]⟩ (.load register)
  | print {style : PrintStyle} : Denotes ⟨.print style, []⟩ (.print style)
  | printRegister {style : PrintStyle} {register : Register} :
      Denotes ⟨.printRegister style, [register.name]⟩ (.printRegister style register)
  | mark {text label : String} {index : Nat} :
      Numeral.readText text = .ok (index : Int) →
      Denotes ⟨.mark, [text, label]⟩ (.mark label index)
  | jump {label : String} : Denotes ⟨.jump, [label]⟩ (.jump label)
  | jumpIfZero {register : Register} {label : String} :
      Denotes ⟨.jumpIfZero, [register.name, label]⟩ (.jumpIfZero register label)
  | jumpIf {comparison : Comparison} {left right : Register} {label : String} :
      Denotes ⟨.jumpIf comparison, [left.name, right.name, label]⟩
        (.jumpIf comparison left right label)
  | quit : Denotes ⟨.quit, []⟩ .quit

def Effect.state : Effect → State
  | .proceed state => state
  | .output _ state => state
  | .halt state => state
  | .fault _ state => state

def Effect.text : Effect → String
  | .output text _ => text
  | _ => ""

namespace RegisterBank

theorem load_name (bank : RegisterBank) (register : Register) :
    bank.load register.name = .ok (bank.get register) :=
  load_of_answersTo register.answersTo_name bank

theorem store_name (bank : RegisterBank) (register : Register) (value : Int) :
    bank.store register.name value = .ok (bank.set register value) :=
  store_of_answersTo register.answersTo_name bank value

end RegisterBank

namespace State

/-- The effect of an operation. -/
def perform (state : State) : Operation → Effect
  | .push value => .proceed { state with queue := state.queue.enqueue value }
  | .operate operator => .proceed (state.operate operator)
  | .store register =>
      match state.queue.dequeue? with
      | none => .proceed state
      | some (value, rest) =>
          .proceed { state with queue := rest, registers := state.registers.set register value }
  | .load register =>
      match state.registers.get register with
      | none => .proceed state
      | some value => .proceed { state with queue := state.queue.enqueue value }
  | .print style =>
      match state.queue.dequeue? with
      | none => .proceed state
      | some (value, rest) => .output (printed style value) { state with queue := rest }
  | .printRegister style register =>
      match state.registers.get register with
      | none => .proceed state
      | some value => .output (printed style value) state
  | .mark label index => .proceed { state with labels := state.labels.bind label index }
  | .jump label => .proceed (state.jump label)
  | .jumpIfZero register label =>
      .proceed (if state.registers.get register = some 0 then state.jump label else state)
  | .jumpIf comparison left right label =>
      .proceed
        (if compares comparison (state.registers.get left) (state.registers.get right) then
          state.jump label
        else state)
  | .quit => .halt state

theorem loadOperand_name
    (state : State) (opcode : Opcode) (register : Register) (others : List String) :
    state.loadOperand ⟨opcode, register.name :: others⟩ = .ok (state.registers.get register) := by
  have first : Instruction.operand ⟨opcode, register.name :: others⟩ 0 = .ok register.name := rfl
  simp only [loadOperand, first, bind, Except.bind, RegisterBank.load_name]

/-- Executing an instruction is performing the operation that it denotes. -/
theorem execute_of_denotes
    {instruction : Instruction} {operation : Operation}
    (denotes : instruction.Denotes operation)
    (state : State) :
    state.execute instruction = state.perform operation := by
  cases denotes with
  | @push literal valid =>
      change state.attempt (do
        let value ← Numeral.parse literal
        return { state with queue := state.queue.enqueue value }) = _
      rw [Numeral.parse_of_isLiteral valid]
      rfl
  | operate => rfl
  | @store register =>
      match taken : state.queue.dequeue? with
      | none => simp only [execute, perform, taken]
      | some (value, rest) =>
          simp only [execute, perform, taken]
          change attempt _ (do
            let registers ← state.registers.store register.name value
            return { state with queue := rest, registers }) = _
          rw [RegisterBank.store_name]
          rfl
  | @load register =>
      change state.attempt (do
        match ← state.registers.load register.name with
        | none => return state
        | some value => return { state with queue := state.queue.enqueue value }) = _
      rw [RegisterBank.load_name, perform]
      cases state.registers.get register <;> rfl
  | print => rfl
  | @printRegister style register =>
      simp only [execute, loadOperand_name, perform]
      cases state.registers.get register <;> rfl
  | @mark text label index readable =>
      simp only [execute]
      rw [Instruction.binding_of_readText_eq_ok readable]
      rfl
  | jump => rfl
  | @jumpIfZero register label =>
      simp only [execute, jumpIfZero, RegisterBank.load_name, perform]
      rfl
  | @jumpIf comparison left right label =>
      simp only [execute, jumpIf, RegisterBank.load_name, perform]
      rfl
  | quit => rfl

theorem operate_eq (state : State) (operator : Operator) :
    ∃ queue, state.operate operator = { state with queue } := by
  unfold operate
  split
  · exact ⟨state.queue, rfl⟩
  · split
    · exact ⟨_, rfl⟩
    · exact ⟨_, rfl⟩

theorem jump_eq (state : State) (label : String) :
    ∃ pc, state.jump label = { state with pc } ∧
      (pc = state.pc ∨ state.labels.resolve? label = some pc) := by
  unfold jump
  split
  · rename_i target bound
    exact ⟨target, rfl, .inr bound⟩
  · exact ⟨state.pc, rfl, .inl rfl⟩

end State

namespace Operation

def jumpLabel? : Operation → Option String
  | .jump label => some label
  | .jumpIfZero _ label => some label
  | .jumpIf _ _ _ label => some label
  | _ => none

def rebind (table : LabelTable) : Operation → LabelTable
  | .mark label index => table.bind label index
  | _ => table

end Operation

namespace State

/-- Everything that an operation can do to the state besides the queue and the registers: a mark
binds its label, and a jump may move to what its label is bound to. -/
theorem state_perform (state : State) (operation : Operation) :
    ∃ queue registers pc,
      (state.perform operation).state =
          { state with queue, registers, pc, labels := operation.rebind state.labels } ∧
        (pc = state.pc ∨
          ∃ label, operation.jumpLabel? = some label ∧
            state.labels.resolve? label = some pc) := by
  have conditionalJump : ∀ (condition : Prop) [Decidable condition] (label : String),
      ∃ pc, (if condition then state.jump label else state) = { state with pc } ∧
        (pc = state.pc ∨ state.labels.resolve? label = some pc) := by
    intro condition _ label
    split
    · exact state.jump_eq label
    · exact ⟨state.pc, rfl, .inl rfl⟩
  cases operation with
  | push value => exact ⟨_, _, _, rfl, .inl rfl⟩
  | operate operator =>
      obtain ⟨queue, changed⟩ := state.operate_eq operator
      exact ⟨queue, _, _, changed, .inl rfl⟩
  | store register =>
      simp only [perform]
      split <;> exact ⟨_, _, _, rfl, .inl rfl⟩
  | load register =>
      simp only [perform]
      split <;> exact ⟨_, _, _, rfl, .inl rfl⟩
  | print style =>
      simp only [perform]
      split <;> exact ⟨_, _, _, rfl, .inl rfl⟩
  | printRegister style register =>
      simp only [perform]
      split <;> exact ⟨_, _, _, rfl, .inl rfl⟩
  | mark label index => exact ⟨_, _, _, rfl, .inl rfl⟩
  | jump label =>
      obtain ⟨pc, changed, reason⟩ := state.jump_eq label
      exact ⟨_, _, pc, changed, reason.imp_right fun bound => ⟨label, rfl, bound⟩⟩
  | jumpIfZero register label =>
      obtain ⟨pc, changed, reason⟩ := conditionalJump (state.registers.get register = some 0) label
      exact ⟨_, _, pc, changed, reason.imp_right fun bound => ⟨label, rfl, bound⟩⟩
  | jumpIf comparison left right label =>
      obtain ⟨pc, changed, reason⟩ := conditionalJump
        (compares comparison (state.registers.get left) (state.registers.get right) = true) label
      exact ⟨_, _, pc, changed, reason.imp_right fun bound => ⟨label, rfl, bound⟩⟩
  | quit => exact ⟨_, _, _, rfl, .inl rfl⟩

def after (state : State) (operation : Operation) : State :=
  let next := (state.perform operation).state.advance
  { next with halted := next.halted || operation == .quit }

theorem after_eq (state : State) (operation : Operation) :
    ∃ queue registers pc,
      state.after operation =
          { queue, registers, pc := pc + 1, labels := operation.rebind state.labels,
            steps := state.steps + 1, halted := state.halted || operation == .quit } ∧
        (pc = state.pc ∨
          ∃ label, operation.jumpLabel? = some label ∧
            state.labels.resolve? label = some pc) := by
  obtain ⟨queue, registers, pc, changed, reason⟩ := state.state_perform operation
  exact ⟨queue, registers, pc, by simp only [after, changed, advance], reason⟩

end State

namespace Instruction

/-- Whether the index of a mark has no more digits than can be read. -/
def Readable (instruction : Instruction) : Prop :=
  instruction.opcode = .mark →
    ∀ operand ∈ instruction.operands.head?, operand.toList.length ≤ Numeral.maxDigits

theorem readText_of_isUnsigned
    {text : String}
    (unsigned : Numeral.IsUnsigned text)
    (short : text.toList.length ≤ Numeral.maxDigits) :
    Numeral.readText text = .ok (Nat.ofDigitChars 10 text.toList 0 : Nat) := by
  have digits := (Numeral.isDigits_iff_isUnsigned text).mpr unsigned
  rw [Numeral.readText, Numeral.read_digits digits, if_neg (Nat.not_lt.mpr short)]

/-- The checks of a listing and the limit on digits are all that an instruction needs to denote an
operation. -/
theorem exists_denotes
    {instruction : Instruction}
    (wellFormed : instruction.WellFormed)
    (readable : instruction.Readable) :
    ∃ operation, instruction.Denotes operation := by
  rcases wellFormed.exists_command with
    ⟨command, sound, notMark, made⟩ | ⟨text, label, rfl, unsigned⟩
  · rw [← made 0]
    cases command with
    | push literal => exact ⟨_, .push (sound literal rfl)⟩
    | operate operator => exact ⟨_, .operate⟩
    | store register => exact ⟨_, .store⟩
    | load register => exact ⟨_, .load⟩
    | print style => exact ⟨_, .print⟩
    | printRegister style register => exact ⟨_, .printRegister⟩
    | mark label => cases notMark
    | jump label => exact ⟨_, .jump⟩
    | jumpIfZero register label => exact ⟨_, .jumpIfZero⟩
    | jumpIf comparison left right label => exact ⟨_, .jumpIf⟩
    | quit => exact ⟨_, .quit⟩
  · exact ⟨_, .mark (readText_of_isUnsigned unsigned (readable rfl text rfl))⟩

end Instruction

end QueueMachine
