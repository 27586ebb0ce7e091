import QueueMachine.Instruction
import QueueMachine.Numeral.Literal
import QueueMachine.RegisterBank

set_option autoImplicit false

/-!
Commands: what one word of a program means. A word is a literal, or is read from its first
character; a word that is neither means nothing and is passed over. Characters after the end of a
complete command are ignored.
-/

namespace QueueMachine

inductive Command where
  | push (literal : String)
  | operate (operator : Operator)
  | store (register : Register)
  | load (register : Register)
  | print (style : PrintStyle)
  | printRegister (style : PrintStyle) (register : Register)
  | mark (label : String)
  | jump (label : String)
  | jumpIfZero (register : Register) (label : String)
  | jumpIf (comparison : Comparison) (left right : Register) (label : String)
  | quit
  deriving DecidableEq, Repr

namespace Command

def withRegister (command : Register → Command) : List Char → Option Command
  | [] => none
  | c :: _ => (Register.ofLetter? c).map command

/-- A printing command: of a register if anything follows, else of the head of the queue. -/
def printing (style : PrintStyle) (rest : List Char) : Option Command :=
  if rest.isEmpty then some (.print style) else withRegister (.printRegister style) rest

def conditional (comparison : Comparison) : List Char → Option Command
  | c :: d :: label => do
      let left ← Register.ofLetter? c
      let right ← Register.ofLetter? d
      return .jumpIf comparison left right (String.ofList label)
  | _ => none

/-- The command of a word that is not a literal, from its first character and the rest. -/
def ofHead? (head : Char) (rest : List Char) : Option Command :=
  match Operator.ofSymbol? head with
  | some operator => some (.operate operator)
  | none =>
      match head with
      | '>' => withRegister .store rest
      | '<' => withRegister .load rest
      | 'P' => printing .number rest
      | 'C' => printing .character rest
      | ':' => some (.mark (String.ofList rest))
      | 'J' => some (.jump (String.ofList rest))
      | 'Z' => withRegister (fun register => .jumpIfZero register (String.ofList rest.tail)) rest
      | 'E' => conditional .equal rest
      | 'G' => conditional .more rest
      | 'Q' => some .quit
      | _ => none

def ofWord? (word : String) : Option Command :=
  if Numeral.isLiteral word then some (.push word)
  else
    match word.toList with
    | [] => none
    | head :: rest => ofHead? head rest

def instruction (index : Nat) : Command → Instruction
  | .push literal => ⟨.input, [literal]⟩
  | .operate operator => ⟨.operate operator, []⟩
  | .store register => ⟨.store, [register.name]⟩
  | .load register => ⟨.load, [register.name]⟩
  | .print style => ⟨.print style, []⟩
  | .printRegister style register => ⟨.printRegister style, [register.name]⟩
  | .mark label => ⟨.mark, [Numeral.format index, label]⟩
  | .jump label => ⟨.jump, [label]⟩
  | .jumpIfZero register label => ⟨.jumpIfZero, [register.name, label]⟩
  | .jumpIf comparison left right label => ⟨.jumpIf comparison, [left.name, right.name, label]⟩
  | .quit => ⟨.quit, []⟩

def declares? : Command → Option String
  | .mark label => some label
  | _ => none

end Command

end QueueMachine
