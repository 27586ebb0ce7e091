import QueueMachine.Command
import QueueMachine.Token

set_option autoImplicit false

/-!
Programs and their compilation. Compiling goes through the words of a source once and makes at most
one instruction of each. A label is bound to the index of its mark, and each instruction remembers
the word it came from. A `Compiler` can be used again: instructions and labels pile up over its
uses.
-/

namespace QueueMachine

/-- Where an instruction came from: the word, its place in the source and its number among the
words of one compilation. -/
structure Origin where
  file : String
  line : Int
  column : Int
  tokenIndex : Nat
  token : String
  deriving DecidableEq, Repr

structure Statement where
  instruction : Instruction
  origin : Option Origin := none
  deriving DecidableEq, Repr

def standardInputName : String := "<stdin>"

structure Program where
  statements : Array Statement
  labels : LabelTable
  sourceName : String := standardInputName
  deriving DecidableEq

namespace Program

def instructions (program : Program) : List Instruction :=
  program.statements.toList.map Statement.instruction

def size (program : Program) : Nat :=
  program.statements.size

/-- Whether two programs have the same instructions and labels, wherever they came from. -/
def same (first second : Program) : Bool :=
  first.instructions == second.instructions && first.labels.same second.labels

def ofInstructions
    (instructions : List Instruction)
    (labels : LabelTable)
    (sourceName : String) : Program where
  statements := (instructions.map fun instruction => { instruction }).toArray
  labels
  sourceName

end Program

structure Compiler where
  sourceName : String := standardInputName
  statements : Array Statement := #[]
  labels : LabelTable := .empty
  /-- How many words of the current source have been read. -/
  cursor : Nat := 0

namespace Compiler

def emit
    (compiler : Compiler)
    (instruction : Instruction)
    (origin : Option Origin) : Compiler :=
  { compiler with statements := compiler.statements.push { instruction, origin } }

def compileCommand
    (compiler : Compiler)
    (command : Command)
    (origin : Option Origin) : Compiler :=
  let index := compiler.statements.size
  let labels :=
    match command.declares? with
    | some label => compiler.labels.bind label index
    | none => compiler.labels
  emit { compiler with labels } (command.instruction index) origin

def compileWord
    (compiler : Compiler)
    (word : String)
    (origin : Option Origin) : Compiler :=
  match Command.ofWord? word with
  | some command => compiler.compileCommand command origin
  | none => compiler

def compileToken (compiler : Compiler) (token : Token) : Compiler :=
  let origin : Origin :=
    { file := compiler.sourceName
      line := token.line
      column := token.column
      tokenIndex := compiler.cursor
      token := token.text }
  { compiler.compileWord token.text (some origin) with cursor := compiler.cursor + 1 }

def compile (compiler : Compiler) (tokens : List Token) : Compiler :=
  { tokens.foldl compileToken compiler with cursor := 0 }

def program (compiler : Compiler) : Program where
  statements := compiler.statements
  labels := compiler.labels
  sourceName := compiler.sourceName

end Compiler

def Program.ofSource (source sourceName : String) : Program :=
  (({ sourceName : Compiler }).compile (Token.scan source)).program

end QueueMachine
