import QueueMachine.CommandLine.Flag
import QueueMachine.Text.Digit

set_option autoImplicit false

/-!
Arguments of the command line. An argument that starts with a dash is an option, unless it is the
dash alone, looks like a negative number, or has a space in it and names no option. A value may be
attached to an option: behind an equals sign, or directly behind a name of one letter. A long name
may be shortened as long as it stays unambiguous. Two dashes alone make everything behind them
plain.
-/

namespace QueueMachine.CommandLine

structure Attachment where
  text : List Char
  /-- Whether an equals sign stands between the name and the text. -/
  divided : Bool
  deriving DecidableEq, Repr

inductive Argument where
  | plain (text : String)
  | separator
  /-- An option by its full name, with what is attached to it. -/
  | option (flag : Flag) (name : String) (attachment : Option Attachment)
  | unknownOption (text : String)
  deriving DecidableEq, Repr

namespace Argument

def splitAtEquals (cs : List Char) : List Char × Option Attachment :=
  (cs.takeWhile (· ≠ '='),
    (cs.dropWhile (· ≠ '=')).tail?.map fun text => { text, divided := true })

def isNumberBody (cs : List Char) : Bool :=
  let behind := cs.dropWhile Text.isDecimalDigit
  match behind with
  | [] => !cs.isEmpty
  | '.' :: fraction => !fraction.isEmpty && fraction.all Text.isDecimalDigit
  | _ => false

/-- Whether the text is a minus sign and a number with an optional decimal point. One line feed at
the end does not count. -/
def looksNegative : List Char → Bool
  | '-' :: body =>
      isNumberBody (if body.getLast? = some '\n' then body.dropLast else body)
  | _ => false

/-- The options that a text with a dash may mean when it is not exactly a name, each with its full
name and the attachment. -/
def candidates (cs : List Char) : List Argument :=
  match cs with
  | '-' :: '-' :: _ =>
      let (start, attachment) := splitAtEquals cs
      (Flag.table.filter fun (name, _) => start.isPrefixOf name.toList).map fun (name, flag) =>
        .option flag name attachment
  | dash :: letter :: rest =>
      let short := String.ofList [dash, letter]
      match Flag.ofName? short with
      | some flag => [.option flag short (some { text := rest, divided := false })]
      | none => []
  | _ => []

def optionName? : Argument → Option String
  | .option _ name _ => some name
  | _ => none

/-- Reads an argument that starts with a dash and names no option exactly. The complaint is that
more than one option may be meant. -/
def ofDashed (text : String) : Except String Argument :=
  let cs := text.toList
  let (start, attachment) := splitAtEquals cs
  let start := String.ofList start
  match Flag.ofName? start, attachment with
  | some flag, some value => .ok (.option flag start (some value))
  | _, _ =>
      match candidates cs with
      | [argument] => .ok argument
      | [] =>
          .ok (if looksNegative cs ∨ cs.contains ' ' then .plain text else .unknownOption text)
      | several =>
          let names := ", ".intercalate (several.filterMap optionName?)
          .error s!"ambiguous option: {text} could match {names}"

def ofText (text : String) : Except String Argument :=
  match text.toList with
  | '-' :: _ :: _ =>
      match Flag.ofName? text with
      | some flag => .ok (.option flag text none)
      | none => ofDashed text
  | _ => .ok (.plain text)

/-- Reads all arguments; behind the first separator all of them are plain. -/
def ofTexts : List String → Except String (List Argument)
  | [] => .ok []
  | text :: rest =>
      if text = "--" then .ok (.separator :: rest.map .plain)
      else do
        let argument ← ofText text
        return argument :: (← ofTexts rest)

end Argument

end QueueMachine.CommandLine
