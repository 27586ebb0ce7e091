import QueueMachine.Fault
import QueueMachine.Numeral.Decimal
import QueueMachine.Text.Blank
import QueueMachine.Text.Digit

set_option autoImplicit false

/-!
Numerals with a bounded number of digits. A numeral is a run of decimal digits of any script, with
at most one underscore between two of them, behind an optional sign and inside optional padding. At
most 4300 digits are read, leading zeros included, and a number is written only if it has no more.
-/

namespace QueueMachine.Numeral

def maxDigits : Nat := 4300

/-- Blanks that may surround a numeral: all but the information separators. -/
def isPadding (c : Char) : Bool :=
  Text.isBlank c && !(0x1c ≤ c.toNat && c.toNat ≤ 0x1f)

def isRunChar (c : Char) : Bool :=
  Text.isDecimalDigit c || c == '_'

/-- Whether the text is one or more digits with single underscores between them. -/
def isDigitRun : List Char → Bool
  | [] => false
  | [c] => Text.isDecimalDigit c
  | c :: d :: rest =>
      Text.isDecimalDigit c &&
        if d = '_' then isDigitRun rest else isDigitRun (d :: rest)

def digitValues (cs : List Char) : List Nat :=
  cs.filterMap Text.digitValue?

def ofDigitValues (values : List Nat) : Nat :=
  values.foldl (fun total value => 10 * total + value) 0

/-- Whether the text starts with a minus sign, and the text behind its sign. -/
def splitSign : List Char → Bool × List Char
  | '-' :: rest => (true, rest)
  | '+' :: rest => (false, rest)
  | rest => (false, rest)

def withSign (negative : Bool) (magnitude : Nat) : Int :=
  if negative then -(magnitude : Int) else magnitude

/-- Reads a numeral. That the digits are too many is noticed before what follows them. -/
def read (cs : List Char) : Except Fault Int :=
  let (negative, body) := splitSign (cs.dropWhile isPadding)
  let run := body.takeWhile isRunChar
  let values := digitValues run
  if !isDigitRun run then .error (.badNumeral (String.ofList cs))
  else if maxDigits < values.length then .error (.unreadableNumeral values.length)
  else if (body.dropWhile isRunChar).all isPadding then
    .ok (withSign negative (ofDigitValues values))
  else .error (.badNumeral (String.ofList cs))

def readText (text : String) : Except Fault Int :=
  read text.toList

/-- The decimal text of an integer of at most 4300 digits. -/
def write (value : Int) : Except Fault String :=
  if value.natAbs < placeValue maxDigits then .ok (format value) else .error .unwritableNumber

end QueueMachine.Numeral
