import QueueMachine.Text.Quoted

set_option autoImplicit false

/-!
What can go wrong inside the machine and its parts. A program made by the compiler never meets a
fault; hand-written instructions can, when an operand is missing, superfluous or malformed, and any
program can when its output goes to a stream that is already closed, or when it is shown on a
terminal that does not take one of its texts.
-/

namespace QueueMachine

inductive Fault where
  /-- The text is not a numeral. -/
  | badNumeral (text : String)
  /-- The text is a numeral with more digits than can be read. -/
  | unreadableNumeral (digits : Nat)
  /-- The number has more digits than can be written. -/
  | unwritableNumber
  /-- A register name must be one character. -/
  | badRegisterName (length : Nat)
  /-- No operand, register or instruction stands at the position asked for. -/
  | noSuchPosition
  /-- No register can be stored to at the position asked for. -/
  | noSuchRegister
  /-- The position does not fit a machine word. -/
  | hugePosition
  | tooFewOperands (expected got : Nat)
  | tooManyOperands (expected : Nat)
  | closedStream
  /-- A terminal does not take the text, for a reason of its own. -/
  | refusedText (reason : String)
  deriving DecidableEq, Repr

namespace Fault

/-- A malformed numeral is quoted in at most this many characters. -/
def maxQuoted : Nat := 200

def message : Fault → String
  | badNumeral text =>
      "invalid literal for int() with base 10: "
        ++ String.ofList ((Text.quote text).toList.take maxQuoted)
  | unreadableNumeral digits =>
      s!"Exceeds the limit (4300 digits) for integer string conversion: value has {digits} digits; "
        ++ "use sys.set_int_max_str_digits() to increase the limit"
  | unwritableNumber =>
      "Exceeds the limit (4300 digits) for integer string conversion; "
        ++ "use sys.set_int_max_str_digits() to increase the limit"
  | badRegisterName length => s!"ord() expected a character, but string of length {length} found"
  | noSuchPosition => "list index out of range"
  | noSuchRegister => "list assignment index out of range"
  | hugePosition => "cannot fit 'int' into an index-sized integer"
  | tooFewOperands expected got =>
      s!"not enough values to unpack (expected {expected}, got {got})"
  | tooManyOperands expected => s!"too many values to unpack (expected {expected})"
  | closedStream => "I/O operation on closed file"
  | refusedText reason => reason

end Fault

end QueueMachine
