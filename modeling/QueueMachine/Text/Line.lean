import QueueMachine.Text.CharClass

set_option autoImplicit false

/-!
Lines of a text. A line ends at any of the line break characters, and a carriage return directly
before a line feed counts together with it as one break. A break ends a line and does not start
one, so a text that ends in a break has no empty last line.
-/

namespace QueueMachine.Text

/-- Line feed, vertical tab, form feed, carriage return, three information separators, next line,
and the line and paragraph separators. -/
def lineBreakClass : CharClass :=
  [(0xa, 0xd), (0x1c, 0x1e), (0x85, 0x85), (0x2028, 0x2029)]

def isLineBreak (c : Char) : Bool :=
  lineBreakClass.contains c

/-- Puts a character in front of the first line, opening that line if there is none. -/
def extendFirst (c : Char) : List (List Char) → List (List Char)
  | [] => [[c]]
  | line :: rest => (c :: line) :: rest

def lines : List Char → List (List Char)
  | [] => []
  | '\r' :: '\n' :: rest => [] :: lines rest
  | c :: rest => if isLineBreak c then [] :: lines rest else extendFirst c (lines rest)

/-- Every carriage return, alone or before a line feed, becomes one line feed. -/
def unifyBreaks : List Char → List Char
  | [] => []
  | '\r' :: '\n' :: rest => '\n' :: unifyBreaks rest
  | c :: rest => (if c = '\r' then '\n' else c) :: unifyBreaks rest

/-- The pieces of a text between the occurrences of a separator: one more than there are
separators. -/
def splitAtEach (separator : Char) : List Char → List (List Char)
  | [] => [[]]
  | c :: rest =>
      if c = separator then [] :: splitAtEach separator rest
      else extendFirst c (splitAtEach separator rest)

end QueueMachine.Text
