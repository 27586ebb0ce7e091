import QueueMachine.Text.CharClass

set_option autoImplicit false

/-!
White space. Blanks separate the words of a program and surround the fields of a listing; they are
never part of either.
-/

namespace QueueMachine.Text

/-- The Unicode property `White_Space` together with the four information separators. -/
def blankClass : CharClass :=
  [(0x9, 0xd), (0x1c, 0x20), (0x85, 0x85), (0xa0, 0xa0), (0x1680, 0x1680), (0x2000, 0x200a),
    (0x2028, 0x2029), (0x202f, 0x202f), (0x205f, 0x205f), (0x3000, 0x3000)]

def isBlank (c : Char) : Bool :=
  blankClass.contains c

def trim (cs : List Char) : List Char :=
  ((cs.dropWhile isBlank).reverse.dropWhile isBlank).reverse

end QueueMachine.Text
