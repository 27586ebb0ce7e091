import QueueMachine.Numeral.Limited

set_option autoImplicit false

/-!
Literals of a program: an optional sign and one or more of the digits `0` to `9`. Parsing has no
bound on their number. A text of more than six hundred characters is cut in two halves, and again,
until each piece is short enough to be read as a numeral, and the values of the pieces are put
together by place value.
-/

namespace QueueMachine.Numeral

def isDigits (cs : List Char) : Bool :=
  !cs.isEmpty && cs.all Text.isAsciiDigit

def isLiteral (text : String) : Bool :=
  isDigits (splitSign text.toList).2

def isSign (c : Char) : Bool :=
  c == '+' || c == '-'

/-- The text in pieces of at most `pieceDigits` characters, made by halving it. -/
def textPieces (cs : List Char) : List (List Char) :=
  if cs.length ≤ pieceDigits then [cs]
  else
    textPieces (cs.take (cs.length - cs.length / 2)) ++
      textPieces (cs.drop (cs.length - cs.length / 2))
termination_by cs.length
decreasing_by
  · rename_i short
    simp only [pieceDigits, List.length_take] at short ⊢
    omega
  · rename_i short
    simp only [pieceDigits, List.length_drop] at short ⊢
    omega

/-- The value of pieces that stand one after another, given the value of what stands before. -/
def readPieces : Int → List (List Char) → Except Fault Int
  | total, [] => .ok total
  | total, piece :: rest =>
      match read piece with
      | .error fault => .error fault
      | .ok value => readPieces (total * placeValue piece.length + value) rest

/-- The value of a literal of any length. All leading signs are dropped, and the first one decides
the sign of the value. -/
def parse (text : String) : Except Fault Int :=
  match readPieces 0 (textPieces (text.toList.dropWhile isSign)) with
  | .error fault => .error fault
  | .ok value => .ok (if text.toList.head? = some '-' then -value else value)

end QueueMachine.Numeral
