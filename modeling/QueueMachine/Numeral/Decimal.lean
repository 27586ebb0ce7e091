set_option autoImplicit false

/-!
Decimal text of integers of any size. A number of more than six hundred digits is cut in two at
about half its digits, and again, until every piece is below `10 ^ 600`; the text is that of the
pieces one after another, each but the first filled with zeros to the width its place calls for.
-/

namespace QueueMachine.Numeral

/-- What a digit counts for when the given number of digits stand behind it: a power of ten. -/
def placeValue (behind : Nat) : Nat :=
  Nat.pow 10 behind

theorem placeValue_pos (behind : Nat) : 0 < placeValue behind :=
  Nat.pow_pos (by decide)

theorem placeValue_le_placeValue
    {fewer more : Nat}
    (ordered : fewer ≤ more) :
    placeValue fewer ≤ placeValue more :=
  Nat.pow_le_pow_right (by decide) ordered

def pieceDigits : Nat := 600

def pieceBound : Nat := placeValue pieceDigits

/-- How many digits the lower piece of a large number gets: about half of them all, as a number of
`b` bits has about `0.3 * b` digits. -/
def lowerWidth (n : Nat) : Nat :=
  (n.log2 + 1) * 3 / 20

theorem thousand_le_pieceBound : 1000 ≤ pieceBound :=
  placeValue_le_placeValue (show 3 ≤ pieceDigits by decide)

theorem log2_ge_of_large
    {n : Nat}
    (large : pieceBound ≤ n) :
    7 ≤ n.log2 :=
  (Nat.le_log2 (by have := thousand_le_pieceBound; omega)).mpr
    (by have := thousand_le_pieceBound; omega)

theorem lowerWidth_pos
    {n : Nat}
    (large : pieceBound ≤ n) :
    0 < lowerWidth n := by
  have bits := log2_ge_of_large large
  unfold lowerWidth
  omega

theorem placeValue_lowerWidth_le
    {n : Nat}
    (large : pieceBound ≤ n) :
    placeValue (lowerWidth n) ≤ n := by
  have bits := log2_ge_of_large large
  have sixteen : placeValue (lowerWidth n) ≤ Nat.pow (Nat.pow 2 4) (lowerWidth n) :=
    Nat.pow_le_pow_left (by decide) _
  have regrouped : Nat.pow (Nat.pow 2 4) (lowerWidth n) = Nat.pow 2 (4 * lowerWidth n) :=
    (Nat.pow_mul 2 4 _).symm
  have fewer : Nat.pow 2 (4 * lowerWidth n) ≤ Nat.pow 2 n.log2 :=
    Nat.pow_le_pow_right (by decide) (by unfold lowerWidth; omega)
  have below : Nat.pow 2 n.log2 ≤ n :=
    Nat.log2_self_le (by have := thousand_le_pieceBound; omega)
  omega

/-- A number together with the least number of digits it is written with. -/
structure Piece where
  value : Nat
  width : Nat
  deriving DecidableEq, Repr

/-- The pieces of a number written with at least the given number of digits, highest first. -/
def pieces (n width : Nat) : List Piece :=
  if n < pieceBound then [⟨n, width⟩]
  else
    pieces (n / placeValue (lowerWidth n)) (width - lowerWidth n) ++
      pieces (n % placeValue (lowerWidth n)) (lowerWidth n)
termination_by n
decreasing_by
  · rename_i small
    have large : pieceBound ≤ n := Nat.le_of_not_lt small
    have positive : 0 < n := by have := thousand_le_pieceBound; omega
    exact Nat.div_lt_self positive
      (Nat.one_lt_pow (Nat.ne_of_gt (lowerWidth_pos large)) (by decide))
  · rename_i small
    have large : pieceBound ≤ n := Nat.le_of_not_lt small
    exact Nat.lt_of_lt_of_le (Nat.mod_lt _ (placeValue_pos _)) (placeValue_lowerWidth_le large)

/-- The decimal digits of a piece, filled with zeros on the left to its width. -/
def Piece.digits (piece : Piece) : List Char :=
  let digits := Nat.toDigits 10 piece.value
  List.replicate (piece.width - digits.length) '0' ++ digits

def natDigits (n : Nat) : List Char :=
  (pieces n 0).flatMap Piece.digits

def format (value : Int) : String :=
  if value < 0 then String.ofList ('-' :: natDigits value.natAbs)
  else String.ofList (natDigits value.natAbs)

end QueueMachine.Numeral
