set_option autoImplicit false

/-!
Classes of characters given as closed ranges of code points. Every table of character data in this
library is a `CharClass`, and membership is the only question asked of one.
-/

namespace QueueMachine.Text

/-- Closed ranges of code points, in increasing order. -/
abbrev CharClass := List (Nat × Nat)

def CharClass.contains (ranges : CharClass) (c : Char) : Bool :=
  ranges.any fun (first, last) => first ≤ c.toNat && c.toNat ≤ last

end QueueMachine.Text
