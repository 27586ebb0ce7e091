set_option autoImplicit false

/-!
Arithmetic of the machine. Division rounds toward zero and a zero divisor gives zero for both the
quotient and the remainder.
-/

namespace QueueMachine.Arithmetic

def quotient (a b : Int) : Int :=
  if b = 0 then 0
  else
    let size : Nat := a.natAbs / b.natAbs
    if a < 0 ↔ b < 0 then size else -size

/-- The remainder that belongs to `quotient`; its sign is that of the dividend. -/
def remainder (a b : Int) : Int :=
  if b = 0 then 0
  else
    let size : Nat := a.natAbs % b.natAbs
    if 0 ≤ a then size else -size

/-- The second operand of an addition, subtraction or multiplication counts modulo this. -/
def operandModulus : Int := 65536

def characterModulus : Int := 256

/-- The code point written for a value: its remainder modulo 256, as an unsigned word of sixteen
bits when it is negative. -/
def characterCode (value : Int) : Int :=
  remainder value characterModulus % 65536

def character (value : Int) : Char :=
  Char.ofNat (characterCode value).toNat

end QueueMachine.Arithmetic
