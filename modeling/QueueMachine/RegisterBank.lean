import QueueMachine.Numeral.Limited

set_option autoImplicit false

/-!
The twenty-six registers, one for each letter `a` to `z`. A register is unset until the first store
to it, and unset is not the same as zero.

Programs made by the compiler name registers by their letters. Hand-written instructions may name
one by any character: the register is then counted from the letter `a`, and positions `-26` to `-1`
count back from the end of the bank.
-/

namespace QueueMachine

def registerCount : Nat := 26

abbrev Register := Fin registerCount

namespace Register

def letter (register : Register) : Char :=
  Char.ofNat (97 + register.val)

def name (register : Register) : String :=
  String.singleton register.letter

def ofLetter? (c : Char) : Option Register :=
  if h : 97 ≤ c.toNat ∧ c.toNat - 97 < registerCount then some ⟨c.toNat - 97, h.2⟩ else none

def ofName? (name : String) : Option Register :=
  match name.toList with
  | [c] => ofLetter? c
  | _ => none

def isName (name : String) : Bool :=
  (ofName? name).isSome

/-- How far a name of one character stands behind the letter `a`. -/
def position (name : String) : Except Fault Int :=
  match name.toList with
  | [c] => .ok ((c.toNat : Int) - 97)
  | cs => .error (.badRegisterName cs.length)

/-- The register at a position, where negative positions count back from the end. -/
def atPosition? (position : Int) : Option Register :=
  let counted := if position < 0 then position + registerCount else position
  if h : 0 ≤ counted ∧ counted.toNat < registerCount then some ⟨counted.toNat, h.2⟩ else none

end Register

structure RegisterBank where
  slots : Vector (Option Int) registerCount
  deriving DecidableEq, Repr

namespace RegisterBank

def empty : RegisterBank := ⟨Vector.replicate registerCount none⟩

def get (bank : RegisterBank) (register : Register) : Option Int :=
  bank.slots[register]

def set (bank : RegisterBank) (register : Register) (value : Int) : RegisterBank :=
  ⟨bank.slots.set register.val (some value) register.isLt⟩

def load (bank : RegisterBank) (name : String) : Except Fault (Option Int) := do
  let position ← Register.position name
  match Register.atPosition? position with
  | some register => return bank.get register
  | none => throw .noSuchPosition

def store (bank : RegisterBank) (name : String) (value : Int) : Except Fault RegisterBank := do
  let position ← Register.position name
  match Register.atPosition? position with
  | some register => return bank.set register value
  | none => throw .noSuchRegister

def isSet (bank : RegisterBank) (name : String) : Except Fault Bool := do
  let value ← bank.load name
  return value.isSome

/-- The set registers with their values, in alphabetical order. -/
def assignments (bank : RegisterBank) : List (String × Int) :=
  (List.finRange registerCount).filterMap fun register =>
    (bank.get register).map fun value => (register.name, value)

def describe (bank : RegisterBank) : Except Fault String := do
  let entries ← bank.assignments.mapM fun (name, value) => do
    let text ← Numeral.write value
    return Text.quote name ++ ": " ++ text
  return "RegisterBank(\x7b" ++ ", ".intercalate entries ++ "\x7d)"

end RegisterBank

end QueueMachine
