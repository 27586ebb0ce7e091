import QueueMachine.Text.Printable

set_option autoImplicit false

/-!
Quoted text, as it appears inside messages. The quote is the apostrophe, unless the text holds an
apostrophe and no double quote. The quote and the backslash are escaped, tab, line feed and
carriage return have short escapes, and any other unprintable character is written by its code
point in two, four or eight hexadecimal digits.
-/

namespace QueueMachine.Text

def apostrophe : Char := '\x27'

def doubleQuote : Char := '\x22'

def backslash : Char := '\x5c'

def quoteMark (cs : List Char) : Char :=
  if cs.contains apostrophe && !cs.contains doubleQuote then doubleQuote else apostrophe

/-- Lower-case hexadecimal digits, filled with zeros on the left to the given width. -/
def hexadecimal (width n : Nat) : List Char :=
  let digits := Nat.toDigits 16 n
  List.replicate (width - digits.length) '0' ++ digits

def escapeCode (c : Char) : List Char :=
  if c.toNat ≤ 0xff then backslash :: 'x' :: hexadecimal 2 c.toNat
  else if c.toNat ≤ 0xffff then backslash :: 'u' :: hexadecimal 4 c.toNat
  else backslash :: 'U' :: hexadecimal 8 c.toNat

def escapeWithin (mark c : Char) : List Char :=
  if c = mark ∨ c = backslash then [backslash, c]
  else if c = '\t' then [backslash, 't']
  else if c = '\n' then [backslash, 'n']
  else if c = '\r' then [backslash, 'r']
  else if isPrintable c then [c]
  else escapeCode c

def quote (text : String) : String :=
  let cs := text.toList
  let mark := quoteMark cs
  String.ofList (mark :: cs.flatMap (escapeWithin mark) ++ [mark])

end QueueMachine.Text
