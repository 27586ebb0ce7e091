set_option autoImplicit false

/-!
Strict UTF-8 decoding. Bytes that are the encoding of a text decode to that text; any others are
refused with the position of the first bad sequence. A bad sequence starts at a byte that cannot
start a character, or at one that can and is not followed by the bytes it calls for; in the second
case the sequence is that byte with the following bytes that do fit.
-/

namespace QueueMachine.Text

inductive DecodingCause where
  | invalidStart
  | invalidContinuation
  | unexpectedEnd
  deriving DecidableEq, Repr

def DecodingCause.message : DecodingCause → String
  | .invalidStart => "invalid start byte"
  | .invalidContinuation => "invalid continuation byte"
  | .unexpectedEnd => "unexpected end of data"

/-- The first bad sequence of some bytes: where it starts, its first byte, how many bytes it has
and what is wrong with it. -/
structure DecodingFault where
  position : Nat
  byte : UInt8
  length : Nat
  cause : DecodingCause
  deriving DecidableEq, Repr

/-- The ranges that the bytes after a first byte must lie in; no range for a byte that stands
alone, and no answer for a byte that starts no character. -/
def continuationRanges? (byte : UInt8) : Option (List (UInt8 × UInt8)) :=
  let tail : UInt8 × UInt8 := (0x80, 0xbf)
  if byte ≤ 0x7f then some []
  else if byte < 0xc2 then none
  else if byte ≤ 0xdf then some [tail]
  else if byte = 0xe0 then some [(0xa0, 0xbf), tail]
  else if byte = 0xed then some [(0x80, 0x9f), tail]
  else if byte ≤ 0xef then some [tail, tail]
  else if byte = 0xf0 then some [(0x90, 0xbf), tail, tail]
  else if byte ≤ 0xf3 then some [tail, tail, tail]
  else if byte = 0xf4 then some [(0x80, 0x8f), tail, tail]
  else none

/-- How many of the given bytes fit the ranges, and what stops the rest from fitting. -/
def matchRanges : List (UInt8 × UInt8) → List UInt8 → Nat × Option DecodingCause
  | [], _ => (0, none)
  | _ :: _, [] => (0, some .unexpectedEnd)
  | (first, last) :: ranges, byte :: bytes =>
      if first ≤ byte ∧ byte ≤ last then
        let (fitting, stop) := matchRanges ranges bytes
        (fitting + 1, stop)
      else (0, some .invalidContinuation)

/-- The first bad sequence of the bytes, the first of which stands at the given position. -/
def firstFault? (position : Nat) : List UInt8 → Option DecodingFault
  | [] => none
  | byte :: bytes =>
      match continuationRanges? byte with
      | none => some ⟨position, byte, 1, .invalidStart⟩
      | some ranges =>
          match matchRanges ranges bytes with
          | (fitting, some cause) => some ⟨position, byte, fitting + 1, cause⟩
          | (fitting, none) => firstFault? (position + fitting + 1) (bytes.drop fitting)
termination_by bytes => bytes.length
decreasing_by simp only [List.length_drop, List.length_cons]; omega

/-- The text of a byte sequence, with a description of the first bad sequence when there is none. -/
def decodeUtf8 (bytes : ByteArray) : Except DecodingFault String :=
  match String.fromUTF8? bytes with
  | some text => .ok text
  | none => .error ((firstFault? 0 bytes.toList).getD ⟨0, 0, 1, .invalidStart⟩)

def encodeUtf8 (text : String) : ByteArray :=
  text.toUTF8

theorem decodeUtf8_encodeUtf8 (text : String) : decodeUtf8 (encodeUtf8 text) = .ok text := by
  have decoded : String.fromUTF8? (encodeUtf8 text) = some text := dif_pos text.isValidUTF8
  rw [decodeUtf8, decoded]

end QueueMachine.Text
