import QueueMachine.Text.Blank

set_option autoImplicit false

/-!
Words of a program: its maximal runs of characters that are not blank, each with the line and the
column at which it starts. Lines are counted from one and end at line feeds only, columns are
counted from one in characters.
-/

namespace QueueMachine

structure Token where
  text : String
  line : Int
  column : Int
  deriving DecidableEq, Repr

namespace Token

structure Word where
  start : Nat
  characters : List Char

/-- The words of a text whose first character stands at the given offset. -/
def wordsFrom (offset : Nat) : List Char → List Word
  | [] => []
  | c :: rest =>
      if Text.isBlank c then wordsFrom (offset + 1) rest
      else
        let word := c :: rest.takeWhile (!Text.isBlank ·)
        ⟨offset, word⟩ :: wordsFrom (offset + word.length) (rest.dropWhile (!Text.isBlank ·))
termination_by cs => cs.length
decreasing_by
  · simp
  · have shorter := (List.dropWhile_suffix (l := rest) (!Text.isBlank ·)).length_le
    simp only [List.length_cons]
    omega

/-- How far the lines of a text have been counted. -/
structure LineCount where
  line : Nat := 1
  /-- The offset at which this line starts. -/
  lineStart : Nat := 0
  /-- The offset up to which the text has been searched, and the text from there on. -/
  searched : Nat := 0
  ahead : List Char

/-- Counts on to an offset. Only what has not been searched before is looked at. -/
def LineCount.advance (count : LineCount) (offset : Nat) : LineCount :=
  let window := count.ahead.take (offset - count.searched)
  let ahead := count.ahead.drop (offset - count.searched)
  let feeds := window.count '\n'
  if feeds = 0 then { count with searched := offset, ahead }
  else
    { line := count.line + feeds
      lineStart := offset - window.reverse.idxOf '\n'
      searched := offset
      ahead }

def locate : LineCount → List Word → List Token
  | _, [] => []
  | count, word :: rest =>
      let count := count.advance word.start
      ⟨String.ofList word.characters, count.line, word.start - count.lineStart + 1⟩ ::
        locate count rest

def scan (source : String) : List Token :=
  locate { ahead := source.toList } (wordsFrom 0 source.toList)

end Token

end QueueMachine
