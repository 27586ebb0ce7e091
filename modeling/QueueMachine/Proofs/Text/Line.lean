import QueueMachine.Text.Blank
import QueueMachine.Text.Line

set_option autoImplicit false

/-!
Taking texts apart and what the parts can hold. A line holds no line break and a field holds no
separator; texts that were put together from such lines and fields come apart into them again.
-/

namespace QueueMachine.Text

theorem isBlank_of_isLineBreak
    {c : Char}
    (lineBreak : isLineBreak c = true) :
    isBlank c = true := by
  simp only [isLineBreak, lineBreakClass, CharClass.contains, List.any_cons, List.any_nil,
    Bool.or_eq_true, Bool.and_eq_true, decide_eq_true_eq, Bool.false_eq_true, or_false] at lineBreak
  simp only [isBlank, blankClass, CharClass.contains, List.any_cons, List.any_nil,
    Bool.or_eq_true, Bool.and_eq_true, decide_eq_true_eq, Bool.false_eq_true, or_false]
  omega

theorem mem_extendFirst
    {c : Char} {line : List Char} {rest : List (List Char)}
    (member : line ∈ extendFirst c rest) :
    (∃ tail, line = c :: tail ∧ (tail = [] ∨ tail ∈ rest)) ∨ line ∈ rest := by
  cases rest with
  | nil => exact .inl ⟨[], by simpa [extendFirst] using member, .inl rfl⟩
  | cons first others =>
      rcases List.mem_cons.mp member with rfl | inOthers
      · exact .inl ⟨first, rfl, .inr (by simp)⟩
      · exact .inr (List.mem_cons_of_mem first inOthers)

theorem forall_mem_extendFirst
    {property : Char → Prop} {c : Char} {rest : List (List Char)}
    (first : property c)
    (others : ∀ line ∈ rest, ∀ d ∈ line, property d) :
    ∀ line ∈ extendFirst c rest, ∀ d ∈ line, property d := by
  intro line member d inLine
  rcases mem_extendFirst member with ⟨tail, rfl, nothing | inRest⟩ | inRest
  · subst nothing
    rw [List.mem_singleton.mp inLine]
    exact first
  · rcases List.mem_cons.mp inLine with rfl | inTail
    · exact first
    · exact others tail inRest d inTail
  · exact others line inRest d inLine

theorem isLineBreak_of_mem_lines (cs : List Char) :
    ∀ line ∈ lines cs, ∀ c ∈ line, isLineBreak c = false := by
  fun_induction lines cs with
  | case1 => simp
  | case2 rest inductionHypothesis => simpa using inductionHypothesis
  | case3 c rest notPair lineBreak inductionHypothesis => simpa using inductionHypothesis
  | case4 c rest notPair noBreak inductionHypothesis =>
      exact forall_mem_extendFirst (by simpa using noBreak) inductionHypothesis

theorem lines_cons_of_not_isLineBreak
    {c : Char} {rest : List Char}
    (noBreak : isLineBreak c = false) :
    lines (c :: rest) = extendFirst c (lines rest) := by
  have notReturn : c ≠ '\r' := by
    rintro rfl
    exact absurd noBreak (by decide)
  rw [lines.eq_3 c rest (fun _ isReturn _ => notReturn isReturn), noBreak]
  rfl

/-- The first line of a text reaches to the first line feed if no other break comes before. -/
theorem lines_append_lineFeed
    {line : List Char}
    (noBreak : ∀ c ∈ line, isLineBreak c = false)
    (rest : List Char) :
    lines (line ++ '\n' :: rest) = line :: lines rest := by
  induction line with
  | nil => rfl
  | cons c tail inductionHypothesis =>
      rw [List.cons_append, lines_cons_of_not_isLineBreak (noBreak c (by simp)),
        inductionHypothesis fun d member => noBreak d (List.mem_cons_of_mem c member)]
      rfl

theorem splitAtEach_ne_nil (separator : Char) (cs : List Char) :
    splitAtEach separator cs ≠ [] := by
  cases cs with
  | nil => simp [splitAtEach]
  | cons c rest =>
      rw [splitAtEach]
      split
      · simp
      · cases splitAtEach separator rest <;> simp [extendFirst]

theorem mem_of_mem_splitAtEach (separator : Char) (cs : List Char) :
    ∀ piece ∈ splitAtEach separator cs, ∀ c ∈ piece, c ∈ cs ∧ c ≠ separator := by
  induction cs with
  | nil => simp [splitAtEach]
  | cons c rest inductionHypothesis =>
      have widened : ∀ piece ∈ splitAtEach separator rest, ∀ d ∈ piece,
          d ∈ c :: rest ∧ d ≠ separator := by
        intro piece member d inPiece
        obtain ⟨inRest, different⟩ := inductionHypothesis piece member d inPiece
        exact ⟨List.mem_cons_of_mem c inRest, different⟩
      rw [splitAtEach]
      split
      · intro piece member d inPiece
        rcases List.mem_cons.mp member with rfl | inOthers
        · simp at inPiece
        · exact widened piece inOthers d inPiece
      · rename_i different
        exact forall_mem_extendFirst ⟨by simp, different⟩ widened

theorem splitAtEach_of_not_mem
    {separator : Char} {piece : List Char}
    (free : separator ∉ piece) :
    splitAtEach separator piece = [piece] := by
  induction piece with
  | nil => rfl
  | cons c rest inductionHypothesis =>
      simp only [List.mem_cons, not_or] at free
      rw [splitAtEach, if_neg (Ne.symm free.1), inductionHypothesis free.2]
      rfl

theorem splitAtEach_append
    {separator : Char} {piece : List Char}
    (free : separator ∉ piece)
    (rest : List Char) :
    splitAtEach separator (piece ++ separator :: rest) = piece :: splitAtEach separator rest := by
  induction piece with
  | nil => simp [splitAtEach]
  | cons c tail inductionHypothesis =>
      simp only [List.mem_cons, not_or] at free
      rw [List.cons_append, splitAtEach, if_neg (Ne.symm free.1), inductionHypothesis free.2]
      rfl

theorem splitAtEach_intercalate
    {separator : Char}
    (first : List Char)
    (others : List (List Char))
    (free : ∀ piece ∈ first :: others, separator ∉ piece) :
    splitAtEach separator ([separator].intercalate (first :: others)) = first :: others := by
  induction others generalizing first with
  | nil =>
      rw [List.intercalate_singleton]
      exact splitAtEach_of_not_mem (free first (by simp))
  | cons next others inductionHypothesis =>
      rw [List.intercalate_cons_cons, List.append_assoc, List.singleton_append,
        splitAtEach_append (free first (by simp)),
        inductionHypothesis next fun piece member => free piece (List.mem_cons_of_mem first member)]

theorem splitAtEach_flatMap_terminated
    {separator : Char} {pieces : List (List Char)}
    (free : ∀ piece ∈ pieces, separator ∉ piece) :
    splitAtEach separator (pieces.flatMap (· ++ [separator])) = pieces ++ [[]] := by
  induction pieces with
  | nil => rfl
  | cons piece others inductionHypothesis =>
      have othersFree := fun other member => free other (List.mem_cons_of_mem piece member)
      simp [splitAtEach_append (free piece (by simp)), inductionHypothesis othersFree]

theorem mem_of_mem_intercalate
    {separator c : Char} {pieces : List (List Char)}
    (member : c ∈ [separator].intercalate pieces) :
    c = separator ∨ ∃ piece ∈ pieces, c ∈ piece := by
  induction pieces with
  | nil => simp at member
  | cons first others inductionHypothesis =>
      cases others with
      | nil => exact .inr ⟨first, by simp, by simpa using member⟩
      | cons next others =>
          rw [List.intercalate_cons_cons, List.append_assoc] at member
          rcases List.mem_append.mp member with inFirst | behind
          · exact .inr ⟨first, by simp, inFirst⟩
          · rcases List.mem_append.mp behind with isSeparator | inOthers
            · exact .inl (List.mem_singleton.mp isSeparator)
            · rcases inductionHypothesis inOthers with equal | ⟨piece, inPieces, inPiece⟩
              · exact .inl equal
              · exact .inr ⟨piece, List.mem_cons_of_mem first inPieces, inPiece⟩

theorem unifyBreaks_of_not_mem
    {cs : List Char}
    (noReturn : '\r' ∉ cs) :
    unifyBreaks cs = cs := by
  fun_induction unifyBreaks cs with
  | case1 => rfl
  | case2 rest inductionHypothesis => simp at noReturn
  | case3 c rest notPair inductionHypothesis =>
      simp only [List.mem_cons, not_or] at noReturn
      rw [if_neg (Ne.symm noReturn.1), inductionHypothesis noReturn.2]

theorem dropWhile_isBlank_of_forall
    {cs : List Char}
    (noBlank : ∀ c ∈ cs, isBlank c = false) :
    cs.dropWhile isBlank = cs := by
  cases cs with
  | nil => rfl
  | cons c rest => simp [noBlank c (by simp)]

theorem trim_of_forall
    {cs : List Char}
    (noBlank : ∀ c ∈ cs, isBlank c = false) :
    trim cs = cs := by
  rw [trim, dropWhile_isBlank_of_forall noBlank, dropWhile_isBlank_of_forall (by simpa using noBlank),
    List.reverse_reverse]

theorem mem_dropWhile_isBlank
    {c : Char} {cs : List Char}
    (member : c ∈ cs)
    (noBlank : isBlank c = false) :
    c ∈ cs.dropWhile isBlank := by
  rw [← List.takeWhile_append_dropWhile (p := isBlank) (l := cs), List.mem_append] at member
  rcases member with inFront | behind
  · have blank := List.all_eq_true.mp (List.all_takeWhile (p := isBlank)) c inFront
    rw [noBlank] at blank
    cases blank
  · exact behind

theorem mem_trim
    {c : Char} {cs : List Char}
    (member : c ∈ cs)
    (noBlank : isBlank c = false) :
    c ∈ trim cs :=
  List.mem_reverse.mpr
    (mem_dropWhile_isBlank (List.mem_reverse.mpr (mem_dropWhile_isBlank member noBlank)) noBlank)

theorem mem_of_mem_trim
    {c : Char} {cs : List Char}
    (member : c ∈ trim cs) :
    c ∈ cs :=
  (List.dropWhile_suffix _).subset
    (List.mem_reverse.mp ((List.dropWhile_suffix _).subset (List.mem_reverse.mp member)))

end QueueMachine.Text
