import Mathlib.Data.List.Forall2
import Mathlib.Data.List.TakeWhile
import Mathlib.Order.Bounds.Basic
import QueueMachine.Proofs.Listing

set_option autoImplicit false

/-!
Which listings are refused, and where. A listing is read if and only if each of its lines is blank
or spells out an instruction; otherwise the complaint is about the first line that does neither.
Nothing that follows the end of this line makes a difference to the complaint.
-/

namespace QueueMachine

namespace Text

theorem trim_eq_nil_iff (cs : List Char) : trim cs = [] ↔ cs.all isBlank = true := by
  rw [trim, List.reverse_eq_nil_iff, List.dropWhile_eq_nil_iff, List.all_eq_true]
  constructor
  · intro behind c member
    rw [← List.takeWhile_append_dropWhile (p := isBlank) (l := cs), List.mem_append] at member
    rcases member with inFront | remaining
    · exact List.all_eq_true.mp List.all_takeWhile c inFront
    · exact behind c (List.mem_reverse.mpr remaining)
  · intro blank c member
    exact blank c ((List.dropWhile_suffix _).subset (List.mem_reverse.mp member))

def EndsLine (cs : List Char) : Prop :=
  ∃ c, cs.getLast? = some c ∧ isLineBreak c = true

theorem EndsLine.of_cons
    {c : Char} {cs : List Char}
    (ends : EndsLine (c :: cs))
    (more : cs ≠ []) :
    EndsLine cs := by
  obtain ⟨last, isLast, lineBreak⟩ := ends
  rw [List.getLast?_cons, List.getLast?_eq_some_getLast more] at isLast
  refine ⟨last, ?_, lineBreak⟩
  rw [List.getLast?_eq_some_getLast more]
  exact isLast

theorem lines_ne_nil
    {cs : List Char}
    (nonempty : cs ≠ []) :
    lines cs ≠ [] := by
  fun_cases lines cs with
  | case1 => exact absurd rfl nonempty
  | case2 rest => simp
  | case3 c rest notPair lineBreak => simp
  | case4 c rest notPair noBreak => cases lines rest <;> simp [extendFirst]

theorem lines_cons_of_isLineBreak
    {c : Char} {rest : List Char}
    (notPair : ∀ behind, c = '\r' → rest ≠ '\n' :: behind)
    (lineBreak : isLineBreak c = true) :
    lines (c :: rest) = [] :: lines rest := by
  rw [lines.eq_3 c rest notPair, if_pos lineBreak]

theorem exists_lines_cons_of_isLineBreak
    {c : Char}
    (lineBreak : isLineBreak c = true)
    (rest : List Char) :
    ∃ behind, lines (c :: rest) = [] :: lines behind := by
  by_cases pair : c = '\r' ∧ ∃ behind, rest = '\n' :: behind
  · obtain ⟨rfl, behind, rfl⟩ := pair
    exact ⟨behind, rfl⟩
  · refine ⟨rest, lines_cons_of_isLineBreak ?_ lineBreak⟩
    intro behind isReturn isFeed
    exact pair ⟨isReturn, behind, isFeed⟩

theorem extendFirst_prefix
    {first whole : List (List Char)}
    (c : Char)
    (nonempty : first ≠ [])
    (isPrefix : first <+: whole) :
    extendFirst c first <+: extendFirst c whole := by
  obtain ⟨later, rfl⟩ := isPrefix
  cases first with
  | nil => exact absurd rfl nonempty
  | cons line others => exact ⟨later, rfl⟩

theorem lines_prefix_lines_append
    {front : List Char}
    (ends : EndsLine front)
    (rest : List Char) :
    lines front <+: lines (front ++ rest) := by
  fun_induction lines front with
  | case1 =>
      obtain ⟨c, isLast, -⟩ := ends
      cases isLast
  | case2 others inductionHypothesis =>
      change _ <+: [] :: lines (others ++ rest)
      rw [List.prefix_cons_inj]
      by_cases nothing : others = []
      · subst nothing
        exact List.nil_prefix
      · exact inductionHypothesis ((ends.of_cons (by simp)).of_cons nothing)
  | case3 c others notPair lineBreak inductionHypothesis =>
      cases others with
      | nil =>
          -- The text that follows may complete the break to a pair, which is still one break.
          obtain ⟨behind, divided⟩ := exists_lines_cons_of_isLineBreak lineBreak rest
          rw [List.singleton_append, divided, List.prefix_cons_inj]
          exact List.nil_prefix
      | cons d others =>
          have stillNoPair : ∀ behind, c = '\r' → (d :: others) ++ rest ≠ '\n' :: behind := by
            intro behind isReturn isFeed
            cases isFeed
            exact notPair others isReturn rfl
          rw [List.cons_append, lines_cons_of_isLineBreak stillNoPair lineBreak,
            List.prefix_cons_inj]
          exact inductionHypothesis (ends.of_cons (by simp))
  | case4 c others notPair noBreak inductionHypothesis =>
      have more : others ≠ [] := by
        rintro rfl
        obtain ⟨last, isLast, lineBreak⟩ := ends
        cases isLast
        exact noBreak lineBreak
      rw [List.cons_append, lines_cons_of_not_isLineBreak (by simpa using noBreak)]
      exact extendFirst_prefix c (lines_ne_nil more) (inductionHypothesis (ends.of_cons more))

end Text

namespace Listing

/-- Whether a line spells out an instruction: the first of its fields is the name of the operation
code, blanks around it aside, and the others are well-formed operands just as they stand. -/
def Spells (line : List Char) (instruction : Instruction) : Prop :=
  ∃ field operands, Text.splitAtEach separator line = field :: operands ∧
    String.ofList (Text.trim field) = instruction.opcode.mnemonic ∧
    instruction.operands = operands.map String.ofList ∧ instruction.WellFormed

theorem parseLine_eq_ok_iff_spells (line : List Char) (instruction : Instruction) :
    parseLine line = .ok instruction ↔ Spells line instruction := by
  have named (field : List Char) :
      Opcode.ofMnemonic? (String.ofList (Text.trim field)) = some instruction.opcode ↔
        String.ofList (Text.trim field) = instruction.opcode.mnemonic :=
    ⟨Opcode.eq_mnemonic_of_ofMnemonic?_eq_some, fun same => same ▸ Opcode.ofMnemonic?_mnemonic _⟩
  simp only [parseLine_eq_ok_iff, named, Spells]

def Faulty (line : List Char) : Prop :=
  line.all Text.isBlank = false ∧ ¬ ∃ instruction, Spells line instruction

/-- The numbers of the faulty lines of a listing, counted from one. -/
def faultyLines (text : String) : Set Nat :=
  {number | ∃ position line, number = position + 1 ∧
    (Text.lines text.toList)[position]? = some line ∧ Faulty line}

theorem faulty_iff (line : List Char) :
    Faulty line ↔ (Text.trim line).isEmpty = false ∧ ∃ cause, parseLine line = .error cause := by
  have blank : line.all Text.isBlank = (Text.trim line).isEmpty := by
    rw [Bool.eq_iff_iff, ← Text.trim_eq_nil_iff, List.isEmpty_iff]
  rw [Faulty, blank]
  refine and_congr_right fun _ => ⟨fun unspelled => ?_, ?_⟩
  · cases read : parseLine line with
    | error cause => exact ⟨cause, rfl⟩
    | ok instruction =>
        exact absurd ⟨instruction, (parseLine_eq_ok_iff_spells _ _).mp read⟩ unspelled
  · rintro ⟨cause, refused⟩ ⟨instruction, spells⟩
    rw [(parseLine_eq_ok_iff_spells _ _).mpr spells] at refused
    cases refused

theorem parseLines_cons_of_faulty
    {line : List Char} {cause : Cause}
    (faulty : Faulty line)
    (refused : parseLine line = .error cause)
    (number : Nat) (rest : List (List Char)) :
    parseLines number (line :: rest) = .error ⟨number, cause⟩ := by
  have notBlank := ((faulty_iff line).mp faulty).1
  rw [parseLines, if_neg (by simp [notBlank]), refused]

theorem parseLines_cons_eq_error_iff
    {line : List Char}
    (faultless : ¬ Faulty line)
    (number : Nat) (rest : List (List Char)) (error : FormatError) :
    parseLines number (line :: rest) = .error error ↔
      parseLines (number + 1) rest = .error error := by
  rw [parseLines]
  split
  · exact Iff.rfl
  · rename_i notBlank
    cases read : parseLine line with
    | error cause =>
        exact absurd ((faulty_iff line).mpr ⟨by simpa using notBlank, cause, read⟩) faultless
    | ok instruction => cases parseLines (number + 1) rest <;> simp

theorem parseLines_append_of_faulty
    {before : List (List Char)} {line : List Char} {cause : Cause}
    (faultless : ∀ other ∈ before, ¬ Faulty other)
    (faulty : Faulty line)
    (refused : parseLine line = .error cause)
    (number : Nat) (after : List (List Char)) :
    parseLines number (before ++ line :: after) = .error ⟨number + before.length, cause⟩ := by
  induction before generalizing number with
  | nil => exact parseLines_cons_of_faulty faulty refused number after
  | cons first others inductionHypothesis =>
      rw [List.forall_mem_cons] at faultless
      rw [List.cons_append, parseLines_cons_eq_error_iff faultless.1,
        inductionHypothesis faultless.2, List.length_cons]
      congr 2
      omega

theorem exists_of_parseLines_eq_error
    {number : Nat} {lines : List (List Char)} {error : FormatError}
    (refused : parseLines number lines = .error error) :
    ∃ before line after, lines = before ++ line :: after ∧
      (∀ other ∈ before, ¬ Faulty other) ∧ Faulty line ∧
      error.line = number + before.length ∧ parseLine line = .error error.cause := by
  induction lines generalizing number with
  | nil => cases refused
  | cons first others inductionHypothesis =>
      by_cases faulty : Faulty first
      · obtain ⟨cause, unread⟩ := ((faulty_iff first).mp faulty).2
        rw [parseLines_cons_of_faulty faulty unread] at refused
        cases refused
        exact ⟨[], first, others, rfl, nofun, faulty, rfl, unread⟩
      · rw [parseLines_cons_eq_error_iff faulty] at refused
        obtain ⟨before, line, after, rfl, faultless, lineFaulty, place, unread⟩ :=
          inductionHypothesis refused
        refine ⟨first :: before, line, after, rfl, ?_, lineFaulty, ?_, unread⟩
        · exact List.forall_mem_cons.mpr ⟨faulty, faultless⟩
        · rw [place, List.length_cons]
          omega

/-- What a complaint tells: the line it names is the first faulty one of the listing. -/
theorem isLeast_faultyLines
    {text : String} {error : FormatError}
    (refused : parse text = .error error) :
    IsLeast (faultyLines text) error.line := by
  obtain ⟨before, line, after, divided, faultless, faulty, place, -⟩ :=
    exists_of_parseLines_eq_error refused
  refine ⟨⟨before.length, line, ?_, ?_, faulty⟩, ?_⟩
  · rw [place, Nat.add_comm]
  · rw [divided]
    simp
  · rintro number ⟨position, other, rfl, standing, otherFaulty⟩
    rw [place, Nat.add_comm]
    apply Nat.succ_le_succ
    apply Nat.le_of_not_lt
    intro earlier
    rw [divided, List.getElem?_append_left earlier] at standing
    exact faultless other (List.mem_of_getElem? standing) otherFaulty

/-- The text up to the end of the line that is complained about decides the complaint. -/
theorem parse_append_eq_error
    {text front rest : String} {error : FormatError}
    (refused : parse text = .error error)
    (divided : text = front ++ rest)
    (ends : Text.EndsLine front.toList)
    (reaches : error.line ≤ (Text.lines front.toList).length)
    (other : String) :
    parse (front ++ other) = .error error := by
  obtain ⟨before, line, after, lines, faultless, faulty, place, unread⟩ :=
    exists_of_parseLines_eq_error refused
  obtain ⟨later, prefixed⟩ : Text.lines front.toList <+: before ++ line :: after := by
    rw [← lines, divided, String.toList_append]
    exact Text.lines_prefix_lines_append ends rest.toList
  -- The text and `front` begin with the same lines, and `front` has the faulty one among its own.
  obtain ⟨more, same⟩ : before ++ [line] <+: Text.lines front.toList := by
    apply List.prefix_of_prefix_length_le ⟨after, by simp⟩ ⟨later, prefixed⟩
    simp only [List.length_append, List.length_singleton]
    omega
  obtain ⟨others, continued⟩ := Text.lines_prefix_lines_append ends other.toList
  have found : Text.lines (front ++ other).toList = before ++ line :: (more ++ others) := by
    rw [String.toList_append, ← continued, ← same]
    simp
  rw [parse, found, parseLines_append_of_faulty faultless faulty unread, ← place]

theorem filled_eq (lines : List (List Char)) :
    filled lines = lines.filter fun line => !line.all Text.isBlank := by
  apply List.filter_congr
  intro line _
  rw [Bool.eq_iff_iff]
  simp only [Bool.not_eq_true', ← Bool.not_eq_true, List.isEmpty_iff, Text.trim_eq_nil_iff]

theorem parse_eq_ok_iff_forall₂ (text : String) (instructions : List Instruction) :
    parse text = .ok instructions ↔
      List.Forall₂ Spells ((Text.lines text.toList).filter fun line => !line.all Text.isBlank)
        instructions := by
  rw [parse, parseLines_eq_ok_iff, filled_eq, ← List.forall₂_eq_eq_eq, List.forall₂_map_left_iff,
    List.forall₂_map_right_iff]
  simp only [parseLine_eq_ok_iff_spells]

theorem exists_parse_eq_error_iff (text : String) :
    (∃ error, parse text = .error error) ↔ (faultyLines text).Nonempty := by
  constructor
  · rintro ⟨error, refused⟩
    exact ⟨error.line, (isLeast_faultyLines refused).1⟩
  · rintro ⟨number, position, line, rfl, standing, notBlank, unspelled⟩
    cases read : parse text with
    | error error => exact ⟨error, rfl⟩
    | ok instructions =>
        have isFilled : line ∈ filled (Text.lines text.toList) := by
          rw [filled_eq, List.mem_filter, notBlank]
          exact ⟨List.mem_of_getElem? standing, rfl⟩
        obtain ⟨instruction, accepted⟩ := exists_of_mem_filled read isFilled
        exact absurd ⟨instruction, (parseLine_eq_ok_iff_spells _ _).mp accepted⟩ unspelled

theorem exists_parse_eq_ok_iff (text : String) :
    (∃ instructions, parse text = .ok instructions) ↔ faultyLines text = ∅ := by
  rw [← Set.not_nonempty_iff_eq_empty, ← exists_parse_eq_error_iff]
  cases parse text <;> simp

/-- A listing is read if and only if it has no faulty line, and then its lines, the blank ones left
out, spell out its instructions one by one. Otherwise the complaint names the first faulty line, and
is the same for every text that agrees up to the end of that line. -/
theorem parse_eq_ok_iff_spelled (text : String) :
    (∀ instructions,
      parse text = .ok instructions ↔
        List.Forall₂ Spells ((Text.lines text.toList).filter fun line => !line.all Text.isBlank)
          instructions) ∧
      ((∃ instructions, parse text = .ok instructions) ↔ faultyLines text = ∅) ∧
      ((∃ error, parse text = .error error) ↔ (faultyLines text).Nonempty) ∧
      ∀ error, parse text = .error error →
        IsLeast (faultyLines text) error.line ∧
          ∀ front rest, text = front ++ rest →
            Text.EndsLine front.toList →
            (Text.lines front.toList).length = error.line →
            ∀ other, parse (front ++ other) = .error error := by
  refine ⟨parse_eq_ok_iff_forall₂ text, exists_parse_eq_ok_iff text, exists_parse_eq_error_iff text,
    fun error refused => ⟨isLeast_faultyLines refused, ?_⟩⟩
  intro front rest divided ends reaches other
  exact parse_append_eq_error refused divided ends (Nat.le_of_eq reaches.symm) other

/-- Blank lines count, the break of two characters is one break, and the tab at the end of the fifth
line makes for a second operand, whatever is in the next line. -/
theorem parse_eq_ok_iff_spelled_trailing_tab :
    IsLeast (faultyLines " PRINT \r\n\t \n\x0bMARK\t007\t\u2028INPUT\t5\t\nQUIT\t") 5 ∧
      parse (" PRINT \r\n\t \n\x0bMARK\t007\t\u2028INPUT\t5\t\n" ++ "\nPRINT\n") =
        .error ⟨5, .wrongArity .input 2⟩ := by
  have refused : parse " PRINT \r\n\t \n\x0bMARK\t007\t\u2028INPUT\t5\t\nQUIT\t" =
      .error ⟨5, .wrongArity .input 2⟩ := rfl
  obtain ⟨least, same⟩ := (parse_eq_ok_iff_spelled _).2.2.2 _ refused
  exact ⟨least, same _ "QUIT\t" rfl ⟨'\n', rfl, rfl⟩ rfl _⟩

end Listing

end QueueMachine
