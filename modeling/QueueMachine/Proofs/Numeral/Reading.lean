import QueueMachine.Numeral.Literal
import QueueMachine.Proofs.Numeral.Decimal

set_option autoImplicit false

/-!
Reading numerals back. A text of the digits `0` to `9` is read to the number it denotes, unless it
has more than 4300 digits, and that is the only way in which reading it can fail. A literal is
parsed to the number it denotes whatever its length, because every piece of it is short enough.
-/

namespace QueueMachine.Text

theorem isAsciiDigit_iff (c : Char) : isAsciiDigit c = true ↔ 48 ≤ c.toNat ∧ c.toNat ≤ 57 := by
  simp [isAsciiDigit, Char.le_def, UInt32.le_iff_toNat_le]

theorem digitValue?_of_isAsciiDigit
    {c : Char}
    (digit : isAsciiDigit c = true) :
    digitValue? c = some (c.toNat - 48) := by
  have range := (isAsciiDigit_iff c).mp digit
  simp only [digitValue?, scriptZeros, List.findSome?_cons]
  rw [if_pos (by omega)]

theorem isBlank_eq_false_of_isAsciiDigit
    {c : Char}
    (digit : isAsciiDigit c = true) :
    isBlank c = false := by
  have range := (isAsciiDigit_iff c).mp digit
  rw [← Bool.not_eq_true]
  simp only [isBlank, blankClass, CharClass.contains, List.any_cons, List.any_nil,
    Bool.or_eq_true, Bool.and_eq_true, decide_eq_true_eq, Bool.false_eq_true, or_false]
  omega

end QueueMachine.Text

namespace QueueMachine.Numeral

theorem isDigits_iff (cs : List Char) :
    isDigits cs = true ↔ cs ≠ [] ∧ ∀ c ∈ cs, Text.isAsciiDigit c = true := by
  simp [isDigits]

theorem dropWhile_digits
    {rejected : Char → Bool}
    {cs : List Char}
    (digits : ∀ c ∈ cs, Text.isAsciiDigit c = true)
    (disjoint : ∀ c, Text.isAsciiDigit c = true → rejected c = false) :
    cs.dropWhile rejected = cs := by
  cases cs with
  | nil => rfl
  | cons c rest => simp [disjoint c (digits c (by simp))]

theorem isPadding_of_isAsciiDigit
    {c : Char}
    (digit : Text.isAsciiDigit c = true) :
    isPadding c = false := by
  simp [isPadding, Text.isBlank_eq_false_of_isAsciiDigit digit]

theorem isSign_of_isAsciiDigit
    {c : Char}
    (digit : Text.isAsciiDigit c = true) :
    isSign c = false := by
  rw [isSign, Bool.or_eq_false_iff]
  constructor <;> rw [beq_eq_false_iff_ne] <;> rintro rfl <;> revert digit <;> decide

theorem isRunChar_of_isAsciiDigit
    {c : Char}
    (digit : Text.isAsciiDigit c = true) :
    isRunChar c = true := by
  simp [isRunChar, Text.isDecimalDigit, Text.digitValue?_of_isAsciiDigit digit]

theorem splitSign_digits
    {cs : List Char}
    (digits : ∀ c ∈ cs, Text.isAsciiDigit c = true) :
    splitSign cs = (false, cs) := by
  unfold splitSign
  split
  · rename_i rest
    exact absurd (digits '-' (by simp)) (by decide)
  · rename_i rest
    exact absurd (digits '+' (by simp)) (by decide)
  · rfl

theorem isDigitRun_digits
    {cs : List Char}
    (nonempty : cs ≠ [])
    (digits : ∀ c ∈ cs, Text.isAsciiDigit c = true) :
    isDigitRun cs = true := by
  have decimal : ∀ c ∈ cs, Text.isDecimalDigit c = true := by
    intro c member
    simp [Text.isDecimalDigit, Text.digitValue?_of_isAsciiDigit (digits c member)]
  fun_induction isDigitRun cs with
  | case1 => exact absurd rfl nonempty
  | case2 c => exact decimal c (by simp)
  | case3 c d rest inductionBehind inductionHypothesis =>
      have noUnderscore : d ≠ '_' := by
        rintro rfl
        exact absurd (digits '_' (by simp)) (by decide)
      rw [decimal c (by simp), Bool.true_and, if_neg noUnderscore]
      exact inductionHypothesis (by simp)
        (fun e member => digits e (List.mem_cons_of_mem c member))
        (fun e member => decimal e (List.mem_cons_of_mem c member))

theorem digitValues_digits
    {cs : List Char}
    (digits : ∀ c ∈ cs, Text.isAsciiDigit c = true) :
    digitValues cs = cs.map fun c => c.toNat - 48 := by
  induction cs with
  | nil => rfl
  | cons c rest inductionHypothesis =>
      rw [digitValues, List.filterMap_cons_some
        (Text.digitValue?_of_isAsciiDigit (digits c (by simp))), List.map_cons]
      exact congrArg _ (inductionHypothesis fun d member => digits d (List.mem_cons_of_mem c member))

theorem ofDigitValues_digitValues
    {cs : List Char}
    (digits : ∀ c ∈ cs, Text.isAsciiDigit c = true) :
    ofDigitValues (digitValues cs) = Nat.ofDigitChars 10 cs 0 := by
  rw [digitValues_digits digits, ofDigitValues, List.foldl_map]
  rfl

/-- The whole behaviour of reading on texts of digits. -/
theorem read_digits
    {cs : List Char}
    (digits : isDigits cs = true) :
    read cs =
      if maxDigits < cs.length then .error (.unreadableNumeral cs.length)
      else .ok (Nat.ofDigitChars 10 cs 0 : Nat) := by
  obtain ⟨nonempty, all⟩ := (isDigits_iff cs).mp digits
  have runAll : ∀ c ∈ cs, isRunChar c = true := fun c member =>
    isRunChar_of_isAsciiDigit (all c member)
  have unpadded : cs.dropWhile isPadding = cs :=
    dropWhile_digits all fun _ => isPadding_of_isAsciiDigit
  have run : cs.takeWhile isRunChar = cs := by
    simpa using @List.takeWhile_append_of_pos _ isRunChar cs [] runAll
  have behind : cs.dropWhile isRunChar = [] := by
    simpa using @List.dropWhile_append_of_pos _ isRunChar cs [] runAll
  have count : (digitValues cs).length = cs.length := by
    rw [digitValues_digits all, List.length_map]
  simp only [read, unpadded, splitSign_digits all, run, behind, isDigitRun_digits nonempty all,
    count, ofDigitValues_digitValues all]
  simp [withSign]

theorem isDigits_toDigits (n : Nat) : isDigits (Nat.toDigits 10 n) = true := by
  refine (isDigits_iff _).mpr ⟨Nat.toDigits_ne_nil, fun c member => ?_⟩
  have digit := Nat.isDigit_of_mem_toDigits (by decide) (by decide) member
  simpa [Text.isAsciiDigit, Char.isDigit, Char.le_def] using digit

theorem isAsciiDigit_of_mem_format_natCast (n : Nat) :
    ∀ c ∈ (format n).toList, Text.isAsciiDigit c = true := by
  rw [toList_format_natCast]
  exact ((isDigits_iff _).mp (isDigits_toDigits n)).2

theorem readText_format_natCast
    {n : Nat}
    (bounded : n < placeValue maxDigits) :
    readText (format n) = .ok (n : Int) := by
  have short : (Nat.toDigits 10 n).length ≤ maxDigits :=
    (length_toDigits_le_iff (by decide)).mpr bounded
  rw [readText, toList_format_natCast, read_digits (isDigits_toDigits n),
    if_neg (Nat.not_lt.mpr short), Nat.ofDigitChars_ten_toDigits]

theorem eq_of_readText_format_eq_ok
    {n : Nat} {value : Int}
    (readable : readText (format n) = .ok value) :
    value = n := by
  rw [readText, toList_format_natCast, read_digits (isDigits_toDigits n),
    Nat.ofDigitChars_ten_toDigits] at readable
  split at readable
  · cases readable
  · exact (Except.ok.inj readable).symm

theorem flatten_textPieces (cs : List Char) : (textPieces cs).flatten = cs := by
  fun_induction textPieces cs with
  | case1 cs short => simp
  | case2 cs long inductionFront inductionBack =>
      rw [List.flatten_append, inductionFront, inductionBack, List.take_append_drop]

theorem textPieces_ne_nil
    {cs : List Char}
    (nonempty : cs ≠ []) :
    ∀ piece ∈ textPieces cs, piece ≠ [] := by
  fun_induction textPieces cs with
  | case1 cs short => simpa using nonempty
  | case2 cs long inductionFront inductionBack =>
      simp only [pieceDigits] at long
      intro piece member
      rcases List.mem_append.mp member with front | back
      · refine inductionFront (fun nothing => ?_) piece front
        have lengths := congrArg List.length nothing
        simp only [List.length_take, List.length_nil] at lengths
        omega
      · refine inductionBack (fun nothing => ?_) piece back
        have lengths := congrArg List.length nothing
        simp only [List.length_drop, List.length_nil] at lengths
        omega

theorem length_textPieces_le (cs : List Char) :
    ∀ piece ∈ textPieces cs, piece.length ≤ pieceDigits := by
  fun_induction textPieces cs with
  | case1 cs short => simpa using short
  | case2 cs long inductionFront inductionBack =>
      intro piece member
      rcases List.mem_append.mp member with front | back
      · exact inductionFront piece front
      · exact inductionBack piece back

theorem isDigits_of_mem_textPieces
    {cs : List Char}
    (digits : isDigits cs = true) :
    ∀ piece ∈ textPieces cs, isDigits piece = true := by
  obtain ⟨nonempty, all⟩ := (isDigits_iff cs).mp digits
  intro piece member
  refine (isDigits_iff piece).mpr ⟨textPieces_ne_nil nonempty piece member, fun c inPiece => ?_⟩
  apply all c
  rw [← flatten_textPieces cs]
  exact List.mem_flatten.mpr ⟨piece, member, inPiece⟩

/-- Pieces of digits that are short enough are put together to the number that all their digits
denote, continuing the digits of the number before them. -/
theorem readPieces_digits
    (pieces : List (List Char))
    (total : Nat)
    (digits : ∀ piece ∈ pieces, isDigits piece = true)
    (short : ∀ piece ∈ pieces, piece.length ≤ maxDigits) :
    readPieces total pieces = .ok (Nat.ofDigitChars 10 pieces.flatten total : Nat) := by
  induction pieces generalizing total with
  | nil => rfl
  | cons piece rest inductionHypothesis =>
      have value : read piece = .ok (Nat.ofDigitChars 10 piece 0 : Nat) := by
        rw [read_digits (digits piece (by simp)), if_neg (Nat.not_lt.mpr (short piece (by simp)))]
      have shifted : (total : Int) * placeValue piece.length + Nat.ofDigitChars 10 piece 0 =
          (Nat.ofDigitChars 10 piece total : Nat) := by
        rw [@Nat.ofDigitChars_eq_ofDigitChars_zero piece total, Nat.mul_comm, Int.natCast_add,
          Int.natCast_mul]
        rfl
      simp only [readPieces, value, shifted, List.flatten_cons, Nat.ofDigitChars_append]
      exact inductionHypothesis _ (fun other member => digits other (List.mem_cons_of_mem _ member))
        (fun other member => short other (List.mem_cons_of_mem _ member))

def literalValue (text : String) : Int :=
  withSign (splitSign text.toList).1 (Nat.ofDigitChars 10 (splitSign text.toList).2 0)

theorem splitSign_cases (cs : List Char) :
    (∃ rest, cs = '-' :: rest ∧ splitSign cs = (true, rest)) ∨
      (∃ rest, cs = '+' :: rest ∧ splitSign cs = (false, rest)) ∨
      (cs.head? ≠ some '-' ∧ splitSign cs = (false, cs)) := by
  unfold splitSign
  split
  · exact .inl ⟨_, rfl, rfl⟩
  · exact .inr (.inl ⟨_, rfl, rfl⟩)
  · rename_i noMinus _
    refine .inr (.inr ⟨fun head => ?_, rfl⟩)
    obtain ⟨rest, rfl⟩ := List.head?_eq_some_iff.mp head
    exact noMinus rest rfl

/-- Dropping the signs of a literal and asking for its first character finds what splitting off one
sign does. -/
theorem signs_of_isLiteral
    {text : String}
    (literal : isLiteral text = true) :
    text.toList.dropWhile isSign = (splitSign text.toList).2 ∧
      (text.toList.head? = some '-' ↔ (splitSign text.toList).1 = true) := by
  obtain ⟨-, digits⟩ := (isDigits_iff _).mp literal
  have unsigned := dropWhile_digits digits fun _ => isSign_of_isAsciiDigit
  rcases splitSign_cases text.toList with ⟨rest, form, parts⟩ | ⟨rest, form, parts⟩ | ⟨head, parts⟩
  · rw [parts] at unsigned ⊢
    rw [form, List.dropWhile_cons_of_pos (by decide)]
    exact ⟨unsigned, by simp⟩
  · rw [parts] at unsigned ⊢
    rw [form, List.dropWhile_cons_of_pos (by decide)]
    exact ⟨unsigned, by simp⟩
  · rw [parts] at unsigned ⊢
    exact ⟨unsigned, by simp [head]⟩

/-- A literal of any length is parsed to the number it denotes. -/
theorem parse_of_isLiteral
    {text : String}
    (literal : isLiteral text = true) :
    parse text = .ok (literalValue text) := by
  obtain ⟨unsigned, negative⟩ := signs_of_isLiteral literal
  have whole := flatten_textPieces (splitSign text.toList).2
  have inPieces := isDigits_of_mem_textPieces literal
  have short : ∀ piece ∈ textPieces (splitSign text.toList).2, piece.length ≤ maxDigits :=
    fun piece member => Nat.le_trans (length_textPieces_le _ piece member) (by decide)
  have value := readPieces_digits _ 0 inPieces short
  rw [whole] at value
  rw [parse, unsigned]
  change readPieces 0 _ = _ at value
  simp only [value, negative, literalValue, withSign]

theorem splitSign_format (value : Int) :
    splitSign (format value).toList = (decide (value < 0), Nat.toDigits 10 value.natAbs) := by
  by_cases negative : value < 0
  · simp [format, negative, natDigits_eq_toDigits, splitSign]
  · have digits := ((isDigits_iff _).mp (isDigits_toDigits value.natAbs)).2
    simp [format, negative, natDigits_eq_toDigits, splitSign_digits digits]

theorem isLiteral_format (value : Int) : isLiteral (format value) = true := by
  rw [isLiteral, splitSign_format]
  exact isDigits_toDigits _

theorem literalValue_format (value : Int) : literalValue (format value) = value := by
  rw [literalValue, splitSign_format, Nat.ofDigitChars_ten_toDigits, withSign]
  by_cases negative : value < 0 <;> simp only [negative, decide_true, decide_false] <;> grind

theorem parse_format (value : Int) : parse (format value) = .ok value := by
  rw [parse_of_isLiteral (isLiteral_format value), literalValue_format]

theorem lineFeed_not_mem_format (value : Int) : '\n' ∉ (format value).toList := by
  intro member
  have inDigits : '\n' ∈ Nat.toDigits 10 value.natAbs := by
    by_cases negative : value < 0 <;> simpa [format, negative, natDigits_eq_toDigits] using member
  have digit := ((isDigits_iff _).mp (isDigits_toDigits value.natAbs)).2 _ inDigits
  exact absurd digit (by decide)

end QueueMachine.Numeral
