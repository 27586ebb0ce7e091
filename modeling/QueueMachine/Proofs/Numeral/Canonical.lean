import QueueMachine.Proofs.Numeral.Reading

set_option autoImplicit false

/-!
Plain decimal text. Every number has exactly one run of digits that denotes it by place value and
has no zero in front that could be left out. The text of an integer of any size is that run, behind
a minus sign if the integer is negative, although it is put together from pieces. Parsing a literal
and writing its value takes away a plus sign, the zeros in front that say nothing and the sign of a
zero, and nothing else.
-/

namespace QueueMachine.Text

theorem isAsciiDigit_iff_between (c : Char) : isAsciiDigit c = true ↔ '0' ≤ c ∧ c ≤ '9' := by
  simp [isAsciiDigit]

theorem digitChar_of_isAsciiDigit
    {c : Char}
    (digit : isAsciiDigit c = true) :
    Nat.digitChar (c.toNat - 48) = c := by
  have range := (isAsciiDigit_iff c).mp digit
  apply Char.toNat_inj.mp
  rw [Nat.toNat_digitChar_of_lt_ten (by omega)]
  omega

end QueueMachine.Text

namespace QueueMachine.Numeral

/-- The number that digits denote: each counts for its value at the place where it stands. -/
def positionalValue : List Char → Nat
  | [] => 0
  | digit :: behind =>
      (digit.toNat - '0'.toNat) * placeValue behind.length + positionalValue behind

/-- Working through digits from the left, with ten times the total before each, adds up their place
values. -/
theorem ofDigitChars_eq_positionalValue (digits : List Char) (total : Nat) :
    Nat.ofDigitChars 10 digits total =
      total * placeValue digits.length + positionalValue digits := by
  induction digits generalizing total with
  | nil => simp [positionalValue, placeValue]
  | cons digit behind inductionHypothesis =>
      have tenfold : placeValue (behind.length + 1) = placeValue behind.length * 10 :=
        Nat.pow_succ 10 behind.length
      rw [Nat.ofDigitChars_cons, inductionHypothesis, positionalValue, List.length_cons, tenfold,
        Nat.add_mul, Nat.add_assoc, Nat.mul_comm 10 total, Nat.mul_assoc,
        Nat.mul_comm (placeValue behind.length) 10]

theorem ofDigitChars_zero (digits : List Char) :
    Nat.ofDigitChars 10 digits 0 = positionalValue digits := by
  rw [ofDigitChars_eq_positionalValue, Nat.zero_mul, Nat.zero_add]

/-- Digits behind those of a positive number are the digits of the number that they continue. -/
theorem toDigits_append_eq
    {total : Nat}
    (positive : 0 < total)
    {digits : List Char}
    (all : ∀ c ∈ digits, Text.isAsciiDigit c = true) :
    Nat.toDigits 10 total ++ digits = Nat.toDigits 10 (Nat.ofDigitChars 10 digits total) := by
  induction digits generalizing total with
  | nil => simp
  | cons digit behind inductionHypothesis =>
      rw [List.forall_mem_cons] at all
      have unit : digit.toNat - 48 < 10 := by
        have range := (Text.isAsciiDigit_iff digit).mp all.1
        omega
      have next : Nat.toDigits 10 total ++ [digit] =
          Nat.toDigits 10 (10 * total + (digit.toNat - 48)) := by
        rw [← Nat.toDigits_append_toDigits (by decide) positive unit, Nat.toDigits_of_lt_base unit,
          Text.digitChar_of_isAsciiDigit all.1]
      calc
        Nat.toDigits 10 total ++ digit :: behind =
            (Nat.toDigits 10 total ++ [digit]) ++ behind := by simp
        _ = Nat.toDigits 10 (10 * total + (digit.toNat - 48)) ++ behind := by rw [next]
        _ = Nat.toDigits 10 (Nat.ofDigitChars 10 (digit :: behind) total) :=
            inductionHypothesis (by omega) all.2

/-- Whether digits are the plain decimal digits of a number: there are some, each is one of `0` to
`9`, the first is a zero only if it is the only one, and they denote the number. -/
structure IsDecimal (digits : List Char) (n : Nat) : Prop where
  nonempty : digits ≠ []
  digit : ∀ c ∈ digits, '0' ≤ c ∧ c ≤ '9'
  leading : digits.head? = some '0' → digits = ['0']
  value : positionalValue digits = n

theorem head?_toDigits_ne_zero
    {n : Nat}
    (positive : 0 < n) :
    (Nat.toDigits 10 n).head? ≠ some '0' := by
  induction n using Nat.strongRecOn with
  | ind n inductionHypothesis =>
      by_cases small : n < 10
      · rw [Nat.toDigits_of_lt_base small, List.head?_cons, ne_eq, Option.some.injEq,
          Nat.digitChar_eq_zero]
        omega
      · have front := inductionHypothesis (n / 10) (by omega) (by omega)
        obtain ⟨first, others, form⟩ :=
          List.exists_cons_of_ne_nil (@Nat.toDigits_ne_nil (n / 10) 10)
        rw [form] at front
        rw [Nat.toDigits_of_base_le (by decide) (by omega), form]
        exact front

/-- A number has exactly one run of plain decimal digits. -/
theorem isDecimal_iff_eq_toDigits (digits : List Char) (n : Nat) :
    IsDecimal digits n ↔ digits = Nat.toDigits 10 n := by
  constructor
  · rintro ⟨nonempty, between, leading, rfl⟩
    have all : ∀ c ∈ digits, Text.isAsciiDigit c = true := fun c member =>
      (Text.isAsciiDigit_iff_between c).mpr (between c member)
    obtain ⟨first, behind, rfl⟩ := List.exists_cons_of_ne_nil nonempty
    by_cases zero : first = '0'
    · rw [leading (by rw [zero, List.head?_cons])]
      rfl
    · -- the first digit is the text of its own value, and the others continue it
      rw [List.forall_mem_cons] at all
      have range := (Text.isAsciiDigit_iff first).mp all.1
      have positive : 0 < first.toNat - 48 := by
        have notZero : first.toNat ≠ 48 := fun code => zero (Char.toNat_inj.mp code)
        omega
      have single : Nat.toDigits 10 (first.toNat - 48) = [first] := by
        rw [Nat.toDigits_of_lt_base (by omega), Text.digitChar_of_isAsciiDigit all.1]
      have continued := toDigits_append_eq positive all.2
      rw [single] at continued
      rw [← ofDigitChars_zero, Nat.ofDigitChars_cons, Nat.mul_zero, Nat.zero_add]
      exact continued
  · rintro rfl
    refine ⟨Nat.toDigits_ne_nil, ?_, ?_, ?_⟩
    · intro c member
      apply (Text.isAsciiDigit_iff_between c).mp
      exact ((isDigits_iff _).mp (isDigits_toDigits n)).2 c member
    · intro zero
      by_cases positive : 0 < n
      · exact absurd zero (head?_toDigits_ne_zero positive)
      · rw [Nat.eq_zero_of_not_pos positive, Nat.toDigits_zero]
    · rw [← ofDigitChars_zero, Nat.ofDigitChars_ten_toDigits]

def IsPlain (text : String) (value : Int) : Prop :=
  ∃ digits, IsDecimal digits value.natAbs ∧
    text = String.ofList (if value < 0 then '-' :: digits else digits)

theorem format_eq_ofList_toDigits (value : Int) :
    format value =
      String.ofList
        (if value < 0 then '-' :: Nat.toDigits 10 value.natAbs
          else Nat.toDigits 10 value.natAbs) := by
  rw [format, natDigits_eq_toDigits]
  split <;> rfl

theorem value_lt_pieceBound_of_mem_pieces (n width : Nat) :
    ∀ piece ∈ pieces n width, piece.value < pieceBound := by
  fun_induction pieces n width with
  | case1 n width small => simpa using small
  | case2 n width large inductionHigh inductionLow =>
      intro piece member
      rcases List.mem_append.mp member with high | low
      · exact inductionHigh piece high
      · exact inductionLow piece low

theorem exists_write_of_value_lt
    {piece : Piece}
    (small : piece.value < pieceBound) :
    ∃ text, write piece.value = .ok text ∧
      piece.digits = List.replicate (piece.width - text.length) '0' ++ text.toList := by
  have writable : (piece.value : Int).natAbs < placeValue maxDigits :=
    Nat.lt_of_lt_of_le small (placeValue_le_placeValue (by decide))
  refine ⟨format piece.value, if_pos writable, ?_⟩
  rw [← String.length_toList, toList_format_natCast]
  rfl

/-- The text of an integer of any size is its plain decimal text and no other is. It is put together
from the texts of pieces below `10 ^ 600`, each of which can be written within the limit on digits.
It is a literal, is parsed to the integer and belongs to no other. -/
theorem isPlain_iff_eq_format (value : Int) :
    (∀ text, IsPlain text value ↔ text = format value) ∧
      (value = 0 → format value = "0") ∧
      (format value).toList =
        (if value < 0 then ['-'] else []) ++ (pieces value.natAbs 0).flatMap Piece.digits ∧
      (∀ piece ∈ pieces value.natAbs 0,
        piece.value < placeValue 600 ∧
          ∃ text, write piece.value = .ok text ∧
            piece.digits = List.replicate (piece.width - text.length) '0' ++ text.toList) ∧
      isLiteral (format value) = true ∧
      parse (format value) = .ok value ∧
      ∀ other, format other = format value → other = value := by
  refine ⟨fun text => ?_, ?_, ?_, fun piece member => ?_, isLiteral_format value,
    parse_format value, fun other same => ?_⟩
  · rw [format_eq_ofList_toDigits]
    constructor
    · rintro ⟨digits, decimal, rfl⟩
      rw [(isDecimal_iff_eq_toDigits _ _).mp decimal]
    · rintro rfl
      exact ⟨_, (isDecimal_iff_eq_toDigits _ _).mpr rfl, rfl⟩
  · rintro rfl
    rw [format_eq_toString]
    rfl
  · rw [format, natDigits]
    split <;> simp
  · have small := value_lt_pieceBound_of_mem_pieces _ _ piece member
    exact ⟨small, exists_write_of_value_lt small⟩
  · have parsed := parse_format other
    rw [same, parse_format value] at parsed
    exact (Except.ok.inj parsed).symm

/-- A number that is too large to be written at once. -/
theorem isPlain_iff_eq_format_large :
    let value : Int := -(placeValue 700 : Nat)
    format value = String.ofList ('-' :: '1' :: List.replicate 700 '0') ∧
      ∀ piece ∈ pieces value.natAbs 0, piece.value < value.natAbs := by
  intro value
  obtain ⟨plain, -, -, small, -⟩ := isPlain_iff_eq_format value
  have decimal : IsDecimal ('1' :: List.replicate 700 '0') value.natAbs := by
    refine ⟨List.cons_ne_nil _ _, ?_, fun zero => ?_, by decide +kernel⟩
    · rw [List.forall_mem_cons]
      refine ⟨by decide, fun c member => ?_⟩
      rw [List.eq_of_mem_replicate member]
      decide
    · exact absurd (Option.some.inj zero) (by decide)
  have negative : value < 0 := by decide +kernel
  refine ⟨((plain _).mp ⟨_, decimal, by rw [if_pos negative]⟩).symm, fun piece member => ?_⟩
  exact Nat.lt_of_lt_of_le (small piece member).1 (by decide +kernel)

/-- The digits without the zeros in front that say nothing; of zeros alone, one is left. -/
def withoutLeadingZeros (digits : List Char) : List Char :=
  let significant := digits.dropWhile (· == '0')
  if significant.isEmpty then ['0'] else significant

theorem positionalValue_dropWhile_zero (digits : List Char) :
    positionalValue (digits.dropWhile (· == '0')) = positionalValue digits := by
  induction digits with
  | nil => rfl
  | cons digit behind inductionHypothesis =>
      by_cases zero : digit = '0'
      · rw [List.dropWhile_cons_of_pos (by simpa using zero), inductionHypothesis, positionalValue,
          zero, Nat.sub_self, Nat.zero_mul, Nat.zero_add]
      · rw [List.dropWhile_cons_of_neg (by simpa using zero)]

theorem isDecimal_withoutLeadingZeros
    {digits : List Char}
    (between : ∀ c ∈ digits, '0' ≤ c ∧ c ≤ '9') :
    IsDecimal (withoutLeadingZeros digits) (positionalValue digits) := by
  have kept := positionalValue_dropWhile_zero digits
  rw [withoutLeadingZeros]
  cases significant : digits.dropWhile (· == '0') with
  | nil =>
      rw [significant] at kept
      refine ⟨by simp, fun c member => ?_, fun _ => rfl, kept⟩
      rw [List.mem_singleton.mp member]
      decide
  | cons first behind =>
      have notZero := List.head?_dropWhile_not (· == '0') digits
      rw [significant] at kept notZero
      refine ⟨by simp, fun c member => ?_, fun zero => ?_, kept⟩
      · apply between c
        apply (List.dropWhile_suffix (· == '0')).subset
        rw [significant]
        exact member
      · cases zero
        cases notZero

def unsigned (text : String) : List Char :=
  text.toList.dropWhile isSign

theorem isDigits_unsigned
    {text : String}
    (literal : isLiteral text = true) :
    isDigits (unsigned text) = true := by
  rw [unsigned, (signs_of_isLiteral literal).1]
  exact literal

theorem exists_sign_append_unsigned
    {text : String}
    (literal : isLiteral text = true) :
    ∃ sign, text.toList = sign ++ unsigned text ∧
      (sign = [] ∨ sign = ['+'] ∨ sign = ['-']) := by
  rw [unsigned, (signs_of_isLiteral literal).1]
  rcases splitSign_cases text.toList with ⟨rest, form, parts⟩ | ⟨rest, form, parts⟩ | ⟨-, parts⟩
  · exact ⟨['-'], by rw [parts, form]; rfl, by simp⟩
  · exact ⟨['+'], by rw [parts, form]; rfl, by simp⟩
  · exact ⟨[], by rw [parts]; rfl, by simp⟩

theorem literalValue_eq_positionalValue
    {text : String}
    (literal : isLiteral text = true) :
    literalValue text =
      if text.toList.head? = some '-' then -(positionalValue (unsigned text) : Int)
      else positionalValue (unsigned text) := by
  obtain ⟨digits, negative⟩ := signs_of_isLiteral literal
  rw [literalValue, withSign, ofDigitChars_zero, unsigned, digits]
  simp only [negative]

/-- What is written for a number with a sign in front: nothing is left of the sign of a zero. -/
theorem format_withSign
    {digits : List Char} {n : Nat}
    (decimal : IsDecimal digits n)
    (negative : Prop) [Decidable negative]
    {value : Int}
    (signed : value = if negative then -(n : Int) else n) :
    format value =
      String.ofList (if negative ∧ value ≠ 0 then '-' :: digits else digits) := by
  have magnitude : value.natAbs = n := by
    rw [signed]
    split <;> omega
  have below : value < 0 ↔ negative ∧ value ≠ 0 := by
    by_cases sign : negative
    · rw [if_pos sign] at signed
      simp only [sign, true_and]
      omega
    · rw [if_neg sign] at signed
      simp only [sign, false_and, iff_false]
      omega
  rw [format_eq_ofList_toDigits, magnitude, ← (isDecimal_iff_eq_toDigits _ _).mp decimal]
  simp only [below]

/-- A literal of any length is parsed, to the number that its digits denote by place value, with its
sign. The pieces in which it is read are runs of digits, at most six hundred in each and never none,
and each is read within the limit on digits. What is written for the number is the literal without
a plus sign and without the zeros in front that say nothing, and with its minus sign only if the
number is not zero. -/
theorem parse_eq_positionalValue_of_isLiteral
    (text : String)
    (literal : isLiteral text = true) :
    (∃ sign, text.toList = sign ++ unsigned text ∧
        (sign = [] ∨ sign = ['+'] ∨ sign = ['-'])) ∧
      ∃ value, parse text = .ok value ∧
        (value =
          if text.toList.head? = some '-' then -(positionalValue (unsigned text) : Int)
          else positionalValue (unsigned text)) ∧
        (textPieces (unsigned text)).flatten = unsigned text ∧
        (∀ piece ∈ textPieces (unsigned text),
          piece ≠ [] ∧ piece.length ≤ 600 ∧ (∀ c ∈ piece, '0' ≤ c ∧ c ≤ '9') ∧
            read piece = .ok (positionalValue piece : Int)) ∧
        format value =
          String.ofList
            (if text.toList.head? = some '-' ∧ value ≠ 0 then
              '-' :: withoutLeadingZeros (unsigned text)
            else withoutLeadingZeros (unsigned text)) := by
  have digits := isDigits_unsigned literal
  have between : ∀ c ∈ unsigned text, '0' ≤ c ∧ c ≤ '9' := fun c member =>
    (Text.isAsciiDigit_iff_between c).mp (((isDigits_iff _).mp digits).2 c member)
  refine ⟨exists_sign_append_unsigned literal, literalValue text, parse_of_isLiteral literal,
    literalValue_eq_positionalValue literal, flatten_textPieces _, fun piece member => ?_,
    format_withSign (isDecimal_withoutLeadingZeros between) _
      (literalValue_eq_positionalValue literal)⟩
  have inPiece := isDigits_of_mem_textPieces digits piece member
  obtain ⟨nonempty, all⟩ := (isDigits_iff piece).mp inPiece
  have short := length_textPieces_le _ piece member
  have readable : ¬ maxDigits < piece.length :=
    Nat.not_lt.mpr (Nat.le_trans short (by decide))
  refine ⟨nonempty, short, fun c inside => (Text.isAsciiDigit_iff_between c).mp (all c inside), ?_⟩
  rw [read_digits inPiece, if_neg readable, ofDigitChars_zero]

/-- A literal that is too long to be read at once, and whose digits but the last say nothing. -/
theorem parse_eq_positionalValue_of_isLiteral_many_zeros :
    let digits := List.replicate 700 '0' ++ ['7']
    let text := String.ofList ('-' :: digits)
    isLiteral text = true ∧
      parse text = .ok (-7) ∧
      (∀ piece ∈ textPieces digits, piece.length < digits.length) ∧
      format (-7) = "-7" := by
  intro digits text
  have literal : isLiteral text = true := by
    rw [isLiteral, String.toList_ofList]
    decide +kernel
  have signless : unsigned text = digits := by
    rw [unsigned, String.toList_ofList]
    decide +kernel
  obtain ⟨-, value, parsed, signed, -, pieces, written⟩ :=
    parse_eq_positionalValue_of_isLiteral text literal
  rw [signless] at pieces signed written
  have negative : text.toList.head? = some '-' := by rw [String.toList_ofList, List.head?_cons]
  have known : value = -7 := by
    rw [signed, if_pos negative]
    decide +kernel
  rw [known] at parsed written
  refine ⟨literal, parsed, fun piece member => ?_, ?_⟩
  · exact Nat.lt_of_le_of_lt (pieces piece member).2.1 (by decide +kernel)
  · rw [written, if_pos ⟨negative, by decide⟩]
    decide +kernel

end QueueMachine.Numeral
