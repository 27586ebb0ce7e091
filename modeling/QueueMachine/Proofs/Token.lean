import QueueMachine.Token

set_option autoImplicit false

/-!
The words of a text. Their lines and columns are those that a count over single characters gives. A
word holds no blank. Without their places, the words are the same wherever
the text starts, and a blank divides them: the words of a text are those before the blank and then
those behind it. So words that are joined by blanks come back as they were, and striking words out
leaves the others.
-/

namespace QueueMachine.Token

/-- The words of a text whose first character stands at the given line and column, counted character
by character. -/
def scanFrom (line column : Nat) : List Char → List Token
  | [] => []
  | c :: rest =>
      if c = '\n' then scanFrom (line + 1) 1 rest
      else if Text.isBlank c then scanFrom line (column + 1) rest
      else
        let word := c :: rest.takeWhile (!Text.isBlank ·)
        ⟨String.ofList word, line, column⟩ ::
          scanFrom line (column + word.length) (rest.dropWhile (!Text.isBlank ·))
termination_by cs => cs.length
decreasing_by
  · simp
  · simp
  · have shorter := (List.dropWhile_suffix (l := rest) (!Text.isBlank ·)).length_le
    simp only [List.length_cons]
    omega

theorem isBlank_of_mem_cons_takeWhile
    {c : Char}
    (notBlank : ¬ Text.isBlank c = true)
    (rest : List Char) :
    ∀ d ∈ c :: rest.takeWhile (!Text.isBlank ·), Text.isBlank d = false := by
  rw [List.forall_mem_cons]
  refine ⟨by simpa using notBlank, fun d member => ?_⟩
  simpa using List.all_eq_true.mp (List.all_takeWhile (p := (!Text.isBlank ·))) d member

theorem cons_eq_append_dropWhile (c : Char) (rest : List Char) :
    c :: rest =
      (c :: rest.takeWhile (!Text.isBlank ·)) ++ rest.dropWhile (!Text.isBlank ·) := by
  rw [List.cons_append, List.takeWhile_append_dropWhile]

theorem lineFeed_not_mem
    {word : List Char}
    (noBlank : ∀ c ∈ word, Text.isBlank c = false) :
    '\n' ∉ word :=
  fun member => absurd (noBlank _ member) (by decide)

namespace LineCount

/-- Whether counting on to an offset leads over a gap to the given line and column, with the given
text behind. -/
structure Reaches
    (count : LineCount)
    (offset line column : Nat)
    (gap rest : List Char) : Prop where
  ahead_eq : count.ahead = gap ++ rest
  offset_eq : offset = count.searched + gap.length
  line_eq : (count.advance offset).line = line
  column_eq : (count.advance offset).lineStart + column = offset + 1

theorem advance_append
    {count : LineCount} {gap rest : List Char}
    (ahead_eq : count.ahead = gap ++ rest) :
    count.advance (count.searched + gap.length) =
      if gap.count '\n' = 0 then
        { count with searched := count.searched + gap.length, ahead := rest }
      else
        { line := count.line + gap.count '\n'
          lineStart := count.searched + gap.length - gap.reverse.idxOf '\n'
          searched := count.searched + gap.length
          ahead := rest } := by
  simp only [advance, Nat.add_sub_cancel_left, ahead_eq, List.take_left, List.drop_left]

theorem reaches_of_ahead (cs : List Char) : Reaches { ahead := cs } 0 1 1 [] cs :=
  ⟨rfl, rfl, rfl, rfl⟩

theorem Reaches.lineFeed
    {count : LineCount} {offset line column : Nat} {gap rest : List Char}
    (reaches : count.Reaches offset line column gap ('\n' :: rest)) :
    count.Reaches (offset + 1) (line + 1) 1 (gap ++ ['\n']) rest := by
  obtain ⟨ahead_eq, rfl, line_eq, -⟩ := reaches
  have behind : count.ahead = (gap ++ ['\n']) ++ rest := by rw [ahead_eq, List.append_cons]
  have advanced := advance_append behind
  rw [List.length_append, List.length_singleton, ← Nat.add_assoc, if_neg (by simp)] at advanced
  rw [advance_append ahead_eq] at line_eq
  refine ⟨behind, by simp [Nat.add_assoc], ?_, ?_⟩
  · rw [advanced, ← line_eq]
    by_cases none : gap.count '\n' = 0
    · simp [none]
    · simp [none, Nat.add_assoc]
  · rw [advanced]
    simp

theorem Reaches.character
    {count : LineCount} {offset line column : Nat} {c : Char} {gap rest : List Char}
    (reaches : count.Reaches offset line column gap (c :: rest))
    (notFeed : c ≠ '\n') :
    count.Reaches (offset + 1) line (column + 1) (gap ++ [c]) rest := by
  obtain ⟨ahead_eq, rfl, line_eq, column_eq⟩ := reaches
  have behind : count.ahead = (gap ++ [c]) ++ rest := by rw [ahead_eq, List.append_cons]
  have advanced := advance_append behind
  have feeds : (gap ++ [c]).count '\n' = gap.count '\n' := by simp [notFeed]
  have distance : (gap ++ [c]).reverse.idxOf '\n' = gap.reverse.idxOf '\n' + 1 := by
    rw [List.reverse_append, List.reverse_singleton, List.singleton_append, List.idxOf_cons,
      beq_false_of_ne notFeed, cond_false]
  rw [List.length_append, ← Nat.add_assoc, feeds, distance, List.length_singleton,
    Nat.add_sub_add_right] at advanced
  rw [advance_append ahead_eq] at line_eq column_eq
  refine ⟨behind, by simp [Nat.add_assoc], ?_, ?_⟩
  · rw [advanced, ← line_eq]
    by_cases none : gap.count '\n' = 0
    · rw [if_pos none, if_pos none]
    · rw [if_neg none, if_neg none]
  · rw [advanced, ← Nat.add_assoc, ← column_eq]
    by_cases none : gap.count '\n' = 0
    · rw [if_pos none, if_pos none]
    · rw [if_neg none, if_neg none]

/-- Counting goes on from a word, which holds no line feed, as if it had been searched. -/
theorem Reaches.word
    {count : LineCount} {offset line column : Nat} {gap word rest : List Char}
    (reaches : count.Reaches offset line column gap (word ++ rest))
    (noFeed : '\n' ∉ word) :
    (count.advance offset).Reaches (offset + word.length) line (column + word.length) word rest := by
  obtain ⟨ahead_eq, rfl, line_eq, column_eq⟩ := reaches
  have searched : (count.advance (count.searched + gap.length)).searched =
      count.searched + gap.length := by
    rw [advance_append ahead_eq]
    split <;> rfl
  have ahead : (count.advance (count.searched + gap.length)).ahead = word ++ rest := by
    rw [advance_append ahead_eq]
    split <;> rfl
  have advanced := advance_append ahead
  rw [searched, if_pos (List.count_eq_zero.mpr noFeed)] at advanced
  refine ⟨ahead, by rw [searched], ?_, ?_⟩
  · rw [advanced]
    exact line_eq
  · rw [advanced]
    dsimp only
    omega

end LineCount

/-- Counting lines from word to word gives the places that counting character by character gives. -/
theorem locate_wordsFrom
    {count : LineCount} {offset line column : Nat} {gap rest : List Char}
    (reaches : count.Reaches offset line column gap rest) :
    locate count (wordsFrom offset rest) = scanFrom line column rest := by
  fun_induction scanFrom line column rest generalizing count offset gap with
  | case1 line column =>
      rw [wordsFrom]
      rfl
  | case2 line column rest inductionHypothesis =>
      rw [wordsFrom, if_pos (by decide)]
      exact inductionHypothesis reaches.lineFeed
  | case3 line column c rest notFeed blank inductionHypothesis =>
      rw [wordsFrom, if_pos blank]
      exact inductionHypothesis (reaches.character notFeed)
  | case4 line column c rest notFeed notBlank word =>
      rename_i inductionHypothesis
      have noFeed := lineFeed_not_mem (isBlank_of_mem_cons_takeWhile notBlank rest)
      have column_eq := reaches.column_eq
      rw [cons_eq_append_dropWhile] at reaches
      have place : (offset : Int) - (count.advance offset).lineStart + 1 = column := by omega
      rw [wordsFrom, if_neg notBlank, locate, inductionHypothesis (reaches.word noFeed)]
      dsimp only
      rw [reaches.line_eq, place]

theorem scan_eq_scanFrom (source : String) : scan source = scanFrom 1 1 source.toList :=
  locate_wordsFrom (LineCount.reaches_of_ahead source.toList)

theorem isBlank_of_mem_scanFrom (line column : Nat) (cs : List Char) :
    ∀ token ∈ scanFrom line column cs, ∀ c ∈ token.text.toList, Text.isBlank c = false := by
  fun_induction scanFrom line column cs with
  | case1 => simp
  | case2 line column rest inductionHypothesis => exact inductionHypothesis
  | case3 line column c rest notFeed blank inductionHypothesis => exact inductionHypothesis
  | case4 line column c rest notFeed notBlank word inductionHypothesis =>
      intro token member d inToken
      rcases List.mem_cons.mp member with rfl | later
      · rw [String.toList_ofList] at inToken
        exact isBlank_of_mem_cons_takeWhile notBlank rest d inToken
      · exact inductionHypothesis token later d inToken

theorem isBlank_of_mem_scan (source : String) :
    ∀ token ∈ scan source, ∀ c ∈ token.text.toList, Text.isBlank c = false := by
  rw [scan_eq_scanFrom]
  exact isBlank_of_mem_scanFrom 1 1 source.toList

theorem length_scanFrom_le (line column : Nat) (cs : List Char) :
    (scanFrom line column cs).length ≤ cs.length := by
  fun_induction scanFrom line column cs with
  | case1 => exact Nat.le_refl 0
  | case2 line column rest inductionHypothesis => exact Nat.le_succ_of_le inductionHypothesis
  | case3 line column c rest notFeed blank inductionHypothesis =>
      exact Nat.le_succ_of_le inductionHypothesis
  | case4 line column c rest notFeed notBlank word inductionHypothesis =>
      have shorter := (List.dropWhile_suffix (l := rest) (!Text.isBlank ·)).length_le
      exact Nat.succ_le_succ (Nat.le_trans inductionHypothesis shorter)

theorem length_scan_le (source : String) : (scan source).length ≤ source.toList.length := by
  rw [scan_eq_scanFrom]
  exact length_scanFrom_le 1 1 source.toList

def words : List Char → List String
  | [] => []
  | c :: rest =>
      if Text.isBlank c then words rest
      else
        String.ofList (c :: rest.takeWhile (!Text.isBlank ·)) ::
          words (rest.dropWhile (!Text.isBlank ·))
termination_by cs => cs.length
decreasing_by
  · simp
  · have shorter := (List.dropWhile_suffix (l := rest) (!Text.isBlank ·)).length_le
    simp only [List.length_cons]
    omega

theorem words_nil : words [] = [] := by
  rw [words]

theorem words_cons_of_isBlank
    {c : Char}
    (blank : Text.isBlank c = true)
    (rest : List Char) :
    words (c :: rest) = words rest := by
  rw [words, if_pos blank]

theorem map_text_scanFrom (line column : Nat) (cs : List Char) :
    (scanFrom line column cs).map text = words cs := by
  fun_induction scanFrom line column cs with
  | case1 => rw [words_nil, List.map_nil]
  | case2 line column rest inductionHypothesis =>
      rw [inductionHypothesis, words_cons_of_isBlank (by decide)]
  | case3 line column c rest notFeed blank inductionHypothesis =>
      rw [inductionHypothesis, words_cons_of_isBlank blank]
  | case4 line column c rest notFeed notBlank word inductionHypothesis =>
      rw [List.map_cons, inductionHypothesis, words, if_neg notBlank]

theorem map_text_scan (source : String) : (scan source).map text = words source.toList := by
  rw [scan_eq_scanFrom]
  exact map_text_scanFrom 1 1 source.toList

/-- Whether a word can end in front of a text: the text starts with a blank, if with anything. -/
def Divided (cs : List Char) : Prop :=
  ∀ c ∈ cs.head?, Text.isBlank c = true

theorem divided_dropWhile (cs : List Char) : Divided (cs.dropWhile (!Text.isBlank ·)) := by
  intro c first
  have rejected := List.head?_dropWhile_not (!Text.isBlank ·) cs
  rw [Option.mem_def.mp first] at rejected
  simpa using rejected

theorem words_append
    {word rest : List Char}
    (nonempty : word ≠ [])
    (noBlank : ∀ c ∈ word, Text.isBlank c = false)
    (divided : Divided rest) :
    words (word ++ rest) = String.ofList word :: words rest := by
  obtain ⟨c, tail, rfl⟩ := List.exists_cons_of_ne_nil nonempty
  rw [List.forall_mem_cons] at noBlank
  have inWord : ∀ d ∈ tail, (!Text.isBlank d) = true := by simpa using noBlank.2
  have behindTaken : rest.takeWhile (!Text.isBlank ·) = [] := by
    cases rest with
    | nil => rfl
    | cons d behind => simp [divided d rfl]
  have behindLeft : rest.dropWhile (!Text.isBlank ·) = rest := by
    cases rest with
    | nil => rfl
    | cons d behind => simp [divided d rfl]
  rw [List.cons_append, words, if_neg (by simp [noBlank.1]), List.takeWhile_append_of_pos inWord,
    List.dropWhile_append_of_pos inWord, behindTaken, behindLeft, List.append_nil]

theorem words_append_cons_of_isBlank
    {c : Char}
    (blank : Text.isBlank c = true)
    (cs rest : List Char) :
    words (cs ++ c :: rest) = words cs ++ words rest := by
  fun_induction words cs with
  | case1 => exact words_cons_of_isBlank blank rest
  | case2 d cs blankToo inductionHypothesis =>
      rw [List.cons_append, words_cons_of_isBlank blankToo, inductionHypothesis]
  | case3 d cs notBlank inductionHypothesis =>
      have noBlank := isBlank_of_mem_cons_takeWhile notBlank cs
      have divided : Divided (cs.dropWhile (!Text.isBlank ·) ++ c :: rest) := by
        have first := divided_dropWhile cs
        cases left : cs.dropWhile (!Text.isBlank ·) with
        | nil =>
            rintro e ⟨⟩
            exact blank
        | cons e behind =>
            rw [left] at first
            exact first
      rw [cons_eq_append_dropWhile d cs, List.append_assoc, words_append (by simp) noBlank divided,
        inductionHypothesis, List.cons_append]

theorem words_blanks_append
    {gap : List Char}
    (blank : ∀ c ∈ gap, Text.isBlank c = true)
    (rest : List Char) :
    words (gap ++ rest) = words rest := by
  induction gap with
  | nil => rfl
  | cons c gap inductionHypothesis =>
      rw [List.forall_mem_cons] at blank
      rw [List.cons_append, words_cons_of_isBlank blank.1, inductionHypothesis blank.2]

theorem words_append_blanks_append
    {gap : List Char}
    (nonempty : gap ≠ [])
    (blank : ∀ c ∈ gap, Text.isBlank c = true)
    (first second : List Char) :
    words (first ++ gap ++ second) = words first ++ words second := by
  obtain ⟨c, gap, rfl⟩ := List.exists_cons_of_ne_nil nonempty
  rw [List.forall_mem_cons] at blank
  rw [List.append_assoc, List.cons_append, words_append_cons_of_isBlank blank.1,
    words_blanks_append blank.2]

theorem words_intercalate
    {parts : List (List Char)}
    (nonempty : ∀ part ∈ parts, part ≠ [])
    (noBlank : ∀ part ∈ parts, ∀ c ∈ part, Text.isBlank c = false) :
    words ([' '].intercalate parts) = parts.map String.ofList := by
  induction parts with
  | nil => exact words_nil
  | cons first others inductionHypothesis =>
      rw [List.forall_mem_cons] at nonempty noBlank
      have alone : words first = [String.ofList first] := by
        have single := @words_append first [] nonempty.1 noBlank.1 nofun
        rwa [List.append_nil, words_nil] at single
      cases others with
      | nil => rw [List.intercalate_singleton, alone, List.map_singleton]
      | cons next others =>
          rw [List.intercalate_cons_cons, List.append_assoc, List.singleton_append,
            words_append_cons_of_isBlank (by decide), alone,
            inductionHypothesis nonempty.2 noBlank.2]
          rfl

/-- What is left of a text when the words that are picked are struck out, given where its first
character stands. The blanks stay. -/
def strikeFrom (picked : Token → Bool) (line column : Nat) : List Char → List Char
  | [] => []
  | c :: rest =>
      if c = '\n' then c :: strikeFrom picked (line + 1) 1 rest
      else if Text.isBlank c then c :: strikeFrom picked line (column + 1) rest
      else
        let word := c :: rest.takeWhile (!Text.isBlank ·)
        let behind :=
          strikeFrom picked line (column + word.length) (rest.dropWhile (!Text.isBlank ·))
        if picked ⟨String.ofList word, line, column⟩ then behind else word ++ behind
termination_by cs => cs.length
decreasing_by
  · simp
  · simp
  · have shorter := (List.dropWhile_suffix (l := rest) (!Text.isBlank ·)).length_le
    simp only [List.length_cons]
    omega

def strike (picked : Token → Bool) (source : String) : String :=
  String.ofList (strikeFrom picked 1 1 source.toList)

theorem divided_strikeFrom
    {cs : List Char}
    (divided : Divided cs)
    (picked : Token → Bool) (line column : Nat) :
    Divided (strikeFrom picked line column cs) := by
  cases cs with
  | nil =>
      rw [strikeFrom]
      nofun
  | cons c rest =>
      have blank := divided c rfl
      rw [strikeFrom]
      by_cases feed : c = '\n'
      · rw [if_pos feed]
        rintro d ⟨⟩
        exact blank
      · rw [if_neg feed, if_pos blank]
        rintro d ⟨⟩
        exact blank

theorem words_strikeFrom (picked : Token → Bool) (line column : Nat) (cs : List Char) :
    words (strikeFrom picked line column cs) =
      ((scanFrom line column cs).filter (!picked ·)).map text := by
  fun_induction scanFrom line column cs with
  | case1 =>
      rw [strikeFrom]
      exact words_nil
  | case2 line column rest inductionHypothesis =>
      rw [strikeFrom, if_pos rfl, words_cons_of_isBlank (by decide), inductionHypothesis]
  | case3 line column c rest notFeed blank inductionHypothesis =>
      rw [strikeFrom, if_neg notFeed, if_pos blank, words_cons_of_isBlank blank,
        inductionHypothesis]
  | case4 line column c rest notFeed notBlank word inductionHypothesis =>
      have noBlank : ∀ d ∈ word, Text.isBlank d = false :=
        isBlank_of_mem_cons_takeWhile notBlank rest
      have divided := divided_strikeFrom (divided_dropWhile rest) picked line (column + word.length)
      rw [strikeFrom, if_neg notFeed, if_neg notBlank]
      cases struck : picked ⟨String.ofList word, line, column⟩ with
      | true =>
          rw [List.filter_cons_of_neg (by rw [struck]; decide), ← inductionHypothesis]
          exact congrArg words (if_pos struck)
      | false =>
          rw [List.filter_cons_of_pos (by rw [struck]; rfl), List.map_cons, ← inductionHypothesis,
            ← words_append (by simp [word]) noBlank divided]
          exact congrArg words (if_neg (by rw [struck]; decide))

theorem words_strike (picked : Token → Bool) (source : String) :
    words (strike picked source).toList = ((scan source).filter (!picked ·)).map text := by
  rw [strike, String.toList_ofList, scan_eq_scanFrom]
  exact words_strikeFrom picked 1 1 source.toList

end QueueMachine.Token
