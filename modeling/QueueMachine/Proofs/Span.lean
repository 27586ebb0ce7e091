import QueueMachine.Proofs.Token

set_option autoImplicit false

/-!
Where the words of a text stand. A word is a stretch of characters that are not blank and that
cannot be made longer, so two words of a text never touch. Scanning a text finds its words, all of
them and in order, and gives each the line and the column of its first character, where nothing but
a line feed ends a line.
-/

namespace QueueMachine

/-- A stretch of a text: the characters from one offset up to another. -/
structure Span where
  start : Nat
  stop : Nat
  deriving DecidableEq, Repr

namespace Span

def Covers (span : Span) (offset : Nat) : Prop :=
  span.start ≤ offset ∧ offset < span.stop

/-- Whether a stretch is a word of a text: it holds something and no blank, and on either side the
text ends or goes on with a blank. -/
structure IsWord (cs : List Char) (span : Span) : Prop where
  nonempty : span.start < span.stop
  within : span.stop ≤ cs.length
  solid : ∀ i c, span.Covers i → cs[i]? = some c → Text.isBlank c = false
  left : ∀ c, 0 < span.start → cs[span.start - 1]? = some c → Text.isBlank c = true
  right : ∀ c, cs[span.stop]? = some c → Text.isBlank c = true

section Words

variable {cs : List Char} {span other : Span}

theorem IsWord.exists_char
    (word : span.IsWord cs)
    {i : Nat}
    (covered : span.Covers i) :
    ∃ c, cs[i]? = some c ∧ Text.isBlank c = false := by
  have inRange : i < cs.length := Nat.lt_of_lt_of_le covered.2 word.within
  have found := List.getElem?_eq_getElem inRange
  exact ⟨_, found, word.solid i _ covered found⟩

theorem IsWord.not_covers_left
    (word : span.IsWord cs)
    (next : other.IsWord cs)
    (positive : 0 < other.start) :
    ¬ span.Covers (other.start - 1) := by
  intro covered
  obtain ⟨c, found, notBlank⟩ := word.exists_char covered
  rw [next.left c positive found] at notBlank
  cases notBlank

theorem IsWord.not_covers_right
    (word : span.IsWord cs)
    (next : other.IsWord cs) :
    ¬ span.Covers other.stop := by
  intro covered
  obtain ⟨c, found, notBlank⟩ := word.exists_char covered
  rw [next.right c found] at notBlank
  cases notBlank

/-- Two words of a text have something between them, unless they are the same. -/
theorem IsWord.apart_or_eq
    (word : span.IsWord cs)
    (next : other.IsWord cs) :
    span.stop < other.start ∨ other.stop < span.start ∨ span = other := by
  have notLeft := word.not_covers_left next
  have notLeft' := next.not_covers_left word
  have notRight := word.not_covers_right next
  have notRight' := next.not_covers_right word
  have nonempty := word.nonempty
  have nonempty' := next.nonempty
  obtain ⟨start, stop⟩ := span
  obtain ⟨start', stop'⟩ := other
  simp only [Covers, mk.injEq] at *
  omega

theorem IsWord.eq_of_covers
    (word : span.IsWord cs)
    (next : other.IsWord cs)
    {i : Nat}
    (covered : span.Covers i)
    (covered' : other.Covers i) :
    other = span := by
  rcases word.apart_or_eq next with before | behind | same
  · exact absurd (Nat.lt_of_le_of_lt covered'.1 covered.2) (Nat.not_lt.mpr (Nat.le_of_lt before))
  · exact absurd (Nat.lt_of_le_of_lt covered.1 covered'.2) (Nat.not_lt.mpr (Nat.le_of_lt behind))
  · exact same.symm

end Words

/-- The stretches of the words of a text whose first character stands at the given offset. -/
def wordsFrom (offset : Nat) : List Char → List Span
  | [] => []
  | c :: rest =>
      if Text.isBlank c then wordsFrom (offset + 1) rest
      else
        let stop := offset + (c :: rest.takeWhile (!Text.isBlank ·)).length
        ⟨offset, stop⟩ :: wordsFrom stop (rest.dropWhile (!Text.isBlank ·))
termination_by cs => cs.length
decreasing_by
  · simp
  · have shorter := (List.dropWhile_suffix (l := rest) (!Text.isBlank ·)).length_le
    simp only [List.length_cons]
    omega

/-- Whether no word goes across the place between two parts of a text. -/
def Parted (before rest : List Char) : Prop :=
  (∀ c ∈ before.getLast?, Text.isBlank c = true) ∨ Token.Divided rest

/-- Characters that are not blank are a word if it cannot be made longer on either side. -/
theorem isWord_append
    {before word rest : List Char}
    (nonempty : word ≠ [])
    (noBlank : ∀ c ∈ word, Text.isBlank c = false)
    (left : ∀ c ∈ before.getLast?, Text.isBlank c = true)
    (right : Token.Divided rest) :
    IsWord (before ++ (word ++ rest)) ⟨before.length, before.length + word.length⟩ := by
  refine ⟨?_, ?_, ?_, ?_, ?_⟩
  · have positive := List.length_pos_iff.mpr nonempty
    exact Nat.lt_add_of_pos_right positive
  · simp only [List.length_append]
    omega
  · intro i c covered found
    obtain ⟨notBefore, notBehind⟩ := covered
    dsimp only at notBefore notBehind
    rw [List.getElem?_append_right notBefore, List.getElem?_append_left (by omega)] at found
    exact noBlank c (List.mem_of_getElem? found)
  · intro c positive found
    rw [List.getElem?_append_left (Nat.sub_lt positive Nat.one_pos),
      ← List.getLast?_eq_getElem?] at found
    exact left c found
  · intro c found
    rw [List.getElem?_append_right (Nat.le_add_right _ _), Nat.add_sub_cancel_left,
      List.getElem?_append_right (Nat.le_refl _), Nat.sub_self, ← List.head?_eq_getElem?] at found
    exact right c found

/-- The words of a text that start behind a place which no word goes across. -/
theorem mem_wordsFrom_iff
    {offset : Nat} {rest : List Char}
    (before : List Char)
    (length : before.length = offset)
    (parted : Parted before rest)
    (span : Span) :
    span ∈ wordsFrom offset rest ↔ span.IsWord (before ++ rest) ∧ offset ≤ span.start := by
  fun_induction wordsFrom offset rest generalizing before with
  | case1 offset =>
      have noWord : ¬ (span.IsWord (before ++ []) ∧ offset ≤ span.start) := by
        rintro ⟨word, behind⟩
        have nonempty := word.nonempty
        have within := word.within
        rw [List.append_nil] at within
        omega
      simpa using noWord
  | case2 offset c rest blank inductionHypothesis =>
      subst length
      rw [List.append_cons,
        inductionHypothesis (before ++ [c]) (by simp) (.inl (by simpa using blank))]
      -- a word does not start at the blank
      refine and_congr_right fun word => ⟨Nat.le_of_succ_le, fun behind => ?_⟩
      apply Nat.lt_of_le_of_ne behind
      intro starts
      have found : (before ++ [c] ++ rest)[span.start]? = some c := by simp [← starts]
      have solid := word.solid _ c ⟨Nat.le_refl _, word.nonempty⟩ found
      rw [blank] at solid
      cases solid
  | case3 offset c rest notBlank stop inductionHypothesis =>
      subst length
      have left : ∀ d ∈ before.getLast?, Text.isBlank d = true :=
        parted.resolve_right fun divided => notBlank (divided c rfl)
      have first : IsWord (before ++ c :: rest) ⟨before.length, stop⟩ := by
        rw [Token.cons_eq_append_dropWhile c rest]
        exact isWord_append (List.cons_ne_nil _ _)
          (Token.isBlank_of_mem_cons_takeWhile notBlank rest) left (Token.divided_dropWhile rest)
      rw [List.mem_cons, inductionHypothesis _ List.length_append
        (.inr (Token.divided_dropWhile rest)), List.append_assoc, ← Token.cons_eq_append_dropWhile]
      constructor
      · rintro (rfl | ⟨word, behind⟩)
        · exact ⟨first, Nat.le_refl _⟩
        · exact ⟨word, Nat.le_trans (Nat.le_of_lt first.nonempty) behind⟩
      · rintro ⟨word, behind⟩
        rcases first.apart_or_eq word with later | earlier | same
        · exact .inr ⟨word, Nat.le_of_lt later⟩
        · exact absurd (Nat.lt_trans word.nonempty earlier) (Nat.not_lt.mpr behind)
        · exact .inl same.symm

theorem le_start_of_mem_wordsFrom (offset : Nat) (rest : List Char) :
    ∀ span ∈ wordsFrom offset rest, offset ≤ span.start := by
  fun_induction wordsFrom offset rest with
  | case1 offset => simp
  | case2 offset c rest blank inductionHypothesis =>
      intro span member
      exact Nat.le_of_succ_le (inductionHypothesis span member)
  | case3 offset c rest notBlank stop inductionHypothesis =>
      intro span member
      rcases List.mem_cons.mp member with rfl | later
      · exact Nat.le_refl offset
      · exact Nat.le_trans (Nat.le_add_right offset _) (inductionHypothesis span later)

theorem pairwise_wordsFrom
    {cs : List Char}
    (offset : Nat) (rest : List Char)
    (words : ∀ span ∈ wordsFrom offset rest, span.IsWord cs) :
    (wordsFrom offset rest).Pairwise fun first second => first.stop < second.start := by
  fun_induction wordsFrom offset rest with
  | case1 offset => exact List.Pairwise.nil
  | case2 offset c rest blank inductionHypothesis => exact inductionHypothesis words
  | case3 offset c rest notBlank stop inductionHypothesis =>
      rw [List.forall_mem_cons] at words
      refine List.Pairwise.cons (fun second later => ?_) (inductionHypothesis words.2)
      have word := words.2 second later
      have behind : stop ≤ second.start := le_start_of_mem_wordsFrom _ _ second later
      rcases words.1.apart_or_eq word with apart | earlier | same
      · exact apart
      · have nonempty := word.nonempty
        dsimp only at earlier
        omega
      · have nonempty := words.1.nonempty
        rw [← same] at behind
        dsimp only at behind nonempty
        omega

theorem exists_mem_wordsFrom_covers
    (offset : Nat) (rest : List Char) (i : Nat) {c : Char}
    (found : rest[i]? = some c)
    (solid : Text.isBlank c = false) :
    ∃ span ∈ wordsFrom offset rest, span.Covers (offset + i) := by
  fun_induction wordsFrom offset rest generalizing i with
  | case1 offset => simp at found
  | case2 offset d rest blank inductionHypothesis =>
      cases i with
      | zero =>
          cases found
          rw [blank] at solid
          cases solid
      | succ i =>
          obtain ⟨span, member, covers⟩ := inductionHypothesis i found
          refine ⟨span, member, ?_⟩
          rwa [Nat.add_assoc, Nat.add_comm 1 i] at covers
  | case3 offset d rest notBlank stop inductionHypothesis =>
      by_cases inFirst : i < (d :: rest.takeWhile (!Text.isBlank ·)).length
      · exact ⟨_, List.mem_cons_self, Nat.le_add_right offset i, Nat.add_lt_add_left inFirst offset⟩
      · have notLess := Nat.le_of_not_lt inFirst
        have behind : (rest.dropWhile (!Text.isBlank ·))[
            i - (d :: rest.takeWhile (!Text.isBlank ·)).length]? = some c := by
          rw [← List.getElem?_append_right notLess, ← Token.cons_eq_append_dropWhile]
          exact found
        obtain ⟨span, member, covers⟩ := inductionHypothesis _ behind
        refine ⟨span, List.mem_cons_of_mem _ member, ?_⟩
        rwa [Nat.add_assoc, Nat.add_sub_cancel' notLess] at covers

/-- The offset behind the last line feed of a text, or its start if it has none. -/
def lineStart (cs : List Char) : Nat :=
  cs.length - (cs.reverse.takeWhile (· != '\n')).length

theorem lineStart_append_of_not_mem
    {more : List Char}
    (noFeed : '\n' ∉ more)
    (cs : List Char) :
    lineStart (cs ++ more) = lineStart cs := by
  have passed : ∀ c ∈ more.reverse, (c != '\n') = true := by
    intro c member
    rw [bne_iff_ne]
    rintro rfl
    exact noFeed (List.mem_reverse.mp member)
  rw [lineStart, lineStart, List.reverse_append, List.takeWhile_append_of_pos passed,
    List.length_append, List.length_append, List.length_reverse, Nat.add_comm more.length,
    Nat.add_sub_add_right]

theorem lineStart_append_lineFeed (cs : List Char) : lineStart (cs ++ ['\n']) = cs.length + 1 := by
  simp [lineStart]

/-- The token for a stretch of a text. Its line is one more than the line feeds in front of it, and
its column counts from the last of them. -/
def token (cs : List Char) (span : Span) : Token where
  text := String.ofList ((cs.take span.stop).drop span.start)
  line := 1 + (cs.take span.start).count '\n'
  column := span.start - lineStart (cs.take span.start) + 1

theorem text_token_ne_empty
    {cs : List Char} {span : Span}
    (word : span.IsWord cs) :
    (token cs span).text ≠ "" := by
  have nonempty := word.nonempty
  have within := word.within
  intro nothing
  have noChars : (cs.take span.stop).drop span.start = [] := String.ofList_eq_empty_iff.mp nothing
  have lengths := congrArg List.length noChars
  simp only [List.length_drop, List.length_take, List.length_nil] at lengths
  omega

/-- Whether the character behind a text stands at the given line and column. -/
structure Reaches (cs : List Char) (line column : Nat) : Prop where
  line_eq : line = 1 + cs.count '\n'
  column_eq : column + lineStart cs = cs.length + 1

theorem reaches_nil : Reaches [] 1 1 := ⟨rfl, rfl⟩

theorem Reaches.lineFeed
    {cs : List Char} {line column : Nat}
    (reaches : Reaches cs line column) :
    Reaches (cs ++ ['\n']) (line + 1) 1 := by
  refine ⟨?_, ?_⟩
  · rw [List.count_append, reaches.line_eq]
    rfl
  · rw [lineStart_append_lineFeed, List.length_append, Nat.add_comm]
    rfl

theorem Reaches.append
    {cs more : List Char} {line column : Nat}
    (reaches : Reaches cs line column)
    (noFeed : '\n' ∉ more) :
    Reaches (cs ++ more) line (column + more.length) := by
  refine ⟨?_, ?_⟩
  · rw [List.count_append, List.count_eq_zero.mpr noFeed]
    exact reaches.line_eq
  · have before := reaches.column_eq
    rw [lineStart_append_of_not_mem noFeed, List.length_append]
    omega

theorem token_of_reaches
    {before word : List Char} {line column : Nat}
    (reaches : Reaches before line column)
    (rest : List Char) :
    token (before ++ (word ++ rest)) ⟨before.length, before.length + word.length⟩ =
      ⟨String.ofList word, line, column⟩ := by
  have taken : (before ++ (word ++ rest)).take before.length = before := List.take_left
  have inside : ((before ++ (word ++ rest)).take (before.length + word.length)).drop before.length =
      word := by
    rw [List.take_length_add_append, List.take_left, List.drop_left]
  have line_eq := reaches.line_eq
  have column_eq := reaches.column_eq
  simp only [token, taken, inside, Token.mk.injEq, true_and]
  omega

theorem scanFrom_eq_map_token
    {line column : Nat} {rest : List Char}
    (before : List Char)
    (reaches : Reaches before line column) :
    Token.scanFrom line column rest =
      (wordsFrom before.length rest).map (token (before ++ rest)) := by
  fun_induction Token.scanFrom line column rest generalizing before with
  | case1 line column =>
      rw [wordsFrom]
      rfl
  | case2 line column rest inductionHypothesis =>
      rw [wordsFrom, if_pos (by decide), inductionHypothesis _ reaches.lineFeed,
        List.append_cons before '\n' rest, List.length_append]
      rfl
  | case3 line column c rest notFeed blank inductionHypothesis =>
      have noFeed : '\n' ∉ [c] := by simpa using Ne.symm notFeed
      rw [wordsFrom, if_pos blank, inductionHypothesis _ (reaches.append noFeed),
        List.append_cons before c rest, List.length_append]
      rfl
  | case4 line column c rest notFeed notBlank word inductionHypothesis =>
      have noFeed : '\n' ∉ word :=
        Token.lineFeed_not_mem (Token.isBlank_of_mem_cons_takeWhile notBlank rest)
      rw [wordsFrom, if_neg notBlank, inductionHypothesis _ (reaches.append noFeed),
        Token.cons_eq_append_dropWhile c rest, List.map_cons, token_of_reaches reaches,
        List.append_assoc, List.length_append]

end Span

/-- The tokens of a source are its words, each once and in order: the longest stretches that hold no
blank. Every character that is not blank is in exactly one. A token has the text of its word, and
the line and the column at which the word starts, where only line feeds end lines. -/
theorem Token.scan_eq_map_token (source : String) :
    ∃ spans : List Span,
      scan source = spans.map (Span.token source.toList) ∧
        spans.Pairwise (fun first second => first.stop < second.start) ∧
        (∀ span, span ∈ spans ↔ span.IsWord source.toList) ∧
        (∀ i c, source.toList[i]? = some c → Text.isBlank c = false →
          ∃ span ∈ spans, span.Covers i ∧ ∀ other ∈ spans, other.Covers i → other = span) ∧
        ∀ token ∈ scan source,
          token.text ≠ "" ∧ ∀ c ∈ token.text.toList, Text.isBlank c = false := by
  have words : ∀ span, span ∈ Span.wordsFrom 0 source.toList ↔ span.IsWord source.toList := by
    intro span
    have known := @Span.mem_wordsFrom_iff 0 source.toList [] rfl (.inl nofun) span
    simpa using known
  have scanned : scan source = (Span.wordsFrom 0 source.toList).map (Span.token source.toList) := by
    rw [scan_eq_scanFrom]
    exact Span.scanFrom_eq_map_token [] Span.reaches_nil
  have ordered := Span.pairwise_wordsFrom 0 source.toList fun span => (words span).mp
  refine ⟨Span.wordsFrom 0 source.toList, scanned, ordered, words, ?_, ?_⟩
  · intro i c found solid
    obtain ⟨span, member, covers⟩ := Span.exists_mem_wordsFrom_covers 0 _ i found solid
    rw [Nat.zero_add] at covers
    refine ⟨span, member, covers, fun other member' covers' => ?_⟩
    exact ((words span).mp member).eq_of_covers ((words other).mp member') covers covers'
  · intro token member
    refine ⟨?_, isBlank_of_mem_scan source token member⟩
    rw [scanned] at member
    obtain ⟨span, inSpans, rfl⟩ := List.mem_map.mp member
    exact Span.text_token_ne_empty ((words span).mp inSpans)

/-- A carriage return and a line separator are blanks and end no line. -/
theorem Token.scan_eq_map_token_other_breaks :
    let source := String.ofList ['a', '\r', '\n', '\u2028', 'b', 'c']
    (⟨4, 6⟩ : Span).IsWord source.toList ∧ ⟨"bc", 2, 2⟩ ∈ scan source := by
  intro source
  have word : (⟨4, 6⟩ : Span).IsWord source.toList := by
    rw [String.toList_ofList]
    refine @Span.isWord_append ['a', '\r', '\n', '\u2028'] ['b', 'c'] [] (by simp) ?_ ?_ nofun
    · rw [List.forall_mem_cons, List.forall_mem_singleton]
      decide
    · rintro c ⟨⟩
      decide
  obtain ⟨spans, scanned, -, words, -⟩ := scan_eq_map_token source
  have found : Span.token source.toList ⟨4, 6⟩ = ⟨"bc", 2, 2⟩ := by
    rw [String.toList_ofList]
    decide +kernel
  refine ⟨word, ?_⟩
  rw [scanned, ← found]
  exact List.mem_map_of_mem ((words _).mpr word)

end QueueMachine
